import Pupnp.Uri.Dots

/-! The URL that a reference stands for on a base URL. -/

namespace Pupnp.Uri
open Pupnp.CString Pupnp.Path

structure Output where
  text : List UInt8
  len : Nat
  deriving DecidableEq, Repr

/-- `snprintf(out_finger, len, ...)` with the check of `rv` and the steps of `out_finger` and `len` behind it. -/
def Output.print (out : Output) (text : List UInt8) : Option Output :=
  if 2 ^ 31 ≤ text.length || toInt32 out.len ≤ text.length then none
  else some ⟨out.text ++ text, out.len - text.length⟩

/-- How much of the path of the base stays in front of the reference: up to its last slash, or up to the
query when the reference is a query itself. -/
def mergePrefix (query : Bool) : List UInt8 → Nat → Nat → Nat
  | [], _, kept => kept
  | c :: rest, i, kept =>
      if c = SLASH then mergePrefix query rest (i + 1) (i + 1)
      else if c = 63 then (if query then i else kept)
      else mergePrefix query rest (i + 1) kept

def resolvePath (baseUrl relUrl : List UInt8) (base rel : UriType) (out : Output) : Option Output :=
  if rel.pathType = .absPath then out.print relUrl
  else if base.pathquery.size = 0 then out.print (SLASH :: relUrl)
  else do
    let path := base.pathquery.read baseUrl
    let query := rel.pathquery.read relUrl
    let out ←
      if rel.pathquery.size = 0 then out.print path
      else if out.len < base.pathquery.size then none
      else
        let kept := mergePrefix (query.head? = some 63) path 0 1
        Output.print ⟨out.text ++ path.take kept, out.len - kept⟩ query
    if 0 < rel.fragment.size then out.print (bytes "#" ++ rel.fragment.read relUrl)
    else if 0 < base.fragment.size then out.print (bytes "#" ++ base.fragment.read baseUrl)
    else out.print []

/-- `resolve_rel_url`, whose reference is not NULL; `none` is NULL. -/
def resolveRelUrl (res : Resolver) (baseUrl : Option (List UInt8)) (relUrl : List UInt8) : Option (List UInt8) :=
  match baseUrl with
  | none => some relUrl
  | some baseUrl => do
      let rel ← parseUri res relUrl relUrl.length
      if rel.type = .absolute then return relUrl
      let base ← parseUri res baseUrl baseUrl.length
      if base.type ≠ .absolute then none
      else if relUrl.length = 0 then return baseUrl
      else
        let out ← Output.print ⟨[], baseUrl.length + relUrl.length + 2⟩ (base.scheme.read baseUrl ++ bytes ":")
        if 0 < rel.hostport.text.size then
          let out ← out.print relUrl
          return out.text
        else
          let out ← if 0 < base.hostport.text.size then out.print (bytes "//" ++ base.hostport.text.read baseUrl) else some out
          let path ← resolvePath baseUrl relUrl base rel ⟨[], out.len⟩
          return out.text ++ removeDots path.text path.text.length

end Pupnp.Uri
