import Pupnp.Library.Linked

/-!
The nodes of a document and the four calls that relink them. A node is known by its address, a pointer
is an optional address. Assertions are compiled out.
-/

namespace Pupnp.Ixml
open Pupnp.Linked

inductive NodeType where
  | invalid
  | element
  | attribute
  | text
  | cdataSection
  | entityReference
  | entity
  | processingInstruction
  | comment
  | document
  | documentType
  | documentFragment
  | notation_
  deriving DecidableEq, Repr

/-- The values of `IXML_ERRORCODE` that the modelled functions give. -/
inductive ErrorCode where
  | success
  | hierarchyRequestErr
  | wrongDocumentErr
  | notFoundErr
  | invalidParameter
  deriving DecidableEq, Repr

/-- The memory, one map for each field: `heap.parentNode c` is `c->parentNode`. -/
structure Heap (ι : Type) where
  nodeType : ι → NodeType
  parentNode : ι → Option ι
  firstChild : ι → Option ι
  prevSibling : ι → Option ι
  nextSibling : ι → Option ι
  ownerDocument : ι → Option ι

section Heaps
variable {ι : Type} [DecidableEq ι]

/-! Stores through a pointer; nothing is stored through NULL. -/

def Heap.setParent (heap : Heap ι) (node link : Option ι) : Heap ι :=
  { heap with parentNode := setAt node link heap.parentNode }

def Heap.setFirst (heap : Heap ι) (node link : Option ι) : Heap ι :=
  { heap with firstChild := setAt node link heap.firstChild }

def Heap.setPrev (heap : Heap ι) (node link : Option ι) : Heap ι :=
  { heap with prevSibling := setAt node link heap.prevSibling }

def Heap.setNext (heap : Heap ι) (node link : Option ι) : Heap ι :=
  { heap with nextSibling := setAt node link heap.nextSibling }

def Heap.setOwner (heap : Heap ι) (node link : Option ι) : Heap ι :=
  { heap with ownerDocument := setAt node link heap.ownerDocument }

/-! ### Checks -/

/-- `ixmlNode_isAncestor` with bounded depth; it walks the siblings behind the candidate too. -/
def isAncestor (heap : Heap ι) (toFind : ι) : Nat → Option ι → Option Bool
  | _, none => some false
  | 0, some _ => none
  | fuel + 1, some ancestorNode =>
      if heap.parentNode toFind = some ancestorNode then some true
      else (isAncestor heap toFind fuel (heap.firstChild ancestorNode)).bind fun found =>
        if found then some true else isAncestor heap toFind fuel (heap.nextSibling ancestorNode)

def isParent (heap : Heap ι) (nodeptr toFind : Option ι) : Bool :=
  match nodeptr, toFind with
  | some n, some c => heap.parentNode c = some n
  | _, _ => false

def allowChildren (nodeptr newChild : NodeType) : Bool :=
  match nodeptr with
  | .attribute | .text | .cdataSection => false
  | .element => newChild ≠ .attribute && newChild ≠ .document
  | .document => newChild = .element
  | _ => true

/-- The last of the siblings, by the loop in `ixmlNode_appendChild`. -/
def lastSibling (heap : Heap ι) : Nat → ι → Option ι
  | 0, _ => none
  | fuel + 1, prev =>
      match heap.nextSibling prev with
      | none => some prev
      | some next => lastSibling heap fuel next

/-! ### The calls: the code and the links behind it, or `none` without enough depth -/

def removeChild (heap : Heap ι) (nodeptr oldChild : Option ι) : ErrorCode × Heap ι :=
  match nodeptr, oldChild with
  | some n, some c =>
      if !isParent heap nodeptr oldChild then (.notFoundErr, heap)
      else
        let heap := heap.setNext (heap.prevSibling c) (heap.nextSibling c)
        let heap :=
          if heap.firstChild n = oldChild then heap.setFirst nodeptr (heap.nextSibling c) else heap
        let heap := heap.setPrev (heap.nextSibling c) (heap.prevSibling c)
        (.success, ((heap.setNext oldChild none).setPrev oldChild none).setParent oldChild none)
  | _, _ => (.invalidParameter, heap)

/-- The links that `ixmlNode_appendChild` sets at the end of the list of `n`. -/
def linkLast (fuel : Nat) (heap : Heap ι) (nodeptr newChild : Option ι) (n : ι) : Option (Heap ι) :=
  match heap.firstChild n with
  | none => some (heap.setFirst nodeptr newChild)
  | some first => (lastSibling heap fuel first).map fun prev =>
      (heap.setNext (some prev) newChild).setPrev newChild (some prev)

def appendChild (fuel : Nat) (heap : Heap ι) (nodeptr newChild : Option ι) :
    Option (ErrorCode × Heap ι) :=
  match nodeptr, newChild with
  | some n, some c =>
      if heap.ownerDocument c ≠ none && heap.ownerDocument n ≠ heap.ownerDocument c then
        some (.wrongDocumentErr, heap)
      else (isAncestor heap n fuel newChild).bind fun above =>
        if above then some (.hierarchyRequestErr, heap)
        else if !allowChildren (heap.nodeType n) (heap.nodeType c) then some (.hierarchyRequestErr, heap)
        else
          let heap := if isParent heap nodeptr newChild then (removeChild heap nodeptr newChild).2 else heap
          let heap := heap.setParent newChild nodeptr
          let heap := heap.setOwner newChild (heap.ownerDocument n)
          (linkLast fuel heap nodeptr newChild n).map (.success, ·)
  | _, _ => some (.invalidParameter, heap)

/-- The links that `ixmlNode_insertBefore` sets in front of a `refChild`. -/
def linkBefore (heap : Heap ι) (nodeptr newChild refChild : Option ι) (c r : ι) : Heap ι :=
  let heap := heap.setNext newChild refChild
  let heap :=
    if heap.prevSibling r ≠ none then
      let heap := heap.setNext (heap.prevSibling r) newChild
      heap.setPrev newChild (heap.prevSibling r)
    else heap
  let heap := heap.setPrev refChild newChild
  let heap := if heap.prevSibling c = none then heap.setFirst nodeptr newChild else heap
  heap.setParent newChild nodeptr

def insertBefore (fuel : Nat) (heap : Heap ι) (nodeptr newChild refChild : Option ι) :
    Option (ErrorCode × Heap ι) :=
  match nodeptr, newChild with
  | some n, some c =>
      if !allowChildren (heap.nodeType n) (heap.nodeType c) then some (.hierarchyRequestErr, heap)
      else (isAncestor heap n fuel newChild).bind fun above =>
        if above then some (.hierarchyRequestErr, heap)
        else if heap.ownerDocument n ≠ heap.ownerDocument c then some (.wrongDocumentErr, heap)
        else if !isParent heap nodeptr refChild then some (.notFoundErr, heap)
        else match refChild with
          | some r =>
              let heap :=
                if isParent heap nodeptr newChild then
                  (((removeChild heap nodeptr newChild).2.setNext newChild none).setPrev newChild none)
                else heap
              some (.success, linkBefore heap nodeptr newChild refChild c r)
          | none => appendChild fuel heap nodeptr newChild
  | _, _ => some (.invalidParameter, heap)

def replaceChild (fuel : Nat) (heap : Heap ι) (nodeptr newChild oldChild : Option ι) :
    Option (ErrorCode × Heap ι) :=
  match nodeptr, newChild, oldChild with
  | some n, some c, some _ =>
      (isAncestor heap n fuel newChild).bind fun above =>
        if above then some (.hierarchyRequestErr, heap)
        else if !allowChildren (heap.nodeType n) (heap.nodeType c) then some (.hierarchyRequestErr, heap)
        else if heap.ownerDocument n ≠ heap.ownerDocument c then some (.wrongDocumentErr, heap)
        else if !isParent heap nodeptr oldChild then some (.notFoundErr, heap)
        else (insertBefore fuel heap nodeptr newChild oldChild).map fun inserted =>
          if inserted.1 ≠ .success then inserted else removeChild inserted.2 nodeptr oldChild
  | _, _, _ => some (.invalidParameter, heap)

inductive Call (ι : Type) where
  | appendChild (nodeptr newChild : Option ι)
  | insertBefore (nodeptr newChild refChild : Option ι)
  | replaceChild (nodeptr newChild oldChild : Option ι)
  | removeChild (nodeptr oldChild : Option ι)
  deriving DecidableEq

def Call.apply (fuel : Nat) (heap : Heap ι) : Call ι → Option (ErrorCode × Heap ι)
  | .appendChild nodeptr newChild => Ixml.appendChild fuel heap nodeptr newChild
  | .insertBefore nodeptr newChild refChild => Ixml.insertBefore fuel heap nodeptr newChild refChild
  | .replaceChild nodeptr newChild oldChild => Ixml.replaceChild fuel heap nodeptr newChild oldChild
  | .removeChild nodeptr oldChild => some (Ixml.removeChild heap nodeptr oldChild)

end Heaps

end Pupnp.Ixml
