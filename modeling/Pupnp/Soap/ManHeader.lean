import Pupnp.Library.Substring
import Pupnp.Soap.Request

/-! Where `add_man_header` finds the header that it renames. -/

namespace Pupnp.Soap
open Pupnp.CString Pupnp.Uri Pupnp.Http
open Pupnp.Gena.Subscribe (FixedUrl)

def manValue : List UInt8 := bytes "\"http://schemas.xmlsoap.org/soap/envelope/\"; ns=01"

def extendedRequest (env : Ssdp.Env) (url : FixedUrl) (serviceType name body : List UInt8) : List UInt8 :=
  bytes "M-" ++ requestHead url body.length ++ bytes "MAN: " ++ manValue ++ [CR, LF] ++ bytes "01-SOAPACTION: " ++
    soapAction serviceType name ++ [CR, LF] ++ requestTail env body

/-! ### Where the name of the header stands -/

def actionName : List UInt8 := bytes "SOAPACTION:"

def headLines (url : FixedUrl) (contentLength : Nat) : List UInt8 :=
  bytes "M-POST" ++ SP :: (url.pathquery ++ SP :: (bytes "HTTP/1.1\r\nHOST:" ++ SP :: (url.hostport ++
    CR :: (bytes "\nCONTENT-LENGTH:" ++ SP :: (decimalDigits contentLength ++
      CR :: bytes "\nAccept-Ranges: bytes\r\nCONTENT-TYPE: text/xml; charset=\"utf-8\"\r")))))

theorem requestHead_eq (url : FixedUrl) (contentLength : Nat) :
    bytes "M-" ++ requestHead url contentLength = headLines url contentLength ++ [LF] := by
  simp [requestHead, headLines, contentTypeHeader, bytes, SP, CR, LF]

/-- The name of the header is in the lines in front of it only inside the path or the host. -/
theorem actionName_headLines (url : FixedUrl) (contentLength : Nat) :
    actionName <:+: headLines url contentLength ↔ actionName <:+: url.pathquery ∨ actionName <:+: url.hostport := by
  have nonempty : actionName ≠ [] := by decide
  have split {sep : UInt8} (noSep : sep ∉ actionName) := @infix_split sep actionName nonempty noSep
  have constant {text : List UInt8} (none : strstr actionName text = none) : ¬actionName <:+: text := by
    rw [← strstr_isSome, none]
    decide
  have word : ¬actionName <:+: bytes "M-POST" := constant (by decide)
  have host : ¬actionName <:+: bytes "HTTP/1.1\r\nHOST:" := constant (by decide)
  have length : ¬actionName <:+: bytes "\nCONTENT-LENGTH:" := constant (by decide)
  have type : ¬actionName <:+: bytes "\nAccept-Ranges: bytes\r\nCONTENT-TYPE: text/xml; charset=\"utf-8\"\r" :=
    constant (by decide)
  have number : ¬actionName <:+: decimalDigits contentLength := by
    intro inside
    have letter : (83 : UInt8) ∈ decimalDigits contentLength := inside.subset (by decide)
    have digit := decimalDigits_isDigit contentLength 83 letter
    revert digit
    decide
  rw [headLines, split (by decide), split (by decide), split (by decide), split (by decide), split (by decide),
    split (by decide)]
  simp only [word, host, length, type, number, false_or, or_false]

section Requests
variable {url : FixedUrl} (path : 0 ∉ url.pathquery) (host : 0 ∉ url.hostport)
include path host

theorem headLines_noNul (contentLength : Nat) : 0 ∉ headLines url contentLength := by
  have number : (0 : UInt8) ∉ decimalDigits contentLength := by
    intro member
    have digit := decimalDigits_isDigit contentLength 0 member
    revert digit
    decide
  have word : (0 : UInt8) ∉ bytes "M-POST" := by decide
  have hostName : (0 : UInt8) ∉ bytes "HTTP/1.1\r\nHOST:" := by decide
  have lengthName : (0 : UInt8) ∉ bytes "\nCONTENT-LENGTH:" := by decide
  have typeName : (0 : UInt8) ∉ bytes "\nAccept-Ranges: bytes\r\nCONTENT-TYPE: text/xml; charset=\"utf-8\"\r" := by
    decide
  simp [headLines, SP, CR, number, word, hostName, lengthName, typeName, path, host]

theorem strstr_request (contentLength : Nat) (rest : List UInt8) :
    strstr actionName (cstr (headLines url contentLength ++ LF :: (actionName ++ rest))) =
      (strstr actionName (headLines url contentLength) <|> some ((headLines url contentLength).length + 1)) := by
  have front : 0 ∉ headLines url contentLength ++ LF :: actionName := by
    have lines := @headLines_noNul url path host contentLength
    have name : (0 : UInt8) ∉ actionName := by decide
    simp [lines, LF, name]
  have text : cstr (headLines url contentLength ++ LF :: (actionName ++ rest)) =
      headLines url contentLength ++ LF :: (actionName ++ cstr rest) := by
    rw [← List.cons_append, ← List.append_assoc, cstr, List.takeWhile_append_of_pos]
    · rw [List.append_assoc, List.cons_append]
      rfl
    · intro c member
      exact decide_eq_true fun nul => front (nul ▸ member)
  rw [text, @strstr_split LF actionName (by decide) (by decide), strstr_prefix, Option.map_some, Nat.zero_add]

variable (env : Ssdp.Env) (serviceType name body : List UInt8)

omit path host in
theorem actionRequest_eq : bytes "M-" ++ actionRequest env url serviceType name body = headLines url body.length ++
    LF :: (actionName ++ SP :: (soapAction serviceType name ++ [CR, LF] ++ requestTail env body)) := by
  have label : bytes "SOAPACTION: " = actionName ++ [SP] := by decide
  rw [actionRequest, label]
  simp only [← List.append_assoc, requestHead_eq]
  simp

omit path host in
theorem extendedRequest_eq : extendedRequest env url serviceType name body = headLines url body.length ++ [LF] ++ manHdr ++
    (actionName ++ SP :: (soapAction serviceType name ++ [CR, LF] ++ requestTail env body)) := by
  have label : bytes "MAN: " ++ manValue ++ [CR, LF] ++ bytes "01-SOAPACTION: " = manHdr ++ actionName ++ [SP] := by
    decide
  calc extendedRequest env url serviceType name body
      = headLines url body.length ++ [LF] ++ (bytes "MAN: " ++ manValue ++ [CR, LF] ++ bytes "01-SOAPACTION: ") ++
          soapAction serviceType name ++ [CR, LF] ++ requestTail env body := by
        rw [← requestHead_eq]
        simp only [extendedRequest, List.append_assoc]
    _ = headLines url body.length ++ [LF] ++ manHdr ++
          (actionName ++ SP :: (soapAction serviceType name ++ [CR, LF] ++ requestTail env body)) := by
        rw [label]
        simp

theorem addManHeader_eq :
    addManHeader (actionRequest env url serviceType name body) =
      (strstr actionName (headLines url body.length) <|> some ((headLines url body.length).length + 1)).bind fun n =>
        membufferInsert (bytes "M-" ++ actionRequest env url serviceType name body) manHdr n := by
  have insert (text : List UInt8) : membufferInsert text (bytes "M-") 0 = some (bytes "M-" ++ text) := by
    simp [membufferInsert]
  rw [addManHeader, insert, Option.bind_some]
  congr 1
  rw [actionRequest_eq]
  exact strstr_request path host _ _

/-- The header is renamed where it stands, unless its name is found in the path or the host. -/
theorem addManHeader_iff :
    addManHeader (actionRequest env url serviceType name body) = some (extendedRequest env url serviceType name body) ↔
      ¬actionName <:+: url.pathquery ∧ ¬actionName <:+: url.hostport := by
  rw [← not_or, ← actionName_headLines url body.length, addManHeader_eq path host, extendedRequest_eq,
    actionRequest_eq, ← strstr_isSome, Bool.not_eq_true, Option.isSome_eq_false_iff, Option.isNone_iff_eq_none]
  generalize headLines url body.length = lines
  generalize actionName ++ SP :: (soapAction serviceType name ++ [CR, LF] ++ requestTail env body) = rest
  cases found : strstr actionName lines with
  | none =>
    have inside : ¬(lines ++ LF :: rest).length < lines.length + 1 := by
      simp only [List.length_append, List.length_cons]
      omega
    have front : (lines ++ LF :: rest).take (lines.length + 1) = lines ++ [LF] := by
      simp [List.take_append]
    have behind : (lines ++ LF :: rest).drop (lines.length + 1) = rest := by
      simp [List.drop_append]
    refine iff_of_true ?_ rfl
    change membufferInsert (lines ++ LF :: rest) manHdr (lines.length + 1) = _
    rw [membufferInsert, if_neg inside, front, behind]
  | some k =>
    have here := strstr_some found
    refine iff_of_false ?_ (by simp)
    intro same
    change membufferInsert (lines ++ LF :: rest) manHdr k = _ at same
    have letter : lines[k]? = some 83 := by
      obtain ⟨more, split⟩ := here
      have first := congrArg List.head? split
      rw [List.head?_drop, List.head?_append] at first
      exact first.symm
    have inside : k < lines.length := (List.getElem?_eq_some_iff.mp letter).1
    rw [membufferInsert, if_neg (by simp only [List.length_append, List.length_cons]; omega)] at same
    have byte := congrArg (fun text : List UInt8 => text[k]?) (Option.some.inj same)
    have left : ((lines ++ LF :: rest).take k ++ manHdr ++ (lines ++ LF :: rest).drop k)[k]? = some 77 := by
      have length : ((lines ++ LF :: rest).take k).length = k := by
        rw [List.length_take, List.length_append]
        omega
      rw [List.append_assoc, List.getElem?_append_right length.le, length, Nat.sub_self]
      rfl
    rw [left, List.append_assoc, List.append_assoc, List.getElem?_append_left inside, letter] at byte
    cases byte

end Requests

end Pupnp.Soap
