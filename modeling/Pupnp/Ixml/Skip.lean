import Pupnp.Ixml.Chars
import Pupnp.Library.Substring

/-! What the parser passes over without building a node: white space, comments, instructions, the prolog. -/

namespace Pupnp.Ixml
open CString

def WHITESPACE : List UInt8 := bytes "\n\t\r "
def XMLDECL : List UInt8 := bytes "<?xml "
def XMLDECL2 : List UInt8 := bytes "<?xml?"
def BEGIN_COMMENT : List UInt8 := bytes "<!--"
def END_COMMENT : List UInt8 := bytes "-->"
def BEGIN_PI : List UInt8 := bytes "<?"
def END_PI : List UInt8 := bytes "?>"
def BEGIN_DOCTYPE : List UInt8 := bytes "<!DOCTYPE"
def UTF8_BOM : List UInt8 := [0xEF, 0xBB, 0xBF]

def startsWith (s key : List UInt8) : Bool := strncmp s key key.length = 0

def startsCaseWith (s key : List UInt8) : Bool := strncasecmp s key key.length = 0

def parserSkipDocType (num : Nat) (pCur : List UInt8) : Option (List UInt8) :=
  match num, pCur with
  | 0, pCur => some pCur
  | _ + 1, [] => none
  | num + 1, c :: rest =>
      if c = 60 then parserSkipDocType (num + 2) rest
      else if c = 62 then parserSkipDocType num rest
      else if c = 34 then
        match pNext : rest.dropWhile (· ≠ 34) with
        | [] => none
        | _ :: behind => parserSkipDocType (num + 1) behind
      else parserSkipDocType (num + 1) rest
termination_by pCur.length
decreasing_by
  all_goals simp only [List.length_cons]
  any_goals omega
  have whole := List.length_dropWhile_le (· ≠ 34) rest
  rw [pNext, List.length_cons] at whole
  omega

/-- `Parser_skipString`: whether the key is there, and the text behind it or the end of the text. -/
def parserSkipString (strSkipKey : List UInt8) : List UInt8 → Bool × List UInt8
  | [] => (false, [])
  | c :: rest =>
      if startsWith (c :: rest) strSkipKey then (true, (c :: rest).drop strSkipKey.length)
      else parserSkipString strSkipKey rest

def parserSkipBom (curPtr : List UInt8) : List UInt8 :=
  if startsWith curPtr UTF8_BOM then curPtr.drop UTF8_BOM.length else curPtr

def parserSkipWhiteSpaces (curPtr : List UInt8) : List UInt8 := curPtr.dropWhile WHITESPACE.contains

def parserSkipXMLDecl (curPtr : List UInt8) : Bool × List UInt8 :=
  let skipped := parserSkipString END_PI curPtr
  (skipped.1, parserSkipWhiteSpaces skipped.2)

def parserSkipComment (src : List UInt8) : Option (List UInt8) :=
  match strstr END_COMMENT src with
  | none => none
  | some at_ =>
      if at_ ≠ 0 && src.getD (at_ - 1) 0 ≠ 45 then some (src.drop (at_ + END_COMMENT.length)) else none

/-! ### What is skipped is a start of the text -/

theorem startsWith_iff {key : List UInt8} (noNul : 0 ∉ key) (s : List UInt8) :
    startsWith s key = true ↔ key <+: s := by
  rw [← strncmp_literal s noNul]
  simp [startsWith]

theorem parserSkipWhiteSpaces_suffix (s : List UInt8) : parserSkipWhiteSpaces s <:+ s :=
  List.dropWhile_suffix _

theorem parserSkipString_suffix (key s : List UInt8) : (parserSkipString key s).2 <:+ s := by
  induction s with
  | nil => exact List.suffix_refl _
  | cons c rest ih =>
    unfold parserSkipString
    split
    next => exact List.drop_suffix _ _
    next => exact ih.trans (List.suffix_cons c rest)

theorem parserSkipString_found {key s : List UInt8} (found : (parserSkipString key s).1 = true) :
    (parserSkipString key s).2.length + min key.length 1 ≤ s.length := by
  induction s with
  | nil => simp [parserSkipString] at found
  | cons c rest ih =>
    unfold parserSkipString at found ⊢
    split
    next =>
      rw [List.length_drop, List.length_cons]
      omega
    next away =>
      rw [if_neg away] at found
      have shorter := ih found
      rw [List.length_cons]
      omega

theorem parserSkipComment_suffix {s rest : List UInt8} (skipped : parserSkipComment s = some rest) :
    rest <:+ s ∧ rest.length + 3 ≤ s.length := by
  unfold parserSkipComment at skipped
  split at skipped
  next => cases skipped
  next at_ found =>
    split at skipped
    next =>
      cases skipped
      have here := (strstr_some found).length_le
      rw [List.length_drop] at here ⊢
      exact ⟨List.drop_suffix _ _, by change 3 ≤ _ at here; change _ - (at_ + 3) + 3 ≤ _; omega⟩
    next => cases skipped

def parserSkipMisc (curPtr : List UInt8) : Bool × List UInt8 :=
  if startsCaseWith curPtr BEGIN_COMMENT then
    match _skipped : parserSkipComment curPtr with
    | some rest => parserSkipMisc (parserSkipWhiteSpaces rest)
    | none => (false, parserSkipWhiteSpaces curPtr)
  else if startsCaseWith curPtr XMLDECL || startsCaseWith curPtr XMLDECL2 then
    (false, parserSkipWhiteSpaces curPtr)
  else if startsCaseWith curPtr BEGIN_PI then
    if _skipped : (parserSkipString END_PI curPtr).1 = true then
      parserSkipMisc (parserSkipWhiteSpaces (parserSkipString END_PI curPtr).2)
    else (false, parserSkipWhiteSpaces (parserSkipString END_PI curPtr).2)
  else (true, parserSkipWhiteSpaces curPtr)
termination_by curPtr.length
decreasing_by
  · have inside := (parserSkipWhiteSpaces_suffix rest).length_le
    have shorter := (parserSkipComment_suffix _skipped).2
    omega
  · have inside := (parserSkipWhiteSpaces_suffix (parserSkipString END_PI curPtr).2).length_le
    have shorter := parserSkipString_found _skipped
    change _ + 1 ≤ _ at shorter
    omega

theorem parserSkipMisc_suffix (s : List UInt8) : (parserSkipMisc s).2 <:+ s := by
  induction s using parserSkipMisc.induct with
  | case1 s comment rest skipped ih =>
    rw [parserSkipMisc, if_pos comment]
    split
    next other same =>
      cases same.symm.trans skipped
      exact ih.trans ((parserSkipWhiteSpaces_suffix _).trans (parserSkipComment_suffix skipped).1)
    next none => cases none.symm.trans skipped
  | case2 s comment absent =>
    rw [parserSkipMisc, if_pos comment]
    split
    next rest same => cases same.symm.trans absent
    next => exact parserSkipWhiteSpaces_suffix _
  | case3 s plain decl =>
    rw [parserSkipMisc, if_neg plain, if_pos decl]
    exact parserSkipWhiteSpaces_suffix _
  | case4 s plain noDecl instruction skipped ih =>
    rw [parserSkipMisc, if_neg plain, if_neg noDecl, if_pos instruction, dif_pos skipped]
    exact ih.trans ((parserSkipWhiteSpaces_suffix _).trans (parserSkipString_suffix _ _))
  | case5 s plain noDecl instruction endless =>
    rw [parserSkipMisc, if_neg plain, if_neg noDecl, if_pos instruction, dif_neg endless]
    exact (parserSkipWhiteSpaces_suffix _).trans (parserSkipString_suffix _ _)
  | case6 s plain noDecl noInstruction =>
    rw [parserSkipMisc, if_neg plain, if_neg noDecl, if_neg noInstruction]
    exact parserSkipWhiteSpaces_suffix _

theorem startsCaseWith_cons {k : UInt8} {s key : List UInt8} (start : startsCaseWith s (k :: key) = true) :
    toLower (s.headD 0) = toLower k ∧ (toLower k ≠ 0 → startsCaseWith s.tail key = true) := by
  have unfolded : strncasecmp s (k :: key) (k :: key).length =
      if toLower (s.headD 0) ≠ toLower k then ((toLower (s.headD 0)).toNat : Int) - (toLower k).toNat
      else if toLower (s.headD 0) = 0 then 0 else strncasecmp s.tail key key.length := rfl
  simp only [startsCaseWith, unfolded, decide_eq_true_eq] at start
  by_cases same : toLower (s.headD 0) = toLower k
  · refine ⟨same, fun some => ?_⟩
    rw [if_neg (not_not.mpr same), if_neg (same.symm ▸ some)] at start
    simpa [startsCaseWith] using start
  · rw [if_pos same] at start
    have apart := UInt8.toNat_inj.ne.mpr same
    omega

theorem parserSkipMisc_plain {s : List UInt8}
    (plain : s.headD 0 = 60 → s.tail.headD 0 ≠ 33 ∧ s.tail.headD 0 ≠ 63) :
    parserSkipMisc s = (true, parserSkipWhiteSpaces s) := by
  have mark {c k : UInt8} (punctuation : k = 60 ∨ k = 33 ∨ k = 63) (same : toLower c = toLower k) : c = k := by
    rcases punctuation with rfl | rfl | rfl
    all_goals
      revert same
      revert c
      apply forall_byte
      decide +kernel
  have second {k : UInt8} (key : List UInt8) (other : k = 33 ∨ k = 63) :
      startsCaseWith s (60 :: k :: key) = false := by
    by_contra start
    obtain ⟨less, rest⟩ := startsCaseWith_cons (Bool.not_eq_false _ ▸ start)
    have here := startsCaseWith_cons (rest (by decide))
    have apart := plain (mark (.inl rfl) less)
    cases other with
    | inl bang =>
      subst bang
      exact apart.1 (mark (.inr (.inl rfl)) here.1)
    | inr question =>
      subst question
      exact apart.2 (mark (.inr (.inr rfl)) here.1)
  have comment : startsCaseWith s BEGIN_COMMENT = false := second _ (.inl rfl)
  have decl : startsCaseWith s XMLDECL = false := second _ (.inr rfl)
  have decl2 : startsCaseWith s XMLDECL2 = false := second _ (.inr rfl)
  have instruction : startsCaseWith s BEGIN_PI = false := second _ (.inr rfl)
  rw [parserSkipMisc, comment, decl, decl2, instruction]
  simp

theorem parserSkipWhiteSpaces_head {s : List UInt8} (dark : WHITESPACE.contains (s.headD 0) = false) :
    parserSkipWhiteSpaces s = s := by
  cases s with
  | nil => rfl
  | cons c s => exact List.dropWhile_cons_of_neg (by simpa using dark)

def parserSkipProlog (curPtr : List UInt8) : Option (List UInt8) :=
  let start := parserSkipWhiteSpaces (parserSkipBom curPtr)
  let declared :=
    if startsWith start XMLDECL then
      let skipped := parserSkipXMLDecl start
      if skipped.1 then some skipped.2 else none
    else some start
  declared.bind fun curPtr =>
    let misc := parserSkipMisc curPtr
    if !misc.1 then none
    else
      let typed :=
        if startsWith misc.2 BEGIN_DOCTYPE then parserSkipDocType 1 misc.2.tail else some misc.2
      typed.bind fun curPtr =>
        let misc := parserSkipMisc curPtr
        if misc.1 then some misc.2 else none

def parserSkipPI (src : List UInt8) : Option (List UInt8) :=
  if startsCaseWith src XMLDECL || startsCaseWith src XMLDECL2 then none
  else if startsCaseWith src BEGIN_PI then
    match strstr END_PI src with
    | none => none
    | some pEnd => if pEnd ≠ 0 then some (src.drop (pEnd + BEGIN_PI.length)) else none
  else some src

end Pupnp.Ixml
