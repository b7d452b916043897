import Pupnp.Ixml.Parser

/-! A token always copies: what `Parser_getNextToken` leaves, without any error path. -/

namespace Pupnp.Ixml
open CString

section Tokens
variable {errorChar : Int}

theorem copyLoop_done (src tokenBuf : List UInt8) : copyLoop errorChar src 0 tokenBuf = .ok (true, tokenBuf) := by
  rw [copyLoop, if_pos rfl]

theorem copyLoop_char {src : List UInt8} {len cl : Nat} {c : Int}
    (char : parserGetChar errorChar src = some (c, cl)) (positive : 0 < c) (inside : cl ≤ len)
    (encoded : copiedChar c cl ≠ []) (tokenBuf : List UInt8) :
    copyLoop errorChar src len tokenBuf =
      copyLoop errorChar (src.drop cl) (len - cl) (tokenBuf ++ copiedChar c cl) := by
  have some := parserGetChar_pos char positive
  rw [copyLoop, if_neg (by omega)]
  split
  next none => cases none.symm.trans char
  next d dl same =>
    cases same.symm.trans char
    rw [dif_neg (by omega)]
    dsimp only
    rw [if_neg encoded, dif_neg (by omega)]

def isPlain (c : UInt8) : Bool := 0 < c && c ≤ 127 && c ≠ 38 && parserIsXmlChar c.toNat

theorem parserGetChar_plain {c : UInt8} (plain : isPlain c = true) (rest : List UInt8) :
    parserGetChar errorChar (c :: rest) = some ((c.toNat : Int), 1) := by
  have facts : c.toNat ≠ 38 ∧ 0 < c.toNat ∧ c.toNat ≤ 127 ∧ parserIsXmlChar c.toNat = true := by
    revert plain
    revert c
    apply forall_byte
    decide +kernel
  obtain ⟨other, positive, ascii, char⟩ := facts
  unfold parserGetChar
  simp [octet, other, positive, ascii, char]

theorem copyLoop_plain {c : UInt8} (plain : isPlain c = true) (rest tokenBuf : List UInt8) (n : Nat) :
    copyLoop errorChar (c :: rest) (n + 1) tokenBuf = copyLoop errorChar rest n (tokenBuf ++ [c]) := by
  have positive : 0 < (c.toNat : Int) := by
    revert plain
    revert c
    apply forall_byte
    decide +kernel
  rw [copyLoop_char (parserGetChar_plain plain rest) positive (by omega) (by simp [copiedChar])]
  simp [copiedChar]

theorem parserUTF8ToInt_ascii {s : List UInt8} (ascii : octet s 0 ≤ 127) :
    parserUTF8ToInt errorChar s = ((octet s 0 : Int), 1) := by
  unfold parserUTF8ToInt
  rw [if_pos ascii]

theorem parserGetChar_utf8 {s : List UInt8} (other : octet s 0 ≠ 38)
    (xml : parserIsXmlChar (parserUTF8ToInt errorChar s).1 = true) :
    parserGetChar errorChar s = some (parserUTF8ToInt errorChar s) := by
  unfold parserGetChar
  simp only [other, ne_eq, not_false_eq_true, if_true, xml, Bool.not_true, Bool.false_eq_true, if_false]
  split
  next plain =>
    simp only [Bool.and_eq_true, decide_eq_true_eq] at plain
    rw [parserUTF8ToInt_ascii plain.1.2]
  next => rfl

theorem parserGetChar_name {s : List UInt8} {bNameChar : Bool}
    (name : parserIsNameChar (parserUTF8ToInt errorChar s).1 bNameChar = true) :
    parserGetChar errorChar s = some (parserUTF8ToInt errorChar s) := by
  refine parserGetChar_utf8 (fun amp => ?_) (parserIsNameChar_xml name).1
  rw [parserUTF8ToInt_ascii (by omega), amp] at name
  revert name
  cases bNameChar <;> decide +kernel

theorem parserIntToUTF8_some {c : Int} (positive : 0 < c) (small : c ≤ 0x7FFFFFFF) :
    parserIntToUTF8 c ≠ [] := by
  unfold parserIntToUTF8
  dsimp only
  split_ifs <;> first | omega | simp

theorem copyLoop_name {s : List UInt8} {bNameChar : Bool} (tokenBuf : List UInt8) :
    ∃ name, copyLoop errorChar s (nameLength errorChar bNameChar s) tokenBuf = .ok (true, tokenBuf ++ name) ∧
      (nameLength errorChar bNameChar s ≠ 0 → name ≠ []) ∧ nameLength errorChar bNameChar s ≤ s.length := by
  induction bNameChar, s using nameLength.induct errorChar generalizing tokenBuf with
  | case1 bNameChar s char ih =>
    have read := parserGetChar_name char
    have long := parserUTF8ToInt_length (parserIsNameChar_pos char)
    have positive := parserIsNameChar_pos char
    have small := (parserIsNameChar_xml char).2
    rw [nameLength, dif_pos char]
    generalize parserUTF8ToInt errorChar s = found at *
    obtain ⟨c, cl⟩ := found
    dsimp only at *
    have encoded : copiedChar c cl ≠ [] := by
      unfold copiedChar
      split
      next => nofun
      next => exact parserIntToUTF8_some positive (by omega)
    obtain ⟨name, copied, -, inside⟩ := ih (tokenBuf ++ copiedChar c cl)
    rw [List.length_drop] at inside
    rw [copyLoop_char read positive (by omega) encoded, Nat.add_sub_cancel_left, copied,
      List.append_assoc]
    exact ⟨_, rfl, fun _ empty => encoded (List.append_eq_nil_iff.mp empty).1, by omega⟩
  | case2 bNameChar s stop =>
    rw [nameLength, dif_neg stop, copyLoop_done]
    exact ⟨[], by rw [List.append_nil], fun some => absurd rfl some, Nat.zero_le _⟩

def tokenCopy (errorChar : Int) (s : List UInt8) : Bool × List UInt8 :=
  match copyLoop errorChar s (tokenAt errorChar s).1 [] with
  | .ok copied => copied
  | .error _ => (false, [])

/-- A copied token of `n` octets; only an overlong `/` behind `<` does not copy. -/
structure Copies (s : List UInt8) (n : Nat) (copied : Bool × List UInt8) : Prop where
  inside : n ≤ s.length
  nonempty : n ≠ 0 → copied.2 ≠ []
  fails : copied.1 = false → n = 2 ∧ s.headD 0 = 60 ∧ copied.2 = [60, 47] ∧ 127 < s.tail.headD 0

theorem headD_cons {s : List UInt8} {c : UInt8} (head : s.headD 0 = c) (some : c ≠ 0) :
    s = c :: s.tail := by
  cases s with
  | nil => exact absurd head.symm some
  | cons d s => rw [← head]; rfl

theorem copyLoop_endTag {s : List UInt8} (less : s.headD 0 = 60)
    (slash : (parserUTF8ToInt errorChar s.tail).1 = 47) :
    ∃ done, copyLoop errorChar s 2 [] = .ok (done, [60, 47]) ∧ Copies s 2 (done, [60, 47]) := by
  have whole := headD_cons less (by decide)
  have xml : parserIsXmlChar (parserUTF8ToInt errorChar s.tail).1 = true := by
    rw [slash]
    decide
  have other : octet s.tail 0 ≠ 38 := by
    intro amp
    rw [parserUTF8ToInt_ascii (by omega), amp] at slash
    cases slash
  have positive : 0 < (parserUTF8ToInt errorChar s.tail).1 := by omega
  have long := parserUTF8ToInt_length positive
  have wideOf (many : (parserUTF8ToInt errorChar s.tail).2 ≠ 1) : 127 < s.tail.headD 0 := by
    by_contra ascii
    refine many ?_
    rw [parserUTF8ToInt_ascii]
    cases tail : s.tail with
    | nil => decide
    | cons d rest =>
      rw [tail] at ascii
      exact UInt8.le_iff_toNat_le.mp (UInt8.not_lt.mp ascii)
  have inside : 2 ≤ s.length := by
    rw [whole, List.length_cons]
    omega
  have read := parserGetChar_utf8 other xml
  generalize parserUTF8ToInt errorChar s.tail = found at *
  obtain ⟨c, cl⟩ := found
  dsimp only at slash
  subst slash
  have encoded : copiedChar 47 cl = [47] := by
    unfold copiedChar
    split <;> decide
  by_cases one : cl = 1
  · refine ⟨true, ?_, inside, fun _ => by simp, nofun⟩
    rw [whole, copyLoop_plain (by decide), copyLoop_char read (by decide) (by omega) (by simp [encoded]),
      encoded, one, copyLoop_done]
    rfl
  · have wide := wideOf one
    refine ⟨false, ?_, inside, fun _ => by simp, fun _ => ⟨rfl, less, rfl, wide⟩⟩
    rw [whole, copyLoop_plain (by decide), copyLoop, if_neg (by decide)]
    split
    next none => cases none.symm.trans read
    next d dl same =>
      cases same.symm.trans read
      rw [dif_neg (by decide)]
      dsimp only
      rw [encoded, if_neg (by simp), dif_pos (by omega)]
      rfl

theorem copyLoop_token (s : List UInt8) :
    copyLoop errorChar s (tokenAt errorChar s).1 [] = .ok (tokenCopy errorChar s) ∧
      Copies s (tokenAt errorChar s).1 (tokenCopy errorChar s) := by
  suffices found : ∃ copied, copyLoop errorChar s (tokenAt errorChar s).1 [] = .ok copied ∧
      Copies s (tokenAt errorChar s).1 copied by
    obtain ⟨copied, copies, facts⟩ := found
    have same : tokenCopy errorChar s = copied := by
      unfold tokenCopy
      rw [copies]
    rw [same]
    exact ⟨copies, facts⟩
  have empty : ∃ copied, copyLoop errorChar s 0 [] = .ok copied ∧ Copies s 0 copied :=
    ⟨(true, []), copyLoop_done _ _, Nat.zero_le _, fun none => absurd rfl none, nofun⟩
  have single {c : UInt8} (head : s.headD 0 = c) (plain : isPlain c = true) :
      ∃ copied, copyLoop errorChar s 1 [] = .ok copied ∧ Copies s 1 copied := by
    have whole := headD_cons head (by rintro rfl; exact absurd plain (by decide))
    refine ⟨(true, [c]), ?_, ?_, fun _ => by simp, nofun⟩
    · rw [whole, copyLoop_plain plain, copyLoop_done]
      rfl
    · rw [whole]
      exact Nat.succ_pos _
  unfold tokenAt
  dsimp only
  split_ifs with quote less slash name equals solidus close greater
  · simp only [Bool.or_eq_true, decide_eq_true_eq] at quote
    cases quote with
    | inl double => exact single double (by decide)
    | inr apostrophe => exact single apostrophe (by decide)
  · obtain ⟨done, copied, facts⟩ := copyLoop_endTag less slash
    exact ⟨_, copied, facts⟩
  · exact single less (by decide)
  · exact empty
  · exact single equals (by decide)
  · have whole := headD_cons solidus (by decide)
    have behind := headD_cons close (by decide)
    refine ⟨(true, [47, 62]), ?_, ?_, fun _ => by simp, nofun⟩
    · rw [whole, behind, copyLoop_plain (by decide), copyLoop_plain (by decide), copyLoop_done]
      rfl
    · rw [whole, behind]
      simp
  · exact empty
  · exact single greater (by decide)
  · obtain ⟨name, copied, some, inside⟩ := @copyLoop_name errorChar s false []
    exact ⟨(true, name), copied, inside, some, nofun⟩

def tokenStep (errorChar : Int) (p : Parser) : Nat × Parser :=
  if p.curPtr = [] then (0, { p with tokenBuf := [] })
  else if !(parserSkipMisc p.curPtr).1 then
    (0, { p with tokenBuf := [], curPtr := (parserSkipMisc p.curPtr).2 })
  else
    let s := (parserSkipMisc p.curPtr).2
    let p := { p with
      tokenBuf := (tokenCopy errorChar s).2
      savePtr := if (tokenAt errorChar s).2 then s else p.savePtr }
    if (tokenCopy errorChar s).1 && (tokenAt errorChar s).1 ≠ 0 then
      ((tokenAt errorChar s).1, { p with curPtr := s.drop (tokenAt errorChar s).1 })
    else (0, { p with curPtr := s })

theorem parserGetNextToken_eq (p : Parser) :
    parserGetNextToken errorChar p = .ok (tokenStep errorChar p) := by
  unfold parserGetNextToken tokenStep
  dsimp only
  split
  next => rfl
  next =>
    split
    next => rfl
    next =>
      have copied := (@copyLoop_token errorChar (parserSkipMisc p.curPtr).2).1
      by_cases none : (tokenAt errorChar (parserSkipMisc p.curPtr).2).1 = 0
      · rw [none, copyLoop_done] at copied
        have same := (Except.ok.inj copied).symm
        simp only [parserCopyToken, none, same]
        rfl
      · simp only [parserCopyToken, none, if_false, copied, ne_eq, not_false_eq_true, decide_true,
          Bool.and_true]
        rfl

/-- What a call of `Parser_getNextToken` may change, and how. -/
structure TokenSpec (errorChar : Int) (p : Parser) (n : Nat) (curPtr tokenBuf savePtr : List UInt8) :
    Prop where
  suffix : curPtr <:+ p.curPtr
  shorter : curPtr.length + n ≤ p.curPtr.length
  saved : savePtr = p.savePtr ∨ savePtr <:+ p.curPtr
  nonempty : n ≠ 0 → tokenBuf ≠ []
  /-- Without a token the buffer is empty, or holds what did not copy and will not copy again. -/
  none : n = 0 → tokenBuf = [] ∨
    tokenBuf = [60, 47] ∧ ∀ q : Parser, q.curPtr = curPtr → (tokenStep errorChar q).1 = 0

theorem tokenStep_again {q : Parser} {s : List UInt8} (here : q.curPtr = s) (less : s.headD 0 = 60)
    (wide : 127 < s.tail.headD 0) (fails : (tokenCopy errorChar s).1 = false) :
    (tokenStep errorChar q).1 = 0 := by
  have plain : s.headD 0 = 60 → s.tail.headD 0 ≠ 33 ∧ s.tail.headD 0 ≠ 63 := by
    intro _
    constructor
    all_goals
      intro mark
      rw [mark] at wide
      exact absurd wide (by decide)
  have dark : WHITESPACE.contains (s.headD 0) = false := by
    rw [less]
    decide
  have misc : parserSkipMisc s = (true, s) := by
    rw [parserSkipMisc_plain plain, parserSkipWhiteSpaces_head dark]
  unfold tokenStep
  rw [here, misc]
  dsimp only
  rw [fails]
  split_ifs <;> first | rfl | simp_all

theorem tokenStep_spec (p : Parser) :
    ∃ n curPtr tokenBuf savePtr, TokenSpec errorChar p n curPtr tokenBuf savePtr ∧
      tokenStep errorChar p =
        (n, { p with curPtr := curPtr, tokenBuf := tokenBuf, savePtr := savePtr }) := by
  unfold tokenStep
  split
  next atEnd =>
    exact ⟨0, p.curPtr, [], p.savePtr,
      ⟨List.suffix_refl _, Nat.le_refl _, .inl rfl, fun some => absurd rfl some, fun _ => .inl rfl⟩, rfl⟩
  next =>
    have misc := parserSkipMisc_suffix p.curPtr
    split
    next =>
      exact ⟨0, (parserSkipMisc p.curPtr).2, [], p.savePtr,
        ⟨misc, misc.length_le, .inl rfl, fun some => absurd rfl some, fun _ => .inl rfl⟩, rfl⟩
    next =>
      obtain ⟨copied, copies⟩ := @copyLoop_token errorChar (parserSkipMisc p.curPtr).2
      generalize (parserSkipMisc p.curPtr).2 = s at *
      dsimp only
      have saved : (if (tokenAt errorChar s).2 = true then s else p.savePtr) = p.savePtr ∨
          (if (tokenAt errorChar s).2 = true then s else p.savePtr) <:+ p.curPtr := by
        split
        next => exact .inr misc
        next => exact .inl rfl
      split
      next done =>
        simp only [Bool.and_eq_true, decide_eq_true_eq] at done
        have inside := copies.inside
        have whole := misc.length_le
        refine ⟨_, _, _, _, ⟨(List.drop_suffix _ _).trans misc, ?_, saved, copies.nonempty,
          fun none => absurd none done.2⟩, rfl⟩
        rw [List.length_drop]
        omega
      next undone =>
        refine ⟨0, s, _, _, ⟨misc, misc.length_le, saved, fun some => absurd rfl some, fun _ => ?_⟩, rfl⟩
        cases success : (tokenCopy errorChar s).1 with
        | false =>
          obtain ⟨-, less, text, wide⟩ := copies.fails success
          exact .inr ⟨text, fun q here => tokenStep_again here less wide success⟩
        | true =>
          left
          simp only [success, Bool.true_and, decide_eq_true_eq, not_not] at undone
          rw [undone, copyLoop_done] at copied
          rw [← Except.ok.inj copied]

end Tokens

end Pupnp.Ixml
