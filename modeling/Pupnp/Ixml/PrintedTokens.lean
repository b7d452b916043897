import Pupnp.Ixml.Names

/-! The tokens of printed text. -/

namespace Pupnp.Ixml
open CString

/-- Where a parser reads, apart from what it has built. -/
structure Place where
  curPtr : List UInt8
  savePtr : List UInt8
  lastElem : List UInt8
  tokenBuf : List UInt8
  state : ParserState

def Parser.put (p : Parser) (place : Place) : Parser :=
  { p with
    curPtr := place.curPtr
    savePtr := place.savePtr
    lastElem := place.lastElem
    tokenBuf := place.tokenBuf
    state := place.state }

@[simp] theorem Parser.put_open (p : Parser) (place : Place) : (p.put place).open_ = p.open_ := rfl

def Blank (s : List UInt8) : Prop := ∀ c ∈ s, WHITESPACE.contains c = true

theorem Blank.nil : Blank [] := by
  intro c member
  cases member

theorem parserSkipWhiteSpaces_blank {blank s : List UInt8} (white : Blank blank)
    (dark : WHITESPACE.contains (s.headD 0) = false) : parserSkipWhiteSpaces (blank ++ s) = s := by
  calc parserSkipWhiteSpaces (blank ++ s) = parserSkipWhiteSpaces s := List.dropWhile_append_of_pos white
    _ = s := parserSkipWhiteSpaces_head dark

theorem parserSkipMisc_blank {blank s : List UInt8} (white : Blank blank)
    (dark : WHITESPACE.contains (s.headD 0) = false)
    (plain : s.headD 0 = 60 → s.tail.headD 0 ≠ 33 ∧ s.tail.headD 0 ≠ 63) :
    parserSkipMisc (blank ++ s) = (true, s) := by
  rw [parserSkipMisc_plain, parserSkipWhiteSpaces_blank white dark]
  cases blank with
  | nil => exact plain
  | cons c blank =>
    intro less
    change c = 60 at less
    have space := white c List.mem_cons_self
    rw [less] at space
    exact absurd space (by decide)

section Tokens
variable {errorChar : Int}

theorem tokenStep_at {p : Parser} {s text : List UInt8} {n : Nat} (skipped : parserSkipMisc p.curPtr = (true, s))
    (token : tokenAt errorChar s = (n, false)) (copies : copyLoop errorChar s n [] = .ok (true, text))
    (some : n ≠ 0) :
    tokenStep errorChar p = (n, { p with curPtr := s.drop n, tokenBuf := text }) := by
  have copied : tokenCopy errorChar s = (true, text) := by
    unfold tokenCopy
    rw [token, copies]
  have more : p.curPtr ≠ [] := by
    intro ended
    rw [ended, parserSkipMisc_plain (by decide)] at skipped
    have empty : s = [] := (Prod.mk.inj skipped).2.symm
    subst empty
    have noName := @parserUTF8ToInt_ascii errorChar [] (by decide)
    have none : nameLength errorChar false [] = 0 := by
      rw [nameLength, dif_neg]
      rw [noName]
      decide +kernel
    unfold tokenAt at token
    change (nameLength errorChar false [], false) = _ at token
    rw [none] at token
    exact some (Prod.mk.inj token).1.symm
  unfold tokenStep
  rw [if_neg more]
  simp only [skipped, token, copied, Bool.not_true, Bool.false_eq_true, if_false, Bool.true_and, ne_eq, some,
    not_false_eq_true, decide_true, if_true]

theorem tokenStep_mark {p : Parser} {blank rest : List UInt8} {c : UInt8} (white : Blank blank)
    (here : p.curPtr = blank ++ c :: rest) (mark : c ∈ bytes "\"'=>") :
    tokenStep errorChar p = (1, { p with curPtr := rest, tokenBuf := [c] }) := by
  have facts : ∀ d ∈ bytes "\"'=>", WHITESPACE.contains d = false ∧ d ≠ 60 ∧ isPlain d = true ∧
      (d = 34 ∨ d = 39 ∨ d = 61 ∨ d = 62) := by
    decide
  obtain ⟨dark, noLess, plain, cases_⟩ := facts c mark
  have token : tokenAt errorChar (c :: rest) = (1, false) := by
    rcases cases_ with rfl | rfl | rfl | rfl <;> rfl
  have copies : copyLoop errorChar (c :: rest) 1 [] = .ok (true, [c]) := by
    rw [copyLoop_plain plain, copyLoop_done]
    rfl
  exact tokenStep_at (by rw [here]; exact parserSkipMisc_blank white dark fun less => absurd less noLess) token
    copies Nat.one_ne_zero

theorem name_head {s : List UInt8} (name : parserIsNameChar (parserUTF8ToInt errorChar s).1 false = true) :
    s.headD 0 ∉ bytes "\"'<=/>!?\n\t\r " := by
  intro member
  have none : ∀ d ∈ bytes "\"'<=/>!?\n\t\r ", d.toNat ≤ 127 ∧ parserIsNameChar d.toNat false = false := by
    decide +kernel
  obtain ⟨ascii, other⟩ := none _ member
  have same : octet s 0 = (s.headD 0).toNat := by
    cases s <;> rfl
  rw [parserUTF8ToInt_ascii (by omega), same, other] at name
  cases name

theorem tokenAt_name {s : List UInt8} (name : parserIsNameChar (parserUTF8ToInt errorChar s).1 false = true) :
    tokenAt errorChar s = (nameLength errorChar false s, false) := by
  have head := name_head name
  have apart {d : UInt8} (mark : d ∈ bytes "\"'<=/>!?\n\t\r ") : s.headD 0 ≠ d := by
    rintro rfl
    exact head mark
  unfold tokenAt
  simp only [apart (by decide : (34 : UInt8) ∈ _), apart (by decide : (39 : UInt8) ∈ _),
    apart (by decide : (60 : UInt8) ∈ _), apart (by decide : (61 : UInt8) ∈ _), apart (by decide : (47 : UInt8) ∈ _),
    apart (by decide : (62 : UInt8) ∈ _), decide_false, Bool.or_self, Bool.false_eq_true, if_false]

theorem name_dark {s : List UInt8} (name : parserIsNameChar (parserUTF8ToInt errorChar s).1 false = true) :
    WHITESPACE.contains (s.headD 0) = false := by
  by_contra space
  have wider : ∀ d ∈ WHITESPACE, d ∈ bytes "\"'<=/>!?\n\t\r " := by decide
  exact name_head name (wider _ (List.contains_iff_mem.mp (Bool.not_eq_false _ ▸ space)))

theorem name_skipped {blank s : List UInt8} (white : Blank blank)
    (name : parserIsNameChar (parserUTF8ToInt errorChar s).1 false = true) :
    parserSkipMisc (blank ++ s) = (true, s) := by
  have head := name_head name
  refine parserSkipMisc_blank white (name_dark name) (fun less => ?_)
  rw [less] at head
  exact absurd (by decide) head

theorem nameText_head {name : List UInt8} (text : NameText name) (rest : List UInt8) :
    parserIsNameChar (parserUTF8ToInt errorChar (name ++ rest)).1 false = true := by
  obtain ⟨c, chars, rfl, first, -⟩ := text
  have bounds := parserIsXmlChar_bounds (parserIsNameChar_xml first).1
  rw [encode_cons, List.append_assoc, parserUTF8ToInt_encode (Int.le_of_lt bounds.1) bounds.2]
  exact first

def EndsName (stop : UInt8) : Prop := stop ∈ bytes " =>"

instance (stop : UInt8) : Decidable (EndsName stop) := inferInstanceAs (Decidable (stop ∈ bytes " =>"))

theorem tokenStep_name {p : Parser} {blank name rest : List UInt8} {stop : UInt8} (white : Blank blank)
    (text : NameText name) (ends : EndsName stop) (here : p.curPtr = blank ++ (name ++ stop :: rest)) :
    tokenStep errorChar p = (name.length, { p with curPtr := stop :: rest, tokenBuf := name }) := by
  have head := @nameText_head errorChar name text (stop :: rest)
  have stops : ∀ d ∈ bytes " =>", d ≤ 127 ∧ parserIsNameChar d.toNat true = false := by decide +kernel
  have long : nameLength errorChar false (name ++ stop :: rest) = name.length := by
    obtain ⟨c, chars, rfl, letters⟩ := text
    exact nameLength_encode letters (stops stop ends).1 (stops stop ends).2 rest
  have token := tokenAt_name head
  rw [long] at token
  have step := tokenStep_at (by rw [here]; exact name_skipped white head) token (copyLoop_nameText text _)
    (List.length_pos_iff.mpr text.nonempty).ne'
  rwa [List.drop_left] at step

theorem tokenStep_less {p : Parser} {s : List UInt8}
    (name : parserIsNameChar (parserUTF8ToInt errorChar s).1 false = true) (here : p.curPtr = 60 :: s) :
    tokenStep errorChar p = (1, { p with curPtr := s, tokenBuf := [60] }) := by
  have head := name_head name
  have noSlash : (parserUTF8ToInt errorChar s).1 ≠ 47 := by
    intro slash
    rw [slash] at name
    exact absurd name (by decide +kernel)
  have token : tokenAt errorChar (60 :: s) = (1, false) := by
    unfold tokenAt
    change (if (parserUTF8ToInt errorChar s).1 = 47 then (2, false)
      else if parserIsNameChar (parserUTF8ToInt errorChar s).1 false then (1, false) else (0, false)) = _
    rw [if_neg noSlash, if_pos name]
  have copies : copyLoop errorChar (60 :: s) 1 [] = .ok (true, [60]) := by
    rw [copyLoop_plain (by decide), copyLoop_done]
    rfl
  refine tokenStep_at ?_ token copies Nat.one_ne_zero
  rw [here]
  have dark : WHITESPACE.contains 60 = false := by decide
  refine parserSkipMisc_blank .nil dark (fun _ => ⟨fun bang => head ?_, fun question => head ?_⟩)
  · change s.headD 0 = 33 at bang
    rw [bang]
    decide
  · change s.headD 0 = 63 at question
    rw [question]
    decide

theorem tokenStep_close {p : Parser} {s : List UInt8} (here : p.curPtr = 60 :: 47 :: s) :
    tokenStep errorChar p = (2, { p with curPtr := s, tokenBuf := [60, 47] }) := by
  have slash : (parserUTF8ToInt errorChar (47 :: s)).1 = 47 := by
    rw [parserUTF8ToInt_ascii (by change 47 ≤ 127; decide)]
    rfl
  have token : tokenAt errorChar (60 :: 47 :: s) = (2, false) := by
    unfold tokenAt
    change (if (parserUTF8ToInt errorChar (47 :: s)).1 = 47 then (2, false)
      else if parserIsNameChar (parserUTF8ToInt errorChar (47 :: s)).1 false then (1, false) else (0, false)) = _
    rw [if_pos slash]
  have copies : copyLoop errorChar (60 :: 47 :: s) 2 [] = .ok (true, [60, 47]) := by
    rw [copyLoop_plain (by decide), copyLoop_plain (by decide), copyLoop_done]
    rfl
  refine tokenStep_at ?_ token copies (by decide)
  rw [here]
  have dark : WHITESPACE.contains 60 = false := by decide
  refine parserSkipMisc_blank .nil dark (fun _ => ?_)
  change (47 : UInt8) ≠ 33 ∧ (47 : UInt8) ≠ 63
  decide

end Tokens

end Pupnp.Ixml
