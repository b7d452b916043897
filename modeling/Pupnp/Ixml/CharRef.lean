import Pupnp.Ixml.Chars

/-!
Character references: what `Parser_getChar` makes of a text behind `&#`, without an error character. The sum of
the digits is an `int`, and the search for a digit finds the terminator of the text too.
-/

namespace Pupnp.Ixml
open CString

/-- What stands in front of the digits; the comparison with `&#x` ignores case. -/
inductive Mark where
  | dec
  | hex
  | upperHex
  deriving DecidableEq, Repr

namespace Mark

def text : Mark → List UInt8
  | dec => ESC_DEC
  | hex => ESC_HEX
  | upperHex => bytes "&#X"

def base : Mark → Nat
  | dec => 10
  | hex => 16
  | upperHex => 16

def isDigit : Mark → UInt8 → Bool
  | dec => CString.isDigit
  | hex => isXdigit
  | upperHex => isXdigit

/-- The digits that `Parser_getChar` searches. -/
def table : Mark → List UInt8
  | dec => DEC_NUMBERS
  | hex => HEX_NUMBERS
  | upperHex => HEX_NUMBERS

end Mark

/-- A reference to an XML character at the start of a text, with its value and its length. -/
def IsCharRef (s : List UInt8) (value : Int) (length : Nat) : Prop :=
  ∃ mark ds rest, mark ≠ .upperHex ∧ ds ≠ [] ∧ (∀ c ∈ ds, Mark.isDigit mark c = true) ∧
    s = mark.text ++ ds ++ 59 :: rest ∧ value = digitsValue mark.base ds ∧
    length = mark.text.length + ds.length + 1 ∧ parserIsXmlChar value = true

/-- `Parser_getChar` stays inside the text, accepts exactly a reference, and gives its value and length. -/
def ReadsReference (s : List UInt8) : Prop :=
  ∃ c cl, parserGetChar 0 s = some (c, cl) ∧
    ∀ value length, (c ≠ -1 ∧ c = value ∧ cl = length) ↔ IsCharRef s value length

/-- The text ends with the digits, or the low 32 bits of the number are an XML character where the number is
none, or where the mark is none. -/
def IsMisread (s : List UInt8) : Prop :=
  ∃ mark ds, (∀ c ∈ ds, Mark.isDigit mark c = true) ∧
    (s = mark.text ++ ds ∨
      ∃ rest, s = mark.text ++ ds ++ 59 :: rest ∧ parserIsXmlChar (toInt32 (digitsValue mark.base ds)) = true ∧
        (mark = .upperHex ∨ parserIsXmlChar (digitsValue mark.base ds) = false))

/-! ### The digits -/

theorem toInt32_congr {x y : Int} (same : x % 2 ^ 32 = y % 2 ^ 32) : toInt32 x = toInt32 y := by
  simp only [toInt32, Int.bmod]
  omega

theorem toInt32_step (x base digit : Int) : toInt32 (toInt32 x * base + digit) = toInt32 (x * base + digit) := by
  apply toInt32_congr
  rw [Int.add_emod, Int.mul_emod, toInt32_emod, ← Int.mul_emod, ← Int.add_emod]

theorem toInt32_small {x : Int} (positive : 0 ≤ x) (small : x < 2 ^ 31) : toInt32 x = x := by
  simp only [toInt32, Int.bmod]
  omega

theorem Mark.strchr_table (mark : Mark) (c : UInt8) : strchr mark.table c = (decide (c = 0) || mark.isDigit c) := by
  revert c
  apply forall_byte
  cases mark with
  | dec => decide +kernel
  | hex => decide +kernel
  | upperHex => decide +kernel

theorem Mark.refDigit_eq {mark : Mark} {c : UInt8} (digit : mark.isDigit c = true) : refDigit c = digitVal c := by
  have hex : ∀ c, isXdigit c = true → refDigit c = digitVal c := by
    apply forall_byte
    decide +kernel
  have dec : ∀ c, CString.isDigit c = true → isXdigit c = true := by
    apply forall_byte
    decide +kernel
  cases mark with
  | dec => exact hex c (dec c digit)
  | hex => exact hex c digit
  | upperHex => exact hex c digit

/-- The loop over the digits runs to the first character that is none, or past the end of the text. -/
theorem refSum_run (mark : Mark) {ds : List UInt8} (digits : ∀ c ∈ ds, mark.isDigit c = true) (a : Nat) :
    refSum mark.base mark.table ds (toInt32 a) = none ∧
    ∀ c rest, c ≠ 0 → mark.isDigit c = false → refSum mark.base mark.table (ds ++ c :: rest) (toInt32 a) =
      some (toInt32 (ds.foldl (fun sum d => sum * mark.base + digitVal d) a : Nat), c :: rest) := by
  induction ds generalizing a with
  | nil =>
    refine ⟨rfl, ?_⟩
    intro c rest other none
    have absent : strchr mark.table c = false := by
      rw [mark.strchr_table, none, decide_eq_false other]
      rfl
    rw [List.nil_append, refSum, absent]
    rfl
  | cons d ds ih =>
    have digit := digits d List.mem_cons_self
    have found : strchr mark.table d = true := by rw [mark.strchr_table, digit, Bool.or_true]
    have next : toInt32 (toInt32 a * mark.base + refDigit d) = toInt32 ((a * mark.base + digitVal d : Nat) : Int) := by
      rw [toInt32_step, mark.refDigit_eq digit]
      push_cast
      rfl
    obtain ⟨overread, stops⟩ := ih (fun c member => digits c (List.mem_cons_of_mem _ member))
      (a * mark.base + digitVal d)
    constructor
    · rw [refSum, if_pos found, next]
      exact overread
    · intro c rest other none
      rw [List.cons_append, refSum, if_pos found, next]
      exact stops c rest other none

/-! ### The text behind the mark -/

def refMark (s : List UInt8) : Mark :=
  if s.getD 2 0 = 120 then .hex else if s.getD 2 0 = 88 then .upperHex else .dec

def refDigits (s : List UInt8) : List UInt8 := (s.drop (refMark s).text.length).takeWhile (refMark s).isDigit

def refRest (s : List UInt8) : List UInt8 := (s.drop (refMark s).text.length).dropWhile (refMark s).isDigit

theorem ref_split {s : List UInt8} (start : bytes "&#" <+: s) :
    s = (refMark s).text ++ refDigits s ++ refRest s ∧ ∀ c ∈ refDigits s, (refMark s).isDigit c = true := by
  obtain ⟨t, rfl⟩ := start
  constructor
  · rw [List.append_assoc, refDigits, refRest, List.takeWhile_append_dropWhile]
    change 38 :: 35 :: t = (refMark (38 :: 35 :: t)).text ++ (38 :: 35 :: t).drop (refMark (38 :: 35 :: t)).text.length
    unfold refMark
    split
    next hex =>
      cases t with
      | nil => cases hex
      | cons c t =>
        change c = 120 at hex
        rw [hex]
        rfl
    next =>
      split
      next upper =>
        cases t with
        | nil => cases upper
        | cons c t =>
          change c = 88 at upper
          rw [upper]
          rfl
      next => rfl
  · intro c member
    exact List.mem_takeWhile_imp member

/-- Digits behind a mark up to the end of the text or a semicolon are those that are found. -/
theorem ref_unique {mark : Mark} {ds rest : List UInt8} (digits : ∀ c ∈ ds, mark.isDigit c = true)
    (ends : ∀ c ∈ rest.head?, c = 59) :
    refMark (mark.text ++ ds ++ rest) = mark ∧ refDigits (mark.text ++ ds ++ rest) = ds ∧
      refRest (mark.text ++ ds ++ rest) = rest := by
  have found : refMark (mark.text ++ ds ++ rest) = mark := by
    cases mark with
    | hex => rfl
    | upperHex => rfl
    | dec =>
      have other : ∀ c, CString.isDigit c = true → c ≠ 120 ∧ c ≠ 88 := by
        apply forall_byte
        decide +kernel
      cases ds with
      | nil =>
        cases rest with
        | nil => rfl
        | cons c rest =>
          have same := ends c rfl
          subst same
          rfl
      | cons d ds =>
        obtain ⟨lower, upper⟩ := other d (digits d List.mem_cons_self)
        change (if d = 120 then Mark.hex else if d = 88 then .upperHex else .dec) = .dec
        rw [if_neg lower, if_neg upper]
  have stops : rest.takeWhile mark.isDigit = [] ∧ rest.dropWhile mark.isDigit = rest := by
    cases rest with
    | nil => exact ⟨rfl, rfl⟩
    | cons c rest =>
      have same := ends c rfl
      subst same
      cases mark with
      | dec => exact ⟨rfl, rfl⟩
      | hex => exact ⟨rfl, rfl⟩
      | upperHex => exact ⟨rfl, rfl⟩
  have behind : (mark.text ++ ds ++ rest).drop mark.text.length = ds ++ rest := by
    rw [List.append_assoc, List.drop_left]
  refine ⟨found, ?_, ?_⟩
  · rw [refDigits, found, behind, List.takeWhile_append_of_pos digits, stops.1, List.append_nil]
  · rw [refRest, found, behind, List.dropWhile_append_of_pos digits, stops.2]

theorem refRest_head {s : List UInt8} {c : UInt8} (head : c ∈ (refRest s).head?) : (refMark s).isDigit c = false := by
  have first := List.head?_dropWhile_not (refMark s).isDigit (s.drop (refMark s).text.length)
  rw [← refRest, Option.mem_def.mp head] at first
  exact first

/-! ### `Parser_getChar` -/

theorem parserGetChar_mark {s : List UInt8} (start : bytes "&#" <+: s) :
    parserGetChar 0 s = numericRef 0 (refMark s).base (refMark s).table (refMark s).text s := by
  obtain ⟨t, rfl⟩ := start
  have amp : octet (bytes "&#" ++ t) 0 = 38 := rfl
  have quot : strncasecmp (bytes "&#" ++ t) QUOT QUOT.length = -78 := rfl
  have lt : strncasecmp (bytes "&#" ++ t) LT LT.length = -73 := rfl
  have gt : strncasecmp (bytes "&#" ++ t) GT GT.length = -68 := rfl
  have apos : strncasecmp (bytes "&#" ++ t) APOS APOS.length = -62 := rfl
  have ampName : strncasecmp (bytes "&#" ++ t) AMP AMP.length = -62 := rfl
  have dec : strncasecmp (bytes "&#" ++ t) ESC_DEC ESC_DEC.length = 0 := rfl
  have hex : strncasecmp (bytes "&#" ++ t) ESC_HEX ESC_HEX.length = 0 ↔ t.headD 0 = 120 ∨ t.headD 0 = 88 := by
    change (if toLower (t.headD 0) ≠ 120 then ((toLower (t.headD 0)).toNat : Int) - 120
      else if toLower (t.headD 0) = 0 then 0 else 0) = 0 ↔ _
    generalize t.headD 0 = c
    revert c
    apply forall_byte
    decide +kernel
  have mark : refMark (bytes "&#" ++ t) =
      if t.headD 0 = 120 then .hex else if t.headD 0 = 88 then .upperHex else .dec := by
    cases t with
    | nil => rfl
    | cons c t => rfl
  rw [mark]
  unfold parserGetChar
  simp only [amp, ne_eq, not_true_eq_false, if_false, quot, lt, gt, apos, ampName, dec, hex, decide_eq_true_eq]
  by_cases lower : t.headD 0 = 120
  · rw [if_pos lower, if_pos (Or.inl lower)]
    rfl
  · rw [if_neg lower]
    by_cases upper : t.headD 0 = 88
    · rw [if_pos upper, if_pos (Or.inr upper)]
      rfl
    · rw [if_neg upper, if_neg (not_or.mpr ⟨lower, upper⟩)]
      rfl

def refValue (s : List UInt8) : Nat := digitsValue (refMark s).base (refDigits s)

def refLength (s : List UInt8) : Nat := (refMark s).text.length + (refDigits s).length + 1

section References
variable {s : List UInt8}

theorem ref_behind (s : List UInt8) : s.drop (refMark s).text.length = refDigits s ++ refRest s :=
  List.takeWhile_append_dropWhile.symm

theorem parserGetChar_overread (start : bytes "&#" <+: s) (ends : refRest s = []) : parserGetChar 0 s = none := by
  have digits := (ref_split start).2
  have run := (refSum_run (refMark s) digits 0).1
  rw [parserGetChar_mark start, numericRef, ref_behind, ends, List.append_nil]
  change (refSum _ _ (refDigits s) (toInt32 ((0 : Nat) : Int))).map _ = none
  rw [run]
  rfl

theorem parserGetChar_number (start : bytes "&#" <+: s) (noNul : 0 ∉ s) {c : UInt8} {rest : List UInt8}
    (ends : refRest s = c :: rest) :
    parserGetChar 0 s = some
      (if c = 59 ∧ parserIsXmlChar (toInt32 (refValue s)) = true then (toInt32 (refValue s), refLength s)
      else (-1, 0)) := by
  obtain ⟨whole, digits⟩ := ref_split start
  rw [ends] at whole
  have other : c ≠ 0 := by
    intro zero
    apply noNul
    rw [whole, zero]
    simp
  have noDigit : (refMark s).isDigit c = false := refRest_head (by rw [ends]; rfl)
  have run := (refSum_run (refMark s) digits 0).2 c rest other noDigit
  have length : s.length - (c :: rest).length + 1 = refLength s := by
    conv_lhs => rw [whole]
    rw [List.length_append, List.length_append, Nat.add_sub_cancel]
    rfl
  rw [parserGetChar_mark start, numericRef, ref_behind, ends]
  change (refSum _ _ (refDigits s ++ c :: rest) (toInt32 ((0 : Nat) : Int))).map _ = _
  rw [run, Option.map_some]
  change some (if c ≠ 59 || !parserIsXmlChar (toInt32 (refValue s)) then (-1, 0) else
    (toInt32 (refValue s), s.length - (c :: rest).length + 1)) = _
  rw [length]
  by_cases semicolon : c = 59
  · cases xml : parserIsXmlChar (toInt32 (refValue s)) <;> simp [semicolon]
  · simp [semicolon]

/-- The reference that a text starts with, if any, is made of the digits that are found. -/
theorem isCharRef_iff (start : bytes "&#" <+: s) (value : Int) (length : Nat) :
    IsCharRef s value length ↔ (refMark s ≠ .upperHex ∧ (∃ rest, refRest s = 59 :: rest) ∧ value = refValue s ∧
      length = refLength s ∧ parserIsXmlChar (refValue s) = true) := by
  constructor
  · intro ref
    obtain ⟨mark, ds, rest, known, -, digits, rfl, rfl, rfl, xml⟩ := ref
    obtain ⟨sameMark, sameDigits, sameRest⟩ := @ref_unique mark ds (59 :: rest) digits (by simp)
    rw [refValue, refLength, sameMark, sameDigits]
    exact ⟨known, ⟨rest, sameRest⟩, rfl, rfl, xml⟩
  · intro found
    obtain ⟨known, ⟨rest, ends⟩, rfl, rfl, xml⟩ := found
    obtain ⟨whole, digits⟩ := ref_split start
    rw [ends] at whole
    refine ⟨refMark s, refDigits s, rest, known, ?_, digits, whole, rfl, rfl, xml⟩
    intro none
    rw [refValue, none] at xml
    cases xml

theorem isMisread_iff (start : bytes "&#" <+: s) :
    IsMisread s ↔ (refRest s = [] ∨ (∃ rest, refRest s = 59 :: rest) ∧
      parserIsXmlChar (toInt32 (refValue s)) = true ∧
        (refMark s = .upperHex ∨ parserIsXmlChar (refValue s) = false)) := by
  constructor
  · intro misread
    obtain ⟨mark, ds, digits, whole | ⟨rest, whole, xml, wrong⟩⟩ := misread
    · rw [← List.append_nil (mark.text ++ ds)] at whole
      obtain ⟨-, -, sameRest⟩ := @ref_unique mark ds [] digits (by simp)
      rw [whole]
      exact .inl sameRest
    · obtain ⟨sameMark, sameDigits, sameRest⟩ := @ref_unique mark ds (59 :: rest) digits (by simp)
      rw [← whole] at sameMark sameDigits sameRest
      right
      rw [refValue, sameMark, sameDigits]
      exact ⟨⟨rest, sameRest⟩, xml, wrong⟩
  · intro found
    obtain ⟨whole, digits⟩ := ref_split start
    refine ⟨refMark s, refDigits s, digits, ?_⟩
    obtain ends | ⟨⟨rest, ends⟩, xml, wrong⟩ := found
    · rw [ends, List.append_nil] at whole
      exact .inl whole
    · rw [ends] at whole
      exact .inr ⟨rest, whole, xml, wrong⟩

theorem xml_toInt32 {n : Nat} (xml : parserIsXmlChar n = true) : toInt32 n = n := by
  simp only [parserIsXmlChar, Bool.or_eq_true, Bool.and_eq_true, decide_eq_true_eq] at xml
  apply toInt32_small
  · omega
  · omega

/-- Behind `&#`, `Parser_getChar` reads exactly the references except where it misreads the text: where the
text ends with the digits, where the number leaves an `int`, and where the mark is `&#X`. -/
theorem parserGetChar_reference (start : bytes "&#" <+: s) (noNul : 0 ∉ s) : ReadsReference s ↔ ¬IsMisread s := by
  rw [isMisread_iff start, ReadsReference]
  simp only [isCharRef_iff start]
  cases ends : refRest s with
  | nil =>
      rw [parserGetChar_overread start ends]
      simp
  | cons c rest =>
      rw [parserGetChar_number start noNul ends]
      by_cases accepted : c = 59 ∧ parserIsXmlChar (toInt32 (refValue s)) = true
      · rw [if_pos accepted]
        obtain ⟨rfl, xml⟩ := accepted
        have some : toInt32 (refValue s) ≠ -1 := by
          have positive := parserIsXmlChar_pos xml
          omega
        by_cases right : refMark s ≠ .upperHex ∧ parserIsXmlChar (refValue s) = true
        · have value := xml_toInt32 right.2
          apply iff_of_true
          · refine ⟨_, _, rfl, fun n length => ?_⟩
            constructor
            · intro read
              exact ⟨right.1, ⟨rest, rfl⟩, read.2.1.symm.trans value, read.2.2.symm, right.2⟩
            · intro ref
              exact ⟨some, value.trans ref.2.2.1.symm, ref.2.2.2.1.symm⟩
          · intro misread
            obtain none | ⟨-, -, upper | noChar⟩ := misread
            · cases none
            · exact right.1 upper
            · rw [right.2] at noChar
              cases noChar
        · apply iff_of_false
          · intro read
            obtain ⟨c, cl, same, reads⟩ := read
            obtain ⟨rfl, rfl⟩ := Prod.mk.inj (Option.some.inj same)
            obtain ⟨known, -, -, -, isChar⟩ := (reads _ _).mp ⟨some, rfl, rfl⟩
            exact right ⟨known, isChar⟩
          · intro fine
            apply fine
            refine .inr ⟨⟨rest, rfl⟩, xml, ?_⟩
            by_contra neither
            rw [not_or, Bool.not_eq_false] at neither
            exact right neither
      · rw [if_neg accepted]
        apply iff_of_true
        · refine ⟨-1, 0, rfl, fun n length => ?_⟩
          constructor
          · intro read
            exact absurd rfl read.1
          · intro ref
            obtain ⟨-, ⟨behind, same⟩, -, -, xml⟩ := ref
            have value := xml_toInt32 xml
            rw [← value] at xml
            exact absurd ⟨(List.cons.inj same).1, xml⟩ accepted
        · intro misread
          obtain none | ⟨⟨behind, same⟩, xml, -⟩ := misread
          · cases none
          · exact accepted ⟨(List.cons.inj same).1, xml⟩

theorem parserGetChar_reference_letter : ReadsReference (bytes "&#x41;b") := by
  apply (parserGetChar_reference (by decide) (by decide)).mpr
  rw [isMisread_iff (by decide)]
  intro misread
  obtain none | ⟨-, -, upper | noChar⟩ := misread
  · exact absurd none (by decide)
  · exact absurd upper (by decide)
  · exact absurd noChar (by decide)

end References

/-- The number 2 ^ 32 + 65 is read as the letter A. -/
theorem parserGetChar_wraps :
    parserGetChar 0 (bytes "&#4294967361;") = some (65, 13) ∧ ¬ReadsReference (bytes "&#4294967361;") := by
  have read : parserGetChar 0 (bytes "&#4294967361;") = some (65, 13) := by decide +kernel
  refine ⟨read, ?_⟩
  intro reads
  obtain ⟨c, cl, same, refs⟩ := reads
  rw [read] at same
  obtain ⟨rfl, rfl⟩ := Prod.mk.inj (Option.some.inj same)
  have ref := (refs 65 13).mp ⟨by decide, rfl, rfl⟩
  have value := ((isCharRef_iff (by decide) 65 13).mp ref).2.2.1
  revert value
  decide +kernel

end Pupnp.Ixml
