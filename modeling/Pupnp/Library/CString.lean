import Mathlib.Algebra.Group.Int.Defs
import Mathlib.Algebra.Group.Nat.Defs
import Mathlib.Algebra.GroupWithZero.Nat
import Mathlib.Algebra.Ring.Int.Defs
import Mathlib.Data.List.Basic
import Mathlib.Data.List.TakeWhile
import Mathlib.Data.List.Infix
import Mathlib.Data.Int.Order.Basic

/-!
Byte strings and the parts of the C library that work on them, in the C locale:
character classes, bounded comparison, `strtol`, the `%d` conversion of `sscanf`
and substring search. A C string is a byte list read up to its first NUL; a read
past the end of the list is a read of the terminator.
-/

namespace Pupnp.CString

def bytes (s : String) : List UInt8 := s.toList.map fun c => UInt8.ofNat c.toNat

instance lawfulBytes : LawfulBEq (List UInt8) := inferInstance

/-- What holds of every byte of a text is decided along the text, not over all the values of a byte. -/
instance decidableBytes (s : List UInt8) (p : UInt8 → Prop) [DecidablePred p] : Decidable (∀ c ∈ s, p c) :=
  List.decidableBAll p s

def CR : UInt8 := 13
def LF : UInt8 := 10
def TAB : UInt8 := 9
def SP : UInt8 := 32

def isDigit (c : UInt8) : Bool := 48 ≤ c && c ≤ 57
def isUpper (c : UInt8) : Bool := 65 ≤ c && c ≤ 90
def isLower (c : UInt8) : Bool := 97 ≤ c && c ≤ 122
def isAlpha (c : UInt8) : Bool := isUpper c || isLower c
def isAlnum (c : UInt8) : Bool := isAlpha c || isDigit c
def isXdigit (c : UInt8) : Bool := isDigit c || (65 ≤ c && c ≤ 70) || (97 ≤ c && c ≤ 102)
def isSpace (c : UInt8) : Bool := c = 32 || (9 ≤ c && c ≤ 13)
def toLower (c : UInt8) : UInt8 := if isUpper c then c + 32 else c

/-- The C string stored at the start of a block of memory. -/
def cstr (s : List UInt8) : List UInt8 := s.takeWhile (· ≠ 0)

def strchr (set : List UInt8) (c : UInt8) : Bool := c = 0 || set.contains c

def toInt32 (x : Int) : Int := x.bmod (2 ^ 32)

def strncmp : List UInt8 → List UInt8 → Nat → Int
  | _, _, 0 => 0
  | a, b, n + 1 =>
      let x := a.headD 0
      let y := b.headD 0
      if x ≠ y then (x.toNat : Int) - y.toNat
      else if x = 0 then 0
      else strncmp a.tail b.tail n

def strncasecmp : List UInt8 → List UInt8 → Nat → Int
  | _, _, 0 => 0
  | a, b, n + 1 =>
      let x := toLower (a.headD 0)
      let y := toLower (b.headD 0)
      if x ≠ y then (x.toNat : Int) - y.toNat
      else if x = 0 then 0
      else strncasecmp a.tail b.tail n

def strstr (needle : List UInt8) : List UInt8 → Option Nat
  | [] => if needle = [] then some 0 else none
  | c :: rest =>
      if needle.isPrefixOf (c :: rest) then some 0 else (strstr needle rest).map (· + 1)

def digitVal (c : UInt8) : Nat :=
  if isDigit c then c.toNat - 48
  else if isUpper c then c.toNat - 55
  else if isLower c then c.toNat - 87
  else 99

def digitsValue (base : Nat) (ds : List UInt8) : Nat :=
  ds.foldl (fun acc c => acc * base + digitVal c) 0

def LONG_MAX : Int := 2 ^ 63 - 1
def LONG_MIN : Int := -2 ^ 63

/-- A numeral at the start of a string as `strtol` reads it: blanks, sign, an
optional `0x` in base 16, digits. The value is the unbounded one. -/
structure Numeral where
  value : Int
  length : Nat
  deriving DecidableEq, Repr

def signOf : List UInt8 → Bool × Nat
  | c :: _ => if c = 45 then (true, 1) else if c = 43 then (false, 1) else (false, 0)
  | [] => (false, 0)

def hexMark (base : Nat) : List UInt8 → Nat
  | z :: x :: d :: _ =>
      if base = 16 && z = 48 && (x = 120 || x = 88) && isXdigit d then 2 else 0
  | _ => 0

def numeral (base : Nat) (s : List UInt8) : Option Numeral :=
  let blanks := (s.takeWhile isSpace).length
  let sign := signOf (s.drop blanks)
  let body := (s.drop blanks).drop sign.2
  let mark := hexMark base body
  let ds := (body.drop mark).takeWhile (fun c => digitVal c < base)
  if ds = [] then none
  else
    let magnitude : Int := digitsValue base ds
    some ⟨if sign.1 then -magnitude else magnitude, blanks + sign.2 + mark + ds.length⟩

structure Strtol where
  num : Int
  /-- `end_ptr - nptr` -/
  endOff : Nat
  erange : Bool
  deriving DecidableEq, Repr

def strtol (base : Nat) (s : List UInt8) : Strtol :=
  match numeral base s with
  | none => ⟨0, 0, false⟩
  | some n =>
      if LONG_MAX < n.value then ⟨LONG_MAX, n.length, true⟩
      else if n.value < LONG_MIN then ⟨LONG_MIN, n.length, true⟩
      else ⟨n.value, n.length, false⟩

/-- One `%d` of `sscanf`: the value stored in an `int` and the rest of the input. -/
def scanInt (s : List UInt8) : Option (Int × List UInt8) :=
  let r := strtol 10 s
  if r.endOff = 0 then none else some (toInt32 r.num, s.drop r.endOff)

theorem forall_byte {p : UInt8 → Prop} (each : ∀ n : Fin 256, p (UInt8.ofFin n)) (c : UInt8) : p c := by
  simpa using each c.toFin

def skipSpace (s : List UInt8) : List UInt8 := s.dropWhile isSpace

theorem strtol_endOff (base : Nat) (s : List UInt8) :
    (strtol base s).endOff = ((numeral base s).map Numeral.length).getD 0 := by
  unfold strtol
  cases numeral base s with
  | none => rfl
  | some n =>
    simp only [Option.map_some, Option.getD_some]
    split_ifs <;> rfl

def isNumeralByte (c : UInt8) : Bool := isAlnum c || c = 43 || c = 45

theorem digitVal_numeralByte {base : Nat} (small : base ≤ 36) {c : UInt8}
    (other : isNumeralByte c = false) : ¬digitVal c < base := by
  have none : isAlnum c = false := by
    simp only [isNumeralByte, Bool.or_eq_false_iff] at other
    exact other.1.1
  simp only [isAlnum, isAlpha, Bool.or_eq_false_iff] at none
  obtain ⟨⟨upper, lower⟩, digit⟩ := none
  simp only [digitVal, upper, lower, digit, Bool.false_eq_true, if_false]
  omega

theorem takeWhile_append_stop {p : UInt8 → Bool} (s : List UInt8) {c : UInt8} (stop : p c = false)
    (rest : List UInt8) : (s ++ c :: rest).takeWhile p = s.takeWhile p := by
  have none : (c :: rest).takeWhile p = [] := by simp [stop]
  rw [List.takeWhile_append, none]
  split_ifs with whole
  · rw [List.append_nil, (List.takeWhile_prefix p).eq_of_length whole]
  · rfl

theorem hexMark_append_stop (base : Nat) (s : List UInt8) {c : UInt8}
    (stop : isNumeralByte c = false) (rest : List UInt8) :
    hexMark base (s ++ c :: rest) = hexMark base s := by
  have away : c ≠ 48 ∧ c ≠ 120 ∧ c ≠ 88 ∧ isXdigit c = false := by
    revert stop
    revert c
    apply forall_byte
    decide +kernel
  obtain ⟨zero, lower, upper, digit⟩ := away
  rcases s with _ | ⟨z, _ | ⟨x, _ | ⟨d, s⟩⟩⟩
  · rcases rest with _ | ⟨_, _ | _⟩ <;> simp [hexMark, zero]
  · rcases rest with _ | _ <;> simp [hexMark, lower, upper]
  · simp [hexMark, digit]
  · simp [hexMark]

theorem hexMark_le (base : Nat) (s : List UInt8) : hexMark base s ≤ s.length := by
  rcases s with _ | ⟨z, _ | ⟨x, _ | ⟨d, s⟩⟩⟩
  · simp [hexMark]
  · simp [hexMark]
  · simp [hexMark]
  · simp only [hexMark, List.length_cons]
    split_ifs <;> omega

theorem signOf_le (s : List UInt8) : (signOf s).2 ≤ s.length := by
  cases s with
  | nil => simp [signOf]
  | cons c s =>
    simp only [signOf, List.length_cons]
    split_ifs <;> simp

theorem numeral_append_stop {base : Nat} (small : base ≤ 36) {s : List UInt8} (some : s ≠ [])
    (text : ∀ c ∈ s, isSpace c = false) {c : UInt8} (stop : isNumeralByte c = false)
    (rest : List UInt8) : numeral base (s ++ c :: rest) = numeral base s := by
  have blank (t : List UInt8) : (s ++ t).takeWhile isSpace = [] := by
    cases s with
    | nil => exact absurd rfl some
    | cons d s => simp [text d (by simp)]
  have blank' : s.takeWhile isSpace = [] := by simpa using blank []
  have sign : signOf (s ++ c :: rest) = signOf s := by
    cases s with
    | nil => exact absurd rfl some
    | cons d s => rfl
  have body (t : List UInt8) : (s ++ t).drop (signOf s).2 = s.drop (signOf s).2 ++ t :=
    List.drop_append_of_le_length (signOf_le s)
  have mark (u t : List UInt8) :
      (u ++ t).drop (hexMark base u) = u.drop (hexMark base u) ++ t :=
    List.drop_append_of_le_length (hexMark_le base u)
  have digits := digitVal_numeralByte small stop
  simp only [numeral, blank, blank', List.length_nil, List.drop_zero, sign, body,
    hexMark_append_stop _ _ stop, mark]
  rw [takeWhile_append_stop _ (by simpa using digits)]

theorem drop_takeWhile_length (p : UInt8 → Bool) (s : List UInt8) :
    s.drop (s.takeWhile p).length = s.dropWhile p := by
  have whole := List.takeWhile_append_dropWhile (p := p) (l := s)
  calc s.drop (s.takeWhile p).length
      = (s.takeWhile p ++ s.dropWhile p).drop (s.takeWhile p).length := by rw [whole]
    _ = s.dropWhile p := List.drop_left

theorem dropWhile_head (p : UInt8 → Bool) (s : List UInt8) :
    ∀ c ∈ (s.dropWhile p).head?, p c = false := by
  intro c member
  cases tail : s.dropWhile p with
  | nil => simp [tail] at member
  | cons d t =>
    have head := List.head_dropWhile_not p (w := by rw [tail]; nofun)
    simp only [tail, List.head?_cons, Option.mem_def, Option.some.injEq] at member
    subst member
    simpa [tail] using head

theorem digitVal_decimal (c : UInt8) : decide (digitVal c < 10) = isDigit c := by
  revert c
  apply forall_byte
  decide +kernel

theorem hexMark_decimal (s : List UInt8) : hexMark 10 s = 0 := by
  unfold hexMark
  split
  · simp
  · rfl

def wholeNumber (base : Nat) (text : List UInt8) : Option Int :=
  (numeral base text).bind fun n => if n.length = text.length then some n.value else none

theorem wholeNumber_some {base : Nat} {text : List UInt8} {value : Int}
    (number : wholeNumber base text = some value) :
    ∃ n, numeral base text = some n ∧ n.length = text.length ∧ n.value = value := by
  unfold wholeNumber at number
  cases found : numeral base text with
  | none => simp [found] at number
  | some n =>
    simp only [found, Option.bind_some] at number
    split_ifs at number with whole
    exact ⟨n, rfl, whole, Option.some.inj number⟩

theorem toInt32_emod (x : Int) : toInt32 x % 2 ^ 32 = x % 2 ^ 32 := by
  unfold toInt32
  exact Int.bmod_emod

theorem wholeNumber_of_strtol {base : Nat} {text : List UInt8} (nonempty : text ≠ [])
    (positive : 0 ≤ (strtol base text).num) (whole : (strtol base text).endOff = text.length)
    (clipped : ¬((strtol base text).num = LONG_MAX ∧ (strtol base text).erange = true)) :
    wholeNumber base text = some (strtol base text).num := by
  unfold strtol at positive whole clipped ⊢
  unfold wholeNumber
  cases found : numeral base text with
  | none =>
    rw [found] at whole
    exact absurd (List.length_eq_zero_iff.mp whole.symm) nonempty
  | some n =>
    rw [found] at positive whole clipped
    dsimp only at positive whole clipped ⊢
    split_ifs at positive whole clipped ⊢ with high low
    · exact absurd ⟨rfl, rfl⟩ clipped
    · exact absurd (show 0 ≤ LONG_MIN from positive) (by decide)
    · rw [Option.bind_some, if_pos whole]

/-- The shape of a decimal numeral: blanks, a sign, digits, and no digit behind them. -/
structure DecimalShape (s : List UInt8) (n : Numeral) where
  blanks : List UInt8
  sign : List UInt8
  digits : List UInt8
  rest : List UInt8
  whole : s = blanks ++ (sign ++ (digits ++ rest))
  blank : ∀ c ∈ blanks, isSpace c = true
  signed : sign = [] ∨ sign = [45] ∨ sign = [43]
  some : digits ≠ []
  digit : ∀ c ∈ digits, isDigit c = true
  ends : ∀ c ∈ rest.head?, isDigit c = false
  length : n.length = blanks.length + sign.length + digits.length
  value : n.value = if sign = [45] then -(digitsValue 10 digits : Int) else digitsValue 10 digits

theorem signOf_split (s : List UInt8) :
    ∃ sign, s = sign ++ s.drop (signOf s).2 ∧ sign.length = (signOf s).2 ∧
      (sign = [] ∨ sign = [45] ∨ sign = [43]) ∧ ((signOf s).1 = true ↔ sign = [45]) := by
  cases s with
  | nil => exact ⟨[], rfl, rfl, .inl rfl, by simp [signOf]⟩
  | cons c s =>
    simp only [signOf]
    split_ifs with minus plus
    · exact ⟨[45], by simp [minus], rfl, .inr (.inl rfl), by simp⟩
    · exact ⟨[43], by simp [plus], rfl, .inr (.inr rfl), by simp⟩
    · exact ⟨[], rfl, rfl, .inl rfl, by simp⟩

theorem numeral_decimal {s : List UInt8} {n : Numeral} (found : numeral 10 s = some n) :
    Nonempty (DecimalShape s n) := by
  unfold numeral at found
  simp only [hexMark_decimal, List.drop_zero, digitVal_decimal, drop_takeWhile_length] at found
  obtain ⟨sign, split, size, signed, minus⟩ := signOf_split (s.dropWhile isSpace)
  set body := (s.dropWhile isSpace).drop (signOf (s.dropWhile isSpace)).2
  have run := List.takeWhile_append_dropWhile (p := isDigit) (l := body)
  split_ifs at found with empty negative
  all_goals
    simp only [Option.some.injEq] at found
    subst found
    refine ⟨s.takeWhile isSpace, sign, body.takeWhile isDigit, body.dropWhile isDigit, ?_,
      fun c member => List.mem_takeWhile_imp member, signed, empty,
      fun c member => List.mem_takeWhile_imp member, dropWhile_head _ _, ?_, ?_⟩
    · rw [run, ← split, List.takeWhile_append_dropWhile]
    · rw [size]
      rfl
  · rw [if_pos (minus.mp negative)]
  · rw [if_neg (fun same => negative (minus.mpr same))]

theorem cstr_noNul (s : List UInt8) : 0 ∉ cstr s := by
  intro member
  simpa using List.mem_takeWhile_imp member

theorem cstr_eq_self {s : List UInt8} (noNul : 0 ∉ s) : cstr s = s := by
  apply List.takeWhile_eq_self_iff.mpr
  intro c member
  have some : c ≠ 0 := fun zero => noNul (zero ▸ member)
  simpa using some

/-- Comparing against a literal over its whole length asks whether the string starts with it. -/
theorem strncmp_literal {literal : List UInt8} (s : List UInt8) (noNul : 0 ∉ literal) :
    strncmp s literal literal.length = 0 ↔ literal <+: s := by
  induction literal generalizing s with
  | nil => simp [strncmp]
  | cons c rest step =>
    simp only [List.mem_cons, not_or] at noNul
    obtain ⟨notNul, noNul⟩ := noNul
    cases s with
    | nil =>
      simp only [List.length_cons, strncmp, List.headD_nil, List.headD_cons, List.prefix_nil,
        reduceCtorEq, iff_false]
      rw [if_pos notNul]
      have := UInt8.toNat_inj.ne.mpr notNul
      simp only [UInt8.toNat_zero] at this ⊢
      omega
    | cons d s =>
      rw [List.cons_prefix_cons]
      by_cases same : c = d
      · subst same
        have stays : c ≠ 0 := Ne.symm notNul
        simp [strncmp, stays, step s noNul]
      · have differ := UInt8.toNat_inj.ne.mpr (Ne.symm same)
        simp only [same, false_and, iff_false]
        simp only [List.length_cons, strncmp, List.headD_cons, ne_eq, Ne.symm same,
          not_false_eq_true, if_true]
        omega

end Pupnp.CString
