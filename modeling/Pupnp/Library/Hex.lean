import Pupnp.Library.CString

/-! Numbers as `printf` writes them in base 16, read back by `strtol`. -/

namespace Pupnp.CString

def hexDigit (n : Nat) : UInt8 := UInt8.ofNat (if n < 10 then 48 + n else 87 + n)

def hexDigits (n : Nat) : List UInt8 :=
  if n < 16 then [hexDigit n] else hexDigits (n / 16) ++ [hexDigit (n % 16)]

theorem hexDigit_spec : ∀ n < 16, digitVal (hexDigit n) = n ∧ isXdigit (hexDigit n) = true := by
  decide

theorem hexDigits_ne_nil (n : Nat) : hexDigits n ≠ [] := by
  rw [hexDigits]
  split
  · exact List.cons_ne_nil _ _
  · exact List.append_ne_nil_of_right_ne_nil _ (List.cons_ne_nil _ _)

theorem hexDigits_isXdigit (n : Nat) : ∀ c ∈ hexDigits n, isXdigit c = true := by
  induction n using hexDigits.induct with
  | case1 n small =>
    rw [hexDigits, if_pos small]
    intro c member
    rw [List.mem_singleton.mp member]
    exact (hexDigit_spec n small).2
  | case2 n large ih =>
    rw [hexDigits, if_neg large]
    intro c member
    obtain before | last := List.mem_append.mp member
    · exact ih c before
    · rw [List.mem_singleton.mp last]
      exact (hexDigit_spec (n % 16) (by omega)).2

theorem digitsValue_snoc (base : Nat) (ds : List UInt8) (c : UInt8) :
    digitsValue base (ds ++ [c]) = digitsValue base ds * base + digitVal c := by
  simp [digitsValue]

theorem digitsValue_append (base : Nat) (front : List UInt8) : ∀ back : List UInt8,
    digitsValue base (front ++ back) = digitsValue base front * base ^ back.length + digitsValue base back := by
  intro back
  induction back using List.reverseRecOn with
  | nil => simp [digitsValue]
  | append_singleton back c ih =>
    rw [← List.append_assoc, digitsValue_snoc, digitsValue_snoc, ih, List.length_append, List.length_singleton,
      Nat.pow_succ, Nat.add_mul, Nat.mul_assoc, Nat.add_assoc]

theorem digitsValue_hexDigits (n : Nat) : digitsValue 16 (hexDigits n) = n := by
  induction n using hexDigits.induct with
  | case1 n small =>
    rw [hexDigits, if_pos small]
    simpa [digitsValue] using (hexDigit_spec n small).1
  | case2 n large ih =>
    rw [hexDigits, if_neg large, digitsValue_snoc, ih, (hexDigit_spec (n % 16) (by omega)).1]
    omega

theorem hexDigits_length {k n : Nat} (small : n < 16 ^ (k + 1)) : (hexDigits n).length ≤ k + 1 := by
  induction k generalizing n with
  | zero =>
    rw [hexDigits, if_pos (by simpa using small)]
    exact Nat.le_refl _
  | succ k ih =>
    rw [hexDigits]
    split
    · simp
    · have shorter := @ih (n / 16) (by rw [Nat.pow_succ] at small; omega)
      rw [List.length_append, List.length_singleton]
      omega

theorem isXdigit_spec {c : UInt8} (digit : isXdigit c = true) :
    digitVal c < 16 ∧ isSpace c = false ∧ c ≠ 45 ∧ c ≠ 43 ∧ c ≠ 120 ∧ c ≠ 88 := by
  revert digit
  revert c
  apply forall_byte
  decide +kernel

theorem numeral_hex {text : List UInt8} (nonempty : text ≠ [])
    (digits : ∀ c ∈ text, isXdigit c = true) :
    numeral 16 text = some ⟨digitsValue 16 text, text.length⟩ := by
  have blanks : text.takeWhile isSpace = [] := by
    rw [List.takeWhile_eq_nil_iff]
    intro inside
    simp [(isXdigit_spec (digits _ (List.getElem_mem inside))).2.1]
  have sign : signOf text = (false, 0) := by
    cases text with
    | nil => rfl
    | cons c rest =>
      obtain ⟨-, -, minus, plus, -⟩ := isXdigit_spec (digits c List.mem_cons_self)
      simp [signOf, minus, plus]
  have mark : hexMark 16 text = 0 := by
    unfold hexMark
    split
    next z x d rest =>
      obtain ⟨-, -, -, -, lower, upper⟩ := isXdigit_spec (digits x (by simp))
      simp [lower, upper]
    next => rfl
  have run : text.takeWhile (fun c => digitVal c < 16) = text := by
    rw [List.takeWhile_eq_self_iff]
    intro c member
    simpa using (isXdigit_spec (digits c member)).1
  simp [numeral, blanks, sign, mark, run, nonempty]

theorem strtol_hex {text : List UInt8} (nonempty : text ≠ [])
    (digits : ∀ c ∈ text, isXdigit c = true) (fits : digitsValue 16 text < 2 ^ 63) :
    strtol 16 text = ⟨digitsValue 16 text, text.length, false⟩ := by
  rw [strtol, numeral_hex nonempty digits]
  simp only
  rw [if_neg (by unfold LONG_MAX; omega), if_neg (by unfold LONG_MIN; omega)]

theorem wholeNumber_hexDigits (n : Nat) : wholeNumber 16 (hexDigits n) = some (n : Int) := by
  rw [wholeNumber, numeral_hex (hexDigits_ne_nil n) (hexDigits_isXdigit n), Option.bind_some,
    if_pos rfl, digitsValue_hexDigits]

end Pupnp.CString
