import Pupnp.Library.Hex

/-! Numbers as `printf` writes them in base 10, read back by `strtol`. -/

namespace Pupnp.CString

def decimalDigit (n : Nat) : UInt8 := UInt8.ofNat (48 + n)

def decimalDigits (n : Nat) : List UInt8 :=
  if n < 10 then [decimalDigit n] else decimalDigits (n / 10) ++ [decimalDigit (n % 10)]

theorem decimalDigit_spec : ∀ n < 10, digitVal (decimalDigit n) = n ∧ isDigit (decimalDigit n) = true := by
  decide

theorem decimalDigits_ne_nil (n : Nat) : decimalDigits n ≠ [] := by
  rw [decimalDigits]
  split
  · exact List.cons_ne_nil _ _
  · exact List.append_ne_nil_of_right_ne_nil _ (List.cons_ne_nil _ _)

theorem decimalDigits_isDigit (n : Nat) : ∀ c ∈ decimalDigits n, isDigit c = true := by
  induction n using decimalDigits.induct with
  | case1 n small =>
    rw [decimalDigits, if_pos small]
    intro c member
    rw [List.mem_singleton.mp member]
    exact (decimalDigit_spec n small).2
  | case2 n large ih =>
    rw [decimalDigits, if_neg large]
    intro c member
    obtain before | last := List.mem_append.mp member
    · exact ih c before
    · rw [List.mem_singleton.mp last]
      exact (decimalDigit_spec (n % 10) (by omega)).2

theorem digitsValue_decimalDigits (n : Nat) : digitsValue 10 (decimalDigits n) = n := by
  induction n using decimalDigits.induct with
  | case1 n small =>
    rw [decimalDigits, if_pos small]
    simpa [digitsValue] using (decimalDigit_spec n small).1
  | case2 n large ih =>
    rw [decimalDigits, if_neg large, digitsValue_snoc, ih, (decimalDigit_spec (n % 10) (by omega)).1]
    omega

theorem decimalDigits_length {k n : Nat} (small : n < 10 ^ (k + 1)) : (decimalDigits n).length ≤ k + 1 := by
  induction k generalizing n with
  | zero =>
    rw [decimalDigits, if_pos (by omega)]
    exact le_rfl
  | succ k ih =>
    rw [decimalDigits]
    split
    · rw [List.length_singleton]
      omega
    · have before : (decimalDigits (n / 10)).length ≤ k + 1 := ih (by omega)
      rw [List.length_append, List.length_singleton]
      omega

theorem isDigit_spec {c : UInt8} (digit : isDigit c = true) :
    digitVal c < 10 ∧ isSpace c = false ∧ c ≠ 45 ∧ c ≠ 43 := by
  revert digit
  revert c
  apply forall_byte
  decide +kernel

theorem numeral_blanks (base : Nat) {blanks : List UInt8} (spaces : ∀ c ∈ blanks, isSpace c = true)
    (text : List UInt8) : numeral base (blanks ++ text) =
      (numeral base text).map fun n => ⟨n.value, blanks.length + n.length⟩ := by
  have run : ((blanks ++ text).takeWhile isSpace).length = blanks.length + (text.takeWhile isSpace).length := by
    rw [List.takeWhile_append_of_pos spaces, List.length_append]
  have rest : (blanks ++ text).drop (blanks.length + (text.takeWhile isSpace).length) =
      text.drop (text.takeWhile isSpace).length := by
    rw [List.drop_append, List.drop_eq_nil_of_le (by omega), List.nil_append, Nat.add_sub_cancel_left]
  unfold numeral
  rw [run]
  dsimp only
  rw [rest]
  split_ifs
  · rfl
  all_goals
    simp only [Option.map_some, Option.some.injEq, Numeral.mk.injEq, true_and]
    omega

theorem numeral_digits_append {text rest : List UInt8} (nonempty : text ≠ [])
    (digits : ∀ c ∈ text, isDigit c = true) (stop : ∀ c ∈ rest.head?, ¬digitVal c < 10) :
    numeral 10 (text ++ rest) = some ⟨digitsValue 10 text, text.length⟩ := by
  obtain ⟨first, others, shape⟩ := List.exists_cons_of_ne_nil nonempty
  obtain ⟨-, noSpace, minus, plus⟩ := isDigit_spec (digits first (by rw [shape]; exact List.mem_cons_self))
  have blanks : (text ++ rest).takeWhile isSpace = [] := by
    rw [shape, List.cons_append, List.takeWhile_cons, noSpace]
    rfl
  have sign : signOf (text ++ rest) = (false, 0) := by
    rw [shape]
    simp [signOf, minus, plus]
  have run : (text ++ rest).takeWhile (fun c => digitVal c < 10) = text := by
    rw [List.takeWhile_append_of_pos (by simpa using fun c member => (isDigit_spec (digits c member)).1)]
    cases rest with
    | nil => simp
    | cons c rest =>
      have other := stop c rfl
      rw [List.takeWhile_cons_of_neg (by simpa using other), List.append_nil]
  simp [numeral, blanks, sign, hexMark_decimal, run, nonempty]

theorem numeral_digits {text : List UInt8} (nonempty : text ≠ [])
    (digits : ∀ c ∈ text, isDigit c = true) :
    numeral 10 text = some ⟨digitsValue 10 text, text.length⟩ := by
  have whole := @numeral_digits_append text [] nonempty digits nofun
  rwa [List.append_nil] at whole

theorem strtol_digits_append {text rest : List UInt8} (nonempty : text ≠ [])
    (digits : ∀ c ∈ text, isDigit c = true) (stop : ∀ c ∈ rest.head?, ¬digitVal c < 10)
    (fits : digitsValue 10 text < 2 ^ 31) : toInt32 (strtol 10 (text ++ rest)).num = digitsValue 10 text := by
  rw [strtol, numeral_digits_append nonempty digits stop]
  simp only
  rw [if_neg (by unfold LONG_MAX; omega), if_neg (by unfold LONG_MIN; omega)]
  simp only [toInt32, Int.bmod]
  omega

theorem strtol_digits {text : List UInt8} (nonempty : text ≠ [])
    (digits : ∀ c ∈ text, isDigit c = true) (fits : digitsValue 10 text < 2 ^ 31) :
    toInt32 (strtol 10 text).num = digitsValue 10 text := by
  have whole := @strtol_digits_append text [] nonempty digits nofun fits
  rwa [List.append_nil] at whole

theorem decimalDigits_start_le {m n : Nat} (starts : decimalDigits m <+: decimalDigits n) : m ≤ n := by
  obtain ⟨rest, digits⟩ := starts
  calc
    m ≤ m * 10 ^ rest.length := Nat.le_mul_of_pos_right m (Nat.pow_pos (by decide))
    _ ≤ m * 10 ^ rest.length + digitsValue 10 rest := Nat.le_add_right _ _
    _ = digitsValue 10 (decimalDigits m ++ rest) := by rw [digitsValue_append, digitsValue_decimalDigits]
    _ = n := by rw [digits, digitsValue_decimalDigits]

end Pupnp.CString
