import Pupnp.Ixml.Token

/-! A character that `Parser_intToUTF8` writes is the one that is read. -/

namespace Pupnp.Ixml
open CString

/-! ### Octets -/

theorem trail_octet {k : Nat} (small : k < 64) :
    (UInt8.ofNat (0x80 ||| k)).toNat &&& 0xC0 = 0x80 ∧ (UInt8.ofNat (0x80 ||| k)).toNat &&& 0x3F = k := by
  revert k
  decide

theorem lead_octet_two {m : Nat} (small : m < 32) :
    (UInt8.ofNat (0xC0 ||| m)).toNat &&& 0xE0 = 0xC0 ∧ (UInt8.ofNat (0xC0 ||| m)).toNat &&& 0x1F = m ∧
      127 < (UInt8.ofNat (0xC0 ||| m)).toNat := by
  revert m
  decide

theorem lead_octet_three {m : Nat} (small : m < 16) :
    (UInt8.ofNat (0xE0 ||| m)).toNat &&& 0xE0 ≠ 0xC0 ∧ (UInt8.ofNat (0xE0 ||| m)).toNat &&& 0xF0 = 0xE0 ∧
      (UInt8.ofNat (0xE0 ||| m)).toNat &&& 0x0F = m ∧ 127 < (UInt8.ofNat (0xE0 ||| m)).toNat := by
  revert m
  decide

theorem lead_octet_four {m : Nat} (small : m < 8) :
    (UInt8.ofNat (0xF0 ||| m)).toNat &&& 0xE0 ≠ 0xC0 ∧ (UInt8.ofNat (0xF0 ||| m)).toNat &&& 0xF0 ≠ 0xE0 ∧
      (UInt8.ofNat (0xF0 ||| m)).toNat &&& 0xF8 = 0xF0 ∧ (UInt8.ofNat (0xF0 ||| m)).toNat &&& 0x07 = m ∧
      127 < (UInt8.ofNat (0xF0 ||| m)).toNat := by
  revert m
  decide

theorem low_bits (n : Nat) : n &&& 0x3F = n % 64 := Nat.and_two_pow_sub_one_eq_mod n 6

theorem join_bits (m shift : Nat) {k : Nat} (small : k < 2 ^ shift) : m <<< shift ||| k = m * 2 ^ shift + k := by
  rw [← Nat.shiftLeft_add_eq_or_of_lt small, Nat.shiftLeft_eq]

section Characters
variable {errorChar : Int}

theorem parserUTF8ToInt_two {m k : Nat} (lead : m < 32) (low : k < 64) (rest : List UInt8) :
    parserUTF8ToInt errorChar (UInt8.ofNat (0xC0 ||| m) :: UInt8.ofNat (0x80 ||| k) :: rest) =
      (((m * 2 ^ 6 + k : Nat) : Int), 2) := by
  obtain ⟨mark, value, wide⟩ := lead_octet_two lead
  obtain ⟨mark₁, value₁⟩ := trail_octet low
  unfold parserUTF8ToInt
  simp only [octet, isTrail, trail, List.getD_cons_zero, List.getD_cons_succ, mark, value, mark₁, value₁,
    decide_true, Bool.and_self, if_true]
  rw [if_neg (by omega), join_bits m 6 low]

theorem parserUTF8ToInt_three {m j k : Nat} (lead : m < 16) (middle : j < 64) (low : k < 64)
    (rest : List UInt8) :
    parserUTF8ToInt errorChar
      (UInt8.ofNat (0xE0 ||| m) :: UInt8.ofNat (0x80 ||| j) :: UInt8.ofNat (0x80 ||| k) :: rest) =
      (((m * 2 ^ 12 + j * 2 ^ 6 + k : Nat) : Int), 3) := by
  obtain ⟨other, mark, value, wide⟩ := lead_octet_three lead
  obtain ⟨mark₁, value₁⟩ := trail_octet middle
  obtain ⟨mark₂, value₂⟩ := trail_octet low
  unfold parserUTF8ToInt
  simp only [octet, isTrail, trail, List.getD_cons_zero, List.getD_cons_succ, mark, value, mark₁, value₁,
    mark₂, value₂, other, decide_false, Bool.false_and, Bool.false_eq_true, if_false, decide_true,
    Bool.and_self, if_true]
  rw [if_neg (by omega), Nat.or_assoc, join_bits j 6 low, join_bits m 12 (by omega), Nat.add_assoc]

theorem parserUTF8ToInt_four {m i j k : Nat} (lead : m < 8) (high : i < 64) (middle : j < 64) (low : k < 64)
    (rest : List UInt8) :
    parserUTF8ToInt errorChar (UInt8.ofNat (0xF0 ||| m) :: UInt8.ofNat (0x80 ||| i) ::
      UInt8.ofNat (0x80 ||| j) :: UInt8.ofNat (0x80 ||| k) :: rest) =
      (((m * 2 ^ 18 + i * 2 ^ 12 + j * 2 ^ 6 + k : Nat) : Int), 4) := by
  obtain ⟨other, other', mark, value, wide⟩ := lead_octet_four lead
  obtain ⟨mark₁, value₁⟩ := trail_octet high
  obtain ⟨mark₂, value₂⟩ := trail_octet middle
  obtain ⟨mark₃, value₃⟩ := trail_octet low
  unfold parserUTF8ToInt
  simp only [octet, isTrail, trail, List.getD_cons_zero, List.getD_cons_succ, mark, value, mark₁, value₁,
    mark₂, value₂, mark₃, value₃, other, other', decide_false, Bool.false_and, Bool.false_eq_true, if_false,
    decide_true, Bool.and_self, if_true]
  rw [if_neg (by omega), Nat.or_assoc, Nat.or_assoc, join_bits j 6 low, join_bits i 12 (by omega),
    join_bits m 18 (by omega)]
  simp only [Nat.add_assoc]

theorem parserUTF8ToInt_encode {c : Int} (positive : 0 ≤ c) (bound : c ≤ 0x1FFFFF) (rest : List UInt8) :
    parserUTF8ToInt errorChar (parserIntToUTF8 c ++ rest) = (c, (parserIntToUTF8 c).length) := by
  obtain ⟨n, rfl⟩ := Int.eq_ofNat_of_zero_le positive
  unfold parserIntToUTF8
  simp only [Int.toNat_natCast, Nat.shiftRight_eq_div_pow, low_bits]
  rw [if_neg (by omega)]
  split_ifs with one two three
  · have ascii : octet ([UInt8.ofNat n] ++ rest) 0 = n := by
      change (UInt8.ofNat n).toNat = n
      rw [UInt8.toNat_ofNat']
      omega
    rw [parserUTF8ToInt_ascii (by omega), ascii]
    rfl
  · have read := @parserUTF8ToInt_two errorChar (n / 2 ^ 6) (n / 2 ^ 0 % 64) (by omega) (by omega) rest
    have whole : n / 2 ^ 6 * 2 ^ 6 + n / 2 ^ 0 % 64 = n := by omega
    rw [whole] at read
    exact read
  · have read := @parserUTF8ToInt_three errorChar (n / 2 ^ 12) (n / 2 ^ 6 % 64) (n / 2 ^ 0 % 64) (by omega)
      (by omega) (by omega) rest
    have whole : n / 2 ^ 12 * 2 ^ 12 + n / 2 ^ 6 % 64 * 2 ^ 6 + n / 2 ^ 0 % 64 = n := by omega
    rw [whole] at read
    exact read
  · have read := @parserUTF8ToInt_four errorChar (n / 2 ^ 18) (n / 2 ^ 12 % 64) (n / 2 ^ 6 % 64)
      (n / 2 ^ 0 % 64) (by omega) (by omega) (by omega) (by omega) rest
    have whole : n / 2 ^ 18 * 2 ^ 18 + n / 2 ^ 12 % 64 * 2 ^ 12 + n / 2 ^ 6 % 64 * 2 ^ 6 + n / 2 ^ 0 % 64 = n := by
      omega
    rw [whole] at read
    exact read

end Characters

end Pupnp.Ixml
