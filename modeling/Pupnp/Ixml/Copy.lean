import Pupnp.Ixml.Encoding

/-! What a text is copied to: the octets of a character, and the digits of a reference. -/

namespace Pupnp.Ixml
open CString

/-! ### Octets of one character -/

theorem or_high (m n : Nat) (high : 128 ≤ UInt8.ofNat m) : 128 ≤ UInt8.ofNat (m ||| n) := by
  rw [UInt8.ofNat_or, UInt8.le_iff_toNat_le, UInt8.toNat_or]
  exact (UInt8.le_iff_toNat_le.mp high).trans Nat.left_le_or

theorem parserIntToUTF8_high {c : Int} (wide : 127 < c) : ∀ b ∈ parserIntToUTF8 c, 128 ≤ b := by
  unfold parserIntToUTF8
  dsimp only
  rw [if_neg (by omega), if_neg (by omega)]
  split_ifs
  all_goals
    intro b member
    simp only [List.mem_cons, List.not_mem_nil, or_false] at member
  · rcases member with rfl | rfl <;> exact or_high _ _ (by decide)
  · rcases member with rfl | rfl | rfl <;> exact or_high _ _ (by decide)
  · rcases member with rfl | rfl | rfl | rfl <;> exact or_high _ _ (by decide)
  · rcases member with rfl | rfl | rfl | rfl | rfl <;> exact or_high _ _ (by decide)
  · rcases member with rfl | rfl | rfl | rfl | rfl | rfl <;> exact or_high _ _ (by decide)

theorem parserIntToUTF8_ascii {c : Int} (positive : 0 ≤ c) (ascii : c ≤ 127) :
    parserIntToUTF8 c = [UInt8.ofNat c.toNat] := by
  unfold parserIntToUTF8
  rw [if_neg (by omega)]
  dsimp only
  rw [if_pos ascii]

/-! ### References -/

theorem refSum_few {base : Int} {digits s rest : List UInt8} {sum total : Int}
    (summed : refSum base digits s sum = some (total, rest)) :
    rest <:+ s ∧ (rest.length = s.length → total = sum) ∧
      (rest.length + 1 = s.length → ∃ d, total = toInt32 (sum * base + refDigit d)) := by
  induction s generalizing sum with
  | nil => cases summed
  | cons c s ih =>
    unfold refSum at summed
    split at summed
    next =>
      obtain ⟨behind, zero, -⟩ := ih summed
      have inside := behind.length_le
      refine ⟨behind.trans (List.suffix_cons c s), ?_, ?_⟩
      · rw [List.length_cons]
        omega
      · intro one
        rw [List.length_cons] at one
        exact ⟨c, zero (by omega)⟩
    next =>
      cases summed
      exact ⟨List.suffix_refl _, fun _ => rfl, fun one => absurd one (Nat.succ_ne_self _)⟩

theorem parserIsXmlChar_le {c : Int} (char : parserIsXmlChar c = true) : c ≤ 0x10FFFF := by
  simp only [parserIsXmlChar, Bool.or_eq_true, Bool.and_eq_true, decide_eq_true_eq] at char
  omega

end Pupnp.Ixml
