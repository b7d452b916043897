import Mathlib.Algebra.Group.Nat.Defs
import Mathlib.Data.List.GetD

/-!
The bits of a byte string in network order, and what a comparison under a mask or of the first bytes
says about them.
-/

namespace Pupnp.Bits

/-- Bit `i`, counted from the most significant one of the first byte; 0 behind the end. -/
def bitAt (s : List UInt8) (i : Nat) : Bool := (s.getD (i / 8) 0).toNat.testBit (7 - i % 8)

theorem byte_ext {a b : UInt8} (bits : ∀ j < 8, a.toNat.testBit j = b.toNat.testBit j) : a = b := by
  apply UInt8.toNat_inj.mp
  apply Nat.eq_of_testBit_eq
  intro j
  by_cases inside : j < 8
  · exact bits j inside
  · have above : 2 ^ 8 ≤ 2 ^ j := Nat.pow_le_pow_right (by decide) (by omega)
    rw [Nat.testBit_lt_two_pow (Nat.lt_of_lt_of_le a.toNat_lt above),
      Nat.testBit_lt_two_pow (Nat.lt_of_lt_of_le b.toNat_lt above)]

theorem bitAt_byte (s : List UInt8) (k : Nat) {j : Nat} (inside : j < 8) :
    bitAt s (8 * k + (7 - j)) = (s.getD k 0).toNat.testBit j := by
  have byte : (8 * k + (7 - j)) / 8 = k := by omega
  have place : 7 - (8 * k + (7 - j)) % 8 = j := by omega
  rw [bitAt, byte, place]

theorem getD_ext {s t : List UInt8} (same : s.length = t.length) (bytes : ∀ k < s.length, s.getD k 0 = t.getD k 0) :
    s = t := by
  apply List.ext_getElem same
  intro k inside inside'
  have here := bytes k inside
  rwa [List.getD_eq_getElem s 0 inside, List.getD_eq_getElem t 0 inside'] at here

theorem take_eq_iff {s t : List UInt8} (same : s.length = t.length) (n : Nat) :
    s.take n = t.take n ↔ ∀ i < 8 * n, bitAt s i = bitAt t i := by
  have front (u : List UInt8) {k : Nat} (inside : k < n) : (u.take n).getD k 0 = u.getD k 0 := by
    rw [List.getD_eq_getElem?_getD, List.getD_eq_getElem?_getD, List.getElem?_take_of_lt inside]
  constructor
  · intro equal i inside
    have byte : i / 8 < n := by omega
    rw [bitAt, bitAt, ← front s byte, ← front t byte, equal]
  · intro bits
    apply getD_ext (by rw [List.length_take, List.length_take, same])
    intro k inside
    have byte : k < n := by
      rw [List.length_take] at inside
      omega
    rw [front s byte, front t byte]
    apply byte_ext
    intro j inside
    rw [← bitAt_byte s k inside, ← bitAt_byte t k inside]
    exact bits _ (by omega)

section Masks
variable {mask s t : List UInt8}

theorem and_getD (same : mask.length = s.length) (k : Nat) :
    (List.zipWith (· &&& ·) mask s).getD k 0 = mask.getD k 0 &&& s.getD k 0 := by
  rw [List.getD_eq_getElem?_getD, List.getD_eq_getElem?_getD, List.getD_eq_getElem?_getD, List.getElem?_zipWith]
  by_cases inside : k < mask.length
  · rw [List.getElem?_eq_getElem inside, List.getElem?_eq_getElem (same ▸ inside)]
    rfl
  · rw [List.getElem?_eq_none (by omega), List.getElem?_eq_none (by omega)]
    rfl

theorem bitAt_and (same : mask.length = s.length) (i : Nat) :
    bitAt (List.zipWith (· &&& ·) mask s) i = (bitAt mask i && bitAt s i) := by
  rw [bitAt, and_getD same, UInt8.toNat_and, Nat.testBit_and]
  rfl

/-- Two strings are the same under a mask if they have the same bits where the mask has ones. -/
theorem and_eq_iff (length : mask.length = s.length) (length' : mask.length = t.length) :
    List.zipWith (· &&& ·) mask s = List.zipWith (· &&& ·) mask t ↔
      ∀ i, bitAt mask i = true → bitAt s i = bitAt t i := by
  constructor
  · intro equal i set
    have both := bitAt_and length i
    rw [equal, bitAt_and length' i, set, Bool.true_and, Bool.true_and] at both
    exact both.symm
  · intro bits
    apply getD_ext (by simp [← length, ← length'])
    intro k _
    apply byte_ext
    intro j inside
    rw [← bitAt_byte _ k inside, ← bitAt_byte _ k inside, bitAt_and length, bitAt_and length']
    cases set : bitAt mask (8 * k + (7 - j)) with
    | false => rfl
    | true => rw [bits _ set]

end Masks

end Pupnp.Bits
