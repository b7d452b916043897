import Pupnp.Ixml.Copy

/-! Texts given by their characters: how they are encoded, and that they copy to themselves. -/

namespace Pupnp.Ixml
open CString

def encode (chars : List Int) : List UInt8 := chars.flatMap parserIntToUTF8

def XmlText (chars : List Int) : Prop := ∀ c ∈ chars, parserIsXmlChar c = true

theorem encode_cons (c : Int) (chars : List Int) : encode (c :: chars) = parserIntToUTF8 c ++ encode chars := rfl

theorem encode_ascii {s : List UInt8} (ascii : ∀ b ∈ s, b ≤ 127) : encode (s.map fun b => (b.toNat : Int)) = s := by
  induction s with
  | nil => rfl
  | cons b s ih =>
    have low := UInt8.le_iff_toNat_le.mp (ascii b List.mem_cons_self)
    change b.toNat ≤ 127 at low
    rw [List.map_cons, encode_cons, parserIntToUTF8_ascii (by omega) (by omega),
      ih fun d member => ascii d (List.mem_cons_of_mem _ member), Int.toNat_natCast, UInt8.ofNat_toNat]
    rfl

theorem parserIsXmlChar_bounds {c : Int} (char : parserIsXmlChar c = true) : 0 < c ∧ c ≤ 0x1FFFFF := by
  have positive := parserIsXmlChar_pos char
  have bound := parserIsXmlChar_le char
  omega

/-! ### A text without references copies to itself -/

theorem copiedChar_encode {c : Int} (positive : 0 ≤ c) (bound : c ≤ 0x1FFFFF) :
    copiedChar c (parserIntToUTF8 c).length = parserIntToUTF8 c := by
  unfold copiedChar
  split
  next one =>
    by_cases ascii : c ≤ 127
    · exact (parserIntToUTF8_ascii positive ascii).symm
    · exfalso
      revert one
      unfold parserIntToUTF8
      dsimp only
      rw [if_neg (by omega), if_neg ascii]
      split_ifs <;> simp
  next => rfl

section Copies
variable {errorChar : Int}

theorem parserGetChar_encode {c : Int} (xml : parserIsXmlChar c = true) (other : c ≠ 38) (rest : List UInt8) :
    parserGetChar errorChar (parserIntToUTF8 c ++ rest) = some (c, (parserIntToUTF8 c).length) := by
  obtain ⟨positive, bound⟩ := parserIsXmlChar_bounds xml
  have read := @parserUTF8ToInt_encode errorChar c (Int.le_of_lt positive) bound rest
  have noAmp : octet (parserIntToUTF8 c ++ rest) 0 ≠ 38 := by
    intro amp
    rw [parserUTF8ToInt_ascii (by omega), amp] at read
    exact other (Prod.mk.inj read).1.symm
  rw [parserGetChar_utf8 noAmp (by rw [read]; exact xml), read]

theorem copyLoop_encode {chars : List Int} (xml : XmlText chars) (noAmp : 38 ∉ chars)
    (rest tokenBuf : List UInt8) :
    copyLoop errorChar (encode chars ++ rest) (encode chars).length tokenBuf =
      .ok (true, tokenBuf ++ encode chars) := by
  induction chars generalizing tokenBuf with
  | nil =>
    rw [encode, List.flatMap_nil, List.length_nil, copyLoop_done, List.append_nil]
  | cons c chars ih =>
    have char := xml c List.mem_cons_self
    obtain ⟨positive, bound⟩ := parserIsXmlChar_bounds char
    rw [List.mem_cons, not_or] at noAmp
    have read := @parserGetChar_encode errorChar c char (Ne.symm noAmp.1) (encode chars ++ rest)
    have same := copiedChar_encode (Int.le_of_lt positive) bound
    have some : copiedChar c (parserIntToUTF8 c).length ≠ [] := by
      rw [same]
      exact parserIntToUTF8_some positive (by omega)
    rw [encode_cons, List.append_assoc, List.length_append,
      copyLoop_char read positive (Nat.le_add_right _ _) some, List.drop_left, Nat.add_sub_cancel_left, same,
      ih (fun d member => xml d (List.mem_cons_of_mem _ member)) noAmp.2, List.append_assoc]

end Copies

theorem mem_encode {chars : List Int} (xml : XmlText chars) {b : UInt8} (ascii : b ≤ 127) :
    b ∈ encode chars ↔ (b.toNat : Int) ∈ chars := by
  have low := UInt8.le_iff_toNat_le.mp ascii
  change b.toNat ≤ 127 at low
  unfold encode
  rw [List.mem_flatMap]
  constructor
  · rintro ⟨c, member, inside⟩
    obtain ⟨positive, bound⟩ := parserIsXmlChar_bounds (xml c member)
    by_cases small : c ≤ 127
    · rw [parserIntToUTF8_ascii (Int.le_of_lt positive) small, List.mem_singleton] at inside
      have value := congrArg UInt8.toNat inside
      rw [UInt8.toNat_ofNat'] at value
      have same : c = (b.toNat : Int) := by omega
      exact same ▸ member
    · have high := UInt8.le_iff_toNat_le.mp (parserIntToUTF8_high (by omega) b inside)
      change 128 ≤ b.toNat at high
      omega
  · intro member
    refine ⟨_, member, ?_⟩
    rw [parserIntToUTF8_ascii (by omega) (by omega), Int.toNat_natCast, UInt8.ofNat_toNat]
    exact List.mem_singleton_self b

end Pupnp.Ixml
