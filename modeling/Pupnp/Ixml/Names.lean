import Pupnp.Ixml.Escape

/-! Names: what the parser copies for one, and that it reads a printed one back. -/

namespace Pupnp.Ixml
open CString

def NameChars (bNameChar : Bool) : List Int → Prop
  | [] => True
  | c :: chars => parserIsNameChar c bNameChar = true ∧ NameChars true chars

def NameText (name : List UInt8) : Prop :=
  ∃ c chars, name = encode (c :: chars) ∧ NameChars false (c :: chars)

theorem NameChars.xml {bNameChar : Bool} {chars : List Int} (name : NameChars bNameChar chars) : XmlText chars := by
  induction chars generalizing bNameChar with
  | nil =>
    intro c member
    cases member
  | cons c chars ih =>
    intro d member
    cases member with
    | head => exact (parserIsNameChar_xml name.1).1
    | tail _ later => exact ih name.2 d later

theorem parserIsNameChar_amp (bNameChar : Bool) : parserIsNameChar 38 bNameChar = false := by
  cases bNameChar <;> decide +kernel

theorem NameChars.noAmp {bNameChar : Bool} {chars : List Int} (name : NameChars bNameChar chars) : 38 ∉ chars := by
  induction chars generalizing bNameChar with
  | nil => exact List.not_mem_nil
  | cons c chars ih =>
    rw [List.mem_cons, not_or]
    refine ⟨?_, ih name.2⟩
    rintro rfl
    exact absurd name.1 (by rw [parserIsNameChar_amp]; decide)

theorem NameText.nonempty {name : List UInt8} (text : NameText name) : name ≠ [] := by
  obtain ⟨c, chars, rfl, first, -⟩ := text
  have bounds := parserIsXmlChar_bounds (parserIsNameChar_xml first).1
  rw [encode_cons]
  exact fun empty => parserIntToUTF8_some bounds.1 (by omega) (List.append_eq_nil_iff.mp empty).1

section Reading
variable {errorChar : Int}

theorem copyLoop_nameChars (char_ : errorChar ≤ 127) {s : List UInt8} {bNameChar : Bool} (tokenBuf : List UInt8) :
    ∃ chars, copyLoop errorChar s (nameLength errorChar bNameChar s) tokenBuf = .ok (true, tokenBuf ++ encode chars) ∧
      NameChars bNameChar chars ∧ (nameLength errorChar bNameChar s ≠ 0 → chars ≠ []) := by
  induction bNameChar, s using nameLength.induct errorChar generalizing tokenBuf with
  | case1 bNameChar s char ih =>
    have read := parserGetChar_name char
    have long := parserUTF8ToInt_length (parserIsNameChar_pos char)
    have positive := parserIsNameChar_pos char
    have small := (parserIsNameChar_xml char).2
    obtain ⟨inside, _⟩ : nameLength errorChar true (s.drop (parserUTF8ToInt errorChar s).2) ≤
        (s.drop (parserUTF8ToInt errorChar s).2).length ∧ True := by
      obtain ⟨_, _, _, bound⟩ := @copyLoop_name errorChar (s.drop (parserUTF8ToInt errorChar s).2) true []
      exact ⟨bound, trivial⟩
    rw [nameLength, dif_pos char]
    generalize parserUTF8ToInt errorChar s = found at *
    obtain ⟨c, cl⟩ := found
    dsimp only at *
    obtain ⟨-, octets⟩ := parserGetChar_readable char_ read positive
    have encoded : copiedChar c cl ≠ [] := by
      rw [octets]
      exact parserIntToUTF8_some positive (by omega)
    obtain ⟨chars, copied, name, -⟩ := ih (tokenBuf ++ copiedChar c cl)
    refine ⟨c :: chars, ?_, ⟨char, name⟩, fun _ => List.cons_ne_nil c chars⟩
    rw [List.length_drop] at inside
    rw [copyLoop_char read positive (by omega) encoded, Nat.add_sub_cancel_left, copied, encode_cons, octets,
      List.append_assoc]
  | case2 bNameChar s stop =>
    rw [nameLength, dif_neg stop, copyLoop_done]
    exact ⟨[], by rw [encode, List.flatMap_nil, List.append_nil], trivial, fun some => absurd rfl some⟩

theorem nameLength_encode {bNameChar : Bool} {chars : List Int} (name : NameChars bNameChar chars) {stop : UInt8}
    (ascii : stop ≤ 127) (ends : parserIsNameChar stop.toNat true = false) (rest : List UInt8) :
    nameLength errorChar bNameChar (encode chars ++ stop :: rest) = (encode chars).length := by
  induction chars generalizing bNameChar with
  | nil =>
    have low := UInt8.le_iff_toNat_le.mp ascii
    have noName : ¬parserIsNameChar stop.toNat bNameChar = true := by
      intro first
      have wider : parserIsNameChar stop.toNat true = true := by
        simp only [parserIsNameChar, Bool.or_eq_true, Bool.and_eq_true, true_and] at first ⊢
        exact first.imp id And.right
      rw [ends] at wider
      cases wider
    have read : (parserUTF8ToInt errorChar (stop :: rest)).1 = stop.toNat := by
      rw [parserUTF8ToInt_ascii]
      · rfl
      · exact low
    change nameLength errorChar bNameChar (stop :: rest) = 0
    rw [nameLength, dif_neg (by rw [read]; exact noName)]
  | cons c chars ih =>
    have xml := parserIsXmlChar_bounds (parserIsNameChar_xml name.1).1
    have read := @parserUTF8ToInt_encode errorChar c (Int.le_of_lt xml.1) xml.2 (encode chars ++ stop :: rest)
    rw [encode_cons, List.append_assoc, nameLength, dif_pos (by rw [read]; exact name.1), read]
    dsimp only
    rw [List.drop_left, ih name.2, List.length_append]

theorem copyLoop_nameText {name : List UInt8} (text : NameText name) (rest : List UInt8) :
    copyLoop errorChar (name ++ rest) name.length [] = .ok (true, name) := by
  obtain ⟨c, chars, rfl, letters⟩ := text
  exact copyLoop_encode letters.xml letters.noAmp rest []

end Reading

end Pupnp.Ixml
