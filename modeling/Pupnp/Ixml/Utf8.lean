import Pupnp.Ixml.Escape

/-!
Strings of characters in UTF-8: the octets that the encoder of `ixmlparser.c` writes for them are those of the
standard, and an escaped string is read back.
-/

namespace Pupnp.Ixml
open CString

def utf8 (text : List Char) : List UInt8 := text.flatMap String.utf8EncodeChar

def codes (text : List Char) : List Int := text.map fun c => (c.val.toNat : Int)

/-- Every character of the string is one of XML. -/
def IsXmlString (text : List Char) : Prop := XmlText (codes text)

theorem mark_two {m : Nat} (small : m < 32) : 0xC0 ||| m = m % 0x20 + 0xC0 := by
  revert m
  decide

theorem mark_three {m : Nat} (small : m < 16) : 0xE0 ||| m = m % 0x10 + 0xE0 := by
  revert m
  decide

theorem mark_four {m : Nat} (small : m < 8) : 0xF0 ||| m = m % 0x08 + 0xF0 := by
  revert m
  decide

theorem mark_trail (n : Nat) : 0x80 ||| n % 64 = n % 0x40 + 0x80 := by
  have marks : ∀ k < 64, 0x80 ||| k = k + 0x80 := by decide
  exact marks (n % 64) (Nat.mod_lt n (by decide))

theorem parserIntToUTF8_char (c : Char) : parserIntToUTF8 (c.val.toNat : Int) = String.utf8EncodeChar c := by
  have bound : c.val.toNat < 0x110000 := by
    have valid := c.valid
    simp only [UInt32.isValidChar, Nat.isValidChar] at valid
    omega
  unfold parserIntToUTF8 String.utf8EncodeChar
  simp only [Int.toNat_natCast, Nat.shiftRight_eq_div_pow, low_bits]
  generalize c.val.toNat = n at bound ⊢
  rw [if_neg (by omega)]
  by_cases one : n ≤ 127
  · rw [if_pos (by omega), if_pos one]
  rw [if_neg (by omega), if_neg one]
  by_cases two : n ≤ 0x7FF
  · rw [if_pos (by omega), if_pos two, mark_two (by omega), mark_trail]
    simp only [Nat.pow_zero, Nat.div_one]
  rw [if_neg (by omega), if_neg two]
  by_cases three : n ≤ 0xFFFF
  · rw [if_pos (by omega), if_pos three, mark_three (by omega), mark_trail, mark_trail]
    simp only [Nat.pow_zero, Nat.div_one]
  rw [if_neg (by omega), if_neg three, if_pos (by omega), mark_four (by omega), mark_trail, mark_trail, mark_trail]
  simp only [Nat.pow_zero, Nat.div_one]

theorem utf8_codes (text : List Char) : utf8 text = encode (codes text) := by
  induction text with
  | nil => rfl
  | cons c text ih =>
    calc utf8 (c :: text) = String.utf8EncodeChar c ++ utf8 text := rfl
      _ = parserIntToUTF8 (c.val.toNat : Int) ++ encode (codes text) := by rw [parserIntToUTF8_char, ih]
      _ = encode (codes (c :: text)) := rfl

theorem utf8_some {text : List Char} (xml : IsXmlString text) (some : text ≠ []) : utf8 text ≠ [] := by
  cases text with
  | nil => exact absurd rfl some
  | cons c text =>
    have bounds := parserIsXmlChar_bounds (xml (c.val.toNat : Int) List.mem_cons_self)
    rw [utf8_codes]
    intro none
    exact parserIntToUTF8_some bounds.1 (by omega) (List.append_eq_nil_iff.mp none).1

theorem escapeOctet_some (b : UInt8) : escapeOctet b ≠ [] := by
  unfold escapeOctet
  split_ifs
  · decide
  · decide
  · decide
  · decide
  · decide
  · exact List.cons_ne_nil b []

theorem copyWithEscape_some {s : List UInt8} (some : s ≠ []) : copyWithEscape s ≠ [] := by
  intro none
  cases s with
  | nil => exact some rfl
  | cons b s => exact escapeOctet_some b (List.flatMap_eq_nil_iff.mp none b List.mem_cons_self)

/-- `copy_with_escape` and then `Parser_copyToken` over what it has written: the octets are those of the string,
behind what the token buffer holds already. An empty string is refused. -/
theorem parserCopyToken_escaped (errorChar : Int) (p : Parser) (text : List Char) (xml : IsXmlString text)
    (rest : List UInt8) :
    parserCopyToken errorChar p (copyWithEscape (utf8 text) ++ rest) (copyWithEscape (utf8 text)).length =
      .ok (!text.isEmpty, { p with tokenBuf := p.tokenBuf ++ utf8 text }) := by
  have readable : ∀ c ∈ codes text, Readable errorChar c := fun c member => .inl (xml c member)
  by_cases none : text = []
  · subst none
    change Except.ok (false, p) = Except.ok (false, { p with tokenBuf := p.tokenBuf ++ [] })
    rw [List.append_nil]
  · have some : (copyWithEscape (utf8 text)).length ≠ 0 := by
      rw [Ne, List.length_eq_zero_iff]
      exact copyWithEscape_some (utf8_some xml none)
    have visible : text.isEmpty = false := by
      rw [← Bool.not_eq_true, List.isEmpty_iff]
      exact none
    rw [parserCopyToken, if_neg some, visible, utf8_codes, copyLoop_escaped readable]
    rfl

theorem parserCopyToken_escaped_markup :
    parserCopyToken 0 (parserInit []) (bytes "a&lt;&quot;") 11 =
      .ok (true, { parserInit [] with tokenBuf := bytes "a<\"" }) := by
  have xml : IsXmlString ['a', '<', '"'] := by
    change ∀ c ∈ [(97 : Int), 60, 34], parserIsXmlChar c = true
    decide
  exact parserCopyToken_escaped 0 (parserInit []) ['a', '<', '"'] xml []

/-- The empty string is escaped to itself and not read back: `Parser_copyToken` fails on no octets. -/
theorem parserCopyToken_empty :
    ¬∃ q, parserCopyToken 0 (parserInit []) (copyWithEscape (utf8 [])) (copyWithEscape (utf8 [])).length =
      .ok (true, q) := by
  intro read
  obtain ⟨q, read⟩ := read
  change Except.ok (false, parserInit []) = _ at read
  cases read

end Pupnp.Ixml
