import Pupnp.Ixml.Print

/-!
The octets of a value that the parser has read, and that an escaped value copies to itself. In the relaxed
parser the error character may stand in a value though it is no XML character; it is a `char`.
-/

namespace Pupnp.Ixml
open CString

section Values
variable {errorChar : Int}

/-- A character that a copied text may hold. -/
def Readable (errorChar c : Int) : Prop :=
  parserIsXmlChar c = true ∨ (c = errorChar ∧ 0 < c ∧ c ≤ 127)

def ReadValue (errorChar : Int) (value : List UInt8) : Prop :=
  ∃ chars, value = encode chars ∧ ∀ c ∈ chars, Readable errorChar c

theorem Readable.bounds {c : Int} (readable : Readable errorChar c) : 0 < c ∧ c ≤ 0x1FFFFF := by
  cases readable with
  | inl xml => exact parserIsXmlChar_bounds xml
  | inr relaxed => omega

theorem Readable.encoded {c : Int} (readable : Readable errorChar c) : parserIntToUTF8 c ≠ [] := by
  have bounds := readable.bounds
  exact parserIntToUTF8_some bounds.1 (by omega)

/-! ### What is read -/

theorem copiedChar_ascii {c : Int} (cl : Nat) (positive : 0 ≤ c) (ascii : c ≤ 127) :
    copiedChar c cl = parserIntToUTF8 c := by
  unfold copiedChar
  split
  next => exact (parserIntToUTF8_ascii positive ascii).symm
  next => rfl

theorem copiedChar_long {c : Int} {cl : Nat} (long : cl ≠ 1) : copiedChar c cl = parserIntToUTF8 c := by
  unfold copiedChar
  rw [if_neg long]

theorem parserUTF8ToInt_one {s : List UInt8} (one : (parserUTF8ToInt errorChar s).2 = 1) :
    (parserUTF8ToInt errorChar s).1 ≤ 127 ∨ (parserUTF8ToInt errorChar s).1 = errorChar := by
  unfold parserUTF8ToInt at one ⊢
  dsimp only at one ⊢
  split_ifs at one ⊢ with ascii
  · left
    dsimp only
    omega
  all_goals first | exact .inr rfl | cases one

theorem numericRef_readable {base c : Int} {digits mark src : List UInt8} {cl : Nat} (short : 2 ≤ mark.length)
    (found : numericRef errorChar base digits mark src = some (c, cl)) (char : 0 < c) :
    parserIsXmlChar c = true ∧ (cl ≠ 1 ∨ c ≤ 127) := by
  unfold numericRef at found
  obtain ⟨⟨sum, rest⟩, summed, same⟩ := Option.map_eq_some_iff.mp found
  dsimp only at same
  split at same
  next =>
    unfold failEntity at same
    split at same
    next =>
      cases same
      exact ⟨by decide, .inr (by decide)⟩
    next =>
      cases same
      cases char
  next good =>
    cases same
    simp only [ne_eq, Bool.or_eq_true, Bool.not_eq_true', decide_eq_true_eq, not_or, not_not,
      Bool.not_eq_false] at good
    refine ⟨good.2, .inl ?_⟩
    have inside := (refSum_few summed).1.length_le
    have some : rest ≠ [] := by
      rintro rfl
      exact absurd good.1 (by decide)
    have positive := List.length_pos_iff.mpr some
    rw [List.length_drop] at inside
    omega

theorem parserGetChar_readable (char_ : errorChar ≤ 127) {src : List UInt8} {c : Int} {cl : Nat}
    (found : parserGetChar errorChar src = some (c, cl)) (char : 0 < c) :
    Readable errorChar c ∧ copiedChar c cl = parserIntToUTF8 c := by
  have small (ascii : c ≤ 127) : copiedChar c cl = parserIntToUTF8 c :=
    copiedChar_ascii cl (Int.le_of_lt char) ascii
  unfold parserGetChar at found
  dsimp only at found
  split at found
  next plain =>
    split at found
    next ascii =>
      cases found
      simp only [Bool.and_eq_true, decide_eq_true_eq] at ascii
      exact ⟨.inl ascii.2, small (by omega)⟩
    next =>
      split at found
      next =>
        cases found
        split at char
        next relaxed =>
          rw [if_pos relaxed] at small ⊢
          exact ⟨.inr ⟨rfl, char, char_⟩, small char_⟩
        next => omega
      next good =>
        have same := Option.some.inj found
        simp only [Bool.not_eq_true', Bool.not_eq_false] at good
        rw [same] at good
        refine ⟨.inl good, ?_⟩
        by_cases one : cl = 1
        · have bound := @parserUTF8ToInt_one errorChar src (by rw [same]; exact one)
          rw [same] at bound
          exact small (by dsimp only at bound; omega)
        · exact copiedChar_long one
  next =>
    split_ifs at found
    any_goals
      cases found
      exact ⟨.inl (by decide), small (by decide)⟩
    · obtain ⟨xml, wide⟩ := numericRef_readable (by decide) found char
      exact ⟨.inl xml, wide.elim copiedChar_long small⟩
    · obtain ⟨xml, wide⟩ := numericRef_readable (by decide) found char
      exact ⟨.inl xml, wide.elim copiedChar_long small⟩
    · unfold failEntity at found
      split at found
      next =>
        cases found
        exact ⟨.inl (by decide), small (by decide)⟩
      next =>
        cases found
        cases char

theorem copyLoop_readable (char_ : errorChar ≤ 127) {src : List UInt8} {len : Nat} {tokenBuf copied : List UInt8}
    (run : copyLoop errorChar src len tokenBuf = .ok (true, copied)) :
    ∃ value, copied = tokenBuf ++ value ∧ ReadValue errorChar value := by
  induction src, len, tokenBuf using copyLoop.induct errorChar with
  | case1 src tokenBuf =>
    rw [copyLoop_done] at run
    cases run
    exact ⟨[], (List.append_nil _).symm, [], rfl, by simp⟩
  | case2 src len tokenBuf more none =>
    rw [copyLoop, if_neg more] at run
    split at run
    next => cases run
    next c cl found => cases none.symm.trans found
  | case3 src len tokenBuf more c cl found bad =>
    rw [copyLoop, if_neg more] at run
    split at run
    next none => cases none.symm.trans found
    next d dl same =>
      cases same.symm.trans found
      rw [dif_pos bad] at run
      cases run
  | case4 src len tokenBuf more c cl found good uch empty =>
    rw [copyLoop, if_neg more] at run
    split at run
    next none => cases none.symm.trans found
    next d dl same =>
      cases same.symm.trans found
      rw [dif_neg good] at run
      dsimp only at run
      rw [if_pos empty] at run
      cases run
  | case5 src len tokenBuf more c cl found good uch encoded over_ =>
    rw [copyLoop, if_neg more] at run
    split at run
    next none => cases none.symm.trans found
    next d dl same =>
      cases same.symm.trans found
      rw [dif_neg good] at run
      dsimp only at run
      rw [if_neg encoded, dif_pos over_] at run
      cases run
  | case6 src len tokenBuf more c cl found good uch encoded inside ih =>
    rw [copyLoop_char found (Int.not_le.mp good) (Nat.not_lt.mp inside) encoded] at run
    obtain ⟨value, rfl, chars, rfl, readable⟩ := ih run
    obtain ⟨here, octets⟩ := parserGetChar_readable char_ found (Int.not_le.mp good)
    refine ⟨encode (c :: chars), ?_, c :: chars, rfl, ?_⟩
    · rw [encode_cons, ← octets, List.append_assoc]
    · intro d member
      cases member with
      | head => exact here
      | tail _ later => exact readable d later

/-! ### What is printed -/

def escapeChar (c : Int) : List UInt8 := copyWithEscape (parserIntToUTF8 c)

theorem copyWithEscape_append (p q : List UInt8) :
    copyWithEscape (p ++ q) = copyWithEscape p ++ copyWithEscape q :=
  List.flatMap_append

theorem escapeOctet_plain {b : UInt8} (plain : b ∉ bytes "<>&'\"") : escapeOctet b = [b] := by
  have apart : b ≠ 60 ∧ b ≠ 62 ∧ b ≠ 38 ∧ b ≠ 39 ∧ b ≠ 34 := by
    refine ⟨?_, ?_, ?_, ?_, ?_⟩
    all_goals
      rintro rfl
      exact plain (by decide)
  unfold escapeOctet
  simp [apart]

theorem copyWithEscape_plain {s : List UInt8} (plain : ∀ b ∈ s, b ∉ bytes "<>&'\"") : copyWithEscape s = s := by
  induction s with
  | nil => rfl
  | cons b s ih =>
    have first := escapeOctet_plain (plain b List.mem_cons_self)
    have later := ih fun d member => plain d (List.mem_cons_of_mem _ member)
    calc copyWithEscape (b :: s) = escapeOctet b ++ copyWithEscape s := rfl
      _ = b :: s := by rw [first, later]; rfl

theorem escapeChar_wide {c : Int} (wide : 127 < c) : escapeChar c = parserIntToUTF8 c := by
  refine copyWithEscape_plain (fun b member low => ?_)
  have ascii : ∀ d ∈ bytes "<>&'\"", d < 128 := by decide
  exact absurd (parserIntToUTF8_high wide b member) (UInt8.not_le.mpr (ascii b low))

theorem escapeChar_ascii {c : Int} (positive : 0 ≤ c) (ascii : c ≤ 127) :
    escapeChar c = escapeOctet (UInt8.ofNat c.toNat) := by
  unfold escapeChar copyWithEscape
  rw [parserIntToUTF8_ascii positive ascii, List.flatMap_cons, List.flatMap_nil, List.append_nil]

theorem copyWithEscape_clean (p : List UInt8) : ∀ b ∈ copyWithEscape p, b ≠ 60 ∧ b ≠ 62 ∧ b ≠ 39 ∧ b ≠ 34 := by
  have one (c : UInt8) : ∀ b ∈ escapeOctet c, b ≠ 60 ∧ b ≠ 62 ∧ b ≠ 39 ∧ b ≠ 34 := by
    revert c
    apply forall_byte
    decide +kernel
  intro b member
  obtain ⟨c, -, inside⟩ := List.mem_flatMap.mp member
  exact one c b inside

theorem parserGetChar_relaxed {c : Int} (readable : Readable errorChar c) (other : c ≠ 38) (rest : List UInt8) :
    parserGetChar errorChar (parserIntToUTF8 c ++ rest) = some (c, (parserIntToUTF8 c).length) := by
  cases readable with
  | inl xml => exact parserGetChar_encode xml other rest
  | inr relaxed =>
    obtain ⟨rfl, positive, ascii⟩ := relaxed
    by_cases xml : parserIsXmlChar c = true
    · exact parserGetChar_encode xml other rest
    · have head : octet (parserIntToUTF8 c ++ rest) 0 = c.toNat := by
        rw [parserIntToUTF8_ascii (Int.le_of_lt positive) ascii]
        change (UInt8.ofNat c.toNat).toNat = c.toNat
        rw [UInt8.toNat_ofNat']
        omega
      have value : ((c.toNat : Nat) : Int) = c := Int.toNat_of_nonneg (Int.le_of_lt positive)
      have read : parserUTF8ToInt c (parserIntToUTF8 c ++ rest) = (c, 1) := by
        rw [parserUTF8ToInt_ascii (by omega), head, value]
      unfold parserGetChar
      simp only [read, head, value, xml]
      rw [if_pos (by omega)]
      simp only [Bool.and_false, Bool.false_eq_true, if_false, Bool.not_false, if_true]
      rw [if_pos (by omega), parserIntToUTF8_ascii (Int.le_of_lt positive) ascii]
      rfl

theorem parserGetChar_escaped {c : Int} (readable : Readable errorChar c) (rest : List UInt8) :
    parserGetChar errorChar (escapeChar c ++ rest) = some (c, (escapeChar c).length) := by
  have bounds := readable.bounds
  by_cases wide : 127 < c
  · rw [escapeChar_wide wide]
    exact parserGetChar_relaxed readable (by omega) rest
  · have ascii : c ≤ 127 := by omega
    by_cases marked : c = 60 ∨ c = 62 ∨ c = 38 ∨ c = 39 ∨ c = 34
    · rcases marked with rfl | rfl | rfl | rfl | rfl <;> rfl
    · have apart : UInt8.ofNat c.toNat ∉ bytes "<>&'\"" := by
        intro member
        refine marked ?_
        have value : (UInt8.ofNat c.toNat).toNat = c.toNat := by
          rw [UInt8.toNat_ofNat']
          omega
        have cases_ : ∀ d ∈ bytes "<>&'\"", d.toNat = 60 ∨ d.toNat = 62 ∨ d.toNat = 38 ∨ d.toNat = 39 ∨ d.toNat = 34 := by
          decide
        have found := cases_ _ member
        rw [value] at found
        omega
      have same : escapeChar c = parserIntToUTF8 c := by
        rw [escapeChar_ascii (Int.le_of_lt bounds.1) ascii, escapeOctet_plain apart,
          parserIntToUTF8_ascii (Int.le_of_lt bounds.1) ascii]
      rw [same]
      exact parserGetChar_relaxed readable (by omega) rest

theorem escapeChar_copied {c : Int} (readable : Readable errorChar c) :
    copiedChar c (escapeChar c).length = parserIntToUTF8 c := by
  have bounds := readable.bounds
  by_cases wide : 127 < c
  · rw [escapeChar_wide wide]
    exact copiedChar_encode (Int.le_of_lt bounds.1) bounds.2
  · exact copiedChar_ascii _ (Int.le_of_lt bounds.1) (by omega)

theorem copyLoop_escaped {chars : List Int} (readable : ∀ c ∈ chars, Readable errorChar c)
    (rest tokenBuf : List UInt8) :
    copyLoop errorChar (copyWithEscape (encode chars) ++ rest) (copyWithEscape (encode chars)).length tokenBuf =
      .ok (true, tokenBuf ++ encode chars) := by
  induction chars generalizing tokenBuf with
  | nil =>
    change copyLoop errorChar rest 0 tokenBuf = .ok (true, tokenBuf ++ [])
    rw [copyLoop_done, List.append_nil]
  | cons c chars ih =>
    have here := readable c List.mem_cons_self
    have octets := escapeChar_copied here
    have some : copiedChar c (escapeChar c).length ≠ [] := by
      rw [octets]
      exact here.encoded
    have split : copyWithEscape (encode (c :: chars)) = escapeChar c ++ copyWithEscape (encode chars) := by
      rw [encode_cons, copyWithEscape_append]
      rfl
    rw [split, List.append_assoc, List.length_append,
      copyLoop_char (parserGetChar_escaped here _) here.bounds.1 (Nat.le_add_right _ _) some, List.drop_left,
      Nat.add_sub_cancel_left, octets, ih (fun d member => readable d (List.mem_cons_of_mem _ member)),
      encode_cons, List.append_assoc]

end Values

end Pupnp.Ixml
