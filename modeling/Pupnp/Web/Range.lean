import Pupnp.Library.Decimal
import Pupnp.Web.SendInstruction

/-! The range that a client asks for and the one that it gets. -/

namespace Pupnp.Web
open Pupnp.CString

/-! ### Ranges as text -/

inductive ByteRange where
  | bounded (first last : Nat)
  | openEnded (first : Nat)
  | suffix (length : Nat)
  deriving DecidableEq, Repr

/-- The positions that a range has in a file of this length, or would have in a longer one. -/
def ByteRange.Selects (fileLength : Int) (i : Int) : ByteRange → Prop
  | .bounded first last => first ≤ i ∧ i ≤ last
  | .openEnded first => first ≤ i
  | .suffix length => fileLength - length ≤ i

structure Spells (text : List UInt8) (n : Nat) : Prop where
  nonempty : text ≠ []
  digits : ∀ c ∈ text, isDigit c = true
  value : digitsValue 10 text = n

inductive ByteRange.Spelled : List UInt8 → ByteRange → Prop where
  | bounded {a b : List UInt8} {first last : Nat} (one : Spells a first) (two : Spells b last) :
      Spelled (a ++ 45 :: b) (.bounded first last)
  | openEnded {a : List UInt8} {first : Nat} (one : Spells a first) : Spelled (a ++ [45]) (.openEnded first)
  | suffix {b : List UInt8} {length : Nat} (two : Spells b length) : Spelled (45 :: b) (.suffix length)

def Blank (text : List UInt8) : Prop := ∀ c ∈ text, c = 32 ∨ c = 9

structure Requests (value : List UInt8) (range : ByteRange) : Prop where
  parts : ∃ unit before spec after others : List UInt8,
    value = unit ++ 61 :: (before ++ spec ++ after ++ others) ∧ unit.map toUpper = bytes "BYTES" ∧
      Blank before ∧ range.Spelled spec ∧ Blank after ∧ ∀ c ∈ others.head?, c = 44

def rangeRead (value : List UInt8) : Option (Int × Int) :=
  match strStr value (bytes "bytes"), strStr value (bytes "=") with
  | some _, some equals => getNextRange (value.drop (equals + 1))
  | _, _ => none

/-! ### Reading the numbers -/

def clip (n : Nat) : Int := min n LONG_MAX

def ByteRange.pair : ByteRange → Int × Int
  | .bounded first last => (clip first, clip last)
  | .openEnded first => (clip first, -1)
  | .suffix length => (-1, clip length)

theorem clip_nonneg (n : Nat) : 0 ≤ clip n := by
  unfold clip LONG_MAX
  omega

theorem Blank.isSpace {text : List UInt8} (blank : Blank text) : ∀ c ∈ text, isSpace c = true := by
  intro c member
  obtain rfl | rfl := blank c member <;> rfl

theorem scanInt64_number {blanks a rest : List UInt8} {n : Nat} (spaces : ∀ c ∈ blanks, isSpace c = true)
    (spells : Spells a n) (stop : ∀ c ∈ rest.head?, ¬digitVal c < 10) :
    scanInt64 (blanks ++ (a ++ rest)) = some (clip n, rest) := by
  have read : numeral 10 (blanks ++ (a ++ rest)) = some ⟨n, blanks.length + a.length⟩ := by
    rw [numeral_blanks 10 spaces, numeral_digits_append spells.nonempty spells.digits stop, spells.value]
    rfl
  have found : strtol 10 (blanks ++ (a ++ rest)) = ⟨clip n, blanks.length + a.length, LONG_MAX < (n : Int)⟩ := by
    rw [strtol, read]
    dsimp only
    unfold clip LONG_MAX LONG_MIN
    split_ifs with large negative
    · simp only [large, decide_true, Strtol.mk.injEq, and_true]
      omega
    · omega
    · simp only [large, decide_false, Strtol.mk.injEq, and_true]
      omega
  have some : a.length ≠ 0 := fun empty => spells.nonempty (List.eq_nil_of_length_eq_zero empty)
  rw [scanInt64, found]
  dsimp only
  rw [if_neg (by omega), ← List.append_assoc, List.drop_append_of_le_length (by rw [List.length_append]),
    List.drop_eq_nil_of_le (by rw [List.length_append]), List.nil_append]

theorem scanInt64_blanks {blanks : List UInt8} (spaces : ∀ c ∈ blanks, isSpace c = true) :
    scanInt64 blanks = none := by
  have read := numeral_blanks 10 spaces []
  rw [List.append_nil] at read
  rw [scanInt64, strtol, read]
  rfl

theorem isSuffixByteRange_blanks {blanks rest : List UInt8} (blank : Blank blanks) :
    isSuffixByteRange (blanks ++ rest) = isSuffixByteRange rest := by
  induction blanks with
  | nil => rfl
  | cons c others ih =>
    have later := ih fun d member => blank d (List.mem_cons_of_mem c member)
    rw [List.cons_append, isSuffixByteRange]
    obtain rfl | rfl := blank c List.mem_cons_self <;> exact later

theorem isSuffixByteRange_digits {a rest : List UInt8} {n : Nat} (spells : Spells a n) :
    isSuffixByteRange (a ++ rest) = false := by
  obtain ⟨first, others, shape⟩ := List.exists_cons_of_ne_nil spells.nonempty
  have digit := spells.digits first (by rw [shape]; exact List.mem_cons_self)
  have noDash : first ≠ 45 := (isDigit_spec digit).2.2.1
  rw [shape, List.cons_append, isSuffixByteRange, if_neg noDash, if_pos digit]

theorem strstr_dash {left right : List UInt8} (noDash : 45 ∉ left) :
    strstr [45] (left ++ 45 :: right) = some left.length := by
  have found := @strstr_sep 45 [] left List.not_mem_nil noDash [] right
  rw [List.nil_append, if_pos ⟨List.nil_suffix, List.nil_prefix⟩] at found
  simpa using found

theorem set_dash (left right : List UInt8) : (left ++ 45 :: right).set left.length SP = left ++ SP :: right := by
  rw [List.set_append_right _ _ le_rfl, Nat.sub_self, List.set_cons_zero]

theorem getNextRange_split {left right others : List UInt8} (noDash : 45 ∉ left) (noComma : 44 ∉ left ++ right)
    (comma : ∀ c ∈ others.head?, c = 44) :
    getNextRange (left ++ 45 :: right ++ others) =
      let scanned := scanRange (left ++ SP :: right)
      if (scanned.1 = -1 || scanned.2 = -1) && isSuffixByteRange (left ++ 45 :: right) then
        some (scanned.2, scanned.1)
      else some scanned := by
  have token : (left ++ 45 :: right ++ others).takeWhile (· ≠ 44) = left ++ 45 :: right := by
    have inside : ∀ c ∈ left ++ 45 :: right, decide (c ≠ 44) = true := by
      intro c member
      rw [decide_eq_true_iff]
      rintro rfl
      rw [List.mem_append, List.mem_cons] at member
      obtain here | here | here := member
      · exact noComma (List.mem_append_left _ here)
      · exact absurd here (by decide)
      · exact noComma (List.mem_append_right _ here)
    rw [List.takeWhile_append_of_pos inside]
    cases others with
    | nil => simp
    | cons c rest =>
      obtain rfl := comma c rfl
      simp
  rw [getNextRange, token]
  dsimp only
  rw [strstr_dash noDash]
  dsimp only
  rw [set_dash]

theorem Blank.append {a b : List UInt8} (one : Blank a) (two : Blank b) : Blank (a ++ b) :=
  List.forall_mem_append.mpr ⟨one, two⟩

theorem Blank.not_mem {a : List UInt8} (blank : Blank a) {c : UInt8} (other : c ≠ 32 ∧ c ≠ 9) : c ∉ a := by
  intro member
  obtain same | same := blank c member
  · exact other.1 same
  · exact other.2 same

theorem Spells.not_mem {a : List UInt8} {n : Nat} (spells : Spells a n) {c : UInt8} (other : isDigit c = false) :
    c ∉ a := fun member => absurd (spells.digits c member) (by rw [other]; decide)

theorem blank_stop {after : List UInt8} (blank : Blank after) : ∀ c ∈ after.head?, ¬digitVal c < 10 := by
  intro c first
  obtain rfl | rfl := blank c (List.mem_of_mem_head? first) <;> decide

theorem getNextRange_spelled {before spec after others : List UInt8} {range : ByteRange} (blankBefore : Blank before)
    (spelled : range.Spelled spec) (blankAfter : Blank after) (comma : ∀ c ∈ others.head?, c = 44) :
    getNextRange (before ++ spec ++ after ++ others) = some range.pair := by
  have gap : Blank [SP] := by
    intro c member
    exact .inl (List.mem_singleton.mp member)
  have positive (n : Nat) : clip n ≠ -1 := by
    have := clip_nonneg n
    omega
  cases spelled with
  | @bounded a b first last one two =>
    have split := @getNextRange_split (before ++ a) (b ++ after) others
      (List.not_mem_append (blankBefore.not_mem (by decide)) (one.not_mem (by decide)))
      (List.not_mem_append (List.not_mem_append (blankBefore.not_mem (by decide)) (one.not_mem (by decide)))
        (List.not_mem_append (two.not_mem (by decide)) (blankAfter.not_mem (by decide)))) comma
    have scanned : scanRange (before ++ a ++ SP :: (b ++ after)) = (clip first, clip last) := by
      have firstScan := @scanInt64_number before a (SP :: (b ++ after)) first blankBefore.isSpace one
        (by rintro c ⟨⟩; decide)
      have lastScan := scanInt64_number gap.isSpace two (blank_stop blankAfter)
      rw [scanRange, List.append_assoc, firstScan]
      dsimp only
      rw [← List.singleton_append, lastScan]
    rw [scanned] at split
    simpa [positive, ByteRange.pair] using split
  | @openEnded a first one =>
    have split := @getNextRange_split (before ++ a) after others
      (List.not_mem_append (blankBefore.not_mem (by decide)) (one.not_mem (by decide)))
      (List.not_mem_append (List.not_mem_append (blankBefore.not_mem (by decide)) (one.not_mem (by decide)))
        (blankAfter.not_mem (by decide))) comma
    have scanned : scanRange (before ++ a ++ SP :: after) = (clip first, -1) := by
      have firstScan := @scanInt64_number before a (SP :: after) first blankBefore.isSpace one
        (by rintro c ⟨⟩; decide)
      rw [scanRange, List.append_assoc, firstScan]
      dsimp only
      rw [← List.singleton_append, scanInt64_blanks (gap.append blankAfter).isSpace]
    have noSuffix : isSuffixByteRange (before ++ a ++ 45 :: after) = false := by
      rw [List.append_assoc, isSuffixByteRange_blanks blankBefore, isSuffixByteRange_digits one]
    rw [scanned, noSuffix] at split
    simpa [ByteRange.pair] using split
  | @suffix b length two =>
    have split := @getNextRange_split before (b ++ after) others (blankBefore.not_mem (by decide))
      (List.not_mem_append (blankBefore.not_mem (by decide))
        (List.not_mem_append (two.not_mem (by decide)) (blankAfter.not_mem (by decide)))) comma
    have scanned : scanRange (before ++ SP :: (b ++ after)) = (clip length, -1) := by
      have onlyScan := scanInt64_number (blankBefore.append gap).isSpace two (blank_stop blankAfter)
      rw [List.append_assoc, List.singleton_append] at onlyScan
      rw [scanRange, onlyScan]
      dsimp only
      rw [scanInt64_blanks blankAfter.isSpace]
    have isSuffix : isSuffixByteRange (before ++ 45 :: (b ++ after)) = true := by
      rw [isSuffixByteRange_blanks blankBefore]
      rfl
    rw [scanned, isSuffix] at split
    simpa [ByteRange.pair] using split

theorem Requests.read {value : List UInt8} {range : ByteRange} (requests : Requests value range) :
    rangeRead value = some range.pair := by
  obtain ⟨unit, before, spec, after, others, rfl, name, blankBefore, spelled, blankAfter, comma⟩ := requests.parts
  have five : unit.length = 5 := by
    rw [← List.length_map toUpper, name]
    rfl
  have upper : (unit ++ 61 :: (before ++ spec ++ after ++ others)).map toUpper =
      bytes "BYTES" ++ 61 :: (before ++ spec ++ after ++ others).map toUpper := by
    rw [List.map_append, name, List.map_cons]
    rfl
  have unitFound : strStr (unit ++ 61 :: (before ++ spec ++ after ++ others)) (bytes "bytes") = some 0 := by
    rw [strStr, upper, show (bytes "bytes").map toUpper = bytes "BYTES" by decide]
    exact strstr_prefix _ _
  have equalsFound : strStr (unit ++ 61 :: (before ++ spec ++ after ++ others)) (bytes "=") = some 5 := by
    rw [strStr, upper, show (bytes "=").map toUpper = [] ++ 61 :: [] by decide,
      strstr_sep List.not_mem_nil (by decide), if_pos ⟨List.nil_suffix, List.nil_prefix⟩]
    rfl
  rw [rangeRead, unitFound, equalsFound]
  dsimp only
  rw [← five, List.drop_append, List.drop_eq_nil_of_le (by omega), List.nil_append, Nat.add_sub_cancel_left,
    List.drop_one, List.tail_cons]
  exact getNextRange_spelled blankBefore spelled blankAfter comma

/-! ### The range that is sent -/

theorem decimalInt_length {n : Int} (low : -1 ≤ n) (high : n ≤ LONG_MAX) : (decimalInt n).length ≤ 20 := by
  have digits : (decimalDigits n.natAbs).length ≤ 19 := by
    apply decimalDigits_length
    unfold LONG_MAX at high
    omega
  rw [decimalInt]
  split
  · rw [List.length_cons]
    omega
  · omega

theorem selectRange_fits (instr : SendInstruction) {first last total : Int} (size : Int)
    (one : -1 ≤ first ∧ first ≤ LONG_MAX) (two : -1 ≤ last ∧ last ≤ LONG_MAX)
    (three : -1 ≤ total ∧ total ≤ LONG_MAX) : selectRange instr first last total size =
      (HTTP_OK, { instr with
        rangeOffset := first, readSendSize := size, rangeHeader := contentRange first last total }) := by
  have length : (contentRange first last total).length < 200 := by
    have a := decimalInt_length one.1 one.2
    have b := decimalInt_length two.1 two.2
    have c := decimalInt_length three.1 three.2
    rw [contentRange]
    simp only [List.length_append, List.length_cons, List.length_nil,
      show (bytes "CONTENT-RANGE: bytes ").length = 21 by decide, show (bytes "-").length = 1 by decide,
      show (bytes "/").length = 1 by decide]
    omega
  rw [selectRange, if_neg (by omega), List.take_of_length_le (by omega)]

inductive Selected (fileLength first last : Int) : Int → Int → Prop where
  | bounded (low : 0 ≤ first) (order : first ≤ last) (inside : first ≤ fileLength) :
      Selected fileLength first last first (min last (fileLength - 1) - first + 1)
  | openEnded (low : 0 ≤ first) (inside : first < fileLength) (missing : last = -1) :
      Selected fileLength first last first (fileLength - first)
  | suffix (missing : first = -1) (some : 0 < last) :
      Selected fileLength first last (max 0 (fileLength - last)) (min last fileLength)

theorem createRange_spec {first last fileLength : Int} (instr : SendInstruction) (nonneg : 0 ≤ fileLength)
    (bound : fileLength ≤ LONG_MAX) :
    (createRange first last fileLength instr = (HTTP_REQUEST_RANGE_NOT_SATISFIABLE, instr) ∧
      ∀ offset size, ¬Selected fileLength first last offset size) ∨
    ∃ offset size, Selected fileLength first last offset size ∧
      createRange first last fileLength instr = (HTTP_OK, { instr with
        rangeOffset := offset
        readSendSize := size
        rangeHeader := contentRange offset (offset + size - 1) fileLength }) := by
  rw [createRange]
  split
  next beyond =>
    refine .inl ⟨rfl, ?_⟩
    rintro _ _ (_ | _ | _) <;> omega
  next within =>
    split
    next numbers =>
      simp only [Bool.and_eq_true, decide_eq_true_iff] at numbers
      obtain ⟨⟨low, lastLow⟩, order⟩ := numbers
      refine .inr ⟨_, _, .bounded low order (by omega), ?_⟩
      have last_eq : (if fileLength ≤ last then fileLength - 1 else last) = min last (fileLength - 1) := by
        split <;> omega
      have sum : first + (min last (fileLength - 1) - first + 1) - 1 = min last (fileLength - 1) := by omega
      dsimp only
      rw [last_eq, sum]
      exact selectRange_fits instr _ ⟨by omega, by omega⟩ ⟨by omega, by omega⟩ ⟨by omega, bound⟩
    next notBounded =>
      split
      next numbers =>
        simp only [Bool.and_eq_true, decide_eq_true_iff] at numbers
        obtain ⟨⟨low, missing⟩, inside⟩ := numbers
        refine .inr ⟨_, _, .openEnded low inside missing, ?_⟩
        have sum : first + (fileLength - first) - 1 = fileLength - 1 := by omega
        rw [sum]
        exact selectRange_fits instr _ ⟨by omega, by omega⟩ ⟨by omega, by omega⟩ ⟨by omega, bound⟩
      next notOpen =>
        split
        next numbers =>
          simp only [Bool.and_eq_true, decide_eq_true_iff] at numbers
          obtain ⟨missing, some⟩ := numbers
          refine .inr ⟨_, _, .suffix missing some, ?_⟩
          split
          next whole =>
            rw [max_eq_left (by omega), min_eq_right whole, Int.zero_add]
            exact selectRange_fits instr _ ⟨by omega, by omega⟩ ⟨by omega, by omega⟩ ⟨by omega, bound⟩
          next part =>
            have sum : fileLength - last + last - 1 = fileLength - 1 := by omega
            rw [max_eq_right (by omega), min_eq_left (by omega), sum]
            exact selectRange_fits instr _ ⟨by omega, by omega⟩ ⟨by omega, by omega⟩ ⟨by omega, bound⟩
        next notSuffix =>
          simp only [Bool.and_eq_true, decide_eq_true_iff] at notBounded notOpen notSuffix
          refine .inl ⟨rfl, ?_⟩
          rintro _ _ (_ | _ | _) <;> omega

theorem Selected.inside {fileLength first last offset size : Int} (_ : 0 ≤ fileLength)
    (selected : Selected fileLength first last offset size) : 0 ≤ offset ∧ offset + size ≤ fileLength := by
  cases selected <;> omega

/-- Nothing is selected in two cases: the first byte is the one behind the file, or the file is empty. -/
theorem Selected.empty_iff {fileLength first last offset size : Int} (_ : 0 ≤ fileLength)
    (selected : Selected fileLength first last offset size) : ¬1 ≤ size ↔
      (first = fileLength ∧ first ≤ last) ∨ (first = -1 ∧ 0 < last ∧ fileLength = 0) := by
  cases selected <;> omega

theorem Selected.positions {fileLength offset size : Int} {range : ByteRange}
    (nonneg : 0 ≤ fileLength) (bound : fileLength ≤ LONG_MAX)
    (selected : Selected fileLength range.pair.1 range.pair.2 offset size) (i : Int) :
    (offset ≤ i ∧ i < offset + size) ↔ (0 ≤ i ∧ i < fileLength ∧ range.Selects fileLength i) := by
  unfold LONG_MAX at bound
  cases range <;> cases selected <;> simp only [ByteRange.pair, ByteRange.Selects, clip, LONG_MAX] at * <;> omega

/-- The answer to a Range header names an interval of the file that is what the client asked for, as far
as the file has it. -/
structure Sound (value : List UInt8) (fileLength : Int) (instr : SendInstruction) : Prop where
  offset : 0 ≤ instr.rangeOffset
  size : 1 ≤ instr.readSendSize
  inside : instr.rangeOffset + instr.readSendSize ≤ fileLength
  header : instr.rangeHeader =
    contentRange instr.rangeOffset (instr.rangeOffset + instr.readSendSize - 1) fileLength
  requested : ∀ range, Requests value range → ∀ i,
    (instr.rangeOffset ≤ i ∧ i < instr.rangeOffset + instr.readSendSize) ↔
      (0 ≤ i ∧ i < fileLength ∧ range.Selects fileLength i)

def AnswersSoundly (value : List UInt8) (fileLength : Int) (instr : SendInstruction) : Prop :=
  (createHTTPRangeResponseHeader value fileLength instr).1 = HTTP_OK →
    (createHTTPRangeResponseHeader value fileLength instr).2.isRangeActive = true →
      Sound value fileLength (createHTTPRangeResponseHeader value fileLength instr).2

/-- The numbers of the header do not name a range from the end of the file on, nor the last bytes of an
empty file. -/
def NamesBytes (value : List UInt8) (fileLength : Int) : Prop :=
  ∀ first last, rangeRead value = some (first, last) →
    ¬(first = fileLength ∧ first ≤ last) ∧ ¬(first = -1 ∧ 0 < last ∧ fileLength = 0)

theorem createHTTPRangeResponseHeader_read {value : List UInt8} {fileLength : Int} (instr : SendInstruction)
    (nonneg : 0 ≤ fileLength) {first last : Int} (read : rangeRead value = some (first, last)) :
    createHTTPRangeResponseHeader value fileLength instr =
      createRange first last fileLength { instr with isRangeActive := true, readSendSize := fileLength } := by
  rw [rangeRead] at read
  split at read
  next found equals one two =>
    rw [createHTTPRangeResponseHeader, one, two]
    dsimp only
    rw [if_neg (by omega), read]
  next => cases read

theorem createHTTPRangeResponseHeader_unread {value : List UInt8} {fileLength : Int} (instr : SendInstruction)
    (nonneg : 0 ≤ fileLength) (read : rangeRead value = none) :
    (createHTTPRangeResponseHeader value fileLength instr).1 ≠ HTTP_OK := by
  have refused : HTTP_REQUEST_RANGE_NOT_SATISFIABLE ≠ HTTP_OK := by decide
  have bad : HTTP_BAD_REQUEST ≠ HTTP_OK := by decide
  rw [rangeRead] at read
  split at read
  next found equals one two =>
    rw [createHTTPRangeResponseHeader, one, two]
    dsimp only
    rw [if_neg (by omega), read]
    exact refused
  next other =>
    rw [createHTTPRangeResponseHeader]
    split
    next found equals one two => exact absurd two (other _ _ one)
    next => exact bad

/-- The answer is sound if and only if the header does not ask for bytes from the end of the file on, nor
for the last ones of an empty file. -/
theorem answersSoundly_iff (value : List UInt8) (fileLength : Int) (nonneg : 0 ≤ fileLength)
    (bound : fileLength ≤ LONG_MAX) (instr : SendInstruction) :
    AnswersSoundly value fileLength instr ↔ NamesBytes value fileLength := by
  unfold AnswersSoundly NamesBytes
  cases read : rangeRead value with
  | none =>
      have refused := createHTTPRangeResponseHeader_unread instr nonneg read
      exact iff_of_true (fun ok => absurd ok refused) nofun
  | some pair =>
      obtain ⟨first, last⟩ := pair
      rw [createHTTPRangeResponseHeader_read instr nonneg read]
      obtain ⟨refused, nothing⟩ | ⟨offset, size, selected, answer⟩ := @createRange_spec first last fileLength
        { instr with isRangeActive := true, readSendSize := fileLength } nonneg bound
      · rw [refused]
        have notOk : HTTP_REQUEST_RANGE_NOT_SATISFIABLE ≠ HTTP_OK := by decide
        refine iff_of_true (fun ok => absurd ok notOk) ?_
        rintro _ _ ⟨⟩
        constructor
        · rintro ⟨behind, order⟩
          exact nothing _ _ (.bounded (by omega) order (by omega))
        · rintro ⟨missing, some, -⟩
          exact nothing _ _ (.suffix missing some)
      · rw [answer]
        have empty := selected.empty_iff nonneg
        constructor
        · intro sound
          rintro _ _ ⟨⟩
          have some_byte : 1 ≤ size := (sound rfl rfl).size
          exact not_or.mp fun bad => empty.mpr bad some_byte
        · intro names _ _
          obtain ⟨low, inside⟩ := selected.inside nonneg
          have some_byte : 1 ≤ size := by
            by_contra none
            exact not_or.mpr (names first last rfl) (empty.mp none)
          refine ⟨low, some_byte, inside, rfl, ?_⟩
          intro range requests i
          have same : range.pair = (first, last) := Option.some.inj (requests.read.symm.trans read)
          have pair : Selected fileLength range.pair.1 range.pair.2 offset size := by rwa [same]
          exact pair.positions nonneg bound i

def noInstruction : SendInstruction := ⟨false, false, false, false, [], [], 0, 0, 0⟩

theorem answersSoundly_inside : AnswersSoundly (bytes "bytes=1-3") 5 noInstruction := by
  refine (answersSoundly_iff (bytes "bytes=1-3") 5 (by decide) (by decide) noInstruction).mpr ?_
  intro first last read
  have pair : rangeRead (bytes "bytes=1-3") = some (1, 3) := by decide
  obtain ⟨rfl, rfl⟩ : 1 = first ∧ 3 = last := by simpa [pair] using read
  omega

/-- The first byte behind the end of the file is accepted as the beginning of a range. -/
theorem answersSoundly_behind : ¬AnswersSoundly (bytes "bytes=5-9") 5 noInstruction := by
  intro sound
  have size := (sound (by with_unfolding_all decide) (by with_unfolding_all decide)).size
  exact absurd size (by with_unfolding_all decide)

end Pupnp.Web
