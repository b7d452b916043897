import Pupnp.Http.Alike

/-!
The sizes of the chunks of a body, as numbers, and what the parser makes of them:
it keeps the low 32 bits of each.
-/

namespace Pupnp.Http
open Pupnp.CString Pupnp.Stream

theorem format_chunkSize : format "%x%L%c" = [.int 16, .line, .crlf] := by decide

theorem format_chunkEnd : format "%c" = [.crlf] := by decide

theorem chunkSize_relative : ∀ d ∈ format "%x%L%c", d.Relative := by
  rw [format_chunkSize]
  simp only [List.forall_mem_cons]
  exact ⟨trivial, trivial, trivial, List.forall_mem_nil _⟩

theorem chunkEnd_relative : ∀ d ∈ format "%c", d.Relative := by
  rw [format_chunkEnd]
  simp only [List.forall_mem_cons]
  exact ⟨trivial, List.forall_mem_nil _⟩

def chunkSizeLine (body : List UInt8) : Option (Int × List UInt8) :=
  let m := matchFormat (scannerInit body) "%x%L%c"
  if m.1 = .ok then
    (wholeNumber 16 (body.takeWhile isIdentifierChar)).map fun value => (value, m.2.1.rest)
  else none

def chunkEnd (body : List UInt8) : Option (List UInt8) :=
  let m := matchFormat (scannerInit body) "%c"
  if m.1 = .ok then some m.2.1.rest else none

theorem Scanner.rest_length (sc : Scanner) : sc.rest.length = sc.remaining := by
  simp only [Scanner.rest, Scanner.remaining, List.length_drop]

theorem chunkSizeLine_length {body data : List UInt8} {value : Int}
    (line : chunkSizeLine body = some (value, data)) : data.length < body.length := by
  simp only [chunkSizeLine] at line
  split_ifs at line with matched
  have less := matchChunkSize_remaining matched
  rw [Option.map_eq_some_iff] at line
  obtain ⟨_, _, same⟩ := line
  cases same
  rw [Scanner.rest_length]
  exact less

theorem chunkEnd_length {body later : List UInt8} (line : chunkEnd body = some later) :
    later.length < body.length := by
  simp only [chunkEnd] at line
  split_ifs at line with matched
  have less := matchCrlf_remaining matched
  cases line
  rw [Scanner.rest_length]
  exact less

def takenSize (value : Int) : Nat := (value % 2 ^ 32).toNat

def withSize (value : Int) (sizes : List Int × List UInt8) : List Int × List UInt8 :=
  (value :: sizes.1, sizes.2)

/-- The sizes at which the parser reads chunks, up to the one that it takes for the last, and
what follows the line of that one. -/
def chunkSizes (body : List UInt8) : Option (List Int × List UInt8) :=
  match _h : chunkSizeLine body with
  | none => none
  | some (value, data) =>
      if takenSize value = 0 then some ([value], data)
      else
        match _h : chunkEnd (data.drop (takenSize value)) with
        | none => none
        | some later => (chunkSizes later).map (withSize value)
termination_by body.length
decreasing_by
  have size := chunkSizeLine_length (by assumption)
  have line := chunkEnd_length (by assumption)
  rw [List.length_drop] at line
  omega

theorem chunkSizes_last {body data : List UInt8} {value : Int}
    (line : chunkSizeLine body = some (value, data)) (last : takenSize value = 0) :
    chunkSizes body = some ([value], data) := by
  rw [chunkSizes]
  split
  · simp_all
  · rename_i found
    rw [line] at found
    cases found
    rw [if_pos last]

theorem chunkSizes_more {body data : List UInt8} {value : Int}
    (line : chunkSizeLine body = some (value, data)) (more : takenSize value ≠ 0) :
    chunkSizes body =
      (chunkEnd (data.drop (takenSize value))).bind fun later =>
        (chunkSizes later).map (withSize value) := by
  conv_lhs => rw [chunkSizes]
  split
  · simp_all
  · rename_i found
    rw [line] at found
    cases found
    rw [if_neg more]
    split
    · rename_i ended
      rw [ended]
      rfl
    · rename_i ended
      rw [ended]
      rfl

theorem chunkSizes_none {body : List UInt8} (line : chunkSizeLine body = none) :
    chunkSizes body = none := by
  rw [chunkSizes]
  split
  · rfl
  · simp_all

/-- A number that a matcher accepts is an identifier, and a byte behind it was seen. -/
structure NumberToken (sc : Scanner) (base : Nat) (text : List UInt8) : Prop where
  nonempty : text ≠ []
  chars : ∀ d ∈ text, isIdentifierChar d = true
  ahead : ∃ c rest, sc.rest = text ++ c :: rest ∧ isIdentifierChar c = false
  accepted : 0 ≤ (strtol base text).num ∧ (strtol base text).endOff = text.length ∧
    ¬((strtol base text).num = LONG_MAX ∧ (strtol base text).erange = true)
  stored : (matchInt sc base).2.2 = some (toInt32 (strtol base text).num)

theorem matchInt_token {sc : Scanner} {base : Nat} (small : base ≤ 36) (more : sc.Open)
    (matched : (matchInt sc base).1 = .ok) : ∃ text, NumberToken sc base text := by
  cases found : scannerGetToken sc with
  | error status =>
    rcases scanToken_error (scannerGetToken_error found) with rfl | rfl <;>
      simp [matchInt, found] at matched
  | ok pair =>
    obtain ⟨token, next⟩ := pair
    have whole := matched
    simp only [matchInt, found] at matched
    by_cases ident : token.type = .identifier
    · rw [if_pos ident] at matched
      have token_at := found
      rw [scannerGetToken_rest, more.entire] at found
      cases scanned : scanToken false sc.rest with
      | error status => simp [scanned] at found
      | ok pair =>
        obtain ⟨type, length⟩ := pair
        rw [scanned] at found
        cases found
        cases ident
        obtain ⟨text, c, rest, shape, size, nonempty, chars, stop⟩ := scanToken_identifier scanned
        have read : strtol base (sc.msg.drop sc.cursor) = strtol base text := by
          rw [show sc.msg.drop sc.cursor = _ from shape, strtol_identifier small nonempty chars stop]
        dsimp only at matched
        rw [read] at matched
        split_ifs at matched with bad
        have stored : (matchInt sc base).2.2 = some (toInt32 (strtol base text).num) := by
          simp only [matchInt, token_at, if_true, read]
          split_ifs <;> rfl
        simp only [Bool.or_eq_true, Bool.and_eq_true, decide_eq_true_eq, not_or, not_and] at bad
        obtain ⟨⟨positive, ends⟩, clipped⟩ := bad
        exact ⟨text, nonempty, chars, ⟨c, rest, shape, stop⟩, ⟨by omega,
          by rw [not_not.mp ends, size], fun both => clipped (.inr both.1) both.2⟩, stored⟩
    · rw [if_neg ident] at matched
      cases matched

namespace NumberToken

variable {sc : Scanner} {base : Nat} {text : List UInt8} (number : NumberToken sc base text)
include number

theorem takeWhile_append (buf : List UInt8) :
    (sc.rest ++ buf).takeWhile isIdentifierChar = text := by
  obtain ⟨c, rest, ahead, stop⟩ := number.ahead
  rw [ahead, List.append_assoc, List.cons_append, takeWhile_append_stop _ stop]
  exact List.takeWhile_eq_self_iff.mpr number.chars

theorem value : wholeNumber base (sc.rest.takeWhile isIdentifierChar) =
    some (strtol base text).num := by
  have run := number.takeWhile_append []
  rw [List.append_nil] at run
  rw [run]
  obtain ⟨positive, whole, clipped⟩ := number.accepted
  exact wholeNumber_of_strtol number.nonempty positive whole clipped

end NumberToken

structure ChunkSize (sc : Scanner) (value : Int) : Prop where
  line : chunkSizeLine sc.rest = some (value, (matchFormat sc "%x%L%c").2.1.rest)
  nonneg : 0 ≤ value
  stored : ∃ args, (matchFormat sc "%x%L%c").2.2 = .int (toInt32 value) :: args
  text : ∀ buf, (sc.rest ++ buf).takeWhile isIdentifierChar = sc.rest.takeWhile isIdentifierChar

theorem chunkSize_number {sc : Scanner} (more : sc.Open)
    (matched : (matchFormat sc "%x%L%c").1 = .ok) : ∃ value, ChunkSize sc value := by
  have loop := matchFormat_ok matched
  rw [format_chunkSize] at loop
  have first := (@vfmatchLoop_first true sc (.int 16) [.line, .crlf] (congrArg Prod.fst loop)).1
  obtain ⟨text, number⟩ := @matchInt_token sc 16 (by decide) more first
  have alike := matchFormat_alike (Scanner.alike_init more.entire) chunkSize_relative
  refine ⟨_, ?_, number.accepted.1, ?_, ?_⟩
  · simp only [chunkSizeLine]
    rw [if_pos (alike.1 ▸ matched), number.value, alike.2.rest]
    rfl
  · have args := congrArg (fun r : MatchResult => r.2.2) loop
    rw [vfmatchLoop_cons first] at args
    refine ⟨(vfmatchLoop true (matchInt sc 16).2.1 [.line, .crlf]).2.2, ?_⟩
    rw [← args]
    simp only [matchDirective, number.stored]
    rfl
  · intro buf
    have run := number.takeWhile_append []
    rw [List.append_nil] at run
    rw [number.takeWhile_append, run]

theorem chunkEnd_match {sc : Scanner} (more : sc.Open) (matched : (matchFormat sc "%c").1 = .ok) :
    chunkEnd sc.rest = some (matchFormat sc "%c").2.1.rest := by
  have alike := matchFormat_alike (Scanner.alike_init more.entire) chunkEnd_relative
  simp only [chunkEnd]
  rw [if_pos (alike.1 ▸ matched), alike.2.rest]

theorem chunkSizeLine_nonneg {body data : List UInt8} {value : Int}
    (line : chunkSizeLine body = some (value, data)) : 0 ≤ value := by
  have more : (scannerInit body).Open := ⟨rfl, Nat.zero_le _⟩
  have line' := line
  simp only [chunkSizeLine] at line'
  split_ifs at line' with matched
  obtain ⟨number, size⟩ := chunkSize_number more matched
  have same := size.line
  rw [show (scannerInit body).rest = body from rfl, line] at same
  cases same
  exact size.nonneg

/-- Sizes that the parser takes as ones of further chunks, and the last one behind them. -/
structure SizesShape (values : List Int) : Prop where
  nonneg : ∀ v ∈ values, 0 ≤ v
  shape : ∃ init last, values = init ++ [last] ∧ takenSize last = 0 ∧
    ∀ v ∈ init, takenSize v ≠ 0

theorem chunkSizes_shape {body rest : List UInt8} {values : List Int}
    (sizes : chunkSizes body = some (values, rest)) : SizesShape values := by
  fun_induction chunkSizes body generalizing values rest with
  | case1 body none => cases sizes
  | case2 body value data line last =>
    cases sizes
    refine ⟨by simpa using chunkSizeLine_nonneg line, [], value, rfl, last, nofun⟩
  | case3 body value data line more ended => cases sizes
  | case4 body value data line more later ended ih =>
    rw [Option.map_eq_some_iff] at sizes
    obtain ⟨⟨tail, end_⟩, found, same⟩ := sizes
    cases same
    obtain ⟨nonneg, init, last, rfl, zero, others⟩ := ih found
    refine ⟨?_, value :: init, last, rfl, zero, ?_⟩
    · rintro v (_ | ⟨_, member⟩)
      · exact chunkSizeLine_nonneg line
      · exact nonneg v member
    · rintro v (_ | ⟨_, member⟩)
      · exact more
      · exact others v member

theorem chunkSizeLine_append {body data : List UInt8} {value : Int}
    (line : chunkSizeLine body = some (value, data)) (buf : List UInt8) :
    chunkSizeLine (body ++ buf) = some (value, data ++ buf) := by
  have more : (scannerInit body).Open := ⟨rfl, Nat.zero_le _⟩
  simp only [chunkSizeLine] at line ⊢
  split_ifs at line with matched
  obtain ⟨number, size⟩ := chunkSize_number more matched
  have same := matchFormat_extend matchChunkSize_appendable more (by rw [matched]; decide) buf
  have later := (matchFormat_matched (scannerInit body) "%x%L%c").reaches.opened more
  change matchFormat (scannerInit (body ++ buf)) _ = _ at same
  have text : (body ++ buf).takeWhile isIdentifierChar = body.takeWhile isIdentifierChar :=
    size.text buf
  rw [same, if_pos matched, text]
  dsimp only
  rw [Scanner.rest_extend later]
  rw [Option.map_eq_some_iff] at line ⊢
  obtain ⟨v, found, pair⟩ := line
  cases pair
  exact ⟨value, found, rfl⟩

theorem chunkEnd_append {body later : List UInt8} (line : chunkEnd body = some later)
    (buf : List UInt8) : chunkEnd (body ++ buf) = some (later ++ buf) := by
  have more : (scannerInit body).Open := ⟨rfl, Nat.zero_le _⟩
  simp only [chunkEnd] at line ⊢
  split_ifs at line with matched
  have same := matchFormat_extend matchCrlf_appendable more (by rw [matched]; decide) buf
  have after := (matchFormat_matched (scannerInit body) "%c").reaches.opened more
  change matchFormat (scannerInit (body ++ buf)) _ = _ at same
  rw [same, if_pos matched]
  dsimp only
  cases line
  rw [Scanner.rest_extend after]

theorem chunkSizes_append {body rest : List UInt8} {values : List Int}
    (sizes : chunkSizes body = some (values, rest)) (buf : List UInt8) :
    chunkSizes (body ++ buf) = some (values, rest ++ buf) := by
  fun_induction chunkSizes body generalizing values rest with
  | case1 body none => cases sizes
  | case2 body value data line last =>
    rw [chunkSizes_last (chunkSizeLine_append line buf) last]
    cases sizes
    rfl
  | case3 body value data line more ended => cases sizes
  | case4 body value data line more later ended ih =>
    rw [Option.map_eq_some_iff] at sizes
    obtain ⟨⟨tail, end_⟩, found, same⟩ := sizes
    cases same
    have inside : takenSize value ≤ data.length := by
      have shorter := chunkEnd_length ended
      rw [List.length_drop] at shorter
      omega
    rw [chunkSizes_more (chunkSizeLine_append line buf) more,
      List.drop_append_of_le_length inside, chunkEnd_append ended, Option.bind_some, ih found]
    rfl

end Pupnp.Http
