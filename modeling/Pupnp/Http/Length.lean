import Pupnp.Http.EntityRun

/-!
Announced lengths: where the number of entity bytes comes from, for a
Content-Length and for chunk sizes, and when it is the announced one.
-/

namespace Pupnp.Http
open Pupnp.CString Pupnp.Uri Pupnp.Stream

/-! ### Content-Length -/

/-- The framing is open until the headers have been read, and a length comes from the
Content-Length header. -/
structure HttpParser.Framed (p : HttpParser) : Prop where
  unframed : p.position ≠ .entity → p.position ≠ .complete → p.entPosition = .determineReadMethod
  clen : p.entPosition = .usingClen → ∃ h, httpmsgFindHdr p.msg .contentLength = some h ∧
    p.contentLength = (rawToInt h.value 10 % 2 ^ 32).toNat

theorem HttpParser.Framed.advance {p next : HttpParser} (step : p.Advances next)
    (closed : p.entPosition = .determineReadMethod) : next.Framed := by
  have same := step.entPosition.trans closed
  refine ⟨fun _ _ => same, ?_⟩
  intro clen
  rw [same] at clen
  cases clen

theorem HttpParser.Framed.of_entPosition {p : HttpParser} (other : p.entPosition ≠ .usingClen)
    (inside : p.position = .entity ∨ p.position = .complete) : p.Framed := by
  refine ⟨?_, fun clen => absurd clen other⟩
  intro noEntity unfinished
  rcases inside with here | here
  · exact absurd here noEntity
  · exact absurd here unfinished

theorem parserChunkSizeRead_entPosition (p : HttpParser) :
    (parserChunkSizeRead p).2.entPosition ≠ .usingClen ∧
      (parserChunkSizeRead p).2.position = p.position := by
  unfold parserChunkSizeRead
  split_ifs <;> exact ⟨nofun, rfl⟩

structure EntityResult (r : ParseResult) : Prop where
  framed : r.2.Framed
  clen : r.2.entPosition = .usingClen → r.1 = .continue1 ∨ r.1 = .incomplete ∨
    (r.1 = .success ∧ r.2.msg.entity.length = r.2.contentLength)
  inside : r.2.position = .entity ∨ r.2.position = .complete

theorem parserParseHeaders_inside {p : HttpParser} (here : p.position = .entity) :
    (parserParseHeaders p).2.position = .entity ∨ (parserParseHeaders p).2.position = .complete := by
  have line (q : HttpParser) (at_q : q.position = .entity) :
      (parseHeaderLine q).2.position = .entity ∨ (parseHeaderLine q).2.position = .complete := by
    unfold parseHeaderLine
    split
    · exact .inl at_q
    · split
      · split_ifs
        · exact .inr rfl
        · exact .inl rfl
      · dsimp only
        split_ifs <;> exact .inl at_q
      · exact .inl at_q
  fun_induction parserParseHeaders p with
  | case1 p next found ih =>
    have again : (parseHeaderLine p).1 = .continue1 := by rw [found]
    have same := @parseHeaderLine_position p (by rw [again]; simp)
    rw [found] at same
    exact ih (same.trans here)
  | case2 p => exact line p here

theorem EntityResult.other {r : ParseResult} {e : EntPosition} (framing : r.2.entPosition = e)
    (other : e ≠ .usingClen) (inside : r.2.position = .entity ∨ r.2.position = .complete) :
    EntityResult r := by
  have noClen : r.2.entPosition ≠ .usingClen := framing ▸ other
  exact ⟨.of_entPosition noClen inside, fun clen => absurd clen noClen, inside⟩

theorem readMethodOfLength_result {p : HttpParser} (here : p.position = .entity)
    (closed : p.entPosition = .determineReadMethod) : EntityResult (readMethodOfLength p) := by
  unfold readMethodOfLength
  split
  · rename_i h found
    exact ⟨⟨fun other => absurd here other, fun _ => ⟨h, found, rfl⟩⟩, fun _ => .inl rfl, .inl here⟩
  · split_ifs
    · exact .other closed (by decide) (.inl here)
    · exact .other (e := .untilClose) rfl (by decide) (.inl here)

theorem parserEntityRound_result {p : HttpParser} (framed : p.Framed) (here : p.position = .entity) :
    EntityResult (parserEntityRound p) := by
  unfold parserEntityRound
  split
  · simp only [parserParseEntityUsingClen]
    split_ifs
    · exact ⟨⟨framed.unframed, framed.clen⟩, fun _ => .inr (.inl rfl), .inl here⟩
    · exact ⟨⟨fun _ other => absurd rfl other, framed.clen⟩, fun _ => .inr (.inr ⟨rfl, rfl⟩),
        .inr rfl⟩
    · exact ⟨⟨fun _ other => absurd rfl other, framed.clen⟩, fun _ => .inr (.inr ⟨rfl, rfl⟩),
        .inr rfl⟩
  · rename_i chunks
    simp only [parserParseChunkyEntity]
    split_ifs
    · exact .other chunks (by decide) (.inl here)
    · have read := parserChunkSizeRead_entPosition ((p.withChunkSize (storeChunkSize p.chunkSize
        (matchFormat p.scanner "%x%L%c").2.2)).withScanner
          ((matchFormat p.scanner "%x%L%c").2.1.deleteFrom p.scanner.cursor))
      exact .other rfl read.1 (.inl (read.2.trans here))
  · rename_i body
    simp only [parserParseChunkyBody]
    split_ifs
    · exact .other body (by decide) (.inl here)
    · exact .other (e := .usingChunked) rfl (by decide) (.inl here)
    · exact .other body (by decide) (.inl here)
  · rename_i trailers
    have step := (parserParseHeaders_advances p).entPosition.trans trailers
    simp only [parserParseChunkyHeaders]
    split_ifs
    · exact .other step (by decide) (.inr rfl)
    · exact .other step (by decide) (parserParseHeaders_inside here)
  · rename_i close
    exact .other close (by decide) (.inl here)
  · rename_i closed
    unfold parserGetEntityReadMethod
    split_ifs
    · exact .other closed (by decide) (.inr rfl)
    · exact .other (e := .usingChunked) rfl (by decide) (.inl here)
    · exact @readMethodOfLength_result p.startEntity.searchTransferEncoding here closed

theorem parserParseEntity_result {p : HttpParser} (framed : p.Framed) (here : p.position = .entity) :
    EntityResult (parserParseEntity p) := by
  fun_induction parserParseEntity p with
  | case1 p next found ih =>
    have round := parserEntityRound_result framed here
    have same := @parserEntityRound_position p (by rw [found]; simp)
    rw [found] at round same
    exact ih round.framed (same.trans here)
  | case2 p => exact parserEntityRound_result framed here

structure FeedResult (r : ParseResult) : Prop where
  framed : r.2.Framed
  clen : r.2.entPosition = .usingClen → r.1 = .incomplete ∨
    (r.1 = .success ∧ r.2.msg.entity.length = r.2.contentLength)
  going : parserConsumer.waits r.1 → r.2.position ≠ .complete

theorem parserRound_framed {res : Resolver} {p : HttpParser} (framed : p.Framed)
    (unfinished : p.position ≠ .complete) : (parserRound res p).2.Framed := by
  cases here : p.position with
  | entity =>
    rw [parserRound, here]
    exact (parserParseEntity_result framed here).framed
  | headers =>
    rw [parserRound, here]
    exact .advance (parserParseHeaders_advances p) (framed.unframed (by rw [here]; decide) unfinished)
  | requestLine =>
    rw [parserRound, here]
    exact .advance (parserParseRequestline_advances res p)
      (framed.unframed (by rw [here]; decide) unfinished)
  | responseLine =>
    rw [parserRound, here]
    exact .advance (parserParseResponseline_advances p)
      (framed.unframed (by rw [here]; decide) unfinished)
  | complete => exact absurd here unfinished

theorem parserRound_unframed {res : Resolver} {p : HttpParser} (framed : p.Framed)
    (noEntity : p.position ≠ .entity) (unfinished : p.position ≠ .complete) :
    (parserRound res p).2.entPosition = .determineReadMethod :=
  (parserRound_advances noEntity).entPosition.trans (framed.unframed noEntity unfinished)

theorem parserRound_ok_unfinished {res : Resolver} {p : HttpParser}
    (again : (parserRound res p).1 = .ok) : (parserRound res p).2.position ≠ .complete := by
  unfold parserRound at again ⊢
  split at again
  · exact absurd again (parserParseEntity_not_ok p)
  · rw [parserParseHeaders_ok (Prod.ext again rfl)]
    decide
  · rw [parserParseRequestline_ok (Prod.ext again rfl)]
    decide
  · rw [parserParseResponseline_ok (Prod.ext again rfl)]
    decide
  · cases again

theorem parserParse_result {res : Resolver} {p : HttpParser} (framed : p.Framed)
    (unfinished : p.position ≠ .complete) : FeedResult (parserParse res p) := by
  fun_induction parserParse res p with
  | case1 p next found ih =>
    have again : (parserRound res p).1 = .ok := by rw [found]
    have framed' := @parserRound_framed res p framed unfinished
    have unfinished' := parserRound_ok_unfinished again
    rw [found] at framed' unfinished'
    exact ih framed' unfinished'
  | case2 p last =>
    refine ⟨parserRound_framed framed unfinished, ?_, ?_⟩
    · intro clen
      by_cases here : p.position = .entity
      · have round : parserRound res p = parserParseEntity p := by rw [parserRound, here]
        rw [round] at clen ⊢
        rcases (parserParseEntity_result framed here).clen clen with again | rest
        · exact absurd again (parserParseEntity_not_continue p)
        · exact rest
      · rw [parserRound_unframed framed here unfinished] at clen
        cases clen
    · intro short
      rw [parserRound_waits short]
      exact unfinished

theorem parserInit_framed (isRequest : Bool) (requestMethod : HttpMethod) (position : ParserPos) :
    (parserInit isRequest requestMethod position).Framed :=
  ⟨fun _ _ => rfl, nofun⟩

theorem parserFeed_result {res : Resolver} {p : HttpParser} (start : p.Initial)
    (fragments : List (List UInt8)) : FeedResult (parserFeed res p fragments) := by
  refine Consumer.feed_rule ?_ ?_ fragments
  · intro r q result short
    exact @parserParse_result res (r.2.extend q) ⟨result.framed.unframed, result.framed.clen⟩
      (result.going short)
  · cases start with
    | request => exact ⟨parserInit_framed _ _ _, nofun, fun _ => by decide⟩
    | response => exact ⟨parserInit_framed _ _ _, nofun, fun _ => nofun⟩

/-- The text of a length that the parser can hold: a number of 32 bits. -/
def FitsLength (text : List UInt8) : Prop :=
  ∃ value, wholeNumber 10 text = some value ∧ 0 ≤ value ∧ value < 2 ^ 32

theorem rawToInt_fits {text : List UInt8} {value : Int} (number : wholeNumber 10 text = some value)
    (low : 0 ≤ value) (high : value < 2 ^ 32) :
    (rawToInt text 10 % 2 ^ 32).toNat = value.toNat := by
  obtain ⟨n, found, whole, same⟩ := wholeNumber_some number
  have some : text.length ≠ 0 := by
    intro empty
    rw [List.length_eq_zero_iff] at empty
    subst empty
    cases found
  have max : LONG_MAX = 2 ^ 63 - 1 := rfl
  have min : LONG_MIN = -2 ^ 63 := rfl
  have read : strtol 10 text = ⟨value, text.length, false⟩ := by
    unfold strtol
    rw [found]
    dsimp only
    rw [if_neg (by omega), if_neg (by omega), same, whole]
  unfold rawToInt
  rw [if_neg some, read]
  dsimp only
  rw [if_neg (by simp; omega), toInt32_emod, Int.emod_eq_of_lt low high]

/-! ### The announced length and the one taken -/

def ParseStatus.Rejects (status : ParseStatus) : Prop := status = .failure ∨ status = .noMatch

def contentLengthText (msg : HttpMessage) : List UInt8 :=
  ((httpmsgFindHdr msg .contentLength).map (·.value)).getD []

/-- As many bytes as the text says, and no text but a number that fits. -/
def ClenRight (r : ParseResult) : Prop :=
  (r.1 = .success → ∃ value, wholeNumber 10 (contentLengthText r.2.msg) = some value ∧
      (r.2.msg.entity.length : Int) = value) ∧
    (¬FitsLength (contentLengthText r.2.msg) → r.1.Rejects)

/-- As many bytes as the sizes up to the first one that is zero say. -/
def ChunksRight (values : List Int) (length : Nat) : Prop :=
  0 ∈ values ∧ (length : Int) = (values.takeWhile (· ≠ 0)).sum

theorem clenRight_iff {r : ParseResult} (result : FeedResult r)
    (clen : r.2.entPosition = .usingClen) :
    ClenRight r ↔ FitsLength (contentLengthText r.2.msg) := by
  obtain ⟨h, found, length⟩ := result.framed.clen clen
  have text : contentLengthText r.2.msg = h.value := by
    rw [contentLengthText, found]
    rfl
  constructor
  · intro right
    by_contra bad
    rcases right.2 bad with status | status <;>
      rcases result.clen clen with short | ⟨done, -⟩ <;> simp_all
  · intro fits
    refine ⟨?_, fun bad => absurd fits bad⟩
    intro success
    obtain ⟨value, number, low, high⟩ := fits
    refine ⟨value, number, ?_⟩
    rw [text] at number
    rcases result.clen clen with short | ⟨-, taken⟩
    · rw [success] at short
      cases short
    · rw [taken, length, rawToInt_fits number low high]
      omega

theorem takenSize_fits {value : Int} (low : 0 ≤ value) :
    (takenSize value : Int) ≤ value ∧ ((takenSize value : Int) = value ↔ value < 2 ^ 32) := by
  unfold takenSize
  omega

theorem sum_takenSize {values : List Int} (nonneg : ∀ v ∈ values, 0 ≤ v) :
    ((values.map takenSize).sum : Int) ≤ values.sum ∧
      (((values.map takenSize).sum : Int) = values.sum ↔ ∀ v ∈ values, v < 2 ^ 32) := by
  induction values with
  | nil => simp
  | cons v values ih =>
    obtain ⟨less, exact_iff⟩ := ih fun w member => nonneg w (by simp [member])
    obtain ⟨low, fits⟩ := takenSize_fits (nonneg v (by simp))
    simp only [List.map_cons, List.sum_cons, Int.natCast_add, List.mem_cons, forall_eq_or_imp]
    refine ⟨by omega, ?_⟩
    rw [← exact_iff, ← fits]
    omega

theorem chunksRight_iff {values : List Int} (shape : SizesShape values) :
    ChunksRight values (values.map takenSize).sum ↔ ∀ v ∈ values, v < 2 ^ 32 := by
  obtain ⟨nonneg, init, last, rfl, zero, others⟩ := shape
  have positive (v : Int) (member : v ∈ init) : v ≠ 0 := by
    rintro rfl
    exact others 0 member rfl
  have init_run : init.takeWhile (· ≠ 0) = init :=
    List.takeWhile_eq_self_iff.mpr (by simpa using positive)
  have low : 0 ≤ last := nonneg last (by simp)
  obtain ⟨-, sum⟩ := sum_takenSize fun v member => nonneg v (List.mem_append_left _ member)
  unfold ChunksRight
  rw [List.map_append, List.sum_append, List.map_singleton, List.sum_singleton, zero, Nat.add_zero]
  constructor
  · rintro ⟨member, length⟩
    have last_zero : last = 0 := by
      rcases List.mem_append.mp member with early | late
      · exact absurd rfl (positive 0 early)
      · exact (List.mem_singleton.mp late).symm
    subst last_zero
    rw [List.takeWhile_append_of_pos (by simpa using positive)] at length
    simp only [ne_eq, not_true, decide_false, Bool.false_eq_true, not_false_iff,
      List.takeWhile_cons_of_neg, List.append_nil] at length
    have fits := sum.mp length
    intro v member
    rcases List.mem_append.mp member with early | late
    · exact fits v early
    · rw [List.mem_singleton.mp late]
      decide
  · intro fits
    have last_zero : last = 0 := by
      have small := fits last (by simp)
      unfold takenSize at zero
      omega
    subst last_zero
    refine ⟨by simp, ?_⟩
    rw [List.takeWhile_append_of_pos (by simpa using positive)]
    simp only [ne_eq, not_true, decide_false, Bool.false_eq_true, not_false_iff,
      List.takeWhile_cons_of_neg, List.append_nil]
    exact sum.mpr fun v member => fits v (List.mem_append_left _ member)

/-- The number of entity bytes is the announced one exactly when the announced numbers
fit into 32 bits. -/
theorem parserFeed_length_iff {res : Resolver} {p : HttpParser} (start : p.Initial)
    (fragments : List (List UInt8)) :
    ((parserFeed res p fragments).2.entPosition = .usingClen →
      (ClenRight (parserFeed res p fragments) ↔
        FitsLength (contentLengthText (parserFeed res p fragments).2.msg))) ∧
    ((parserFeed res p fragments).1 = .success →
      (parserFeed res p fragments).2.entPosition.isChunked = true →
      ∃ values rest,
        chunkSizes (fragments.flatten.drop (parserFeed res p fragments).2.entityStartPosition) =
            some (values, rest) ∧
          (ChunksRight values (parserFeed res p fragments).2.msg.entity.length ↔
            ∀ v ∈ values, v < 2 ^ 32)) := by
  refine ⟨fun clen => clenRight_iff (parserFeed_result start fragments) clen, ?_⟩
  intro success chunks
  obtain ⟨values, rest, sizes, length⟩ := parserFeed_sizes start fragments success chunks
  refine ⟨values, rest, sizes, ?_⟩
  rw [length]
  exact chunksRight_iff (chunkSizes_shape sizes)

def longNotify : List UInt8 := bytes "NOTIFY / HTTP/1.1\r\nCONTENT-LENGTH:4294967296\r\n\r\n"

def longChunk : List UInt8 :=
  bytes "NOTIFY / HTTP/1.1\r\nTRANSFER-ENCODING:chunked\r\n\r\n100000000\r\n\r\n"

theorem parserFeed_length_longNotify :
    ClenRight (parserFeed noHosts parserRequestInit [longNotify]) ↔
      FitsLength (contentLengthText (parserFeed noHosts parserRequestInit [longNotify]).2.msg) :=
  (parserFeed_length_iff .request [longNotify]).1 (by decide +kernel)

/-- Lengths of 2^32 are taken for an empty entity. -/
theorem parserFeed_length_cut :
    (¬∀ (res : Resolver) (p : HttpParser) (_ : p.Initial) (fragments : List (List UInt8)),
      (parserFeed res p fragments).2.entPosition = .usingClen →
        ClenRight (parserFeed res p fragments)) ∧
    ¬∀ (res : Resolver) (p : HttpParser) (_ : p.Initial) (fragments : List (List UInt8))
        (values : List Int) (rest : List UInt8), (parserFeed res p fragments).1 = .success →
      (parserFeed res p fragments).2.entPosition.isChunked = true →
      chunkSizes (fragments.flatten.drop (parserFeed res p fragments).2.entityStartPosition) =
          some (values, rest) →
      ChunksRight values (parserFeed res p fragments).2.msg.entity.length := by
  constructor
  · intro claim
    have right := claim noHosts parserRequestInit .request [longNotify]
    set r := parserFeed noHosts parserRequestInit [longNotify] with r_eq
    have parsed : (r.1, r.2.entPosition, r.2.msg.entity.length,
        wholeNumber 10 (contentLengthText r.2.msg)) =
          (.success, .usingClen, 0, some (2 ^ 32)) := by
      rw [r_eq]
      decide +kernel
    simp only [Prod.mk.injEq] at parsed
    obtain ⟨success, clen, taken, text⟩ := parsed
    obtain ⟨value, number, same⟩ := (right clen).1 success
    rw [number, Option.some.injEq] at text
    rw [taken, text] at same
    cases same
  · intro claim
    have right := claim noHosts parserRequestInit .request [longChunk] [2 ^ 32] (bytes "\r\n")
    set r := parserFeed noHosts parserRequestInit [longChunk] with r_eq
    have parsed : (r.1, r.2.entPosition.isChunked,
        chunkSizes ([longChunk].flatten.drop r.2.entityStartPosition)) =
          (.success, true, some ([2 ^ 32], bytes "\r\n")) := by
      rw [r_eq]
      decide +kernel
    simp only [Prod.mk.injEq] at parsed
    obtain ⟨success, chunks, sizes⟩ := parsed
    exact absurd (right success chunks sizes).1 (by decide)

end Pupnp.Http
