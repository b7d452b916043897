import Pupnp.Http.Fragmentation
import Pupnp.Http.ChunkSizes

/-!
The way of a whole parse through the entity. A chunked one is as long as the sizes
the parser took, one by one, from the first byte behind the headers.
-/

namespace Pupnp.Http
open Pupnp.CString Pupnp.Uri Pupnp.Stream

theorem storeLow32_taken {old : Nat} (small : old < 2 ^ 32) (value : Int) :
    storeLow32 old (toInt32 value) = takenSize value := by
  unfold storeLow32 takenSize
  rw [toInt32_emod, Nat.div_eq_of_lt small, Nat.zero_mul, Nat.zero_add]

theorem Scanner.deleteFrom_rest {sc : Scanner} {savePos : Nat} (before : savePos ≤ sc.cursor)
    (inside : sc.cursor ≤ sc.msg.length) : (sc.deleteFrom savePos).rest = sc.rest := by
  have size : (sc.msg.take savePos).length = savePos := by
    rw [List.length_take]
    omega
  simp only [Scanner.rest, Scanner.deleteFrom, membufferDelete]
  rw [List.drop_append, size, Nat.sub_self, List.drop_zero, List.drop_eq_nil_of_le size.le,
    List.nil_append, Nat.add_sub_cancel' before]

/-- The sizes of the chunks whose size line is still ahead, and what follows the last line. -/
def HttpParser.sizesAhead (p : HttpParser) : Option (List Int × List UInt8) :=
  match p.entPosition with
  | .usingChunked => chunkSizes p.scanner.rest
  | .chunkyBody => (chunkEnd (p.scanner.rest.drop p.chunkSize)).bind chunkSizes
  | _ => some ([], p.scanner.rest)

def HttpParser.takenSoFar (p : HttpParser) : Nat :=
  match p.entPosition with
  | .usingChunked => p.scanner.cursor - p.entityStartPosition
  | .chunkyBody => p.scanner.cursor - p.entityStartPosition + p.chunkSize
  | _ => p.msg.entity.length

def HttpMessage.HasEntity (msg : HttpMessage) : Prop :=
  (msg.isRequest && msg.method = .post) = false

structure HttpParser.Chunked (p : HttpParser) : Prop where
  good : p.Good
  chunks : p.entPosition.isChunked = true
  small : p.chunkSize < 2 ^ 32
  hasEntity : p.msg.HasEntity

def HttpParser.EntityEnds (p : HttpParser) : Prop :=
  p.entityStartPosition + p.msg.entity.length = p.scanner.cursor

structure HttpParser.ReadsSizes (p next : HttpParser) (read : List Int) : Prop where
  chunked : next.Chunked
  start : next.entityStartPosition = p.entityStartPosition
  ahead : p.sizesAhead = next.sizesAhead.map (Prod.map (read ++ ·) id)
  taken : next.takenSoFar = p.takenSoFar + (read.map takenSize).sum
  ends : next.entPosition = .chunkyHeaders → next = p ∨ next.EntityEnds

theorem HttpParser.ReadsSizes.refl {p : HttpParser} (chunked : p.Chunked) : p.ReadsSizes p [] := by
  refine ⟨chunked, rfl, ?_, rfl, fun _ => .inl rfl⟩
  cases p.sizesAhead <;> rfl

theorem HttpParser.ReadsSizes.trans {a b c : HttpParser} {read later : List Int}
    (first : a.ReadsSizes b read) (second : b.ReadsSizes c later) :
    a.ReadsSizes c (read ++ later) := by
  refine ⟨second.chunked, second.start.trans first.start, ?_, ?_, ?_⟩
  · rw [first.ahead, second.ahead, Option.map_map]
    congr 1
    funext sizes
    simp [Prod.map]
  · rw [second.taken, first.taken, List.map_append, List.sum_append, Nat.add_assoc]
  · intro here
    rcases second.ends here with rfl | ends
    · exact first.ends here
    · exact .inr ends

theorem chunkyEntity_reads {p next : HttpParser} (chunked : p.Chunked)
    (here : p.entPosition = .usingChunked)
    (round : parserParseChunkyEntity p = (.continue1, next)) : ∃ read, p.ReadsSizes next read := by
  have goods := chunked.good.chunkyEntity here
  have bound := chunked.good.chunk_bound chunked.chunks
  by_cases matched : (matchFormat p.scanner "%x%L%c").1 = .ok
  · obtain ⟨value, size⟩ := chunkSize_number chunked.good.more matched
    obtain ⟨args, stored⟩ := size.stored
    have moved := (matchFormat_matched p.scanner "%x%L%c").reaches
    have rest := Scanner.deleteFrom_rest moved.forward (moved.opened chunked.good.more).inside
    have taken : storeChunkSize p.chunkSize (matchFormat p.scanner "%x%L%c").2.2 =
        takenSize value := by
      rw [stored]
      exact storeLow32_taken chunked.small value
    have small : takenSize value < 2 ^ 32 := by
      unfold takenSize
      omega
    refine ⟨[value], ?_⟩
    simp only [parserParseChunkyEntity, matched, taken] at round goods
    set sized := (p.withChunkSize (takenSize value)).withScanner
      ((matchFormat p.scanner "%x%L%c").2.1.deleteFrom p.scanner.cursor)
    by_cases last : takenSize value = 0
    · have sizes := chunkSizes_last size.line last
      have read : parserChunkSizeRead sized = (.continue1, (sized.withEntity ⟨p.msg.entity.buf,
          p.scanner.cursor - p.entityStartPosition + p.msg.amountDiscarded⟩).withEntPosition
            .chunkyHeaders) := by
        rw [parserChunkSizeRead, if_pos (show sized.chunkSize = 0 from last)]
        rfl
      rw [if_neg (by decide), read] at round goods
      cases round
      refine ⟨⟨goods, rfl, small, chunked.hasEntity⟩, rfl, ?_, ?_, fun _ => .inr ?_⟩
      · simp only [HttpParser.sizesAhead, here, sizes]
        change _ = (some ([], (Scanner.deleteFrom _ _).rest)).map _
        rw [rest]
        rfl
      · simp only [HttpParser.takenSoFar, here, chunked.good.discarded, List.map_cons, last]
        rfl
      · unfold HttpParser.EntityEnds
        change p.entityStartPosition + (p.scanner.cursor - p.entityStartPosition +
          p.msg.amountDiscarded) = p.scanner.cursor
        rw [chunked.good.discarded]
        omega
    · have sizes := chunkSizes_more size.line last
      have read : parserChunkSizeRead sized = (.continue1, sized.withEntPosition .chunkyBody) := by
        rw [parserChunkSizeRead, if_neg (show ¬sized.chunkSize = 0 from last)]
      rw [if_neg (by decide), read] at round goods
      cases round
      refine ⟨⟨goods, rfl, small, chunked.hasEntity⟩, rfl, ?_, ?_, fun same => by cases same⟩
      · simp only [HttpParser.sizesAhead, here, sizes]
        change _ = ((chunkEnd ((Scanner.deleteFrom _ _).rest.drop (takenSize value))).bind
          chunkSizes).map _
        rw [rest, Option.map_bind]
        rfl
      · simp only [HttpParser.takenSoFar, here, List.map_cons, List.map_nil, List.sum_cons,
          List.sum_nil, Nat.add_zero]
        rfl
  · simp only [parserParseChunkyEntity, ne_eq, matched, not_false_iff, if_true] at round
    exact absurd (congrArg Prod.fst round) (matchFormat_not_continue _ _)

theorem chunkyBody_reads {p next : HttpParser} (chunked : p.Chunked)
    (here : p.entPosition = .chunkyBody)
    (round : parserParseChunkyBody p = (.continue1, next)) : p.ReadsSizes next [] := by
  have goods := chunked.good.chunkyBody here
  have bound := chunked.good.chunk_bound chunked.chunks
  have inside := chunked.good.more.inside
  rw [round] at goods
  simp only [parserParseChunkyBody] at round
  set ended : Scanner := { p.scanner with cursor := p.scanner.cursor + p.chunkSize } with ended_eq
  have moved := (matchFormat_matched ended "%c").reaches
  split_ifs at round with loaded failed
  · exact absurd (congrArg Prod.fst round) (matchFormat_not_continue _ _)
  · have more : ended.Open := ⟨chunked.good.more.entire, by rw [ended_eq]; dsimp only; omega⟩
    have later := chunkEnd_match more (not_not.mp failed)
    have ahead : p.scanner.rest.drop p.chunkSize = ended.rest := by
      rw [Scanner.rest, Scanner.rest, List.drop_drop]
    have rest := Scanner.deleteFrom_rest moved.forward (moved.opened more).inside
    cases round
    refine ⟨⟨goods, rfl, chunked.small, chunked.hasEntity⟩, rfl, ?_, ?_, fun same => by cases same⟩
    · simp only [HttpParser.sizesAhead, here, ahead, later, Option.bind_some]
      change _ = (chunkSizes (Scanner.deleteFrom _ ended.cursor).rest).map _
      rw [rest]
      cases chunkSizes (matchFormat ended "%c").2.1.rest <;> rfl
    · simp only [HttpParser.takenSoFar, here]
      change p.scanner.cursor + p.chunkSize - p.entityStartPosition = _
      simp only [List.map_nil, List.sum_nil]
      omega
  · cases round

theorem parserEntityRound_reads {p next : HttpParser} (chunked : p.Chunked)
    (round : parserEntityRound p = (.continue1, next)) : ∃ read, p.ReadsSizes next read := by
  have chunks := chunked.chunks
  unfold parserEntityRound at round
  split at round
  · rename_i here; rw [here] at chunks; cases chunks
  · rename_i here; exact chunkyEntity_reads chunked here round
  · rename_i here; exact ⟨[], chunkyBody_reads chunked here round⟩
  · exact absurd (congrArg Prod.fst round) (parserParseChunkyHeaders_not_continue p)
  · cases round
  · rename_i here; rw [here] at chunks; cases chunks

theorem parserEntityRound_ends {p : HttpParser} (chunks : p.entPosition.isChunked = true)
    (success : (parserEntityRound p).1 = .success) :
    p.entPosition = .chunkyHeaders ∧
      (parserEntityRound p).2.msg.entity.length = p.msg.entity.length ∧
      (parserEntityRound p).2.entityStartPosition = p.entityStartPosition := by
  have noMatch (sc : Scanner) (fmt : String) : (matchFormat sc fmt).1 ≠ .success := by
    intro same
    have range := (matchFormat_matched sc fmt).isMatch
    rw [same] at range
    simp [ParseStatus.IsMatch] at range
  unfold parserEntityRound at success ⊢
  cases here : p.entPosition with
  | usingClen => rw [here] at chunks; cases chunks
  | untilClose => rw [here] at chunks; cases chunks
  | determineReadMethod => rw [here] at chunks; cases chunks
  | usingChunked =>
    rw [here] at success
    simp only [parserParseChunkyEntity] at success
    split_ifs at success
    · exact absurd success (noMatch _ _)
    · rw [parserChunkSizeRead_continue] at success
      cases success
  | chunkyBody =>
    rw [here] at success
    simp only [parserParseChunkyBody] at success
    split_ifs at success
    exact absurd success (noMatch _ _)
  | chunkyHeaders =>
    have step := parserParseHeaders_advances p
    have length := congrArg Entity.length step.entity
    refine ⟨rfl, ?_⟩
    simp only [parserParseChunkyHeaders]
    split_ifs
    · exact ⟨length, step.start⟩
    · exact ⟨length, step.start⟩

/-- In front of a size line or of the end of a chunk, a round that does not go on has found none. -/
theorem parserEntityRound_noSizes {q : HttpParser} (chunked : q.Chunked) (other : q.entPosition ≠ .chunkyHeaders)
    (last : (parserEntityRound q).1 ≠ .continue1) : q.sizesAhead = none := by
  have chunks := chunked.chunks
  unfold parserEntityRound at last
  split at last
  next here => rw [here] at chunks; cases chunks
  next here =>
    obtain ⟨status, -⟩ := matchFormat_alike (Scanner.alike_init chunked.good.more.entire) chunkSize_relative
    have missed : ¬(matchFormat q.scanner "%x%L%c").1 = .ok := by
      intro matched
      simp only [parserParseChunkyEntity, matched, ne_eq, not_true_eq_false, if_false] at last
      exact last (parserChunkSizeRead_continue _)
    rw [status] at missed
    have line : chunkSizeLine q.scanner.rest = none := by simp only [chunkSizeLine, if_neg missed]
    simp only [HttpParser.sizesAhead, here]
    exact chunkSizes_none line
  next here =>
    have line : chunkEnd (q.scanner.rest.drop q.chunkSize) = none := by
      simp only [parserParseChunkyBody] at last
      split_ifs at last with loaded failed
      · have behind : ({ q.scanner with cursor := q.scanner.cursor + q.chunkSize } : Scanner).rest =
            q.scanner.rest.drop q.chunkSize := by
          simp only [Scanner.rest, List.drop_drop]
        have alike := @Scanner.alike_init { q.scanner with cursor := q.scanner.cursor + q.chunkSize }
          chunked.good.more.entire
        obtain ⟨status, -⟩ := matchFormat_alike alike chunkEnd_relative
        rw [status, behind] at failed
        simp only [chunkEnd, if_neg failed]
      · exact absurd rfl last
      · have nothing : q.scanner.rest.drop q.chunkSize = [] := by
          apply List.drop_eq_nil_of_le
          rw [Scanner.rest_length, Scanner.remaining]
          omega
        rw [nothing]
        decide
    simp only [HttpParser.sizesAhead, here, line, Option.bind_none]
  next here => exact absurd here other
  next here => rw [here] at chunks; cases chunks
  next here => rw [here] at chunks; cases chunks

theorem HttpParser.Chunked.extend {p : HttpParser} (chunked : p.Chunked) (buf : List UInt8) :
    (p.extend buf).Chunked :=
  ⟨chunked.good.extend buf, chunked.chunks, chunked.small, chunked.hasEntity⟩

theorem parserEntityRound_longer {p : HttpParser} (good : p.Good)
    (again : (parserEntityRound p).1 = .continue1) (buf : List UInt8) :
    parserEntityRound (p.extend buf) = (.continue1, (parserEntityRound p).2.extend buf) := by
  have goes := again ▸ parserConsumer_goesOn_continue
  have stable := (parserEntityRound_incremental p good).stable buf
    (parserConsumer.apart _ goes) id
  rw [← again]
  exact stable.eq (.inr (stable.status ▸ goes))

structure HttpParser.LastRound (p q : HttpParser) (read : List Int) : Prop where
  reads : p.ReadsSizes q read
  same : parserParseEntity p = parserEntityRound q
  last : (parserEntityRound q).1 ≠ .continue1
  longer : ∀ buf, parserParseEntity (p.extend buf) = parserParseEntity (q.extend buf) ∧
    ∃ read', (p.extend buf).ReadsSizes (q.extend buf) read'

theorem parserParseEntity_lastRound {p : HttpParser} (chunked : p.Chunked) :
    ∃ q read, p.LastRound q read := by
  fun_induction parserParseEntity p with
  | case1 p next round ih =>
    obtain ⟨read, first⟩ := parserEntityRound_reads chunked round
    obtain ⟨q, later, rounds⟩ := ih first.chunked
    have again : (parserEntityRound p).1 = .continue1 := by rw [round]
    refine ⟨q, read ++ later, first.trans rounds.reads, ?_, rounds.last, ?_⟩
    · rw [parserParseEntity_next again, round]
      exact rounds.same
    · intro buf
      have round' := parserEntityRound_longer chunked.good again buf
      rw [round] at round'
      obtain ⟨read', first'⟩ := parserEntityRound_reads (chunked.extend buf) round'
      obtain ⟨same, read'', rest⟩ := rounds.longer buf
      refine ⟨?_, read' ++ read'', first'.trans rest⟩
      rw [parserParseEntity_next (by rw [round']), round']
      exact same
  | case2 p last =>
    have ended : (parserEntityRound p).1 ≠ .continue1 := fun again => last _ (Prod.ext again rfl)
    exact ⟨p, [], .refl chunked, parserParseEntity_last ended, ended,
      fun buf => ⟨rfl, [], .refl (chunked.extend buf)⟩⟩

theorem parserParseEntity_sizes {p : HttpParser} (chunked : p.Chunked)
    (success : (parserParseEntity p).1 = .success) :
    (parserParseEntity p).2.entityStartPosition = p.entityStartPosition ∧
      ∃ values rest, p.sizesAhead = some (values, rest) ∧
        (parserParseEntity p).2.msg.entity.length =
          p.takenSoFar + (values.map takenSize).sum := by
  obtain ⟨q, read, rounds⟩ := parserParseEntity_lastRound chunked
  rw [rounds.same] at success ⊢
  obtain ⟨here, length, start⟩ := parserEntityRound_ends rounds.reads.chunked.chunks success
  have ahead : q.sizesAhead = some ([], q.scanner.rest) := by
    simp only [HttpParser.sizesAhead, here]
  refine ⟨start.trans rounds.reads.start, read, q.scanner.rest, ?_, ?_⟩
  · rw [rounds.reads.ahead, ahead]
    simp [Prod.map]
  · rw [length, ← rounds.reads.taken]
    simp only [HttpParser.takenSoFar, here]

theorem parserParseHeaders_hasEntity {p : HttpParser} (ended : (parserParseHeaders p).1 = .ok) :
    (parserParseHeaders p).2.msg.HasEntity := by
  fun_induction parserParseHeaders p with
  | case1 p next found ih => exact ih ended
  | case2 p =>
    unfold parseHeaderLine at ended ⊢
    split at ended
    · rename_i found
      rcases scanToken_error (scannerGetToken_error found) with rfl | rfl <;> cases ended
    · split at ended
      · split_ifs at ended ⊢ with post
        exact eq_false_of_ne_true post
      · dsimp only at ended
        split_ifs at ended with failed
        exact absurd ended failed
      · cases ended

theorem parserRound_hasEntity {res : Resolver} {p : HttpParser} (ended : (parserRound res p).1 = .ok)
    (here : (parserRound res p).2.position = .entity) :
    (parserRound res p).2.msg.HasEntity := by
  cases at_p : p.position with
  | entity =>
    rw [parserRound, at_p] at ended
    exact absurd ended (parserParseEntity_not_ok p)
  | headers =>
    rw [parserRound, at_p] at ended ⊢
    exact parserParseHeaders_hasEntity ended
  | requestLine =>
    rw [parserRound, at_p] at ended here
    rw [parserParseRequestline_ok (Prod.ext ended rfl)] at here
    cases here
  | responseLine =>
    rw [parserRound, at_p] at ended here
    rw [parserParseResponseline_ok (Prod.ext ended rfl)] at here
    cases here
  | complete =>
    rw [parserRound, at_p] at ended
    cases ended

theorem parserRound_advances {res : Resolver} {p : HttpParser} (noEntity : p.position ≠ .entity) :
    p.Advances (parserRound res p).2 := by
  unfold parserRound
  split
  · rename_i here; exact absurd here noEntity
  · exact parserParseHeaders_advances p
  · exact parserParseRequestline_advances res p
  · exact parserParseResponseline_advances p
  · exact .refl p

theorem parserRound_waits {res : Resolver} {p : HttpParser}
    (short : parserConsumer.waits (parserRound res p).1) :
    (parserRound res p).2.position = p.position := by
  unfold parserRound at short ⊢
  split at short
  · exact parserParseEntity_waits short
  · exact parserParseHeaders_waits short
  · exact parserParseRequestline_position short
  · exact parserParseResponseline_position short
  · rfl

theorem parserParse_longer {res : Resolver} {p : HttpParser} (good : p.Good)
    (again : (parserRound res p).1 = .ok) (buf : List UInt8) :
    parserParse res (p.extend buf) = parserParse res ((parserRound res p).2.extend buf) := by
  have goes := again ▸ parserConsumer_goesOn_ok
  have inc := parserRound_incremental res p good
  have stable := inc.stable buf (parserConsumer.apart _ goes)
    (fun cut => inc.cut_settled buf cut goes)
  have round := stable.eq (.inr (stable.status ▸ goes))
  rw [parserConsumer_extend, parserConsumer_extend, again] at round
  rw [parserParse_next (by rw [round]), round]

theorem parserParse_toEntity {res : Resolver} {p : HttpParser} (good : p.Good)
    (closed : p.entPosition = .determineReadMethod)
    (hasEntity : p.position = .entity → p.msg.HasEntity)
    (framed : (parserParse res p).2.entPosition ≠ .determineReadMethod) :
    ∃ q, p.Advances q ∧ q.position = .entity ∧ q.msg.HasEntity ∧
      parserParse res p = parserParseEntity q ∧
      ∀ buf, parserParse res (p.extend buf) = parserParseEntity (q.extend buf) := by
  fun_induction parserParse res p with
  | case1 p next round ih =>
    by_cases here : p.position = .entity
    · rw [parserRound, here] at round
      exact absurd (congrArg Prod.fst round) (parserParseEntity_not_ok p)
    · have step := @parserRound_advances res p here
      have entity := @parserRound_hasEntity res p (by rw [round])
      have longer := @parserParse_longer res p good (by rw [round])
      rw [round] at step entity longer
      obtain ⟨q, later, at_q, inside, same, rest⟩ :=
        ih (step.good good) (step.entPosition.trans closed) entity framed
      exact ⟨q, step.trans later, at_q, inside, same, fun buf => (longer buf).trans (rest buf)⟩
  | case2 p =>
    by_cases here : p.position = .entity
    · refine ⟨p, .refl p, here, hasEntity here, by rw [parserRound, here], ?_⟩
      intro buf
      have round : parserRound res (p.extend buf) = parserParseEntity (p.extend buf) := by
        rw [parserRound, show (p.extend buf).position = _ from here]
      rw [parserParse_last (by rw [round]; exact parserParseEntity_not_ok _), round]
    · exact absurd ((parserRound_advances here).entPosition.trans closed) framed

inductive Framing where
  | none
  | length
  | chunks
  | close
  deriving DecidableEq, Repr

def EntPosition.framing : EntPosition → Framing
  | .determineReadMethod => .none
  | .usingClen => .length
  | .untilClose => .close
  | .usingChunked => .chunks
  | .chunkyBody => .chunks
  | .chunkyHeaders => .chunks

theorem EntPosition.isChunked_iff (e : EntPosition) : e.isChunked = true ↔ e.framing = .chunks := by
  cases e <;> decide

theorem EntPosition.framing_none (e : EntPosition) :
    e.framing = .none ↔ e = .determineReadMethod := by
  cases e <;> decide

theorem EntPosition.framing_close (e : EntPosition) : e.framing = .close ↔ e = .untilClose := by
  cases e <;> decide

theorem parserEntityRound_framing {p : HttpParser} (framed : p.entPosition ≠ .determineReadMethod) :
    (parserEntityRound p).2.entPosition.framing = p.entPosition.framing := by
  unfold parserEntityRound
  split
  · simp only [parserParseEntityUsingClen]
    split_ifs <;> rfl
  · rename_i here
    simp only [parserParseChunkyEntity, parserChunkSizeRead]
    split_ifs
    · rfl
    · rw [here]
      rfl
    · rw [here]
      rfl
  · rename_i here
    simp only [parserParseChunkyBody]
    split_ifs
    · rfl
    · rw [here]
      rfl
    · rfl
  · have same := (parserParseHeaders_advances p).entPosition
    simp only [parserParseChunkyHeaders]
    split_ifs
    · exact congrArg _ same
    · exact congrArg _ same
  · rfl
  · rename_i closed
    exact absurd closed framed

theorem parserParseEntity_framing {p : HttpParser} (framed : p.entPosition ≠ .determineReadMethod) :
    (parserParseEntity p).2.entPosition.framing = p.entPosition.framing := by
  fun_induction parserParseEntity p with
  | case1 p next round ih =>
    have kept := parserEntityRound_framing framed
    rw [round] at kept
    have framed' : next.entPosition ≠ .determineReadMethod := by
      rw [Ne, ← EntPosition.framing_none, kept, EntPosition.framing_none]
      exact framed
    exact (ih framed').trans kept
  | case2 p => exact parserEntityRound_framing framed

theorem parserEntityRound_start {p : HttpParser} (framed : p.entPosition ≠ .determineReadMethod) :
    (parserEntityRound p).2.entityStartPosition = p.entityStartPosition := by
  unfold parserEntityRound
  split
  · simp only [parserParseEntityUsingClen]
    split_ifs <;> rfl
  · simp only [parserParseChunkyEntity, parserChunkSizeRead]
    split_ifs <;> rfl
  · simp only [parserParseChunkyBody]
    split_ifs <;> rfl
  · have same := (parserParseHeaders_advances p).start
    simp only [parserParseChunkyHeaders]
    split_ifs <;> exact same
  · rfl
  · contradiction

theorem parserParseEntity_start {p : HttpParser} (framed : p.entPosition ≠ .determineReadMethod) :
    (parserParseEntity p).2.entityStartPosition = p.entityStartPosition := by
  fun_induction parserParseEntity p with
  | case1 p next round ih =>
    have kept := parserEntityRound_framing framed
    have start := parserEntityRound_start framed
    rw [round] at kept start
    have framed' : next.entPosition ≠ .determineReadMethod := by
      rw [Ne, ← EntPosition.framing_none, kept, EntPosition.framing_none]
      exact framed
    exact (ih framed').trans start
  | case2 p => exact parserEntityRound_start framed

/-- Where the search for a length ends: with a framing when it goes on, else without one. -/
theorem readMethodOfLength_entPosition (p : HttpParser) :
    ((readMethodOfLength p).1 = .continue1 → (readMethodOfLength p).2.entPosition = .usingClen ∨
        (readMethodOfLength p).2.entPosition = .untilClose) ∧
      ((readMethodOfLength p).1 ≠ .continue1 →
        (readMethodOfLength p).2.entPosition = p.entPosition) := by
  unfold readMethodOfLength
  split
  · exact ⟨fun _ => .inl rfl, fun last => absurd rfl last⟩
  · split_ifs
    · exact ⟨nofun, fun _ => rfl⟩
    · exact ⟨fun _ => .inr rfl, fun last => absurd rfl last⟩

theorem lowerTransferEncoding_contentLength (msg : HttpMessage) :
    httpmsgFindHdr (lowerTransferEncoding msg) .contentLength = httpmsgFindHdr msg .contentLength := by
  simp only [httpmsgFindHdr, lowerTransferEncoding]
  induction msg.headers with
  | nil => rfl
  | cons h headers ih =>
    rw [updateFirst]
    by_cases here : h.nameId = .transferEncoding
    · have other : h.nameId ≠ .contentLength := by rw [here]; decide
      rw [if_pos (by simpa using here), List.find?_cons_of_neg (by simpa using other),
        List.find?_cons_of_neg (by simpa using other)]
    · rw [if_neg (by simpa using here), List.find?_cons, List.find?_cons, ih]

theorem parserParseEntity_toChunks {p : HttpParser} (good : p.Good) (small : p.chunkSize < 2 ^ 32)
    (hasEntity : p.msg.HasEntity)
    (closed : p.entPosition = .determineReadMethod)
    (chunks : (parserParseEntity p).2.entPosition.isChunked = true) :
    ∃ q, q.Chunked ∧ q.entPosition = .usingChunked ∧ q.scanner = p.scanner ∧
      q.entityStartPosition = p.scanner.cursor ∧ parserParseEntity p = parserParseEntity q ∧
      ∀ buf, parserParseEntity (p.extend buf) = parserParseEntity (q.extend buf) := by
  have round : parserEntityRound p = parserGetEntityReadMethod p := by
    rw [parserEntityRound, closed]
  have goods := good.readMethod
  set searched := p.startEntity.searchTransferEncoding with searched_eq
  by_cases bodyless : p.msg.hasNoBody = true
  · rw [parserGetEntityReadMethod, if_pos bodyless] at round
    rw [parserParseEntity_last (by rw [round]; simp), round] at chunks
    rw [show (p.startEntity.withPosition .complete).entPosition = _ from closed] at chunks
    cases chunks
  · by_cases chunked : isChunked p.msg = true
    · rw [parserGetEntityReadMethod, if_neg bodyless] at round goods
      dsimp only at round goods
      rw [if_pos chunked] at round goods
      have longer := parserEntityRound_longer good (by rw [round])
      rw [round] at longer
      refine ⟨searched.withEntPosition .usingChunked, ⟨goods, rfl, small, hasEntity⟩, rfl, rfl,
        rfl, ?_, ?_⟩
      · rw [parserParseEntity_next (by rw [round]), round]
      · intro buf
        rw [parserParseEntity_next (by rw [longer]), longer]
    · have length : parserEntityRound p = readMethodOfLength searched := by
        rw [round, parserGetEntityReadMethod, if_neg bodyless]
        dsimp only
        rw [if_neg chunked]
      obtain ⟨found, none⟩ := readMethodOfLength_entPosition searched
      by_cases more : (readMethodOfLength searched).1 = .continue1
      · rw [parserParseEntity_next (by rw [length]; exact more), length] at chunks
        rw [EntPosition.isChunked_iff, parserParseEntity_framing] at chunks
        · rcases found more with framing | framing <;> rw [framing] at chunks <;> cases chunks
        · rcases found more with framing | framing <;> rw [framing] <;> decide
      · rw [parserParseEntity_last (by rw [length]; exact more), length, none more,
          show searched.entPosition = _ from closed] at chunks
        cases chunks

structure HttpParser.Unread (p : HttpParser) : Prop where
  good : p.Good
  closed : p.entPosition = .determineReadMethod
  size : p.chunkSize = 0
  empty : p.msg.entity.length = 0
  hasEntity : p.position = .entity → p.msg.HasEntity

theorem HttpParser.Unread.extend {p : HttpParser} (unread : p.Unread) (buf : List UInt8) :
    (p.extend buf).Unread :=
  ⟨unread.good.extend buf, unread.closed, unread.size, unread.empty, unread.hasEntity⟩

theorem HttpParser.Unread.advance {p next : HttpParser} (unread : p.Unread) (step : p.Advances next)
    (hasEntity : next.position = .entity → next.msg.HasEntity) : next.Unread :=
  ⟨step.good unread.good, step.entPosition.trans unread.closed, step.chunkSize.trans unread.size,
    (congrArg Entity.length step.entity).trans unread.empty, hasEntity⟩

theorem HttpParser.Initial.unread {p : HttpParser} (start : p.Initial) : p.Unread := by
  refine ⟨start.good, ?_, ?_, ?_, ?_⟩
  all_goals cases start
  all_goals first | rfl | nofun

theorem parserParse_toChunks {res : Resolver} {p : HttpParser} (unread : p.Unread)
    (chunks : (parserParse res p).2.entPosition.isChunked = true) :
    ∃ c, c.Chunked ∧ c.entPosition = .usingChunked ∧ c.scanner.msg = p.scanner.msg ∧
      c.entityStartPosition = c.scanner.cursor ∧ parserParse res p = parserParseEntity c ∧
      ∀ buf, parserParse res (p.extend buf) = parserParseEntity (c.extend buf) := by
  have framed : (parserParse res p).2.entPosition ≠ .determineReadMethod := by
    intro same
    rw [same] at chunks
    cases chunks
  obtain ⟨q, moved, -, hasEntity, same, longer⟩ :=
    parserParse_toEntity unread.good unread.closed unread.hasEntity framed
  rw [same] at chunks ⊢
  obtain ⟨c, chunked, here, scanner, begins, same', longer'⟩ := parserParseEntity_toChunks
    (moved.good unread.good) (by rw [moved.chunkSize, unread.size]; decide) hasEntity
    (moved.entPosition.trans unread.closed) chunks
  exact ⟨c, chunked, here, by rw [scanner, moved.reaches.msg], by rw [begins, scanner], same',
    fun buf => (longer buf).trans (longer' buf)⟩

/-- A chunked message in one piece: its entity is as long as the sizes the parser took. -/
theorem parserParse_sizes {res : Resolver} {p : HttpParser} (unread : p.Unread)
    (success : (parserParse res p).1 = .success)
    (chunks : (parserParse res p).2.entPosition.isChunked = true) :
    ∃ values rest,
      chunkSizes (p.scanner.msg.drop (parserParse res p).2.entityStartPosition) =
          some (values, rest) ∧
        (parserParse res p).2.msg.entity.length = (values.map takenSize).sum := by
  obtain ⟨c, chunked, here, loaded, begins, same, -⟩ := parserParse_toChunks unread chunks
  rw [same] at success ⊢
  obtain ⟨start, values, rest, ahead, length⟩ := parserParseEntity_sizes chunked success
  refine ⟨values, rest, ?_, ?_⟩
  · rw [start, begins, ← loaded, ← ahead]
    simp only [HttpParser.sizesAhead, here]
    rfl
  · rw [length]
    simp only [HttpParser.takenSoFar, here, begins, Nat.sub_self, Nat.zero_add]

theorem chunkSizes_nil : chunkSizes [] = none :=
  chunkSizes_none (by decide)

theorem extend_initial {p : HttpParser} (start : p.Initial) (stream : List UInt8) :
    (p.extend stream).scanner.msg = stream := by
  cases start <;> rfl

theorem parserFeed_sizes {res : Resolver} {p : HttpParser} (start : p.Initial)
    (fragments : List (List UInt8)) (success : (parserFeed res p fragments).1 = .success)
    (chunks : (parserFeed res p fragments).2.entPosition.isChunked = true) :
    ∃ values rest,
      chunkSizes (fragments.flatten.drop (parserFeed res p fragments).2.entityStartPosition) =
          some (values, rest) ∧
        (parserFeed res p fragments).2.msg.entity.length = (values.map takenSize).sum := by
  obtain ⟨received, later, split, same⟩ :=
    (parserParse_incremental res).feed_received start.good fragments
  rw [parserParse_initial start] at same
  change Consumer.Same _ (parserFeed res p fragments) _ at same
  have frame : (parserFeed res p fragments).2.withScanner (scannerInit []) =
      (parserParse res (p.extend received.flatten)).2.withScanner (scannerInit []) :=
    congrArg Prod.fst same.observed
  have msg : (parserFeed res p fragments).2.msg =
      (parserParse res (p.extend received.flatten)).2.msg := congrArg (fun q => q.msg) frame
  have begins : (parserFeed res p fragments).2.entityStartPosition =
      (parserParse res (p.extend received.flatten)).2.entityStartPosition :=
    congrArg (fun q => q.entityStartPosition) frame
  have framing : (parserFeed res p fragments).2.entPosition =
      (parserParse res (p.extend received.flatten)).2.entPosition :=
    congrArg (fun q => q.entPosition) frame
  obtain ⟨values, rest, sizes, length⟩ := parserParse_sizes (start.unread.extend received.flatten)
    (same.status ▸ success) (framing ▸ chunks)
  rw [extend_initial start] at sizes
  refine ⟨values, rest ++ later.flatten, ?_, by rw [msg, length]⟩
  rw [begins, split, List.flatten_append]
  rcases le_total (parserParse res (p.extend received.flatten)).2.entityStartPosition
    received.flatten.length with inside | outside
  · rw [List.drop_append_of_le_length inside]
    exact chunkSizes_append sizes _
  · rw [List.drop_eq_nil_of_le outside, chunkSizes_nil] at sizes
    cases sizes

end Pupnp.Http
