import Pupnp.Http.Discard

/-!
A run of `http_ReadHttpResponse` calls: what they return, one after the other, is the entity that the
parser finds in the whole response.
-/

namespace Pupnp.Http
open Pupnp.CString Pupnp.Uri Pupnp.Stream

/-! ### The bytes in front -/

def HttpParser.front (p : HttpParser) (k : Nat) : List UInt8 :=
  (Memptr.mk p.entityStartPosition k).read p.scanner.msg

/-- Work on the entity that leaves its first `k` bytes alone. -/
structure HttpParser.Keeps (p next : HttpParser) (k : Nat) : Prop where
  start : next.entityStartPosition = p.entityStartPosition
  front : next.front k = p.front k
  enough : k ≤ p.msg.entity.length → k ≤ next.msg.entity.length
  framing : next.entPosition.framing = p.entPosition.framing

theorem HttpParser.Keeps.trans {a b c : HttpParser} {k : Nat} (first : a.Keeps b k)
    (second : b.Keeps c k) : a.Keeps c k :=
  ⟨second.start.trans first.start, second.front.trans first.front,
    fun enough => second.enough (first.enough enough), second.framing.trans first.framing⟩

theorem HttpParser.front_extend {p : HttpParser} {k : Nat} (delivered : p.Delivered k)
    (buf : List UInt8) : (p.extend buf).front k = p.front k := by
  have inside := delivered.inside
  have more := delivered.good.more.inside
  apply Memptr.read_append
  change p.entityStartPosition + k ≤ p.scanner.msg.length
  unfold HttpParser.entityLimit at inside
  split_ifs at inside <;> omega

theorem front_deleteFrom {p : HttpParser} {k : Nat} {sc : Scanner} {savePos : Nat} (same : sc.msg = p.scanner.msg)
    (behind : p.entityStartPosition + k ≤ savePos) (inside : savePos ≤ sc.msg.length) :
    (Memptr.mk p.entityStartPosition k).read (sc.deleteFrom savePos).msg = p.front k := by
  rw [HttpParser.front, ← same]
  exact Memptr.read_deleteFrom behind inside

section Rounds
variable {p : HttpParser} {k : Nat} (delivered : p.Delivered k)
include delivered

theorem usingClen_keeps (here : p.entPosition = .usingClen) :
    p.Keeps (parserParseEntityUsingClen p).2 k := by
  have inside := delivered.inside
  rw [HttpParser.entityLimit, here] at inside
  have loaded : p.entityStartPosition + k ≤ p.scanner.msg.length := inside
  have announced := delivered.length here
  have none := delivered.good.discarded
  simp only [parserParseEntityUsingClen, none, Nat.add_zero, Nat.sub_zero]
  split_ifs with short surplus
  · refine ⟨rfl, rfl, fun _ => ?_, rfl⟩
    change k ≤ p.scanner.msg.length - p.entityStartPosition
    omega
  · refine ⟨rfl, ?_, fun _ => announced, rfl⟩
    apply Memptr.read_set
    change p.entityStartPosition + k ≤ p.entityStartPosition + p.contentLength
    omega
  · exact ⟨rfl, rfl, fun _ => announced, rfl⟩

theorem untilClose_keeps (here : p.entPosition = .untilClose) :
    p.Keeps (parserParseEntityUntilClose p).2 k := by
  have inside := delivered.inside
  rw [HttpParser.entityLimit, here] at inside
  have loaded : p.entityStartPosition + k ≤ p.scanner.msg.length := inside
  refine ⟨rfl, rfl, fun _ => ?_, rfl⟩
  change k ≤ p.scanner.msg.length - p.entityStartPosition + p.msg.amountDiscarded
  omega

theorem chunkyEntity_keeps (here : p.entPosition = .usingChunked) :
    p.Keeps (parserParseChunkyEntity p).2 k := by
  have before := delivered.inside
  rw [HttpParser.entityLimit, here] at before
  have behind : p.entityStartPosition + k ≤ p.scanner.cursor := before
  have moved := (matchFormat_matched p.scanner "%x%L%c").reaches
  have inside := delivered.good.more.inside
  have deleted := front_deleteFrom moved.msg behind (by rw [moved.msg]; exact inside)
  simp only [parserParseChunkyEntity]
  split_ifs with failed
  · exact ⟨rfl, rfl, id, rfl⟩
  · unfold parserChunkSizeRead
    split_ifs
    · refine ⟨rfl, deleted, fun _ => ?_, by rw [here]; rfl⟩
      change k ≤ p.scanner.cursor - p.entityStartPosition + p.msg.amountDiscarded
      omega
    · exact ⟨rfl, deleted, id, by rw [here]; rfl⟩

theorem chunkyBody_keeps (here : p.entPosition = .chunkyBody) :
    p.Keeps (parserParseChunkyBody p).2 k := by
  have before := delivered.inside
  rw [HttpParser.entityLimit, here] at before
  have behind : p.entityStartPosition + k ≤ p.scanner.cursor := before
  have inside := delivered.good.more.inside
  simp only [parserParseChunkyBody]
  split_ifs with whole failed
  · exact ⟨rfl, rfl, id, rfl⟩
  · have moved := (matchFormat_matched
      { p.scanner with cursor := p.scanner.cursor + p.chunkSize } "%c").reaches
    have later : p.entityStartPosition + k ≤ p.scanner.cursor + p.chunkSize := by omega
    have loaded : p.scanner.cursor + p.chunkSize ≤ p.scanner.msg.length := by omega
    refine ⟨rfl, ?_, fun enough => ?_, by rw [here]; rfl⟩
    · exact front_deleteFrom moved.msg later (by rw [moved.msg]; exact loaded)
    · change k ≤ p.msg.entity.length + p.chunkSize
      omega
  · exact ⟨rfl, rfl, id, rfl⟩

theorem chunkyHeaders_keeps (here : p.entPosition = .chunkyHeaders) :
    p.Keeps (parserParseChunkyHeaders p).2 k := by
  have before := delivered.inside
  rw [HttpParser.entityLimit, here] at before
  have behind : p.entityStartPosition + k ≤ p.scanner.cursor := before
  have inside := delivered.good.more.inside
  have step := parserParseHeaders_advances p
  simp only [parserParseChunkyHeaders]
  split_ifs with ended
  · refine ⟨step.start, ?_, fun enough => ?_, ?_⟩
    · change (Memptr.mk (parserParseHeaders p).2.entityStartPosition k).read _ = _
      rw [step.start]
      exact front_deleteFrom step.reaches.msg behind (by rw [step.reaches.msg]; exact inside)
    · change k ≤ (parserParseHeaders p).2.msg.entity.length
      rwa [step.entity]
    · exact congrArg EntPosition.framing step.entPosition
  · refine ⟨step.start, ?_, fun enough => ?_, congrArg EntPosition.framing step.entPosition⟩
    · rw [HttpParser.front, HttpParser.front, step.start, step.reaches.msg]
    · rwa [step.entity]

theorem parserEntityRound_keeps : p.Keeps (parserEntityRound p).2 k := by
  unfold parserEntityRound
  split
  next here => exact usingClen_keeps delivered here
  next here => exact chunkyEntity_keeps delivered here
  next here => exact chunkyBody_keeps delivered here
  next here => exact chunkyHeaders_keeps delivered here
  next here => exact untilClose_keeps delivered here
  next here => exact absurd here delivered.framed

end Rounds

theorem parserEntityRound_announced {p : HttpParser} {k : Nat} (delivered : p.Delivered k)
    (clen : (parserEntityRound p).2.entPosition = .usingClen) :
    (parserEntityRound p).2.msg.entity.length ≤ (parserEntityRound p).2.contentLength := by
  have framing := (parserEntityRound_keeps delivered).framing
  have here : p.entPosition = .usingClen := by
    rw [clen] at framing
    cases shape : p.entPosition <;> rw [shape] at framing <;> first | rfl | cases framing
  have round : parserEntityRound p = parserParseEntityUsingClen p := by rw [parserEntityRound, here]
  rw [round]
  simp only [parserParseEntityUsingClen]
  split_ifs with short
  · exact short.le
  · exact le_rfl
  · exact le_rfl

theorem parserEntityRound_success {p : HttpParser} (framed : p.entPosition ≠ .determineReadMethod)
    (hasEntity : p.msg.HasEntity)
    (success : (parserEntityRound p).1 = .success) : (parserEntityRound p).2.position = .complete := by
  have noMatch (sc : Scanner) (fmt : String) : (matchFormat sc fmt).1 ≠ .success := by
    intro same
    have range := (matchFormat_matched sc fmt).isMatch
    rw [same] at range
    simp [ParseStatus.IsMatch] at range
  unfold parserEntityRound at success ⊢
  split at success
  · simp only [parserParseEntityUsingClen] at success ⊢
    split_ifs at success ⊢ <;> rfl
  · simp only [parserParseChunkyEntity] at success
    split_ifs at success
    · exact absurd success (noMatch _ _)
    · rw [parserChunkSizeRead_continue] at success
      cases success
  · simp only [parserParseChunkyBody] at success
    split_ifs at success
    · exact absurd success (noMatch _ _)
  · simp only [parserParseChunkyHeaders] at success ⊢
    split_ifs at success ⊢
    · rfl
    · exact absurd success (parserParseHeaders_not_success hasEntity).1
  · cases success
  next closed => exact absurd closed framed

/-! ### One call of the parser -/

/-- The parser `r`, which has lost `k` delivered bytes, goes the way of `p`, and no more bytes were
delivered than `p` has found. -/
structure HttpParser.Reads (p r : HttpParser) (k : Nat) : Prop where
  follows : r.Follows p k
  delivered : p.Delivered k
  enough : k ≤ p.msg.entity.length
  announced : p.entPosition = .usingClen → p.msg.entity.length ≤ p.contentLength

structure Parsed (p : HttpParser) (k : Nat) (next : ParseResult) : Prop where
  keeps : p.Keeps next.2 k
  announced : next.2.entPosition = .usingClen → next.2.msg.entity.length ≤ next.2.contentLength
  complete : next.1 = .success → next.2.position = .complete

theorem parserParseEntity_parsed {p r : HttpParser} {k : Nat} (follows : r.Follows p k)
    (delivered : p.Delivered k) : Parsed p k (parserParseEntity p) := by
  fun_induction parserParseEntity p generalizing r with
  | case1 p next found ih =>
    have round := parserEntityRound_follows follows delivered
    have kept := parserEntityRound_keeps delivered
    rw [found] at round kept
    have later := ih round.follows round.delivered
    exact ⟨kept.trans later.keeps, later.announced, later.complete⟩
  | case2 p =>
    exact ⟨parserEntityRound_keeps delivered, parserEntityRound_announced delivered,
      parserEntityRound_success delivered.framed follows.hasEntity.2⟩

section Reads
variable {p r : HttpParser} {k : Nat}

theorem HttpParser.Reads.inside (reads : p.Reads r k) : p.entityStartPosition + k ≤ p.scanner.msg.length := by
  have inside := reads.delivered.inside
  have more := reads.delivered.good.more.inside
  unfold HttpParser.entityLimit at inside
  split_ifs at inside <;> omega

theorem HttpParser.Reads.extend (reads : p.Reads r k) (buf : List UInt8) :
    (p.extend buf).Reads (r.extend buf) k := by
  have follows := reads.follows
  have delivered := reads.delivered
  refine ⟨⟨?_, follows.position, follows.entPosition, follows.start, follows.contentLength,
    follows.chunkSize, follows.length, follows.discarded, follows.hasEntity⟩,
    ⟨delivered.good.extend buf, delivered.framed, ?_, delivered.length⟩, reads.enough, reads.announced⟩
  · change r.scanner.extend buf = (p.scanner.extend buf).discard p.entityStartPosition k
    rw [follows.scanner, Scanner.discard_extend reads.inside]
  · have inside := delivered.inside
    have loaded := reads.inside
    unfold HttpParser.entityLimit at inside ⊢
    change p.entityStartPosition + k ≤
      if p.entPosition.isChunked then p.scanner.cursor else (p.scanner.msg ++ buf).length
    rw [List.length_append]
    split_ifs at inside ⊢ <;> omega

theorem HttpParser.Reads.parse (reads : p.Reads r k) :
    (parserParseEntity r).1 = (parserParseEntity p).1 ∧
      (parserParseEntity p).2.Reads (parserParseEntity r).2 k := by
  have same := parserParseEntity_follows reads.follows reads.delivered
  have parsed := parserParseEntity_parsed reads.follows reads.delivered
  exact ⟨same.status, same.follows, same.delivered, parsed.keeps.enough reads.enough, parsed.announced⟩

theorem HttpParser.Reads.complete (reads : p.Reads r k) :
    (p.withPosition .complete).Reads (r.withPosition .complete) k := by
  have follows := reads.follows
  have delivered := reads.delivered
  have good := delivered.good
  exact ⟨⟨follows.scanner, rfl, follows.entPosition, follows.start, follows.contentLength,
    follows.chunkSize, follows.length, follows.discarded, follows.hasEntity⟩,
    ⟨⟨good.more, good.discarded, good.started, good.entity⟩, delivered.framed, delivered.inside,
      delivered.length⟩, reads.enough, reads.announced⟩

theorem HttpParser.Delivered.entityBytes (delivered : p.Delivered k) :
    p.entityBytes = p.front p.msg.entity.length ∧ p.entityBytes.length = p.msg.entity.length ∧
      p.entityStartPosition + p.msg.entity.length ≤ p.entityLimit := by
  have buf := delivered.good.started delivered.framed
  have inside := delivered.good.entity_inside buf
  have bytes : p.entityBytes = p.front p.msg.entity.length := by
    rw [HttpParser.entityBytes, buf]
    rfl
  refine ⟨bytes, ?_, delivered.good.entity _ buf⟩
  rw [bytes, HttpParser.front, Memptr.read, List.length_take, List.length_drop]
  exact Nat.min_eq_left (Nat.le_sub_of_add_le' inside)

theorem HttpParser.Reads.discard (reads : p.Reads r k) {n : Nat} (found : k + n ≤ p.msg.entity.length) :
    p.Reads (r.discard n) (k + n) := by
  have follows := reads.follows
  have delivered := reads.delivered
  have limit := delivered.entityBytes.2.2
  refine ⟨⟨?_, follows.position, follows.entPosition, follows.start, follows.contentLength,
    follows.chunkSize, follows.length, ?_, follows.hasEntity⟩,
    ⟨delivered.good, delivered.framed, by omega, fun clen => ?_⟩, found, reads.announced⟩
  · change r.scanner.discard r.entityStartPosition n = _
    have inside := reads.inside
    rw [follows.scanner, follows.start, Scanner.discard_discard (by omega)]
  · change r.msg.amountDiscarded + n = k + n
    rw [follows.discarded]
  · exact found.trans (reads.announced clen)

theorem HttpParser.Reads.data (reads : p.Reads r k) (n : Nat) :
    (r.scanner.msg.drop r.entityStartPosition).take n = (p.front (k + n)).drop k := by
  have inside := reads.inside
  have front : (p.scanner.msg.take p.entityStartPosition).length = p.entityStartPosition :=
    List.length_take_of_le (by omega)
  rw [reads.follows.start, reads.follows.scanner, HttpParser.front, Memptr.read, List.drop_take]
  simp only [Scanner.discard, membufferDelete]
  rw [List.drop_append, List.drop_eq_nil_of_le front.le, front, Nat.sub_self, List.drop_zero,
    List.nil_append, List.drop_drop]
  congr 1
  omega

end Reads

/-! ### What is still to come -/

/-- Reads that bring these bytes; where the entity lasts until the connection is closed, the close
comes right behind them. -/
inductive Arrives (toClose : Bool) : List UInt8 → List SockRead → Prop
  | nothing {reads : List SockRead} (ending : toClose = true → reads.head? = some .closed) :
      Arrives toClose [] reads
  | data {later : List UInt8} {reads : List SockRead} (buf : List UInt8) (nonempty : buf ≠ [])
      (more : Arrives toClose later reads) : Arrives toClose (buf ++ later) (.data buf nonempty :: reads)

/-- The parser finds this entity once the bytes that are still to come have arrived. -/
structure HttpParser.Finds (p : HttpParser) (later entity : List UInt8) (toClose : Bool) : Prop where
  status : (parserParseEntity (p.extend later)).1 = if toClose then .incompleteEntity else .success
  bytes : (parserParseEntity (p.extend later)).2.entityBytes = entity

section Finds
variable {p r : HttpParser} {k : Nat} {later entity : List UInt8} {toClose : Bool}

theorem HttpParser.Finds.waits (good : p.Good) (finds : p.Finds later entity toClose)
    (short : parserConsumer.waits (parserParseEntity p).1) :
    (parserParseEntity p).2.Finds later entity toClose := by
  have same := (parserParseEntity_incremental p good).resumes later short
  rw [parserConsumer_extend, parserConsumer_extend] at same
  exact ⟨same.status.trans finds.status, (congrArg Prod.snd same.observed).trans finds.bytes⟩

theorem HttpParser.Finds.settled (good : p.Good) (finds : p.Finds later entity toClose)
    (done : ¬parserConsumer.waits (parserParseEntity p).1) :
    (parserParseEntity p).1 = .success ∧ (parserParseEntity p).2.entityBytes = entity := by
  have stage := parserParseEntity_incremental p good
  have same := stage.stable later done id
  rw [parserConsumer_extend, parserConsumer_extend] at same
  have status := same.status.symm.trans finds.status
  have bytes := (congrArg Prod.snd same.observed).symm.trans finds.bytes
  cases toClose with
  | true => exact absurd (.inr status) done
  | false => exact ⟨status, (stage.keeps.entityBytes_extend later).symm.trans bytes⟩

inductive HttpParser.Heads (p : HttpParser) (later entity : List UInt8) (toClose : Bool) : Prop
  | whole (complete : p.position = .complete) (bytes : p.entityBytes = entity)
  | partly (unfinished : p.position ≠ .complete) (finds : p.Finds later entity toClose)

theorem HttpParser.Delivered.front_prefix (delivered : p.Delivered k) (enough : k ≤ p.msg.entity.length) :
    p.front k = p.entityBytes.take k ∧ k ≤ p.entityBytes.length := by
  obtain ⟨bytes, length, -⟩ := delivered.entityBytes
  refine ⟨?_, length ▸ enough⟩
  rw [bytes, HttpParser.front, HttpParser.front, Memptr.read, Memptr.read, List.take_take,
    Nat.min_eq_left enough]

theorem HttpParser.Reads.front_prefix (reads : p.Reads r k) (heads : p.Heads later entity toClose) :
    p.front k = entity.take k ∧ k ≤ entity.length := by
  cases heads with
  | whole complete bytes =>
    rw [← bytes]
    exact reads.delivered.front_prefix reads.enough
  | partly unfinished finds =>
    have longer := reads.extend later
    have parsed := parserParseEntity_parsed longer.follows longer.delivered
    have ahead := longer.parse.2
    have front := ahead.delivered.front_prefix ahead.enough
    rw [finds.bytes, parsed.keeps.front, HttpParser.front_extend reads.delivered] at front
    exact front

/-- The loop of a call, between two reads: the last call of the parser, on `q`, has waited. -/
structure HttpParser.AtRead (p : HttpParser) (okOnClose : Bool) (later entity : List UInt8)
    (toClose : Bool) (q : HttpParser) : Prop where
  good : q.Good
  short : parserConsumer.waits (parserParseEntity q).1
  left : p = (parserParseEntity q).2
  finds : q.Finds later entity toClose
  unfinished : p.position ≠ .complete
  close : (parserParseEntity q).1 = .incompleteEntity → okOnClose = true

theorem HttpParser.Finds.extend {buf : List UInt8} (finds : p.Finds (buf ++ later) entity toClose) :
    (p.extend buf).Finds later entity toClose := by
  have longer : p.extend (buf ++ later) = (p.extend buf).extend later :=
    parserConsumer.extend_append p buf later
  exact ⟨longer ▸ finds.status, longer ▸ finds.bytes⟩

structure Between (p r : HttpParser) (k : Nat) (later entity : List UInt8) (toClose : Bool)
    (rest : List SockRead) : Prop where
  reads : p.Reads r k
  arrives : p.position ≠ .complete → Arrives toClose later rest
  heads : p.Heads later entity toClose

theorem readMore_enough {size : Nat} (okOnClose : Bool) (reads : p.Reads r k) (rest : List SockRead)
    (enough : p.position ≠ .complete → k + size ≤ p.msg.entity.length) :
    readMore false size okOnClose r rest = some (UPNP_E_SUCCESS, r, rest) := by
  rw [readMore.eq_def, if_neg]
  rw [reads.follows.discarded, reads.follows.length, reads.follows.position]
  intro more
  simp only [Bool.not_false, Bool.and_true, Bool.and_eq_true, decide_eq_true_eq] at more
  have bound := enough more.2
  omega

theorem readMore_more {size : Nat} (reads : p.Reads r k) (unfinished : p.position ≠ .complete)
    (more : p.msg.entity.length < k + size) :
    (r.msg.amountDiscarded + size > r.msg.entity.length && !false &&
      decide (r.position ≠ .complete)) = true := by
  rw [reads.follows.discarded, reads.follows.length, reads.follows.position]
  simp only [Bool.not_false, Bool.and_true, Bool.and_eq_true, decide_eq_true_eq]
  exact ⟨more, unfinished⟩

theorem HttpParser.AtRead.read {q : HttpParser} {okOnClose : Bool} {buf : List UInt8}
    (atRead : p.AtRead okOnClose (buf ++ later) entity toClose q) (reads : p.Reads r k) :
    (parserParseEntity (p.extend buf)).2.AtRead
        (okOnClose || (parserParseEntity (p.extend buf)).1 = .incompleteEntity) later entity toClose
        (q.extend buf) ∧ parserConsumer.waits (parserParseEntity (p.extend buf)).1 ∨
      (parserParseEntity (p.extend buf)).1 = .success ∧
        (parserParseEntity (p.extend buf)).2.position = .complete ∧
        (parserParseEntity (p.extend buf)).2.entityBytes = entity := by
  have longer := reads.extend buf
  have resumes := (parserParseEntity_incremental q atRead.good).resumes buf atRead.short
  rw [parserConsumer_extend, parserConsumer_extend, ← atRead.left] at resumes
  by_cases short : parserConsumer.waits (parserParseEntity (p.extend buf)).1
  · have same := resumes.eq (.inl short)
    refine .inl ⟨⟨atRead.good.extend buf, same ▸ short, by rw [same], atRead.finds.extend, ?_, ?_⟩, short⟩
    · rw [parserParseEntity_waits short]
      exact atRead.unfinished
    · intro close
      rw [same, close]
      simp
  · have finds := atRead.finds.waits atRead.good atRead.short
    rw [← atRead.left] at finds
    obtain ⟨success, bytes⟩ := finds.extend.settled longer.delivered.good short
    have parsed := parserParseEntity_parsed longer.follows longer.delivered
    exact .inr ⟨success, parsed.complete success, bytes⟩

theorem entityGoesOn_waits {status : ParseStatus} (short : parserConsumer.waits status) :
    entityGoesOn status = true := by
  rcases short with short | short <;> rw [short] <;> rfl

theorem readMore_filled {size : Nat} {rest : List SockRead} (arrives : Arrives toClose later rest)
    {q : HttpParser} {okOnClose : Bool} (reads : p.Reads r k)
    (atRead : p.AtRead okOnClose later entity toClose q) :
    ∃ p' r' later' rest', readMore false size okOnClose r rest = some (UPNP_E_SUCCESS, r', rest') ∧
      Between p' r' k later' entity toClose rest' ∧
      (p'.position ≠ .complete → k + size ≤ p'.msg.entity.length) := by
  induction arrives generalizing p r q okOnClose with
  | @nothing rest ending =>
    have finds := atRead.finds.waits atRead.good atRead.short
    rw [← atRead.left] at finds
    by_cases enough : k + size ≤ p.msg.entity.length
    · exact ⟨p, r, [], rest, readMore_enough okOnClose reads rest fun _ => enough,
        ⟨reads, fun _ => .nothing ending, .partly atRead.unfinished finds⟩, fun _ => enough⟩
    have more := readMore_more reads atRead.unfinished (Nat.lt_of_not_le enough)
    have whole : q.extend [] = q := parserConsumer.extend_nil q
    have status := atRead.finds.status
    have bytes := atRead.finds.bytes
    rw [whole] at status bytes
    cases toClose with
    | false =>
      have short := atRead.short
      rw [status] at short
      rcases short with short | short <;> cases short
    | true =>
      obtain ⟨rest, rfl⟩ := List.head?_eq_some_iff.mp (ending rfl)
      have complete := reads.complete
      refine ⟨_, _, [], rest, ?_, ⟨complete, fun unfinished => absurd rfl unfinished, .whole rfl ?_⟩,
        fun unfinished => absurd rfl unfinished⟩
      · rw [readMore.eq_def, if_pos more]
        simp only [atRead.close status, if_true]
        exact readMore_enough true complete rest fun unfinished => absurd rfl unfinished
      · rw [← bytes, ← atRead.left]
        rfl
  | @data later rest buf nonempty arrives ih =>
    have finds := atRead.finds.waits atRead.good atRead.short
    rw [← atRead.left] at finds
    by_cases enough : k + size ≤ p.msg.entity.length
    · exact ⟨p, r, buf ++ later, _, readMore_enough okOnClose reads _ fun _ => enough,
        ⟨reads, fun _ => .data buf nonempty arrives, .partly atRead.unfinished finds⟩, fun _ => enough⟩
    have more := readMore_more reads atRead.unfinished (Nat.lt_of_not_le enough)
    obtain ⟨status, next⟩ := (reads.extend buf).parse
    rcases atRead.read reads with ⟨atNext, short⟩ | ⟨success, complete, bytes⟩
    · obtain ⟨p', r', later', rest', ran, filled⟩ := ih next atNext
      refine ⟨p', r', later', rest', ?_, filled⟩
      have goesOn := entityGoesOn_waits short
      rw [readMore.eq_def, if_pos more]
      simp only [status, goesOn, if_true]
      exact ran
    · refine ⟨_, _, later, rest, ?_, ⟨next, fun unfinished => absurd complete unfinished,
        .whole complete bytes⟩, fun unfinished => absurd complete unfinished⟩
      rw [readMore.eq_def, if_pos more]
      simp only [status, success, entityGoesOn]
      exact readMore_enough _ next rest fun unfinished => absurd complete unfinished

/-! ### Calls -/

theorem gathers {size : Nat} {rest : List SockRead} (between : Between p r k later entity toClose rest) :
    ∃ first p' r' later' rest',
      (if r.position = .complete then (.success, r) else parserParseEntity r) = first ∧
      entityGoesOn first.1 = true ∧
      readMore false size (first.1 = .incompleteEntity) first.2 rest = some (UPNP_E_SUCCESS, r', rest') ∧
      Between p' r' k later' entity toClose rest' ∧
      (p'.position ≠ .complete → k + size ≤ p'.msg.entity.length) := by
  have reads := between.reads
  have position := reads.follows.position
  cases between.heads with
  | whole complete bytes =>
    rw [if_pos (position.trans complete)]
    exact ⟨_, p, r, later, rest, rfl, rfl, readMore_enough _ reads rest fun other => absurd complete other,
      between, fun other => absurd complete other⟩
  | partly unfinished finds =>
    rw [if_neg (position ▸ unfinished)]
    obtain ⟨status, next⟩ := reads.parse
    have parsed := parserParseEntity_parsed reads.follows reads.delivered
    have good := reads.delivered.good
    by_cases short : parserConsumer.waits (parserParseEntity p).1
    · have atRead : (parserParseEntity p).2.AtRead ((parserParseEntity r).1 = .incompleteEntity) later
          entity toClose p := by
        refine ⟨good, short, rfl, finds, ?_, fun close => by simp [status, close]⟩
        rw [parserParseEntity_waits short]
        exact unfinished
      obtain ⟨p', r', later', rest', ran, filled⟩ :=
        @readMore_filled _ _ _ _ _ _ size _ (between.arrives unfinished) _ _ next atRead
      exact ⟨_, p', r', later', rest', rfl, entityGoesOn_waits (status ▸ short), ran, filled⟩
    · obtain ⟨success, bytes⟩ := finds.settled good short
      have complete := parsed.complete success
      refine ⟨_, _, _, later, rest, rfl, by rw [status, success]; rfl, readMore_enough _ next rest ?_,
        ⟨next, fun other => absurd complete other, .whole complete bytes⟩, ?_⟩ <;>
        exact fun other => absurd complete other

theorem httpReadHttpResponse_between {size : Nat} (positive : 0 < size) {rest : List SockRead}
    (between : Between p r k later entity toClose rest) :
    ∃ data p' r' later' rest',
      httpReadHttpResponse ⟨r, false⟩ size rest = some ⟨UPNP_E_SUCCESS, data, ⟨r', false⟩, rest'⟩ ∧
      Between p' r' (k + data.length) later' entity toClose rest' ∧
      data = (entity.take (k + data.length)).drop k ∧ (data = [] → entity.length = k) := by
  obtain ⟨first, p', r', later', rest', first_eq, goesOn, ran, next, filled⟩ := @gathers _ _ _ _ _ _ size _ between
  have reads := next.reads
  set n := min size (r'.msg.entity.length - r'.msg.amountDiscarded) with n_eq
  have size_n : n = min size (p'.msg.entity.length - k) := by
    rw [n_eq, reads.follows.length, reads.follows.discarded]
  have enough := reads.enough
  have found : k + n ≤ p'.msg.entity.length := by omega
  have more := reads.discard found
  obtain ⟨front, inside⟩ := more.front_prefix next.heads
  have data := reads.data n
  rw [front] at data
  have length : ((entity.take (k + n)).drop k).length = n := by
    rw [List.length_drop, List.length_take]
    omega
  refine ⟨(entity.take (k + n)).drop k, p', r'.discard n, later', rest', ?_, ?_, by rw [length], ?_⟩
  · rw [httpReadHttpResponse]
    simp only [first_eq, goesOn, ran, Bool.not_true, Bool.false_eq_true, if_false, ← n_eq, data, ne_eq,
      not_true_eq_false]
  · rw [length]
    exact ⟨more, next.arrives, next.heads⟩
  · intro none
    rw [none] at length
    have complete : p'.position = .complete := by
      by_contra unfinished
      have bound := filled unfinished
      simp only [List.length_nil] at length
      omega
    cases next.heads with
    | partly unfinished => exact absurd complete unfinished
    | whole complete bytes =>
      have whole := reads.delivered.entityBytes.2.1
      rw [bytes] at whole
      simp only [List.length_nil] at length
      omega

theorem readBody_between {sizes : List Nat} (positive : ∀ size ∈ sizes, 0 < size) {rest : List SockRead}
    (between : Between p r k later entity toClose rest) :
    (∀ out, readBody ⟨r, false⟩ rest sizes = some out → out = entity.drop k) ∧
      (entity.length < k + sizes.length → readBody ⟨r, false⟩ rest sizes = some (entity.drop k)) := by
  induction sizes generalizing p r k later rest with
  | nil =>
    have inside := (between.reads.front_prefix between.heads).2
    refine ⟨nofun, fun more => ?_⟩
    rw [List.length_nil, Nat.add_zero] at more
    omega
  | cons size sizes ih =>
    obtain ⟨data, p', r', later', rest', call, next, taken, last⟩ :=
      httpReadHttpResponse_between (positive size List.mem_cons_self) between
    have inside := (next.reads.front_prefix next.heads).2
    by_cases none : data = []
    · have ended : entity.drop k = [] := List.drop_eq_nil_of_le (last none).le
      simp only [readBody, call, none, if_true, ended, ne_eq, not_true_eq_false, if_false]
      exact ⟨fun out found => (Option.some.inj found).symm, fun _ => trivial⟩
    · have split : entity.drop k = data ++ entity.drop (k + data.length) := by
        conv_lhs => rw [← List.take_append_drop (k + data.length) entity]
        rw [List.drop_append_of_le_length, ← taken]
        rw [List.length_take]
        omega
      obtain ⟨only, all⟩ := ih (fun later member => positive later (List.mem_cons_of_mem size member)) next
      simp only [readBody, call, none, if_false, ne_eq, not_true_eq_false, split]
      constructor
      · intro out found
        obtain ⟨behind, ran, rfl⟩ := Option.map_eq_some_iff.mp found
        rw [only behind ran]
      · intro more
        have some := List.length_pos_iff.mpr none
        rw [List.length_cons] at more
        rw [all (by omega)]
        rfl

end Finds

end Pupnp.Http
