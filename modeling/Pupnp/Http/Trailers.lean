import Pupnp.Http.EntityRun

/-!
The end of a chunked message: which bytes follow its trailers, and what stands in
the buffer behind the entity when the message is complete.
-/

namespace Pupnp.Http
open Pupnp.CString Pupnp.Uri Pupnp.Stream

/-! ### Trailers on their own -/

def trailerLine (body : List UInt8) : Option (List UInt8) :=
  match scannerGetToken (scannerInit body) with
  | .error _ => none
  | .ok (token, next) =>
      if token.type = .identifier && (matchFormat next " : %R%c").1 = .ok then
        some (matchFormat next " : %R%c").2.1.rest
      else none

theorem trailerLine_length {body later : List UInt8} (line : trailerLine body = some later) :
    later.length < body.length := by
  unfold trailerLine at line
  split at line
  · cases line
  · rename_i token next found
    split_ifs at line
    cases line
    have first := scannerGetToken_remaining found
    have value := (matchFormat_matched next " : %R%c").reaches.remaining
    rw [Scanner.rest_length]
    exact value.trans_lt first

def trailersEnd (body : List UInt8) : Option (List UInt8) :=
  match _h : trailerLine body with
  | some later => trailersEnd later
  | none =>
      match scannerGetToken (scannerInit body) with
      | .error _ => none
      | .ok (token, next) => if token.type = .crlf then some next.rest else none
termination_by body.length
decreasing_by exact trailerLine_length _h

theorem format_headerValue : format " : %R%c" = [.lws, .char 58, .lws, .rawValue, .crlf] := by
  decide

theorem headerValue_relative : ∀ d ∈ format " : %R%c", d.Relative := by
  rw [format_headerValue]
  simp only [List.forall_mem_cons]
  exact ⟨trivial, trivial, trivial, trivial, trivial, List.forall_mem_nil _⟩

theorem parseHeaderLine_trailer {p : HttpParser} (more : p.scanner.Open)
    (again : (parseHeaderLine p).1 = .continue1) :
    trailerLine p.scanner.rest = some (parseHeaderLine p).2.scanner.rest := by
  cases (Scanner.alike_init more.entire).tokens with
  | error status left right =>
    unfold parseHeaderLine at again
    rw [left] at again
    rcases scanToken_error (scannerGetToken_error left) with rfl | rfl <;> cases again
  | ok type length next next' left right later =>
    obtain ⟨status, behind⟩ := matchFormat_alike later headerValue_relative
    unfold parseHeaderLine at again ⊢
    rw [left] at again ⊢
    dsimp only at again ⊢
    cases type with
    | crlf => simp only at again; split_ifs at again
    | identifier =>
      dsimp only at again ⊢
      split_ifs at again ⊢ with failed
      · exact absurd again (matchFormat_not_continue _ _)
      · unfold trailerLine
        rw [right]
        dsimp only
        rw [if_pos (by simp [← status, not_not.mp failed]), behind.rest]
    | _ => cases again

theorem parseHeaderLine_trailersEnd {p : HttpParser} (more : p.scanner.Open)
    (ended : (parseHeaderLine p).1 = .ok) :
    trailersEnd p.scanner.rest = some (parseHeaderLine p).2.scanner.rest := by
  cases (Scanner.alike_init more.entire).tokens with
  | error status left right =>
    unfold parseHeaderLine at ended
    rw [left] at ended
    rcases scanToken_error (scannerGetToken_error left) with rfl | rfl <;> cases ended
  | ok type length next next' left right later =>
    unfold parseHeaderLine at ended ⊢
    rw [left] at ended ⊢
    dsimp only at ended ⊢
    cases type with
    | crlf =>
      have noLine : trailerLine p.scanner.rest = none := by
        unfold trailerLine
        rw [right]
        rfl
      dsimp only at ended ⊢
      split_ifs at ended ⊢
      rw [trailersEnd]
      split
      · simp_all
      · rw [right]
        exact congrArg some later.rest.symm
    | identifier =>
      dsimp only at ended
      split_ifs at ended with failed
      exact absurd ended failed
    | _ => cases ended

theorem trailersEnd_next {body later : List UInt8} (line : trailerLine body = some later) :
    trailersEnd body = trailersEnd later := by
  conv_lhs => rw [trailersEnd]
  split
  · simp_all
  · simp_all

theorem parserParseHeaders_trailersEnd {p : HttpParser} (good : p.Good)
    (ended : (parserParseHeaders p).1 = .ok) :
    trailersEnd p.scanner.rest = some (parserParseHeaders p).2.scanner.rest := by
  fun_induction parserParseHeaders p with
  | case1 p next found ih =>
    have line := parseHeaderLine_trailer good.more (by rw [found])
    have good' := (parseHeaderLine_advances p).good good
    rw [found] at line good'
    rw [trailersEnd_next line]
    exact ih good' ended
  | case2 p => exact parseHeaderLine_trailersEnd good.more ended

theorem parseHeaderLine_noTrailer {p : HttpParser} (more : p.scanner.Open)
    (last : (parseHeaderLine p).1 ≠ .continue1) : trailerLine p.scanner.rest = none := by
  cases (Scanner.alike_init more.entire).tokens with
  | error status left right => rw [trailerLine, right]
  | ok type length next next' left right later =>
    obtain ⟨status, -⟩ := matchFormat_alike later headerValue_relative
    unfold parseHeaderLine at last
    rw [left] at last
    rw [trailerLine, right]
    dsimp only at last ⊢
    rw [if_neg]
    rw [Bool.and_eq_true, decide_eq_true_eq, decide_eq_true_eq, ← status]
    rintro ⟨rfl, matched⟩
    rw [matched] at last
    exact last rfl

theorem parserParseHeaders_noEnd {p : HttpParser} (good : p.Good)
    (short : parserConsumer.waits (parserParseHeaders p).1) : trailersEnd p.scanner.rest = none := by
  fun_induction parserParseHeaders p with
  | case1 p next found ih =>
    have line := parseHeaderLine_trailer good.more (by rw [found])
    have good' := (parseHeaderLine_advances p).good good
    rw [found] at line good'
    rw [trailersEnd_next line]
    exact ih good' short
  | case2 p last =>
    have ended : (parseHeaderLine p).1 ≠ .continue1 := fun again => last _ (Prod.ext again rfl)
    have noLine := parseHeaderLine_noTrailer good.more ended
    cases (Scanner.alike_init good.more.entire).tokens with
    | error status left right =>
      rw [trailersEnd]
      split
      · simp_all
      · rw [right]
    | ok type length next next' left right later =>
      have other : type ≠ .crlf := by
        rintro rfl
        unfold parseHeaderLine at short
        rw [left] at short
        dsimp only at short
        split_ifs at short <;> rcases short with short | short <;> cases short
      rw [trailersEnd]
      split
      · simp_all
      · rw [right]
        exact if_neg other

/-! ### What stands behind the entity -/

/-- The entity lies in the buffer with a NUL behind it; the byte behind the buffer is one. -/
def HttpParser.Terminated (p : HttpParser) : Prop :=
  ∃ start, p.msg.entity.buf = some start ∧
    start + p.msg.entity.length ≤ p.scanner.msg.length ∧
      p.scanner.msg.getD (start + p.msg.entity.length) 0 = 0

def HttpParser.HoldsTrailers (p : HttpParser) : Prop :=
  p.entPosition = .chunkyHeaders ∧
    p.entityStartPosition + p.msg.entity.length < p.scanner.cursor

theorem addHeader_hasEntity {msg : HttpMessage} (hasEntity : msg.HasEntity)
    (name value : List UInt8) : (addHeader msg name value).HasEntity := by
  unfold HttpMessage.HasEntity at hasEntity ⊢
  unfold addHeader
  dsimp only
  split_ifs <;> split <;> simp_all

theorem parseHeaderLine_not_success {p : HttpParser} (hasEntity : p.msg.HasEntity) :
    (parseHeaderLine p).1 ≠ .success ∧ (parseHeaderLine p).2.msg.HasEntity := by
  unfold parseHeaderLine
  split
  · rename_i found
    rcases scanToken_error (scannerGetToken_error found) with rfl | rfl <;>
      exact ⟨by simp, hasEntity⟩
  · rename_i token next found
    split
    · rw [if_neg (by rw [hasEntity]; decide)]
      exact ⟨by simp, hasEntity⟩
    · have range := (matchFormat_matched next " : %R%c").isMatch
      dsimp only
      split_ifs
      · refine ⟨?_, hasEntity⟩
        intro same
        rw [same] at range
        simp [ParseStatus.IsMatch] at range
      · exact ⟨by simp, addHeader_hasEntity hasEntity _ _⟩
    · exact ⟨by simp, hasEntity⟩

theorem parserParseHeaders_not_success {p : HttpParser} (hasEntity : p.msg.HasEntity) :
    (parserParseHeaders p).1 ≠ .success ∧ (parserParseHeaders p).2.msg.HasEntity := by
  fun_induction parserParseHeaders p with
  | case1 p next found ih =>
    have kept := (parseHeaderLine_not_success hasEntity).2
    rw [found] at kept
    exact ih kept
  | case2 p => exact parseHeaderLine_not_success hasEntity

structure TrailersCut (p : HttpParser) (r : ParseResult) : Prop where
  buf : r.2.msg.entity.buf = some p.entityStartPosition
  length : r.2.msg.entity.length = p.msg.entity.length
  msg : ∃ surplus, trailersEnd p.scanner.rest = some surplus ∧
    r.2.scanner.msg = p.scanner.msg.take p.scanner.cursor ++ surplus

theorem chunkyHeaders_cut {p : HttpParser} (chunked : p.Chunked)
    (here : p.entPosition = .chunkyHeaders) (success : (parserEntityRound p).1 = .success) :
    TrailersCut p (parserEntityRound p) := by
  have round : parserEntityRound p = parserParseChunkyHeaders p := by rw [parserEntityRound, here]
  have step := parserParseHeaders_advances p
  rw [round] at success ⊢
  simp only [parserParseChunkyHeaders] at success ⊢
  by_cases ended : (parserParseHeaders p).1 = .ok
  · rw [if_pos ended]
    have forward := step.reaches.forward
    have length := congrArg Entity.length step.entity
    refine ⟨congrArg some step.start, length, _, parserParseHeaders_trailersEnd
      chunked.good ended, ?_⟩
    simp only [HttpParser.withPosition, HttpParser.withScanner, Scanner.deleteFrom,
      membufferDelete, step.reaches.msg, Scanner.rest]
    rw [Nat.add_sub_cancel' forward]
  · rw [if_neg ended] at success
    exact absurd success (parserParseHeaders_not_success chunked.hasEntity).1

structure Surplus (stream : List UInt8) (p : HttpParser) (surplus : List UInt8) : Prop where
  body : ∃ values rest, chunkSizes (stream.drop p.entityStartPosition) = some (values, rest) ∧
    trailersEnd rest = some surplus
  buf : p.msg.entity.buf = some p.entityStartPosition
  inside : p.entityStartPosition + p.msg.entity.length ≤ p.scanner.msg.length
  behind : p.scanner.msg.drop (p.entityStartPosition + p.msg.entity.length) = surplus

theorem parserParseEntity_surplus {p : HttpParser} (chunked : p.Chunked)
    (here : p.entPosition = .usingChunked) (start : p.entityStartPosition = p.scanner.cursor)
    (success : (parserParseEntity p).1 = .success) :
    ∃ surplus, Surplus p.scanner.msg (parserParseEntity p).2 surplus := by
  obtain ⟨q, read, rounds⟩ := parserParseEntity_lastRound chunked
  rw [rounds.same] at success ⊢
  obtain ⟨here', length, start'⟩ := parserEntityRound_ends rounds.reads.chunked.chunks success
  obtain ⟨buf, -, surplus, trailers, msg⟩ := chunkyHeaders_cut rounds.reads.chunked here' success
  have ends : q.EntityEnds := by
    rcases rounds.reads.ends here' with same | ends
    · rw [same, here] at here'
      cases here'
    · exact ends
  have inside := rounds.reads.chunked.good.more.inside
  have whole : q.entityStartPosition + q.msg.entity.length = q.scanner.cursor := ends
  have prefix_length : (q.scanner.msg.take q.scanner.cursor).length = q.scanner.cursor := by
    rw [List.length_take]
    omega
  refine ⟨surplus, ⟨read, q.scanner.rest, ?_, trailers⟩, buf.trans (congrArg some start'.symm), ?_, ?_⟩
  · have ahead : q.sizesAhead = some ([], q.scanner.rest) := by
      simp only [HttpParser.sizesAhead, here']
    have total := rounds.reads.ahead
    rw [ahead] at total
    simp only [HttpParser.sizesAhead, here] at total
    rw [start', rounds.reads.start, start]
    simpa [Scanner.rest, Prod.map] using total
  · rw [start', length, whole, msg, List.length_append, prefix_length]
    omega
  · rw [start', length, whole, msg, List.drop_append, prefix_length, Nat.sub_self,
      List.drop_eq_nil_of_le prefix_length.le]
    rfl

theorem parserParse_surplus {res : Resolver} {p : HttpParser} (unread : p.Unread)
    (success : (parserParse res p).1 = .success)
    (chunks : (parserParse res p).2.entPosition.isChunked = true) :
    ∃ surplus, Surplus p.scanner.msg (parserParse res p).2 surplus := by
  obtain ⟨c, chunked, here, loaded, begins, same, -⟩ := parserParse_toChunks unread chunks
  rw [same] at success ⊢
  rw [← loaded]
  exact parserParseEntity_surplus chunked here begins success

/-! ### Trailers that wait -/

theorem parseHeaderLine_firstByte {p : HttpParser} (more : p.scanner.Open)
    (again : (parseHeaderLine p).1 = .continue1) :
    ∃ c, p.scanner.msg[p.scanner.cursor]? = some c ∧ c ≠ 0 := by
  have nonzero {d : UInt8} (ident : isIdentifierChar d = true) : d ≠ 0 := by
    rintro rfl
    revert ident
    decide
  unfold parseHeaderLine at again
  split at again
  · rename_i found
    rcases scanToken_error (scannerGetToken_error found) with rfl | rfl <;> cases again
  · rename_i token next found
    split at again
    · split_ifs at again
    · rename_i ident
      rw [scannerGetToken_rest, more.entire] at found
      cases scanned : scanToken false p.scanner.rest with
      | error status => simp [scanned] at found
      | ok pair =>
        obtain ⟨type, length⟩ := pair
        rw [scanned] at found
        cases found
        cases ident
        obtain ⟨text, c, rest, shape, -, some, chars, -⟩ := scanToken_identifier scanned
        cases text with
        | nil => exact absurd rfl some
        | cons d text =>
          refine ⟨d, ?_, nonzero (chars d (by simp))⟩
          rw [← List.head?_drop]
          exact congrArg List.head? shape
    · cases again

inductive TrailersWait (q before : HttpParser) : Prop
  | unread (same : before = q) (noLine : trailerLine q.scanner.rest = none)
  | held (holds : before.HoldsTrailers) (chunked : before.Chunked)
      (byte : ∃ c, before.scanner.msg[before.entityStartPosition + before.msg.entity.length]? =
        some c ∧ c ≠ 0) (line : trailerLine q.scanner.rest ≠ none)

theorem parserParseHeaders_waits_cases {q : HttpParser} (chunked : q.Chunked)
    (here : q.entPosition = .chunkyHeaders) (ends : q.EntityEnds)
    (short : parserConsumer.waits (parserParseHeaders q).1) :
    TrailersWait q (parserParseHeaders q).2 := by
  have step := parserParseHeaders_advances q
  by_cases again : (parseHeaderLine q).1 = .continue1
  · have less : (parseHeaderLine q).2.scanner.remaining < q.scanner.remaining :=
      (parseHeaderLine_continue (Prod.ext again rfl)).2
    have line := (parseHeaderLine_advances q).reaches
    have rest := (parserParseHeaders_advances (parseHeaderLine q).2).reaches.forward
    rw [← parserParseHeaders_next again] at rest
    simp only [Scanner.remaining, line.msg] at less
    have length := congrArg Entity.length step.entity
    have ends' : q.entityStartPosition + q.msg.entity.length = q.scanner.cursor := ends
    refine .held ⟨step.entPosition.trans here, ?_⟩ ?_ ?_ (by simp [parseHeaderLine_trailer chunked.good.more again])
    · rw [step.start, length, ends']
      omega
    · refine ⟨step.good chunked.good, ?_, ?_, (parserParseHeaders_not_success chunked.hasEntity).2⟩
      · rw [step.entPosition]
        exact chunked.chunks
      · rw [step.chunkSize]
        exact chunked.small
    · rw [step.start, length, ends', step.reaches.msg]
      exact parseHeaderLine_firstByte chunked.good.more again
  · rw [parserParseHeaders_last again] at short ⊢
    rcases short with short | short
    · exact .unread (parseHeaderLine_incomplete short) (parseHeaderLine_noTrailer chunked.good.more again)
    · exact absurd short (parseHeaderLine_not_entity q)

theorem parserParseEntity_held {p : HttpParser} (chunked : p.Chunked) (holds : p.HoldsTrailers)
    {c : UInt8} (byte : p.scanner.msg[p.entityStartPosition + p.msg.entity.length]? = some c)
    (success : (parserParseEntity p).1 = .success) :
    (parserParseEntity p).2.msg.entity.buf = some p.entityStartPosition ∧
      (parserParseEntity p).2.scanner.msg[p.entityStartPosition +
        (parserParseEntity p).2.msg.entity.length]? = some c := by
  obtain ⟨here, before⟩ := holds
  have round : parserEntityRound p = parserParseChunkyHeaders p := by rw [parserEntityRound, here]
  have last : parserParseEntity p = parserEntityRound p :=
    parserParseEntity_last (by rw [round]; exact parserParseChunkyHeaders_not_continue p)
  rw [last] at success ⊢
  obtain ⟨buf, length, surplus, -, msg⟩ := chunkyHeaders_cut chunked here success
  have inside := chunked.good.more.inside
  refine ⟨buf, ?_⟩
  rw [length, msg, List.getElem?_append_left (by rw [List.length_take]; omega),
    List.getElem?_take_of_lt before, byte]

/-- A round in the middle of the chunks never ends the message, and what it left for later
is taken up as if it had come at once. -/
theorem parserParseEntity_chunks_resume {q : HttpParser} (chunked : q.Chunked)
    (other : q.entPosition ≠ .chunkyHeaders)
    (short : parserConsumer.waits (parserEntityRound q).1) (buf : List UInt8)
    (success : (parserParseEntity ((parserEntityRound q).2.extend buf)).1 = .success) :
    parserParseEntity ((parserEntityRound q).2.extend buf) = parserParseEntity (q.extend buf) := by
  have same := (parserEntityRound_incremental q chunked.good).resumes buf short
  have kept := parserEntityRound_waits short
  rw [parserConsumer_extend, parserConsumer_extend] at same
  by_cases again : (parserEntityRound ((parserEntityRound q).2.extend buf)).1 = .continue1
  · have whole := same.eq (.inr (again ▸ parserConsumer_goesOn_continue))
    have again' : (parserEntityRound (q.extend buf)).1 = .continue1 := same.status ▸ again
    rw [parserParseEntity_next again, @parserParseEntity_next (q.extend buf) again', whole]
  · rw [parserParseEntity_last again] at success
    have chunks : ((parserEntityRound q).2.extend buf).entPosition.isChunked = true := by
      rw [show ((parserEntityRound q).2.extend buf).entPosition = _ from kept]
      exact chunked.chunks
    have ends := (parserEntityRound_ends chunks success).1
    exact absurd (kept.symm.trans ends) other

/-- A message that is read on: as if it had come at once, unless trailers had been read. -/
inductive Resumed (res : Resolver) (p before : HttpParser) (buf : List UInt8) : Prop
  | atOnce (same : parserParse res (before.extend buf) = parserParse res (p.extend buf))
      (free : ¬before.HoldsTrailers)
  | held (holds : before.HoldsTrailers)
      (start : (parserParse res (before.extend buf)).2.msg.entity.buf =
        some before.entityStartPosition)
      (byte : ∃ c, (parserParse res (before.extend buf)).2.scanner.msg[
        before.entityStartPosition + (parserParse res (before.extend buf)).2.msg.entity.length]? =
          some c ∧ c ≠ 0)

theorem parserParse_atEntity {res : Resolver} {p : HttpParser} (here : p.position = .entity) :
    parserParse res p = parserParseEntity p := by
  have round : parserRound res p = parserParseEntity p := by rw [parserRound, here]
  rw [parserParse_last (by rw [round]; exact parserParseEntity_not_ok p), round]

theorem chunks_resumed {res : Resolver} {p c : HttpParser} (chunked : c.Chunked)
    (here : c.entPosition = .usingChunked) (position : (parserParseEntity c).2.position = .entity)
    (short : parserConsumer.waits (parserParseEntity c).1) (buf : List UInt8)
    (longer : parserParse res (p.extend buf) = parserParseEntity (c.extend buf))
    (success : (parserParse res ((parserParseEntity c).2.extend buf)).1 = .success) :
    Resumed res p (parserParseEntity c).2 buf := by
  have at_entity := @parserParse_atEntity res ((parserParseEntity c).2.extend buf) position
  rw [at_entity] at success
  obtain ⟨q, read, rounds⟩ := parserParseEntity_lastRound chunked
  obtain ⟨same, -⟩ := rounds.longer buf
  rw [rounds.same] at short success at_entity ⊢
  by_cases trailers : q.entPosition = .chunkyHeaders
  · have ends : q.EntityEnds := by
      rcases rounds.reads.ends trailers with start | ends
      · rw [start, here] at trailers
        cases trailers
      · exact ends
    have round : parserEntityRound q = parserParseChunkyHeaders q := by
      rw [parserEntityRound, trailers]
    have headers : parserEntityRound q = parserParseHeaders q := by
      rw [round] at short ⊢
      simp only [parserParseChunkyHeaders] at short ⊢
      split_ifs at short ⊢
      · rcases short with short | short <;> cases short
      · rfl
    rw [headers] at short success at_entity ⊢
    cases parserParseHeaders_waits_cases rounds.reads.chunked trailers ends short with
    | unread stay =>
      refine .atOnce (by rw [at_entity, longer, same, stay]) ?_
      rintro ⟨-, behind⟩
      rw [stay] at behind
      have whole : q.entityStartPosition + q.msg.entity.length = q.scanner.cursor := ends
      omega
    | held holds later byte =>
      obtain ⟨d, found, nonzero⟩ := byte
      have found' : ((parserParseHeaders q).2.extend buf).scanner.msg[
          (parserParseHeaders q).2.entityStartPosition +
            (parserParseHeaders q).2.msg.entity.length]? = some d := by
        rw [HttpParser.extend_scanner, Scanner.extend_msg, List.getElem?_append_left, found]
        exact (List.getElem?_eq_some_iff.mp found).1
      obtain ⟨start, byte⟩ := parserParseEntity_held (later.extend buf) holds found' success
      rw [← at_entity] at start byte
      exact .held holds start ⟨d, byte, nonzero⟩
  · refine .atOnce ?_ ?_
    · rw [at_entity, longer, same]
      exact parserParseEntity_chunks_resume rounds.reads.chunked trailers short buf success
    · rintro ⟨holds, -⟩
      exact trailers ((parserEntityRound_waits short).symm.trans holds)

theorem readMethodOfLength_last {p : HttpParser} (last : (readMethodOfLength p).1 ≠ .continue1) :
    (readMethodOfLength p).1 = .failure ∧ (readMethodOfLength p).2.msg.entity = p.msg.entity ∧
      (readMethodOfLength p).2.entPosition = p.entPosition := by
  unfold readMethodOfLength at last ⊢
  cases found : httpmsgFindHdr p.msg .contentLength with
  | some h =>
    rw [found] at last
    exact absurd rfl last
  | none =>
    rw [found] at last
    dsimp only at last ⊢
    split_ifs at last ⊢
    · exact ⟨rfl, rfl, rfl⟩
    · exact absurd rfl last

theorem parserGetEntityReadMethod_last {p : HttpParser}
    (last : (parserGetEntityReadMethod p).1 ≠ .continue1) :
    ¬parserConsumer.waits (parserGetEntityReadMethod p).1 ∧
      (parserGetEntityReadMethod p).2.msg.entity.length = 0 ∧
      (parserGetEntityReadMethod p).2.entPosition = p.entPosition := by
  unfold parserGetEntityReadMethod at last ⊢
  by_cases bodyless : p.msg.hasNoBody = true
  · rw [if_pos bodyless]
    exact ⟨(by rintro (short | short) <;> cases short), rfl, rfl⟩
  · rw [if_neg bodyless] at last ⊢
    dsimp only at last ⊢
    by_cases chunked : isChunked p.msg = true
    · rw [if_pos chunked] at last
      exact absurd rfl last
    · rw [if_neg chunked] at last ⊢
      obtain ⟨status, entity, closed⟩ := readMethodOfLength_last last
      rw [status, entity, closed]
      exact ⟨(by rintro (short | short) <;> cases short), rfl, rfl⟩

theorem parserParseEntity_closed {p : HttpParser} (closed : p.entPosition = .determineReadMethod)
    (closed' : (parserParseEntity p).2.entPosition = .determineReadMethod) :
    ¬parserConsumer.waits (parserParseEntity p).1 ∧
      (parserParseEntity p).2.msg.entity.length = 0 := by
  have round : parserEntityRound p = parserGetEntityReadMethod p := by rw [parserEntityRound, closed]
  by_cases again : (parserGetEntityReadMethod p).1 = .continue1
  · have framed := (parserGetEntityReadMethod_continue (Prod.ext again rfl)).2
    have kept := parserParseEntity_framing framed
    rw [parserParseEntity_next (by rw [round]; exact again), round] at closed'
    rw [closed'] at kept
    exact absurd ((EntPosition.framing_none _).mp kept.symm) framed
  · rw [parserParseEntity_last (by rw [round]; exact again), round]
    obtain ⟨status, length, -⟩ := parserGetEntityReadMethod_last again
    exact ⟨status, length⟩

theorem parserParse_waits_before {res : Resolver} {p : HttpParser} (unread : p.Unread)
    (short : parserConsumer.waits (parserParse res p).1)
    (closed : (parserParse res p).2.entPosition = .determineReadMethod) :
    ∃ h, h.Good ∧ h.entPosition = .determineReadMethod ∧ h.position ≠ .entity ∧
      parserParse res p = parserRound res h ∧ (parserRound res h).1 ≠ .ok ∧
      ∀ buf, parserParse res (p.extend buf) = parserParse res (h.extend buf) := by
  fun_induction parserParse res p with
  | case1 p next round ih =>
    by_cases here : p.position = .entity
    · rw [parserRound, here] at round
      exact absurd (congrArg Prod.fst round) (parserParseEntity_not_ok p)
    · have step := @parserRound_advances res p here
      have entity := @parserRound_hasEntity res p (by rw [round])
      have longer := @parserParse_longer res p unread.good (by rw [round])
      rw [round] at step entity longer
      obtain ⟨h, good, closed', outside, same, last, rest⟩ :=
        ih (unread.advance step entity) short closed
      exact ⟨h, good, closed', outside, same, last, fun buf => (longer buf).trans (rest buf)⟩
  | case2 p last =>
    have ended : (parserRound res p).1 ≠ .ok := fun again => last _ (Prod.ext again rfl)
    refine ⟨p, unread.good, unread.closed, ?_, rfl, ended, fun _ => rfl⟩
    intro here
    rw [parserRound, here] at short closed
    exact (parserParseEntity_closed unread.closed closed).1 short

theorem parserParse_resumed {res : Resolver} {p : HttpParser} (unread : p.Unread)
    (short : parserConsumer.waits (parserParse res p).1)
    (buf : List UInt8)
    (success : (parserParse res ((parserParse res p).2.extend buf)).1 = .success)
    (chunks : (parserParse res ((parserParse res p).2.extend buf)).2.entPosition.isChunked = true) :
    Resumed res p (parserParse res p).2 buf := by
  set before := (parserParse res p).2 with before_eq
  by_cases closed : before.entPosition = .determineReadMethod
  · obtain ⟨h, good, closed', outside, same, last, longer⟩ :=
      parserParse_waits_before unread short closed
    have free : ¬before.HoldsTrailers := by
      rintro ⟨here, -⟩
      rw [closed] at here
      cases here
    refine .atOnce ?_ free
    rw [longer buf]
    rw [same] at before_eq short
    have resumes := (parserRound_incremental res h good).resumes buf short
    rw [parserConsumer_extend, parserConsumer_extend, ← before_eq] at resumes
    have stays := parserRound_waits short
    by_cases again : (parserRound res (before.extend buf)).1 = .ok
    · have whole := resumes.eq (.inr (again ▸ parserConsumer_goesOn_ok))
      rw [parserParse_next again, @parserParse_next res (h.extend buf) (resumes.status ▸ again), whole]
    · rw [parserParse_last again] at chunks
      have outside' : (before.extend buf).position ≠ .entity := by
        rw [HttpParser.extend_position, before_eq, stays]
        exact outside
      rw [(parserRound_advances outside').entPosition,
        show (before.extend buf).entPosition = _ from closed] at chunks
      cases chunks
  · obtain ⟨q, moved, at_q, -, same, -⟩ :=
      parserParse_toEntity unread.good unread.closed unread.hasEntity closed
    have position : before.position = .entity := by
      rw [before_eq, same]
      exact (parserParseEntity_waits (same ▸ short)).trans at_q
    have final := @parserParse_atEntity res (before.extend buf) position
    by_cases inChunks : before.entPosition.isChunked = true
    · obtain ⟨c, chunked, here, -, -, same', longer⟩ := parserParse_toChunks unread inChunks
      have before_eq' : before = (parserParseEntity c).2 := by rw [before_eq, same']
      rw [before_eq'] at position success ⊢
      exact chunks_resumed chunked here position (same' ▸ short) buf (longer buf) success
    · have kept := @parserParseEntity_framing (before.extend buf) closed
      rw [final, EntPosition.isChunked_iff, kept] at chunks
      exact absurd ((EntPosition.isChunked_iff _).mpr chunks) inChunks

def chunkedSurplus (body : List UInt8) : Option (List UInt8) :=
  (chunkSizes body).bind fun sizes => trailersEnd sizes.2

theorem Surplus.terminated {stream surplus : List UInt8} {p : HttpParser}
    (behind : Surplus stream p surplus) :
    chunkedSurplus (stream.drop p.entityStartPosition) = some surplus ∧
      (p.Terminated ↔ surplus.headD 0 = 0) := by
  obtain ⟨⟨values, rest, sizes, trailers⟩, buf, inside, bytes⟩ := behind
  refine ⟨by rw [chunkedSurplus, sizes, Option.bind_some, trailers], ?_⟩
  have byte : p.scanner.msg.getD (p.entityStartPosition + p.msg.entity.length) 0 =
      surplus.headD 0 := by
    rw [← bytes, List.headD_eq_head?_getD, List.head?_drop, List.getD_eq_getElem?_getD]
  constructor
  · rintro ⟨start, found, -, nul⟩
    rw [buf] at found
    cases found
    rwa [byte] at nul
  · intro nul
    exact ⟨_, buf, inside, by rw [byte, nul]⟩

/-- The last call on a chunked message leaves a NUL behind the entity exactly when no trailer
had been read before and the message is followed by nothing or by a NUL. -/
theorem parserParse_terminated {res : Resolver} {p : HttpParser} (unread : p.Unread)
    (short : parserConsumer.waits (parserParse res p).1) (buf : List UInt8)
    (success : (parserParse res ((parserParse res p).2.extend buf)).1 = .success)
    (chunks : (parserParse res ((parserParse res p).2.extend buf)).2.entPosition.isChunked = true) :
    ∃ surplus,
      chunkedSurplus ((p.scanner.msg ++ buf).drop
          (parserParse res ((parserParse res p).2.extend buf)).2.entityStartPosition) =
        some surplus ∧
      ((parserParse res ((parserParse res p).2.extend buf)).2.Terminated ↔
        ¬(parserParse res p).2.HoldsTrailers ∧ surplus.headD 0 = 0) := by
  have resumes := (parserParse_incremental res p unread.good).resumes buf short
  rw [parserConsumer_extend, parserConsumer_extend] at resumes
  have frame : (parserParse res ((parserParse res p).2.extend buf)).2.withScanner (scannerInit []) =
      (parserParse res (p.extend buf)).2.withScanner (scannerInit []) :=
    congrArg Prod.fst resumes.observed
  have begins := congrArg (fun q => q.entityStartPosition) frame
  have framing := congrArg (fun q => q.entPosition) frame
  dsimp only [HttpParser.withScanner] at begins framing
  obtain ⟨surplus, behind⟩ := parserParse_surplus (unread.extend buf) (resumes.status ▸ success)
    (framing ▸ chunks)
  obtain ⟨known, nul⟩ := behind.terminated
  refine ⟨surplus, by rw [begins]; exact known, ?_⟩
  cases parserParse_resumed unread short buf success chunks with
  | atOnce same free =>
    rw [same, nul]
    exact ⟨fun zero => ⟨free, zero⟩, fun both => both.2⟩
  | held holds start byte =>
    obtain ⟨c, found, nonzero⟩ := byte
    refine ⟨?_, fun both => absurd holds both.1⟩
    rintro ⟨start', same, -, zero⟩
    rw [start] at same
    cases same
    rw [List.getD_eq_getElem?_getD, found] at zero
    exact absurd zero nonzero

end Pupnp.Http
