import Pupnp.Http.ReadRun
import Pupnp.Http.Length

/-!
The entity of a response, from its bytes, and a control point that reads it: `http_GetHttpResponse` and
the calls of `http_ReadHttpResponse` behind it.
-/

namespace Pupnp.Http
open Pupnp.CString Pupnp.Uri Pupnp.Stream

/-! ### Trailers that end -/

theorem parseHeaderLine_of_trailer {p : HttpParser} (more : p.scanner.Open) {later : List UInt8}
    (line : trailerLine p.scanner.rest = some later) :
    (parseHeaderLine p).1 = .continue1 ∧ (parseHeaderLine p).2.scanner.rest = later := by
  cases (Scanner.alike_init more.entire).tokens with
  | error status left right =>
    unfold trailerLine at line
    rw [right] at line
    cases line
  | ok type length next next' left right behind =>
    obtain ⟨status, value⟩ := matchFormat_alike behind headerValue_relative
    unfold trailerLine at line
    rw [right] at line
    simp only [Bool.and_eq_true, decide_eq_true_eq] at line
    split_ifs at line with complete
    obtain ⟨identifier, matched⟩ := complete
    have matched' : (matchFormat next " : %R%c").1 = .ok := status.trans matched
    cases line
    unfold parseHeaderLine
    rw [left]
    simp only [identifier, matched', ne_eq, not_true_eq_false, if_false, true_and]
    exact value.rest

theorem parseHeaderLine_of_end {p : HttpParser} (more : p.scanner.Open) (hasEntity : p.msg.HasEntity)
    {ending : List UInt8} (noLine : trailerLine p.scanner.rest = none)
    (ended : trailersEnd p.scanner.rest = some ending) : (parseHeaderLine p).1 = .ok := by
  have entity : (p.msg.isRequest && decide (p.msg.method = .post)) = false := hasEntity
  rw [trailersEnd] at ended
  split at ended
  next later line =>
      rw [noLine] at line
      cases line
  next =>
      cases (Scanner.alike_init more.entire).tokens with
      | error status left right =>
        rw [right] at ended
        cases ended
      | ok type length next next' left right behind =>
        rw [right] at ended
        simp only at ended
        split_ifs at ended with crlf
        unfold parseHeaderLine
        rw [left]
        simp only [crlf, entity, Bool.false_eq_true, if_false]

theorem parserParseHeaders_of_trailersEnd {p : HttpParser} (good : p.Good) (hasEntity : p.msg.HasEntity)
    {ending : List UInt8} (ended : trailersEnd p.scanner.rest = some ending) :
    (parserParseHeaders p).1 = .ok := by
  fun_induction parserParseHeaders p with
  | case1 p next found ih =>
    have line := parseHeaderLine_trailer good.more (by rw [found])
    have good' := (parseHeaderLine_advances p).good good
    have kept := (parseHeaderLine_not_success hasEntity).2
    rw [found] at line good' kept
    rw [trailersEnd_next line] at ended
    exact ih good' kept ended
  | case2 p notAgain =>
    cases line : trailerLine p.scanner.rest with
    | none => exact parseHeaderLine_of_end good.more hasEntity line ended
    | some later =>
      have again := (parseHeaderLine_of_trailer good.more line).1
      exact (notAgain _ (Prod.ext again rfl)).elim

theorem parserParseEntity_trailers {p q : HttpParser} {data tail ending : List UInt8}
    (there : p.AtTrailers q data tail) (buf : p.msg.entity.buf = some p.entityStartPosition)
    (hasEntity : p.msg.HasEntity) (discarded : p.msg.amountDiscarded = 0)
    (ended : trailersEnd tail = some ending) :
    (parserParseEntity q).1 = .success ∧ (parserParseEntity q).2.entityBytes = data := by
  have inside := there.more.inside
  have entity : q.msg.entity = ⟨some q.entityStartPosition, data.length⟩ := by
    rw [there.msg, there.start, buf]
  have size : q.entityStartPosition + data.length = q.scanner.cursor := by
    have started := there.started
    rw [← there.done, List.length_drop, List.length_take, Nat.min_eq_left inside]
    omega
  have hasEntity' : q.msg.HasEntity := by
    rw [there.msg]
    exact hasEntity
  have good : q.Good := by
    refine ⟨there.more, ?_, fun _ => congrArg Entity.buf entity, ?_⟩
    · rw [there.msg]
      exact discarded
    · rw [entity]
      rintro buf ⟨⟩
      rw [HttpParser.entityLimit, there.entPosition]
      exact size.le
  have headers := parserParseHeaders_of_trailersEnd good hasEntity' (there.ahead.symm ▸ ended)
  have step := parserParseHeaders_advances q
  have last : (parserEntityRound q).1 ≠ .continue1 := by
    rw [parserEntityRound, there.entPosition]
    exact parserParseChunkyHeaders_not_continue q
  rw [parserParseEntity_last last, parserEntityRound, there.entPosition]
  simp only
  rw [parserParseChunkyHeaders, if_pos headers]
  refine ⟨rfl, ?_⟩
  rw [HttpParser.entityBytes]
  simp only [HttpParser.withPosition, HttpParser.withScanner, HttpParser.withEntity, step.start,
    step.entity, entity, Memptr.read]
  have kept : ((parserParseHeaders q).2.scanner.deleteFrom q.scanner.cursor).msg.take q.scanner.cursor =
      q.scanner.msg.take q.scanner.cursor := by
    rw [Scanner.deleteFrom_take (by rw [step.reaches.msg]; exact inside), step.reaches.msg]
  rw [List.take_drop, size, kept, there.done]

/-! ### The entity in the bytes -/

/-- The body that stands behind these headers starts with this entity. The list has the lengths by which
it is framed, and the flag says that it lasts until the connection is closed. -/
inductive Decodes (msg : HttpMessage) (body : List UInt8) : List UInt8 → Bool → List Nat → Prop
  | noBody (empty : msg.hasNoBody = true) : Decodes msg body [] false []
  | chunked {chunks : List (List UInt8)} {tail ending : List UInt8} (hasBody : msg.hasNoBody = false)
      (coding : isChunked msg = true) (chunked : ChunkedBody body chunks tail)
      (trailers : trailersEnd tail = some ending) :
      Decodes msg body chunks.flatten false (chunks.map List.length)
  | length {h : HttpHeader} {entity rest : List UInt8} (hasBody : msg.hasNoBody = false)
      (coding : isChunked msg = false) (found : httpmsgFindHdr msg .contentLength = some h)
      (number : wholeNumber 10 h.value = some (entity.length : Int)) (split : body = entity ++ rest) :
      Decodes msg body entity false [entity.length]
  | close (hasBody : msg.hasNoBody = false) (coding : isChunked msg = false)
      (absent : httpmsgFindHdr msg .contentLength = none) : Decodes msg body body true []

structure BodyStart (p : HttpParser) : Prop where
  good : p.Good
  position : p.position = .entity
  open_ : p.entPosition = .determineReadMethod
  response : p.msg.isRequest = false
  small : p.chunkSize < 2 ^ 32

section BodyStart
variable {p : HttpParser}

theorem BodyStart.hasEntity (start : BodyStart p) : p.msg.HasEntity := by
  rw [HttpMessage.HasEntity, start.response]
  rfl

theorem readMethod_length (start : BodyStart p) (hasBody : p.msg.hasNoBody = false)
    (coding : isChunked p.msg = false) {h : HttpHeader}
    (found : httpmsgFindHdr p.msg .contentLength = some h)
    (loaded : (rawToInt h.value 10 % 2 ^ 32).toNat ≤ p.scanner.rest.length) :
    (parserGetEntityReadMethod p).1 = .continue1 ∧
      (parserParseEntity (parserGetEntityReadMethod p).2).1 = .success ∧
      (parserParseEntity (parserGetEntityReadMethod p).2).2.entityBytes =
        p.scanner.rest.take (rawToInt h.value 10 % 2 ^ 32).toNat := by
  have found' : httpmsgFindHdr p.startEntity.searchTransferEncoding.msg .contentLength = some h :=
    (lowerTransferEncoding_contentLength _).trans found
  have method : parserGetEntityReadMethod p = (.continue1, { p.startEntity.searchTransferEncoding with
      contentLength := (rawToInt h.value 10 % 2 ^ 32).toNat
      entPosition := .usingClen }) := by
    simp only [parserGetEntityReadMethod, hasBody, coding, Bool.false_eq_true, if_false,
      readMethodOfLength, found']
  rw [method]
  refine ⟨rfl, ?_⟩
  rw [Scanner.rest, List.length_drop] at loaded
  obtain ⟨sc, msg, round⟩ := @usingClen_success { p.startEntity.searchTransferEncoding with
      contentLength := (rawToInt h.value 10 % 2 ^ 32).toNat
      entPosition := .usingClen } start.good.discarded loaded
  rw [parserParseEntity_last (by rw [parserEntityRound, round]; simp), parserEntityRound, round]
  refine ⟨rfl, ?_⟩
  have read : (Memptr.mk p.scanner.cursor (rawToInt h.value 10 % 2 ^ 32).toNat).read sc.msg =
      p.scanner.rest.take (rawToInt h.value 10 % 2 ^ 32).toNat := by
    rcases msg with msg | msg
    · rw [msg]
      rfl
    · rw [msg]
      exact Memptr.read_set le_rfl _ _
  exact read

theorem readMethod_close (start : BodyStart p) (hasBody : p.msg.hasNoBody = false)
    (coding : isChunked p.msg = false) (absent : httpmsgFindHdr p.msg .contentLength = none) :
    (parserGetEntityReadMethod p).1 = .continue1 ∧
      (parserParseEntity (parserGetEntityReadMethod p).2).1 = .incompleteEntity ∧
      (parserParseEntity (parserGetEntityReadMethod p).2).2.entityBytes = p.scanner.rest := by
  have absent' : httpmsgFindHdr p.startEntity.searchTransferEncoding.msg .contentLength = none :=
    (lowerTransferEncoding_contentLength _).trans absent
  have request : p.startEntity.searchTransferEncoding.msg.isRequest = false := start.response
  have method : parserGetEntityReadMethod p =
      (.continue1, p.startEntity.searchTransferEncoding.withEntPosition .untilClose) := by
    simp only [parserGetEntityReadMethod, hasBody, coding, Bool.false_eq_true, if_false,
      readMethodOfLength, absent', request]
  rw [method]
  refine ⟨rfl, ?_⟩
  set q := p.startEntity.searchTransferEncoding.withEntPosition .untilClose
  have round : parserEntityRound q = parserParseEntityUntilClose q := rfl
  rw [parserParseEntity_last (by rw [round]; intro same; cases same), round]
  refine ⟨rfl, ?_⟩
  change (Memptr.mk p.scanner.cursor _).read p.scanner.msg = p.scanner.rest
  apply List.take_of_length_le
  change (p.scanner.msg.drop p.scanner.cursor).length ≤
    p.scanner.msg.length - p.scanner.cursor + p.msg.amountDiscarded
  rw [List.length_drop]
  omega

theorem readMethod_chunked (start : BodyStart p) (hasBody : p.msg.hasNoBody = false)
    (coding : isChunked p.msg = true) {chunks : List (List UInt8)} {tail ending : List UInt8}
    (chunked : ChunkedBody p.scanner.rest chunks tail) (trailers : trailersEnd tail = some ending)
    (small : ∀ c ∈ chunks, c.length < 2 ^ 32) :
    (parserGetEntityReadMethod p).1 = .continue1 ∧
      (parserParseEntity (parserGetEntityReadMethod p).2).1 = .success ∧
      (parserParseEntity (parserGetEntityReadMethod p).2).2.entityBytes = chunks.flatten := by
  have method : parserGetEntityReadMethod p =
      (.continue1, p.startEntity.searchTransferEncoding.withEntPosition .usingChunked) := by
    simp only [parserGetEntityReadMethod, hasBody, coding, Bool.false_eq_true, if_false, if_true]
  have good := start.good.readMethod
  rw [method] at good ⊢
  refine ⟨rfl, ?_⟩
  set q := p.startEntity.searchTransferEncoding.withEntPosition .usingChunked with q_eq
  have atChunk : q.AtChunk [] p.scanner.rest := by
    refine ⟨rfl, start.good.more, le_rfl, ?_, rfl, start.good.discarded, start.small⟩
    apply List.drop_eq_nil_of_le
    rw [List.length_take]
    exact Nat.min_le_left _ _
  obtain ⟨end_, same, there⟩ := parserParseEntity_chunks atChunk chunked small
  rw [same]
  exact parserParseEntity_trailers there rfl start.hasEntity start.good.discarded trailers

theorem readMethod_begins (start : BodyStart p) :
    (parserGetEntityReadMethod p).1 = .continue1 →
      (parserGetEntityReadMethod p).2.position ≠ .complete ∧
      (parserGetEntityReadMethod p).2.msg.HasEntity ∧
      (parserGetEntityReadMethod p).2.msg.entity.length = 0 := by
  have position : p.position ≠ .complete := by rw [start.position]; decide
  have hasEntity := start.hasEntity
  unfold parserGetEntityReadMethod readMethodOfLength
  split_ifs
  · nofun
  · exact fun _ => ⟨position, hasEntity, rfl⟩
  · dsimp only
    split
    · exact fun _ => ⟨position, hasEntity, rfl⟩
    · split_ifs
      · nofun
      · exact fun _ => ⟨position, hasEntity, rfl⟩

theorem readMethod_decodes (start : BodyStart p) {entity : List UInt8} {toClose : Bool}
    {lengths : List Nat} (decodes : Decodes p.msg p.scanner.rest entity toClose lengths)
    (hasBody : p.msg.hasNoBody = false) (fits : ∀ n ∈ lengths, n < 2 ^ 32) :
    (parserGetEntityReadMethod p).1 = .continue1 ∧
      (parserParseEntity (parserGetEntityReadMethod p).2).1 =
        (if toClose then .incompleteEntity else .success) ∧
      (parserParseEntity (parserGetEntityReadMethod p).2).2.entityBytes = entity := by
  cases decodes with
  | noBody empty =>
    rw [hasBody] at empty
    cases empty
  | chunked _ coding chunked trailers =>
    refine readMethod_chunked start hasBody coding chunked trailers fun c member => ?_
    exact fits c.length (List.mem_map_of_mem member)
  | @length h entity rest _ coding found number split =>
    have small := fits entity.length List.mem_cons_self
    have taken := rawToInt_fits number (Int.natCast_nonneg _) (by exact_mod_cast small)
    rw [Int.toNat_natCast] at taken
    have loaded : entity.length ≤ p.scanner.rest.length := by
      rw [split, List.length_append]
      omega
    have read := readMethod_length start hasBody coding found (taken.symm ▸ loaded)
    rw [taken, split, List.take_left] at read
    exact read
  | close _ coding absent => exact readMethod_close start hasBody coding absent

end BodyStart

/-! ### The head of a response -/

theorem readStage_ok {stage : HttpParser → ParseResult} (inc : parserConsumer.Incremental noCut stage)
    (never : ∀ p, (stage p).1 ≠ .incompleteEntity) {toClose : Bool} {later : List UInt8}
    {rest : List SockRead} (arrives : Arrives toClose later rest) {p q : HttpParser} (good : p.Good)
    {r : ParseResult} (same : parserConsumer.Same r (stage p)) (ok : stage (p.extend later) = (.ok, q)) :
    ∃ q' later' rest', readStage stage r rest = some ((.ok, q'), rest') ∧ q = q'.extend later' ∧
      Arrives toClose later' rest' ∧ q'.Good := by
  induction arrives generalizing p r with
  | @nothing rest ending =>
    rw [show p.extend [] = p from parserConsumer.extend_nil p] at ok
    have goes : parserConsumer.goesOn r.1 := by
      rw [same.status, ok]
      exact parserConsumer_goesOn_ok
    have whole := (same.eq (.inr goes)).trans ok
    have kept := (inc p good).keeps
    rw [ok] at kept
    refine ⟨q, [], rest, ?_, (parserConsumer.extend_nil q).symm, .nothing ending, kept⟩
    rw [readStage.eq_def, whole, if_neg nofun]
  | @data later rest buf nonempty arrives ih =>
    have longer : p.extend (buf ++ later) = (p.extend buf).extend later :=
      parserConsumer.extend_append p buf later
    by_cases short : r.1 = .incomplete
    · have whole := same.eq (.inl (.inl short))
      have resumes := (inc p good).resumes buf (whole ▸ .inl short)
      obtain ⟨q', later', rest', ran, split⟩ := ih (good.extend buf) (whole ▸ resumes) (longer ▸ ok)
      refine ⟨q', later', rest', ?_, split⟩
      rw [readStage.eq_def, if_pos short]
      exact ran
    · have done : ¬parserConsumer.waits (stage p).1 := by
        rw [← same.status]
        rintro (waits | waits)
        · exact short waits
        · exact never p (same.status ▸ waits)
      have stable := (inc p good).stable (buf ++ later) done id
      rw [parserConsumer_extend, parserConsumer_extend, ok] at stable
      have full := stable.eq (.inr parserConsumer_goesOn_ok)
      obtain ⟨status, split⟩ := Prod.mk.inj full
      have whole := same.eq (.inr (by rw [same.status, ← status]; exact parserConsumer_goesOn_ok))
      refine ⟨(stage p).2, buf ++ later, _, ?_, split, .data buf nonempty arrives, (inc p good).keeps⟩
      rw [readStage.eq_def, if_neg short, whole, status]

/-- The stream starts with a status line and headers, and the parser behind them is `p`. -/
def ResponseHead (requestMethod : HttpMethod) (stream : List UInt8) (p : HttpParser) : Prop :=
  ∃ q, parserParseResponseline ((parserResponseInit requestMethod).extend stream) = (.ok, q) ∧
    parserParseHeaders q = (.ok, p)

theorem parserParseStatusLine_isRequest (p : HttpParser) (line : Memptr) :
    (parserParseStatusLine p line).2.msg.isRequest = p.msg.isRequest := by
  have version (scanned : List Int) : (storeVersion p.msg scanned).isRequest = p.msg.isRequest := by
    unfold storeVersion
    split <;> rfl
  simp only [parserParseStatusLine]
  split_ifs <;> exact version _

theorem parserParseResponseline_isRequest (p : HttpParser) :
    (parserParseResponseline p).2.msg.isRequest = p.msg.isRequest := by
  simp only [parserParseResponseline, parserMatchResponseline]
  split_ifs
  · rfl
  · rfl
  · exact parserParseStatusLine_isRequest _ _

theorem parserParseHeaders_isRequest (p : HttpParser) :
    (parserParseHeaders p).2.msg.isRequest = p.msg.isRequest := by
  have header (msg : HttpMessage) (name value : List UInt8) :
      (addHeader msg name value).isRequest = msg.isRequest := by
    unfold addHeader
    dsimp only
    split_ifs <;> split <;> rfl
  have line (p : HttpParser) : (parseHeaderLine p).2.msg.isRequest = p.msg.isRequest := by
    unfold parseHeaderLine
    split
    · rfl
    · split
      · split_ifs <;> rfl
      · dsimp only
        split_ifs
        · rfl
        · exact header _ _ _
      · rfl
  fun_induction parserParseHeaders p with
  | case1 p next found ih =>
    have same := line p
    rw [found] at same
    exact ih.trans same
  | case2 p => exact line p

theorem ResponseHead.bodyStart {requestMethod : HttpMethod} {stream : List UInt8} {p : HttpParser}
    (head : ResponseHead requestMethod stream p) : BodyStart p := by
  obtain ⟨q, line, headers⟩ := head
  have first := parserParseResponseline_advances ((parserResponseInit requestMethod).extend stream)
  have second := parserParseHeaders_advances q
  have request := parserParseResponseline_isRequest ((parserResponseInit requestMethod).extend stream)
  have request' := parserParseHeaders_isRequest q
  rw [line] at first request
  rw [headers] at second request'
  have steps := first.trans second
  have good : ((parserResponseInit requestMethod).extend stream).Good := (parserInit_good _ _ _).extend stream
  refine ⟨steps.good good, ?_, steps.entPosition, request'.trans request, ?_⟩
  · exact parserParseHeaders_ok headers
  · rw [steps.chunkSize]
    exact Nat.two_pow_pos 32

theorem readResponseLineAndHeaders_head {requestMethod : HttpMethod} {stream : List UInt8} {p : HttpParser}
    (head : ResponseHead requestMethod stream p) {toClose : Bool} {reads : List SockRead}
    (arrives : Arrives toClose stream reads) :
    ∃ q later rest, readResponseLineAndHeaders (parserResponseInit requestMethod) reads =
        some ((.ok, q), rest) ∧
      p = q.extend later ∧ Arrives toClose later rest ∧ q.Good := by
  obtain ⟨q, line, headers⟩ := head
  have start : (parserResponseInit requestMethod).Good := parserInit_good _ _ _
  obtain ⟨q', later, rest, ran, split, behind, good⟩ := readStage_ok
    (fun _ => parserParseResponseline_incremental) parserParseResponseline_not_entity arrives start
    (.refl _) line
  rw [split] at headers
  obtain ⟨q'', later', rest', ran', split', behind', good'⟩ := readStage_ok parserParseHeaders_incremental
    parserParseHeaders_not_entity behind good (.refl _) headers
  refine ⟨q'', later', rest', ?_, split', behind', good'⟩
  rw [readResponseLineAndHeaders, ran]
  exact ran'

theorem ResponseHead.extend {requestMethod : HttpMethod} {stream : List UInt8} {p : HttpParser}
    (head : ResponseHead requestMethod stream p) (body : List UInt8) :
    ResponseHead requestMethod (stream ++ body) (p.extend body) := by
  obtain ⟨q, line, headers⟩ := head
  have good : ((parserResponseInit requestMethod).extend stream).Good := (parserInit_good _ _ _).extend stream
  have first := parserParseResponseline_incremental good
  have second := parserParseHeaders_incremental q (by have kept := first.keeps; rwa [line] at kept)
  have settled : ¬parserConsumer.waits .ok := parserConsumer.apart _ parserConsumer_goesOn_ok
  have same := first.stable body (by rw [line]; exact settled) id
  have same' := second.stable body (by rw [headers]; exact settled) id
  rw [parserConsumer_extend, parserConsumer_extend, line] at same
  rw [parserConsumer_extend, parserConsumer_extend, headers] at same'
  have longer : (parserResponseInit requestMethod).extend (stream ++ body) =
      ((parserResponseInit requestMethod).extend stream).extend body :=
    parserConsumer.extend_append _ stream body
  refine ⟨q.extend body, ?_, same'.eq (.inr (same'.status ▸ parserConsumer_goesOn_ok))⟩
  rw [longer]
  exact same.eq (.inr (same.status ▸ parserConsumer_goesOn_ok))

/-! ### Whole runs -/

/-- Whatever the buffers, a run that gets to its end has returned this entity, and with more calls
than bytes it gets there. -/
def Delivers (requestMethod : HttpMethod) (reads : List SockRead) (entity : List UInt8) : Prop :=
  ∀ sizes : List Nat, (∀ size ∈ sizes, 0 < size) →
    (∀ out, readResponse requestMethod reads sizes = some out → out = entity) ∧
      (entity.length < sizes.length → readResponse requestMethod reads sizes = some entity)

theorem Delivers.unique {requestMethod : HttpMethod} {reads : List SockRead} {entity entity' : List UInt8}
    (delivers : Delivers requestMethod reads entity) (delivers' : Delivers requestMethod reads entity') :
    entity = entity' := by
  have positive : ∀ size ∈ List.replicate (entity.length + 1) 1, 0 < size := by
    intro size member
    rw [List.eq_of_mem_replicate member]
    exact Nat.one_pos
  have run := (delivers _ positive).2 (by rw [List.length_replicate]; omega)
  exact (delivers' _ positive).1 entity run

section Runs
variable {requestMethod : HttpMethod} {stream : List UInt8} {p : HttpParser} {toClose : Bool}
  {reads : List SockRead}

theorem reads_start {b : HttpParser} (good : b.Good) (framed : b.entPosition ≠ .determineReadMethod)
    (empty : b.msg.entity.length = 0) (hasEntity : b.msg.HasEntity) : b.Reads b 0 := by
  have bound := good.started_bound framed
  have same : b.scanner.discard b.entityStartPosition 0 = b.scanner := by
    simp [Scanner.discard, membufferDelete]
  exact ⟨⟨same.symm, rfl, rfl, rfl, rfl, rfl, rfl, good.discarded, hasEntity, hasEntity⟩,
    ⟨good, framed, by omega, fun _ => Nat.zero_le _⟩, Nat.zero_le _, fun _ => by omega⟩

theorem delivers_found (head : ResponseHead requestMethod stream p) (arrives : Arrives toClose stream reads)
    {entity : List UInt8} (method : (parserGetEntityReadMethod p).1 = .continue1)
    (status : (parserParseEntity (parserGetEntityReadMethod p).2).1 =
      if toClose then .incompleteEntity else .success)
    (bytes : (parserParseEntity (parserGetEntityReadMethod p).2).2.entityBytes = entity) :
    Delivers requestMethod reads entity := by
  intro sizes positive
  have start := head.bodyStart
  obtain ⟨q, later, rest, ran, split, behind, good⟩ := readResponseLineAndHeaders_head head arrives
  have stable := (readMethod_incremental good).stable later
  have settled : ¬parserConsumer.waits (parserGetEntityReadMethod q).1 := by
    by_cases again : (parserGetEntityReadMethod q).1 = .continue1
    · rw [again]
      exact parserConsumer.apart _ parserConsumer_goesOn_continue
    · exact (parserGetEntityReadMethod_last again).1
  specialize stable settled id
  rw [parserConsumer_extend, parserConsumer_extend, ← split] at stable
  have same := stable.eq (.inr (method ▸ parserConsumer_goesOn_continue))
  have again : (parserGetEntityReadMethod p).1 = (parserGetEntityReadMethod q).1 := by rw [same]
  have longer : (parserGetEntityReadMethod p).2 = (parserGetEntityReadMethod q).2.extend later := by
    rw [same]
  have again' : (parserGetEntityReadMethod q).1 = .continue1 := again.symm.trans method
  have framed := (parserGetEntityReadMethod_continue (Prod.ext again' rfl)).2
  obtain ⟨position, hasEntity, empty⟩ := readMethod_begins start method
  rw [longer] at position hasEntity empty
  have reads_b : (parserGetEntityReadMethod q).2.Reads (parserGetEntityReadMethod q).2 0 :=
    reads_start good.readMethod framed empty hasEntity
  have between : Between (parserGetEntityReadMethod q).2 (parserGetEntityReadMethod q).2 0 later entity
      toClose rest := by
    exact ⟨reads_b, fun _ => behind, .partly position ⟨longer ▸ status, longer ▸ bytes⟩⟩
  have run := readBody_between positive between
  simp only [List.drop_zero, Nat.zero_add] at run
  have ok : httpGetHttpResponse ⟨parserResponseInit requestMethod, false⟩ reads =
      some (UPNP_E_SUCCESS, ⟨(parserGetEntityReadMethod q).2, false⟩, rest) := by
    simp [httpGetHttpResponse, ran, again']
  simp only [readResponse, ok, if_true]
  exact run

theorem delivers_nothing (head : ResponseHead requestMethod stream p) (arrives : Arrives toClose stream reads)
    (empty : p.msg.hasNoBody = true) : Delivers requestMethod reads [] := by
  intro sizes positive
  obtain ⟨q, later, rest, ran, split, behind, good⟩ := readResponseLineAndHeaders_head head arrives
  have empty' : q.msg.hasNoBody = true := by
    rw [split] at empty
    exact empty
  set complete := q.startEntity.withPosition .complete with complete_eq
  have method : parserGetEntityReadMethod q = (.success, complete) := by
    rw [parserGetEntityReadMethod, if_pos empty']
  have ok : httpGetHttpResponse ⟨parserResponseInit requestMethod, false⟩ reads =
      some (UPNP_E_SUCCESS, ⟨complete, false⟩, rest) := by
    simp [httpGetHttpResponse, ran, method]
  have call (size : Nat) : ∃ handle, httpReadHttpResponse ⟨complete, false⟩ size rest =
      some ⟨UPNP_E_SUCCESS, [], handle, rest⟩ := by
    refine ⟨⟨complete.discard 0, false⟩, ?_⟩
    have position : complete.position = .complete := rfl
    have length : complete.msg.entity.length = 0 := rfl
    have more : readMore false size false complete rest = some (UPNP_E_SUCCESS, complete, rest) := by
      rw [readMore.eq_def]
      simp [position]
    simp [httpReadHttpResponse, position, length, more, entityGoesOn]
  simp only [readResponse, ok, if_true]
  cases sizes with
  | nil => exact ⟨fun out same => absurd same.symm (Option.some_ne_none out), fun short => absurd short (Nat.not_lt_zero _)⟩
  | cons size sizes =>
    obtain ⟨handle, returned⟩ := call size
    simp [readBody, returned]

theorem delivers_decoded (head : ResponseHead requestMethod stream p) (arrives : Arrives toClose stream reads)
    {entity : List UInt8} {lengths : List Nat}
    (decodes : Decodes p.msg p.scanner.rest entity toClose lengths) (fits : ∀ n ∈ lengths, n < 2 ^ 32) :
    Delivers requestMethod reads entity := by
  cases empty : p.msg.hasNoBody with
  | false =>
    obtain ⟨method, status, bytes⟩ := readMethod_decodes head.bodyStart decodes empty fits
    exact delivers_found head arrives method status bytes
  | true =>
    have bodyless : entity = [] := by
      cases decodes with
      | noBody => rfl
      | chunked hasBody => rw [empty] at hasBody; cases hasBody
      | length hasBody => rw [empty] at hasBody; cases hasBody
      | close hasBody => rw [empty] at hasBody; cases hasBody
    rw [bodyless]
    exact delivers_nothing head arrives empty

/-- Of a Content-Length the parser takes the low 32 bits, and as many bytes are delivered. -/
theorem delivers_length (head : ResponseHead requestMethod stream p) (arrives : Arrives false stream reads)
    (hasBody : p.msg.hasNoBody = false) (coding : isChunked p.msg = false) {h : HttpHeader}
    (found : httpmsgFindHdr p.msg .contentLength = some h)
    (loaded : 2 ^ 32 ≤ p.scanner.rest.length) :
    Delivers requestMethod reads (p.scanner.rest.take (rawToInt h.value 10 % 2 ^ 32).toNat) := by
  have small : (rawToInt h.value 10 % 2 ^ 32).toNat ≤ p.scanner.rest.length := by omega
  obtain ⟨method, status, bytes⟩ := readMethod_length head.bodyStart hasBody coding found small
  exact delivers_found head arrives method status bytes

theorem not_delivers_length (head : ResponseHead requestMethod stream p)
    (arrives : Arrives false stream reads) (hasBody : p.msg.hasNoBody = false)
    (coding : isChunked p.msg = false) {h : HttpHeader}
    (found : httpmsgFindHdr p.msg .contentLength = some h) {entity rest : List UInt8}
    (split : p.scanner.rest = entity ++ rest) (long : 2 ^ 32 ≤ entity.length) :
    ¬Delivers requestMethod reads entity := by
  intro delivers
  have loaded : 2 ^ 32 ≤ p.scanner.rest.length := by
    rw [split, List.length_append]
    omega
  have same := delivers.unique (delivers_length head arrives hasBody coding found loaded)
  have length := congrArg List.length same
  rw [List.length_take] at length
  omega

/-- A response is delivered as it was sent if every length that frames it is below `2 ^ 32`; where that
is a Content-Length, only then. -/
theorem readResponse_delivers_iff (head : ResponseHead requestMethod stream p)
    (arrives : Arrives toClose stream reads) {entity : List UInt8} {lengths : List Nat}
    (decodes : Decodes p.msg p.scanner.rest entity toClose lengths) :
    ((∀ n ∈ lengths, n < 2 ^ 32) → Delivers requestMethod reads entity) ∧
      (isChunked p.msg = false → Delivers requestMethod reads entity → ∀ n ∈ lengths, n < 2 ^ 32) := by
  refine ⟨delivers_decoded head arrives decodes, fun plain delivers => ?_⟩
  cases decodes with
  | noBody => nofun
  | close => nofun
  | chunked hasBody coding =>
      rw [plain] at coding
      cases coding
  | length hasBody coding found number split =>
      intro n member
      rw [List.mem_singleton.mp member]
      by_contra long
      exact not_delivers_length head arrives hasBody coding found split (Nat.le_of_not_lt long) delivers

end Runs

def headParser (requestMethod : HttpMethod) (stream : List UInt8) : HttpParser :=
  (parserParseHeaders (parserParseResponseline ((parserResponseInit requestMethod).extend stream)).2).2

theorem responseHead_of_status {requestMethod : HttpMethod} {stream : List UInt8}
    (line : (parserParseResponseline ((parserResponseInit requestMethod).extend stream)).1 = .ok)
    (headers : (parserParseHeaders
      (parserParseResponseline ((parserResponseInit requestMethod).extend stream)).2).1 = .ok) :
    ResponseHead requestMethod stream (headParser requestMethod stream) :=
  ⟨_, Prod.ext line rfl, Prod.ext headers rfl⟩

def chunkedHello : List UInt8 :=
  bytes "HTTP/1.1 200 OK\r\nTRANSFER-ENCODING: chunked\r\n\r\n5\r\nhello\r\n0\r\n\r\n"

theorem readResponse_delivers_hello :
    Delivers .get [.data (chunkedHello.take 52) (by decide), .data (chunkedHello.drop 52)
      (by decide)] (bytes "hello") := by
  have head := @responseHead_of_status .get chunkedHello (by decide +kernel) (by decide +kernel)
  have arrives : Arrives false chunkedHello [.data (chunkedHello.take 52) (by decide),
      .data (chunkedHello.drop 52) (by decide)] :=
    .data (chunkedHello.take 52) _ (.data (chunkedHello.drop 52) _ (.nothing nofun))
  have rest : (headParser .get chunkedHello).scanner.rest = bytes "5\r\nhello\r\n0\r\n\r\n" := by
    decide +kernel
  have chunked : ChunkedBody (headParser .get chunkedHello).scanner.rest [bytes "hello"] (bytes "\r\n") := by
    rw [rest]
    exact @ChunkedBody.chunk _ (bytes "hello") (bytes "\r\n0\r\n\r\n") (bytes "0\r\n\r\n") _ _
      (by decide +kernel) (by decide +kernel) (by decide +kernel) (.last (by decide +kernel))
  have decodes := @Decodes.chunked (headParser .get chunkedHello).msg _ _ _ [] (by decide +kernel)
    (by decide +kernel) chunked (by decide +kernel)
  exact (readResponse_delivers_iff head arrives decodes).1 (by decide)

def longHead : List UInt8 := bytes "HTTP/1.1 200 OK\r\nCONTENT-LENGTH: 4294967297\r\n\r\n"

def longEntity : List UInt8 := List.replicate (2 ^ 32 + 1) 120

theorem longEntity_length : longEntity.length = 2 ^ 32 + 1 := List.length_replicate

theorem longEntity_ne_nil : longEntity ≠ [] := by
  apply List.ne_nil_of_length_pos
  rw [longEntity_length]
  exact Nat.succ_pos _

/-- A response with an entity of 4294967297 bytes: the run ends behind the first of them. -/
theorem readResponse_not_delivered :
    (∃ p, ResponseHead .get (longHead ++ longEntity) p ∧
      Decodes p.msg p.scanner.rest longEntity false [longEntity.length]) ∧
    Arrives false (longHead ++ longEntity)
      [.data longHead (by decide), .data longEntity longEntity_ne_nil] ∧
    ¬Delivers .get [.data longHead (by decide), .data longEntity longEntity_ne_nil] longEntity := by
  have head := (@responseHead_of_status .get longHead (by decide +kernel) (by decide +kernel)).extend longEntity
  have arrives : Arrives false (longHead ++ longEntity)
      [.data longHead (by decide), .data longEntity longEntity_ne_nil] := by
    have both := Arrives.data longHead (by decide)
      (.data longEntity longEntity_ne_nil (@Arrives.nothing false [] nofun))
    rwa [List.append_nil] at both
  have empty : (headParser .get longHead).scanner.rest = [] := by decide +kernel
  have more : (headParser .get longHead).scanner.Open :=
    (@responseHead_of_status .get longHead (by decide +kernel) (by decide +kernel)).bodyStart.good.more
  have rest : ((headParser .get longHead).extend longEntity).scanner.rest = longEntity ++ [] := by
    rw [HttpParser.extend_scanner, Scanner.rest_extend more, empty, List.nil_append, List.append_nil]
  have hasBody : ((headParser .get longHead).extend longEntity).msg.hasNoBody = false := by
    change (headParser .get longHead).msg.hasNoBody = false
    decide +kernel
  have coding : isChunked ((headParser .get longHead).extend longEntity).msg = false := by
    change isChunked (headParser .get longHead).msg = false
    decide +kernel
  have found : httpmsgFindHdr ((headParser .get longHead).extend longEntity).msg .contentLength =
      some ⟨bytes "CONTENT-LENGTH", .contentLength, bytes "4294967297"⟩ := by
    change httpmsgFindHdr (headParser .get longHead).msg .contentLength = _
    decide +kernel
  have number : wholeNumber 10 (bytes "4294967297") = some (longEntity.length : Int) := by
    rw [longEntity_length]
    decide
  refine ⟨⟨_, head, .length hasBody coding found number rest⟩, arrives, ?_⟩
  exact not_delivers_length head arrives hasBody coding found rest (by rw [longEntity_length]; omega)

end Pupnp.Http
