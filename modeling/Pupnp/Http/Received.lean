import Pupnp.Http.Method

/-!
What `http_RecvMessage` makes of the bytes that it receives. The framing of a message and its body are
functions of the bytes; by them the limit on the length and the NUL behind the entity are judged.
-/

namespace Pupnp.Http
open Pupnp.CString Pupnp.Uri Pupnp.Stream

/-! ### The bytes of a message -/

/-- The number behind the version in a status line, and the scanner behind the line. -/
def statusLine (sc : Scanner) : Int × Scanner :=
  let line := matchFormat (skipBlankLines sc).2 "%ihttp%w/%w%L%c"
  ((sscanfStatus ((strArg line.2.2 0).read sc.msg)).getD 2 0, line.2.1)

def firstLineFormat (requestMethod : HttpMethod) : String :=
  if requestMethod = .unknown then "%s\t%S\t%ihttp%w/%w%L%c" else "%ihttp%w/%w%L%c"

def firstLineRead (requestMethod : HttpMethod) (sc : Scanner) : Bool :=
  (skipBlankLines sc).1 = .ok && (matchFormat (skipBlankLines sc).2 (firstLineFormat requestMethod)).1 = .ok

/-- The message with its header lines, before anything is read behind them. -/
def headOf (requestMethod : HttpMethod) (stream : List UInt8) : HttpMessage :=
  if requestMethod = .unknown then headMessage stream
  else
    (headerLines (statusLine (scannerInit stream)).2).foldl addLine
      { httpmsgInit false requestMethod with statusCode := (statusLine (scannerInit stream)).1 }

def behindFirstLine (requestMethod : HttpMethod) (stream : List UInt8) : Scanner :=
  if requestMethod = .unknown then (requestLine (scannerInit stream)).2 else (statusLine (scannerInit stream)).2

/-- What follows the empty line behind the headers, if it is there. -/
def bodyOf (requestMethod : HttpMethod) (stream : List UInt8) : List UInt8 :=
  if firstLineRead requestMethod (scannerInit stream) then
    (trailersEnd (behindFirstLine requestMethod stream).rest).getD []
  else []

theorem bodyOf_read {requestMethod : HttpMethod} {stream : List UInt8}
    (read : firstLineRead requestMethod (scannerInit stream) = true) :
    bodyOf requestMethod stream = (trailersEnd (behindFirstLine requestMethod stream).rest).getD [] :=
  if_pos read

def HttpMessage.framing (msg : HttpMessage) : Framing :=
  if msg.isRequest && msg.method = .post || msg.hasNoBody then .none
  else if isChunked msg then .chunks
  else if (httpmsgFindHdr msg .contentLength).isSome then .length
  else if msg.isRequest then .none
  else .close

/-- The chunks are there up to the last one, and a whole trailer behind them. -/
def TrailersStarted (requestMethod : HttpMethod) (stream : List UInt8) : Prop :=
  (headOf requestMethod stream).framing = .chunks ∧
    ∃ values rest, chunkSizes (bodyOf requestMethod stream) = some (values, rest) ∧ trailerLine rest ≠ none

theorem HttpMessage.framing_congr {msg msg' : HttpMessage} (headers : msg.headers = msg'.headers)
    (request : msg.isRequest = msg'.isRequest) (method : msg.isRequest = true → msg.method = msg'.method)
    (status : msg.isRequest = false → msg.statusCode = msg'.statusCode ∧ msg.requestMethod = msg'.requestMethod) :
    msg.framing = msg'.framing := by
  have find (id : HdrId) : httpmsgFindHdr msg id = httpmsgFindHdr msg' id := by
    rw [httpmsgFindHdr, httpmsgFindHdr, headers]
  have chunked : isChunked msg = isChunked msg' := by rw [isChunked, isChunked, find]
  rw [HttpMessage.framing, HttpMessage.framing, HttpMessage.hasNoBody, HttpMessage.hasNoBody, chunked, find,
    ← request]
  cases kind : msg.isRequest with
  | true => rw [method kind]; rfl
  | false => rw [(status kind).1, (status kind).2]; rfl

theorem addLine_status (msg : HttpMessage) (line : ReadLine) :
    (addLine msg line).statusCode = msg.statusCode ∧ (addLine msg line).requestMethod = msg.requestMethod := by
  have put (isOrig : HttpHeader → Bool) : (putLine isOrig (markSoap msg line) line).statusCode = msg.statusCode ∧
      (putLine isOrig (markSoap msg line) line).requestMethod = msg.requestMethod := by
    rw [putLine, markSoap]
    split
    · split_ifs <;> exact ⟨rfl, rfl⟩
    · split_ifs <;> exact ⟨rfl, rfl⟩
  cases known : lookupHeader line.name with
  | none => rw [addLine_unknown msg known]; exact put _
  | some id => rw [addLine_known msg known]; exact put _

theorem foldl_addLine_status (lines : List ReadLine) (msg : HttpMessage) :
    (lines.foldl addLine msg).statusCode = msg.statusCode ∧
      (lines.foldl addLine msg).requestMethod = msg.requestMethod := by
  induction lines generalizing msg with
  | nil => exact ⟨rfl, rfl⟩
  | cons line lines ih =>
    obtain ⟨code, method⟩ := addLine_status msg line
    rw [List.foldl_cons, (ih _).1, (ih _).2, code, method]
    exact ⟨rfl, rfl⟩

/-! ### The stages of the parser -/

/-- Whether the parser is past the headers. -/
def Framed (r : ParseResult) : Prop := r.1 = .success ∨ r.2.entPosition ≠ .determineReadMethod

/-- The parser reads the body of a message that is framed like this. -/
structure HttpParser.Takes (stream : List UInt8) (framing : Framing) (body : List UInt8) (p : HttpParser) :
    Prop where
  framing : p.entPosition.framing = framing
  body : p.entPosition ≠ .determineReadMethod → stream.drop p.entityStartPosition = body

theorem HttpParser.Takes.none {stream body : List UInt8} {p : HttpParser}
    (closed : p.entPosition = .determineReadMethod) : p.Takes stream .none body :=
  ⟨(EntPosition.framing_none _).mpr closed, fun framed => absurd closed framed⟩

theorem parserParseEntity_takes {p : HttpParser} (hasEntity : p.msg.HasEntity)
    (closed : p.entPosition = .determineReadMethod) (framed : Framed (parserParseEntity p)) :
    (parserParseEntity p).2.Takes p.scanner.msg p.msg.framing p.scanner.rest := by
  have round : parserEntityRound p = parserGetEntityReadMethod p := by rw [parserEntityRound, closed]
  have enters {q : HttpParser} (found : parserGetEntityReadMethod p = (.continue1, q))
      (start : q.entityStartPosition = p.scanner.cursor) (entered : q.entPosition ≠ .determineReadMethod) :
      (parserParseEntity p).2.Takes p.scanner.msg q.entPosition.framing p.scanner.rest := by
    rw [parserParseEntity_next (by rw [round, found]), round, found]
    refine ⟨parserParseEntity_framing entered, fun _ => ?_⟩
    rw [parserParseEntity_start entered, start]
    rfl
  have noPost : (p.msg.isRequest && decide (p.msg.method = .post)) = false := hasEntity
  rw [HttpMessage.framing, noPost, Bool.false_or]
  by_cases bodyless : p.msg.hasNoBody = true
  · have found : parserGetEntityReadMethod p = (.success, p.startEntity.withPosition .complete) := by
      rw [parserGetEntityReadMethod, if_pos bodyless]
    rw [if_pos bodyless, parserParseEntity_last (by rw [round, found]; simp), round, found]
    exact .none closed
  · rw [if_neg bodyless]
    by_cases chunked : isChunked p.msg = true
    · rw [if_pos chunked]
      refine enters (q := p.startEntity.searchTransferEncoding.withEntPosition .usingChunked) ?_ rfl
        fun same => by cases same
      rw [parserGetEntityReadMethod, if_neg bodyless]
      exact if_pos chunked
    · rw [if_neg chunked]
      have length : parserGetEntityReadMethod p = readMethodOfLength p.startEntity.searchTransferEncoding := by
        rw [parserGetEntityReadMethod, if_neg bodyless]
        exact if_neg chunked
      have same : httpmsgFindHdr p.startEntity.searchTransferEncoding.msg .contentLength =
          httpmsgFindHdr p.msg .contentLength := lowerTransferEncoding_contentLength p.msg
      rw [readMethodOfLength, same] at length
      cases found : httpmsgFindHdr p.msg .contentLength with
      | some h =>
        rw [found] at length
        exact enters length rfl fun same => by cases same
      | none =>
        rw [found] at length
        dsimp only at length
        have kind : p.startEntity.searchTransferEncoding.msg.isRequest = p.msg.isRequest := rfl
        rw [kind] at length
        cases request : p.msg.isRequest with
        | true =>
          rw [request, if_pos rfl] at length
          have ended := @parserParseEntity_last p (by rw [round, length]; simp)
          rw [ended, round, length] at framed
          rcases framed with success | entered
          · cases success
          · exact absurd closed entered
        | false =>
          rw [request, if_neg Bool.false_ne_true] at length
          exact enters length rfl fun same => by cases same

theorem parserParse_headers_takes {res : Resolver} {p : HttpParser} (unread : p.Unread)
    (position : p.position = .headers) (framed : Framed (parserParse res p)) :
    (parserParse res p).2.Takes p.scanner.msg ((headerLines p.scanner).foldl addLine p.msg).framing
      ((trailersEnd p.scanner.rest).getD []) := by
  have round : parserRound res p = parserParseHeaders p := by rw [parserRound, position]
  have stored := parserParseHeaders_msg p
  have moved := parserParseHeaders_advances p
  rw [← stored]
  by_cases ended : (parserParseHeaders p).1 = .ok
  · have entity := parserParseHeaders_hasEntity ended
    have unread' := unread.advance moved fun _ => entity
    have behind := parserParseHeaders_trailersEnd unread.good ended
    have at_entity : parserParse res (parserParseHeaders p).2 = parserParseEntity (parserParseHeaders p).2 :=
      parserParse_atEntity (parserParseHeaders_ok (Prod.ext ended rfl))
    rw [parserParse_next (by rw [round, ended]), round, at_entity] at framed ⊢
    rw [behind, Option.getD_some, ← moved.reaches.msg]
    exact parserParseEntity_takes entity unread'.closed framed
  · have closed := moved.entPosition.trans unread.closed
    rw [parserParse_last (by rwa [round]), round] at framed ⊢
    rcases framed with success | entered
    · have post := parserParseHeaders_post success
      have request : p.msg.isRequest = true := by
        by_contra response
        have noPost : p.msg.HasEntity := by rw [HttpMessage.HasEntity, eq_false_of_ne_true response, Bool.false_and]
        exact (parserParseHeaders_not_success noPost).1 success
      have kept : (parserParseHeaders p).2.msg.isRequest = true := by
        rw [stored, (foldl_addLine_method _ _).2, request]
      have bodyless : (parserParseHeaders p).2.msg.framing = .none := by
        rw [HttpMessage.framing, kept, post]
        rfl
      rw [bodyless]
      exact .none closed
    · exact absurd closed entered

/-! ### The first line -/

theorem parserParseRequestline_firstLine {res : Resolver} {p : HttpParser}
    (parsed : (parserParseRequestline res p).1 = .ok) : firstLineRead .unknown p.scanner = true := by
  simp only [parserParseRequestline, parserMatchRequestline] at parsed
  split_ifs at parsed with blank simple full
  · exact absurd parsed blank
  · exact absurd parsed (parserParseSimpleGet_not_ok _ _ _ _)
  · exact absurd parsed full
  · rw [firstLineRead, Bool.and_eq_true, decide_eq_true_eq, decide_eq_true_eq]
    exact ⟨not_not.mp blank, not_not.mp full⟩

theorem parserParseRequestline_short {res : Resolver} {p : HttpParser}
    (short : parserConsumer.waits (parserParseRequestline res p).1) : firstLineRead .unknown p.scanner = false := by
  rw [firstLineRead, Bool.and_eq_false_iff, decide_eq_false_iff_not, decide_eq_false_iff_not]
  simp only [parserParseRequestline, parserMatchRequestline] at short
  split_ifs at short with blank simple full
  · exact .inl blank
  · obtain status | status := parserParseSimpleGet_status res _ _ _ <;>
      (rw [status] at short; rcases short with short | short <;> cases short)
  · exact .inr full
  · obtain status | status := parserParseFullRequest_status res _ _ _ _ <;>
      (rw [status] at short; rcases short with short | short <;> cases short)

structure StatusLineRead (p next : HttpParser) : Prop where
  scanner : next.scanner = (statusLine p.scanner).2
  statusCode : next.msg.statusCode = (statusLine p.scanner).1
  headers : next.msg.headers = p.msg.headers
  isRequest : next.msg.isRequest = p.msg.isRequest
  requestMethod : next.msg.requestMethod = p.msg.requestMethod

@[simp] theorem storeVersion_requestMethod (msg : HttpMessage) (scanned : List Int) :
    (storeVersion msg scanned).requestMethod = msg.requestMethod := by
  unfold storeVersion
  split <;> rfl

theorem parserParseStatusLine_read {p next : HttpParser} {line : Memptr}
    (parsed : parserParseStatusLine p line = (.ok, next)) :
    next.scanner = p.scanner ∧ next.msg.statusCode = (sscanfStatus (line.read p.scanner.msg)).getD 2 0 ∧
      next.msg.headers = p.msg.headers ∧ next.msg.isRequest = p.msg.isRequest ∧
      next.msg.requestMethod = p.msg.requestMethod := by
  simp only [parserParseStatusLine] at parsed
  split_ifs at parsed with missed
  · cases parsed
  · cases parsed
  · cases parsed
    simp only [Bool.or_eq_true, decide_eq_true_eq, not_or, not_not] at missed
    have three := missed.1.1.1
    refine ⟨rfl, ?_, storeVersion_headers _ _, storeVersion_isRequest _ _, storeVersion_requestMethod _ _⟩
    rw [List.getD_eq_getElem _ _ (by omega), List.getD_eq_getElem _ _ (by omega)]

theorem parserParseResponseline_read {p next : HttpParser}
    (parsed : parserParseResponseline p = (.ok, next)) :
    StatusLineRead p next ∧ firstLineRead .get p.scanner = true := by
  simp only [parserParseResponseline, parserMatchResponseline] at parsed
  split_ifs at parsed with blank line
  · exact absurd (congrArg Prod.fst parsed) blank
  · exact absurd (congrArg Prod.fst parsed) line
  · obtain ⟨scanner, code, headers, request, method⟩ := parserParseStatusLine_read parsed
    have msg := (matchFormat_matched (skipBlankLines p.scanner).2 "%ihttp%w/%w%L%c").reaches.msg
    have msg' := (skipBlankLines_matched p.scanner).reaches.msg
    refine ⟨⟨scanner, ?_, headers, request, method⟩, ?_⟩
    · rw [code, statusLine]
      simp only [HttpParser.withScanner, msg, msg']
    · rw [firstLineRead, Bool.and_eq_true, decide_eq_true_eq, decide_eq_true_eq]
      exact ⟨not_not.mp blank, not_not.mp line⟩

theorem parserParseResponseline_stopped {p : HttpParser} (stopped : (parserParseResponseline p).1 ≠ .ok) :
    (parserParseResponseline p).1 ≠ .success ∧
      (parserConsumer.waits (parserParseResponseline p).1 → firstLineRead .get p.scanner = false) := by
  rw [firstLineRead, Bool.and_eq_false_iff, decide_eq_false_iff_not, decide_eq_false_iff_not]
  simp only [parserParseResponseline, parserMatchResponseline] at stopped ⊢
  split_ifs at stopped ⊢ with blank line
  · exact ⟨(skipBlankLines_matched p.scanner).isMatch.only.1, fun _ => .inl blank⟩
  · exact ⟨(matchFormat_matched _ _).isMatch.only.1, fun _ => .inr line⟩
  · simp only [parserParseStatusLine] at stopped ⊢
    split_ifs at stopped ⊢
    · exact ⟨by simp, fun short => by rcases short with short | short <;> cases short⟩
    · exact ⟨by simp, fun short => by rcases short with short | short <;> cases short⟩
    · exact absurd rfl stopped

/-- What the parse of the first line leaves, and what it means where it stops there. -/
structure FirstLine (requestMethod : HttpMethod) (stream : List UInt8) (r : ParseResult) : Prop where
  position : r.1 = .ok → r.2.position = .headers
  scanner : r.1 = .ok → r.2.scanner = behindFirstLine requestMethod stream
  read : r.1 = .ok → firstLineRead requestMethod (scannerInit stream) = true
  head : r.1 = .ok →
    ((headerLines r.2.scanner).foldl addLine r.2.msg).framing = (headOf requestMethod stream).framing
  ended : r.1 = .success → (headOf requestMethod stream).framing = .none
  short : r.1 ≠ .ok → parserConsumer.waits r.1 → firstLineRead requestMethod (scannerInit stream) = false

theorem parserParseRequestline_first (res : Resolver) (stream : List UInt8) :
    FirstLine .unknown stream (parserParseRequestline res (parserRequestInit.extend stream)) := by
  set p := parserRequestInit.extend stream with p_eq
  have read (ok : (parserParseRequestline res p).1 = .ok) : RequestLineRead p (parserParseRequestline res p).2 :=
    parserParseRequestline_read (Prod.ext ok rfl)
  constructor
  · exact fun ok => parserParseRequestline_ok (Prod.ext ok rfl)
  · exact fun ok => (read ok).scanner
  · exact fun ok => parserParseRequestline_firstLine ok
  · intro ok
    have line := read ok
    have named : (parserParseRequestline res p).2.msg.method = namedMethod stream := line.method
    have lines : requestLines stream = headerLines (parserParseRequestline res p).2.scanner := by
      rw [requestLines, if_neg (named ▸ line.named.2), line.scanner]
      rfl
    rw [headOf, if_pos rfl, headMessage, ← lines]
    apply HttpMessage.framing_congr
    · exact foldl_addLine_congr _ line.headers
    · rw [(foldl_addLine_method _ _).2, (foldl_addLine_method _ _).2]
      exact line.isRequest
    · intro _
      rw [(foldl_addLine_method _ _).1, (foldl_addLine_method _ _).1, named]
    · intro response
      rw [(foldl_addLine_method _ _).2, line.isRequest] at response
      cases response
  · intro success
    have simple : namedMethod stream = .simpleGet := (parserParseRequestline_simple success).2
    rw [headOf, if_pos rfl, headMessage, requestLines, if_pos simple, simple]
    rfl
  · exact fun _ short => parserParseRequestline_short short

theorem parserParseResponseline_first {requestMethod : HttpMethod} (known : requestMethod ≠ .unknown)
    (stream : List UInt8) :
    FirstLine requestMethod stream (parserParseResponseline ((parserResponseInit requestMethod).extend stream)) := by
  set p := (parserResponseInit requestMethod).extend stream with p_eq
  have format : firstLineRead requestMethod (scannerInit stream) = firstLineRead .get p.scanner := by
    rw [firstLineRead, firstLineRead, firstLineFormat, if_neg known]
    rfl
  have read (ok : (parserParseResponseline p).1 = .ok) := parserParseResponseline_read (Prod.ext ok rfl)
  constructor
  · exact fun ok => parserParseResponseline_ok (Prod.ext ok rfl)
  · intro ok
    rw [(read ok).1.scanner, behindFirstLine, if_neg known]
    rfl
  · exact fun ok => format.trans (read ok).2
  · intro ok
    have line := (read ok).1
    have scanner : (parserParseResponseline p).2.scanner = (statusLine (scannerInit stream)).2 := line.scanner
    rw [headOf, if_neg known, scanner]
    apply HttpMessage.framing_congr
    · exact foldl_addLine_congr _ line.headers
    · rw [(foldl_addLine_method _ _).2, (foldl_addLine_method _ _).2]
      exact line.isRequest
    · intro request
      rw [(foldl_addLine_method _ _).2, line.isRequest] at request
      cases request
    · intro _
      obtain ⟨code, method⟩ := foldl_addLine_status (headerLines (statusLine (scannerInit stream)).2)
        (parserParseResponseline p).2.msg
      obtain ⟨code', method'⟩ := foldl_addLine_status (headerLines (statusLine (scannerInit stream)).2)
        { httpmsgInit false requestMethod with statusCode := (statusLine (scannerInit stream)).1 }
      have number : (parserParseResponseline p).2.msg.statusCode = (statusLine (scannerInit stream)).1 :=
        line.statusCode
      have asked : (parserParseResponseline p).2.msg.requestMethod = requestMethod := line.requestMethod
      dsimp only [httpmsgInit] at code' method'
      exact ⟨code.trans (number.trans code'.symm), method.trans (asked.trans method'.symm)⟩
  · intro success
    have stopped : (parserParseResponseline p).1 ≠ .ok := by rw [success]; decide
    exact absurd success (parserParseResponseline_stopped stopped).1
  · intro stopped short
    exact format.trans ((parserParseResponseline_stopped stopped).2 short)

theorem parserRound_first (res : Resolver) (requestMethod : HttpMethod) (stream : List UInt8) :
    FirstLine requestMethod stream (parserRound res ((parserInitFor requestMethod).extend stream)) := by
  by_cases request : requestMethod = .unknown
  · subst request
    exact parserParseRequestline_first res stream
  · rw [parserInitFor, if_neg request]
    exact parserParseResponseline_first request stream

/-! ### Whole messages -/

section Whole
variable {res : Resolver} {requestMethod : HttpMethod} {stream : List UInt8}

theorem parserInitFor_outside : ((parserInitFor requestMethod).extend stream).position ≠ .entity := by
  rw [parserInitFor]
  split_ifs <;> intro same <;> cases same

theorem parserParse_takes (framed : Framed (parserParse res ((parserInitFor requestMethod).extend stream))) :
    (parserParse res ((parserInitFor requestMethod).extend stream)).2.Takes stream
      (headOf requestMethod stream).framing (bodyOf requestMethod stream) := by
  have start := parserInitFor_initial requestMethod
  have unread := start.unread.extend stream
  have loaded := extend_initial start stream
  have first := parserRound_first res requestMethod stream
  have moved := @parserRound_advances res ((parserInitFor requestMethod).extend stream) parserInitFor_outside
  set p := (parserInitFor requestMethod).extend stream
  by_cases ok : (parserRound res p).1 = .ok
  · have position := first.position ok
    have unread' := unread.advance moved (by rw [position]; simp)
    rw [parserParse_next ok] at framed ⊢
    have takes := parserParse_headers_takes unread' position framed
    rwa [moved.reaches.msg, loaded, first.head ok, first.scanner ok, ← bodyOf_read (first.read ok)] at takes
  · have closed := moved.entPosition.trans unread.closed
    rw [parserParse_last ok] at framed ⊢
    rcases framed with success | entered
    · rw [first.ended success]
      exact .none closed
    · exact absurd closed entered

/-- A parser that waits in front of the body has not seen the empty line. -/
theorem bodyOf_waits (short : parserConsumer.waits (parserParse res ((parserInitFor requestMethod).extend stream)).1)
    (closed : (parserParse res ((parserInitFor requestMethod).extend stream)).2.entPosition = .determineReadMethod) :
    bodyOf requestMethod stream = [] := by
  have start := parserInitFor_initial requestMethod
  have unread := start.unread.extend stream
  have first := parserRound_first res requestMethod stream
  have moved := @parserRound_advances res ((parserInitFor requestMethod).extend stream) parserInitFor_outside
  set p := (parserInitFor requestMethod).extend stream
  by_cases ok : (parserRound res p).1 = .ok
  · have position := first.position ok
    have unread' := unread.advance moved (by rw [position]; simp)
    rw [parserParse_next ok] at short closed
    have round : parserRound res (parserRound res p).2 = parserParseHeaders (parserRound res p).2 := by
      rw [parserRound, position]
    by_cases ended : (parserParseHeaders (parserRound res p).2).1 = .ok
    · have at_entity := @parserParse_atEntity res _ (parserParseHeaders_ok (Prod.ext ended rfl))
      have closed' := (parserParseHeaders_advances (parserRound res p).2).entPosition.trans unread'.closed
      rw [parserParse_next (by rw [round, ended]), round, at_entity] at short closed
      exact absurd short (parserParseEntity_closed closed' closed).1
    · rw [parserParse_last (by rwa [round]), round] at short
      rw [bodyOf_read (first.read ok), ← first.scanner ok, parserParseHeaders_noEnd unread'.good short]
      rfl
  · rw [parserParse_last ok] at short
    rw [bodyOf, first.short ok short]
    rfl

theorem HttpParser.Takes.observe {body : List UInt8} {framing : Framing} {p p' : HttpParser}
    (takes : p.Takes stream framing body) (same : p.observe = p'.observe) : p'.Takes stream framing body := by
  have frame : p.withScanner (scannerInit []) = p'.withScanner (scannerInit []) := congrArg Prod.fst same
  have kind : p.entPosition = p'.entPosition := congrArg (fun q => q.entPosition) frame
  have start : p.entityStartPosition = p'.entityStartPosition := congrArg (fun q => q.entityStartPosition) frame
  refine ⟨kind ▸ takes.framing, fun framed => ?_⟩
  rw [← start]
  exact takes.body (kind ▸ framed)

/-- A round that waits in the trailers holds some when a whole one is ahead. -/
theorem parserEntityRound_holdsTrailers {q : HttpParser} (chunked : q.Chunked) (trailers : q.entPosition = .chunkyHeaders)
    (ends : q.EntityEnds) (short : parserConsumer.waits (parserEntityRound q).1) :
    (parserEntityRound q).2.HoldsTrailers ↔ trailerLine q.scanner.rest ≠ none := by
  have round : parserEntityRound q = parserParseHeaders q := by
    rw [parserEntityRound, trailers]
    simp only [parserParseChunkyHeaders]
    rw [if_neg]
    intro ok
    rw [parserEntityRound, trailers] at short
    simp only [parserParseChunkyHeaders, ok, if_true] at short
    rcases short with short | short <;> cases short
  rw [round] at short ⊢
  cases parserParseHeaders_waits_cases chunked trailers ends short with
  | unread stay noLine =>
    refine iff_of_false ?_ (not_not_intro noLine)
    rintro ⟨-, behind⟩
    have there : q.entityStartPosition + q.msg.entity.length = q.scanner.cursor := ends
    rw [stay] at behind
    omega
  | held holds later byte line => exact iff_of_true holds line

/-- A parser that waits in a chunked body holds trailers when a whole one is ahead behind the last chunk. -/
theorem parserParseEntity_holdsTrailers {c : HttpParser} (chunked : c.Chunked) (here : c.entPosition = .usingChunked)
    (short : parserConsumer.waits (parserParseEntity c).1) :
    (parserParseEntity c).2.HoldsTrailers ↔
      ∃ values rest, chunkSizes c.scanner.rest = some (values, rest) ∧ trailerLine rest ≠ none := by
  obtain ⟨q, read, rounds⟩ := parserParseEntity_lastRound chunked
  have total := rounds.reads.ahead
  have ahead : chunkSizes c.scanner.rest = q.sizesAhead.map (Prod.map (read ++ ·) id) := by
    rw [← total, HttpParser.sizesAhead, here]
  rw [rounds.same] at short
  rw [ahead, rounds.same]
  by_cases trailers : q.entPosition = .chunkyHeaders
  · have ends : q.EntityEnds := by
      refine (rounds.reads.ends trailers).resolve_left ?_
      rintro rfl
      rw [here] at trailers
      cases trailers
    have sizes : q.sizesAhead = some ([], q.scanner.rest) := by rw [HttpParser.sizesAhead, trailers]
    rw [parserEntityRound_holdsTrailers rounds.reads.chunked trailers ends short, sizes]
    constructor
    · exact fun line => ⟨_, _, rfl, line⟩
    · rintro ⟨values, rest, found, line⟩
      cases found
      exact line
  · have sizes := parserEntityRound_noSizes rounds.reads.chunked trailers rounds.last
    rw [sizes, Option.map_none]
    refine iff_of_false ?_ ?_
    · rintro ⟨at_trailers, -⟩
      exact trailers ((parserEntityRound_waits short).symm.trans at_trailers)
    · rintro ⟨values, rest, found, -⟩
      cases found

/-- A parser that waits holds trailers when the bytes so far have a whole one behind the last chunk. -/
theorem holdsTrailers_iff {fragments : List (List UInt8)}
    (short : parserConsumer.waits (parserFeed res (parserInitFor requestMethod) fragments).1) :
    (parserFeed res (parserInitFor requestMethod) fragments).2.HoldsTrailers ↔
      TrailersStarted requestMethod fragments.flatten := by
  have start := parserInitFor_initial requestMethod
  have whole := parserFeed_waits start short
  rw [whole] at short ⊢
  set p := (parserInitFor requestMethod).extend fragments.flatten with p_eq
  have loaded : p.scanner.msg = fragments.flatten := extend_initial start _
  have unread : p.Unread := start.unread.extend _
  by_cases chunks : (parserParse res p).2.entPosition.isChunked = true
  · obtain ⟨c, chunked, here, msg, begins, same, -⟩ := parserParse_toChunks unread chunks
    have kind := (EntPosition.isChunked_iff _).mp chunks
    have entered : (parserParse res p).2.entPosition ≠ .determineReadMethod := by
      intro closed
      rw [closed] at chunks
      cases chunks
    have takes := parserParse_takes (.inr entered)
    rw [← p_eq] at takes
    have framing := takes.framing.symm.trans kind
    have body := takes.body entered
    rw [same, parserParseEntity_start (by rw [here]; simp), begins, ← loaded, ← msg] at body
    change c.scanner.rest = _ at body
    rw [same] at short
    rw [msg, loaded] at body
    rw [TrailersStarted, framing, ← body, same, parserParseEntity_holdsTrailers chunked here short]
    exact (and_iff_right rfl).symm
  · refine iff_of_false ?_ ?_
    · rintro ⟨at_trailers, -⟩
      rw [at_trailers] at chunks
      exact chunks rfl
    · rintro ⟨framing, values, rest, sizes, -⟩
      by_cases closed : (parserParse res p).2.entPosition = .determineReadMethod
      · rw [bodyOf_waits short closed, chunkSizes_nil] at sizes
        cases sizes
      · have takes := parserParse_takes (.inr closed)
        exact chunks ((EntPosition.isChunked_iff _).mpr (takes.framing.trans framing))

/-- What the read that completes a message leaves is framed as the bytes of the peer say. -/
theorem completes_takes {maxContentLength : Nat} {earlier : List SockRead} {okOnClose : Bool} {p final : HttpParser}
    (waiting : Waiting res (parserInitFor requestMethod) earlier okOnClose p) {last : SockRead}
    (completes : Completes res maxContentLength okOnClose p last final) (later : List SockRead)
    (stream_eq : received (earlier ++ last :: later) = stream) :
    final.Takes stream (headOf requestMethod stream).framing (bodyOf requestMethod stream) := by
  have start := parserInitFor_initial requestMethod
  subst stream_eq
  rw [received_append waiting.data]
  cases completes with
  | closed ok =>
    have close := waiting.close ok
    have none : received (.closed :: later) = [] := rfl
    rw [none, List.append_nil]
    rw [← waiting.parser, parserFeed_waits start waiting.short] at close ⊢
    exact parserParse_takes (.inr (by rw [close.framing]; simp))
  | complete buf some success fits =>
    have fed := parserFeed_snoc waiting.short buf
    rw [waiting.parser] at fed
    obtain ⟨status, observed⟩ := @parserFeed_success res _ start (earlier.map SockRead.bytes ++ [buf])
      (by rw [fed]; exact success) (received later)
    have bytes : (earlier.map SockRead.bytes ++ [buf]).flatten ++ received later =
        (earlier.map SockRead.bytes).flatten ++ received (.data buf some :: later) := by
      have all : received (.data buf some :: later) = buf ++ received later :=
        (received_append (e := [.data buf some]) (by simp [SockRead.isData]) later).trans (by simp [SockRead.bytes])
      rw [all, List.flatten_append, List.append_assoc]
      simp
    rw [bytes] at status observed
    rw [fed] at observed
    exact (parserParse_takes (.inl status)).observe observed

end Whole

/-! ### The limit -/

/-- A chunked body whose sizes stay within the limit, or a body of that many bytes before the
end of the stream; with a Content-Length or without a body there is nothing to ask. -/
def WithinLimit (maxContentLength : Nat) (requestMethod : HttpMethod) (stream : List UInt8) : Prop :=
  match (headOf requestMethod stream).framing with
  | .chunks => ∃ values rest,
      chunkSizes (bodyOf requestMethod stream) = some (values, rest) ∧
        (values.map takenSize).sum ≤ maxContentLength
  | .close => (bodyOf requestMethod stream).length ≤ maxContentLength
  | .length => True
  | .none => True

theorem chunkSizes_drop_append {stream rest : List UInt8} {start : Nat} {values : List Int}
    (sizes : chunkSizes (stream.drop start) = some (values, rest)) (buf : List UInt8) :
    chunkSizes ((stream ++ buf).drop start) = some (values, rest ++ buf) := by
  rcases le_total start stream.length with inside | outside
  · rw [List.drop_append_of_le_length inside]
    exact chunkSizes_append sizes buf
  · rw [List.drop_eq_nil_of_le outside, chunkSizes_nil] at sizes
    cases sizes

theorem withinLimit_of_completes {res : Resolver} {maxContentLength : Nat} {requestMethod : HttpMethod}
    {p : HttpParser} {earlier : List SockRead} {okOnClose : Bool}
    (waiting : Waiting res (parserInitFor requestMethod) earlier okOnClose p) (limited : 0 < maxContentLength)
    {last : SockRead} {final : HttpParser}
    (completes : Completes res maxContentLength okOnClose p last final) (later : List SockRead) :
    final.msg.entity.length ≤ maxContentLength ↔
      WithinLimit maxContentLength requestMethod (received (earlier ++ last :: later)) := by
  have start := parserInitFor_initial requestMethod
  have short := waiting.short
  have takes := completes_takes waiting completes later rfl
  rw [WithinLimit, ← takes.framing]
  cases completes with
  | closed ok =>
    have close := waiting.close ok
    have body := takes.body (by rw [close.framing]; simp)
    have whole := parserFeed_waits start short
    have unread := start.unread.extend (earlier.map SockRead.bytes).flatten
    have loaded := (@parserParse_untilClose res _ unread
      (by rw [← whole, waiting.parser]; exact close.framing)).2.2
    rw [← whole, waiting.parser, extend_initial start] at loaded
    have all : received (earlier ++ .closed :: later) = p.scanner.msg := by
      rw [received_append waiting.data, loaded]
      exact List.append_nil _
    rw [close.framing, ← body, all, close.length]
    simp only [EntPosition.framing, List.length_drop]
  | complete buf some success fits =>
    rw [← waiting.parser] at success fits takes ⊢
    cases parserFeed_complete start short success with
    | none framing empty =>
      rw [framing, empty]
      exact ⟨fun _ => trivial, fun _ => Nat.zero_le _⟩
    | length framing taken nul =>
      set final :=
        (parserAppend res (parserFeed res (parserInitFor requestMethod) (earlier.map SockRead.bytes)).2 buf).2
      have low : final.contentLength ≤ maxContentLength := by
        simp only [contentTooLarge, Bool.and_eq_false_iff, decide_eq_false_iff_not] at fits
        have cast := Nat.mod_le maxContentLength (2 ^ 32)
        omega
      rw [framing, taken]
      exact ⟨fun _ => trivial, fun _ => low⟩
    | chunks framing =>
      have fed := parserFeed_snoc short buf
      have kind := (EntPosition.isChunked_iff _).mp framing
      have body := takes.body (by intro closed; rw [closed] at framing; cases framing)
      obtain ⟨values, rest, sizes, length⟩ := parserFeed_sizes start
        (earlier.map SockRead.bytes ++ [buf]) (by rw [fed]; exact success)
        (by rw [fed]; exact framing)
      rw [fed] at sizes length
      have stream : received (earlier ++ .data buf some :: later) =
          (earlier.map SockRead.bytes ++ [buf]).flatten ++ received later := by
        rw [received_append waiting.data, List.flatten_append, List.append_assoc]
        exact congrArg _ (received_append (e := [.data buf some]) (by simp [SockRead.isData])
          later)
      have sizes' := chunkSizes_drop_append sizes (received later)
      rw [kind, length, ← body, stream, sizes']
      constructor
      · intro fits
        exact ⟨values, _, rfl, fits⟩
      · rintro ⟨values', rest', same, fits⟩
        cases same
        exact fits

/-- A message that is received is within the limit exactly when the peer keeps a chunked body
or one that ends with the stream within it. -/
theorem httpRecvMessage_limit_iff {res : Resolver} {maxContentLength : Nat}
    {requestMethod : HttpMethod} {reads : List SockRead} {result : Received}
    (limited : 0 < maxContentLength)
    (returned : httpRecvMessage res maxContentLength requestMethod reads = some result)
    (success : result.ret = UPNP_E_SUCCESS) :
    result.parser.msg.entity.length ≤ maxContentLength ↔
      WithinLimit maxContentLength requestMethod (received reads) := by
  have start := parserInitFor_initial requestMethod
  obtain ⟨between, last, later, ok, p, rfl, waiting, completes, -⟩ :=
    httpRecvLoop_success start waiting_start returned success
  exact withinLimit_of_completes waiting limited completes later

/-- Three bytes behind the headers, and the end of the stream. -/
def longReads : List SockRead :=
  [.data (bytes "HTTP/1.1 200 OK\r\n\r\nabc") (by decide), .closed]

theorem longReads_received :
    ∃ result, httpRecvMessage noHosts 2 .get longReads = some result ∧
      result.ret = UPNP_E_SUCCESS ∧ result.parser.msg.entity.length = 3 := by
  have run : (httpRecvMessage noHosts 2 .get longReads).map
      (fun r => (r.ret, r.parser.msg.entity.length)) = some (UPNP_E_SUCCESS, 3) := by
    decide +kernel
  obtain ⟨result, returned, same⟩ := Option.map_eq_some_iff.mp run
  rw [Prod.mk.injEq] at same
  exact ⟨result, returned, same.1, same.2⟩

theorem httpRecvMessage_limit_close :
    ∃ result, httpRecvMessage noHosts 2 .get longReads = some result ∧
      (result.parser.msg.entity.length ≤ 2 ↔ WithinLimit 2 .get (received longReads)) := by
  obtain ⟨result, returned, success, -⟩ := longReads_received
  exact ⟨result, returned, httpRecvMessage_limit_iff (by decide) returned success⟩

/-- With a limit of two bytes a body of three is received when it has no announced length. -/
theorem httpRecvMessage_limit_exceeded :
    ¬∀ (res : Resolver) (maxContentLength : Nat) (requestMethod : HttpMethod)
        (reads : List SockRead) (result : Received), 0 < maxContentLength →
      httpRecvMessage res maxContentLength requestMethod reads = some result →
      result.ret = UPNP_E_SUCCESS → result.parser.msg.entity.length ≤ maxContentLength := by
  intro claim
  obtain ⟨result, returned, success, length⟩ := longReads_received
  have bound := claim noHosts 2 .get longReads result (by decide) returned success
  omega

/-! ### The terminator -/

/-- For a chunked message: no whole trailer came before the last read, and nothing or a NUL follows the
message. -/
def NothingBehind (requestMethod : HttpMethod) (before stream : List UInt8) : Prop :=
  (headOf requestMethod stream).framing = .chunks →
    ¬TrailersStarted requestMethod before ∧
      ∀ surplus, chunkedSurplus (bodyOf requestMethod stream) = some surplus → surplus.headD 0 = 0

theorem terminated_of_completes {res : Resolver} {maxContentLength : Nat} {requestMethod : HttpMethod}
    {p : HttpParser} {earlier : List SockRead} {okOnClose : Bool}
    (waiting : Waiting res (parserInitFor requestMethod) earlier okOnClose p) {last : SockRead} {final : HttpParser}
    (completes : Completes res maxContentLength okOnClose p last final)
    (filled : final.msg.entity.length ≠ 0) :
    final.Terminated ↔ NothingBehind requestMethod (received earlier) (received (earlier ++ [last])) := by
  have start := parserInitFor_initial requestMethod
  have short := waiting.short
  have good := @parserFeed_good res _ start (earlier.map SockRead.bytes)
  have takes := completes_takes waiting completes [] rfl
  rw [NothingBehind, ← takes.framing]
  cases completes with
  | closed ok =>
    have close := waiting.close ok
    rw [waiting.parser] at good
    have bound := good.entity_inside close.buf
    have nul : p.Terminated := by
      refine ⟨_, close.buf, bound, ?_⟩
      have whole : p.entityStartPosition + p.msg.entity.length = p.scanner.msg.length := by
        have length := close.length
        omega
      rw [whole, List.getD_eq_getElem?_getD, List.getElem?_eq_none le_rfl]
      rfl
    refine ⟨fun _ chunks => ?_, fun _ => nul⟩
    rw [close.framing] at chunks
    cases chunks
  | complete buf nonempty success fits =>
    rw [← waiting.parser] at success filled takes ⊢
    cases parserFeed_complete start short success with
    | none framing empty => exact absurd empty filled
    | length framing taken nul =>
      refine ⟨fun _ chunks => ?_, fun _ => nul⟩
      rw [framing] at chunks
      cases chunks
    | chunks framing =>
      have kind := (EntPosition.isChunked_iff _).mp framing
      have body := takes.body (by intro closed; rw [closed] at framing; cases framing)
      have before : received earlier = (earlier.map SockRead.bytes).flatten := by
        have all := received_append waiting.data []
        rwa [List.append_nil, show received [] = [] from rfl, List.append_nil] at all
      have stream : received (earlier ++ [.data buf nonempty]) =
          ((parserInitFor requestMethod).extend (earlier.map SockRead.bytes).flatten).scanner.msg ++ buf := by
        rw [received_append waiting.data, extend_initial start, received_single]
      rw [before, ← holdsTrailers_iff short, ← body, stream, kind]
      have whole := parserFeed_waits start short
      rw [whole] at short success framing ⊢
      obtain ⟨surplus, known, iff⟩ := parserParse_terminated (start.unread.extend _) short buf
        success framing
      change HttpParser.Terminated (parserParse res _).2 ↔ _
      rw [iff]
      constructor
      · rintro ⟨free, zero⟩ -
        refine ⟨free, ?_⟩
        intro surplus' same
        have one : some surplus = some surplus' := known.symm.trans same
        cases one
        exact zero
      · intro nothing
        obtain ⟨free, zero⟩ := nothing rfl
        exact ⟨free, zero surplus known⟩

/-- A received entity has a NUL behind it exactly when it is not chunked or nothing stands behind it: no
trailer that came before the last read and no other byte than a NUL. -/
theorem httpRecvMessage_terminated_iff {res : Resolver} {maxContentLength : Nat}
    {requestMethod : HttpMethod} {reads : List SockRead} {result : Received}
    (returned : httpRecvMessage res maxContentLength requestMethod reads = some result)
    (success : result.ret = UPNP_E_SUCCESS) (filled : result.parser.msg.entity.length ≠ 0) :
    ∃ earlier last later, reads = earlier ++ last :: later ∧
      httpRecvMessage res maxContentLength requestMethod earlier = none ∧
      httpRecvMessage res maxContentLength requestMethod (earlier ++ [last]) = some result ∧
      (result.parser.Terminated ↔
        NothingBehind requestMethod (received earlier) (received (earlier ++ [last]))) := by
  have start := parserInitFor_initial requestMethod
  obtain ⟨earlier, last, later, ok, p, split, waiting, completes, none, ended⟩ :=
    httpRecvLoop_success start waiting_start returned success
  exact ⟨earlier, last, later, split, none, ended, terminated_of_completes waiting completes filled⟩

/-- A chunked response with another byte behind it. -/
def surplusReads : List SockRead :=
  [.data (bytes "HTTP/1.1 200 OK\r\nTRANSFER-ENCODING: chunked\r\n\r\n2\r\nab\r\n0\r\n\r\nX")
    (by decide)]

theorem surplusReads_received :
    ∃ result, httpRecvMessage noHosts 0 .get surplusReads = some result ∧
      result.ret = UPNP_E_SUCCESS ∧ result.parser.msg.entity.length = 2 ∧
      result.parser.msg.entity.buf = some 47 ∧ result.parser.scanner.msg[49]? = some 88 := by
  have run : (httpRecvMessage noHosts 0 .get surplusReads).map
      (fun r => (r.ret, r.parser.msg.entity.length, r.parser.msg.entity.buf,
        r.parser.scanner.msg[49]?)) = some (UPNP_E_SUCCESS, 2, some 47, some 88) := by
    decide +kernel
  obtain ⟨result, returned, same⟩ := Option.map_eq_some_iff.mp run
  simp only [Prod.mk.injEq] at same
  exact ⟨result, returned, same⟩

/-- A trailer comes before the empty line does. -/
def splitReads : List SockRead :=
  [.data (bytes "HTTP/1.1 200 OK\r\nTRANSFER-ENCODING: chunked\r\n\r\n2\r\nab\r\n0\r\nA: b\r\n") (by decide),
    .data (bytes "\r\n") (by decide)]

theorem httpRecvMessage_terminated_split :
    ∃ result, httpRecvMessage noHosts 0 .get splitReads = some result ∧
      ∃ earlier last later, splitReads = earlier ++ last :: later ∧
        httpRecvMessage noHosts 0 .get earlier = none ∧
        httpRecvMessage noHosts 0 .get (earlier ++ [last]) = some result ∧
        (result.parser.Terminated ↔ NothingBehind .get (received earlier) (received (earlier ++ [last]))) := by
  have run : (httpRecvMessage noHosts 0 .get splitReads).map
      (fun r => (r.ret, r.parser.msg.entity.length)) = some (UPNP_E_SUCCESS, 2) := by
    decide +kernel
  obtain ⟨result, returned, same⟩ := Option.map_eq_some_iff.mp run
  obtain ⟨success, length⟩ := Prod.mk.inj same
  exact ⟨result, returned, httpRecvMessage_terminated_iff returned success (by rw [length]; decide)⟩

/-- The byte behind a chunked message is the one behind its entity. -/
theorem httpRecvMessage_not_terminated :
    ¬∀ (res : Resolver) (maxContentLength : Nat) (requestMethod : HttpMethod)
        (reads : List SockRead) (result : Received),
      httpRecvMessage res maxContentLength requestMethod reads = some result →
      result.ret = UPNP_E_SUCCESS → result.parser.msg.entity.length ≠ 0 →
      result.parser.Terminated := by
  intro claim
  obtain ⟨result, returned, success, length, buf, byte⟩ := surplusReads_received
  obtain ⟨start, same, -, nul⟩ :=
    claim noHosts 0 .get surplusReads result returned success (by rw [length]; decide)
  rw [buf] at same
  cases same
  rw [length, List.getD_eq_getElem?_getD, byte] at nul
  exact absurd nul (by decide)

end Pupnp.Http
