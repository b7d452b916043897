import Pupnp.Http.HeaderLines
import Pupnp.Http.Whole

/-! The method of a request: what its first line names and what its header lines make of it. -/

namespace Pupnp.Http
open Pupnp.CString Pupnp.Uri

/-- The handlers that `dispatch_request` chooses from. -/
inductive Handler where
  | soap
  | gena
  | web
  deriving DecidableEq, Repr

def dispatchRequest : HttpMethod → Option Handler
  | .soapPost | .mpost => some .soap
  | .notify | .subscribe | .unsubscribe => some .gena
  | .get | .post | .head | .simpleGet => some .web
  | _ => none

/-! ### The lines of a request -/

def isSoapLine (line : ReadLine) : Bool := lookupHeader line.name = some .soapaction

def requestLine (sc : Scanner) : HttpMethod × Scanner :=
  let start := (skipBlankLines sc).2
  let simple := matchFormat start "%s\t%S%w%c"
  if simple.1 = .ok then (.simpleGet, simple.2.1)
  else
    let full := matchFormat start "%s\t%S\t%ihttp%w/%w%L%c"
    ((lookupMethod ((strArg full.2.2 0).read start.msg)).getD .unknown, full.2.1)

/-- A line without a version names the simple GET. -/
def namedMethod (stream : List UInt8) : HttpMethod := (requestLine (scannerInit stream)).1

/-- The header lines of a request; a simple GET has none. -/
def requestLines (stream : List UInt8) : List ReadLine :=
  if namedMethod stream = .simpleGet then [] else headerLines (requestLine (scannerInit stream)).2

def headMessage (stream : List UInt8) : HttpMessage :=
  (requestLines stream).foldl addLine { httpmsgInit true .put with method := namedMethod stream }

def trailersOf (body : List UInt8) : List ReadLine :=
  match chunkSizes body with
  | some (_, trailers) => headerLines (scannerInit trailers)
  | none => []

def HttpMessage.readsChunks (msg : HttpMessage) : Bool :=
  !(msg.isRequest && msg.method = .post) && !msg.hasNoBody && isChunked msg

def trailersRead (msg : HttpMessage) (body : List UInt8) : List ReadLine :=
  if msg.readsChunks then trailersOf body else []

def requestTrailers (stream : List UInt8) : List ReadLine :=
  trailersRead (headMessage stream) ((trailersEnd (requestLine (scannerInit stream)).2.rest).getD [])

def expectedMethod (stream : List UInt8) : HttpMethod :=
  if namedMethod stream = .post && (requestLines stream).any isSoapLine then .soapPost
  else namedMethod stream

/-! ### The header lines -/

theorem putLine_method (isOrig : HttpHeader → Bool) (msg : HttpMessage) (line : ReadLine) :
    (putLine isOrig msg line).method = msg.method ∧ (putLine isOrig msg line).isRequest = msg.isRequest := by
  rw [putLine]
  split
  · exact ⟨rfl, rfl⟩
  · split_ifs <;> exact ⟨rfl, rfl⟩

theorem addLine_method (msg : HttpMessage) (line : ReadLine) :
    (addLine msg line).method = (if isSoapLine line then .soapPost else msg.method) ∧
      (addLine msg line).isRequest = msg.isRequest := by
  cases known : lookupHeader line.name with
  | none =>
    have put := putLine_method (fun h => memptrCmpNocase h.name line.name = 0) (markSoap msg line) line
    rw [addLine_unknown msg known, put.1, put.2, markSoap, isSoapLine, known]
    exact ⟨rfl, rfl⟩
  | some id =>
    have put := putLine_method (fun h => h.nameId = id) (markSoap msg line) line
    rw [addLine_known msg known, put.1, put.2, markSoap, isSoapLine, known]
    simp only [decide_eq_true_eq]
    split_ifs <;> exact ⟨rfl, rfl⟩

theorem foldl_addLine_method (lines : List ReadLine) (msg : HttpMessage) :
    (lines.foldl addLine msg).method = (if lines.any isSoapLine then .soapPost else msg.method) ∧
      (lines.foldl addLine msg).isRequest = msg.isRequest := by
  induction lines generalizing msg with
  | nil => exact ⟨rfl, rfl⟩
  | cons line lines ih =>
    obtain ⟨method, request⟩ := addLine_method msg line
    rw [List.foldl_cons, (ih _).1, (ih _).2, method, request, List.any_cons]
    refine ⟨?_, rfl⟩
    cases isSoapLine line <;> cases lines.any isSoapLine <;> rfl

theorem putLine_congr (isOrig : HttpHeader → Bool) {msg msg' : HttpMessage} (line : ReadLine)
    (same : msg.headers = msg'.headers) : (putLine isOrig msg line).headers = (putLine isOrig msg' line).headers := by
  rw [putLine, putLine, same]
  split
  · rfl
  · split_ifs
    · exact same
    · rfl

theorem foldl_addLine_congr (lines : List ReadLine) {msg msg' : HttpMessage} (same : msg.headers = msg'.headers) :
    (lines.foldl addLine msg).headers = (lines.foldl addLine msg').headers := by
  induction lines generalizing msg msg' with
  | nil => exact same
  | cons line lines ih =>
    apply ih
    have marked : (markSoap msg line).headers = (markSoap msg' line).headers := by
      rw [markSoap_headers, markSoap_headers, same]
    cases known : lookupHeader line.name with
    | none =>
      rw [addLine_unknown msg known, addLine_unknown msg' known]
      exact putLine_congr _ line marked
    | some id =>
      rw [addLine_known msg known, addLine_known msg' known]
      exact putLine_congr _ line marked

def valueStart : List Directive := [.lws, .char 58, .lws]

theorem headerValue_split {sc : Scanner} (matched : (matchFormat sc " : %R%c").1 = .ok) :
    (vfmatchLoop true sc valueStart).1 = .ok ∧
      (matchRawValue (vfmatchLoop true sc valueStart).2.1).1 = .ok ∧
      strArg (matchFormat sc " : %R%c").2.2 0 = (matchRawValue (vfmatchLoop true sc valueStart).2.1).2.2 := by
  have split : format " : %R%c" = valueStart ++ [.rawValue, .crlf] := by decide
  rw [matchFormat, split, vfmatch] at matched ⊢
  dsimp only at matched ⊢
  by_cases front : (vfmatchLoop true sc valueStart).1 = .ok
  · have noArg : (vfmatchLoop true sc valueStart).2.2 = [] := by
      apply vfmatchLoop_noArg
      simp only [valueStart, List.forall_mem_cons]
      exact ⟨fun _ _ => rfl, fun _ _ => rfl, fun _ _ => rfl, List.forall_mem_nil _⟩
    rw [vfmatchLoop_append front] at matched ⊢
    have value := (vfmatchLoop_first matched).1
    rw [noArg, vfmatchLoop_cons value]
    exact ⟨front, value, rfl⟩
  · rw [vfmatchLoop_append_stop front] at matched
    exact absurd matched front

theorem headerValue_alike {sc sc' : Scanner} (alike : sc.Alike sc')
    (matched : (matchFormat sc " : %R%c").1 = .ok) :
    (strArg (matchFormat sc " : %R%c").2.2 0).read sc.msg = (strArg (matchFormat sc' " : %R%c").2.2 0).read sc'.msg := by
  have relative : ∀ d ∈ valueStart, d.Relative := by
    simp only [valueStart, List.forall_mem_cons]
    exact ⟨trivial, trivial, trivial, List.forall_mem_nil _⟩
  have matched' := (matchFormat_alike alike headerValue_relative).1 ▸ matched
  obtain ⟨-, later⟩ := vfmatchLoop_alike alike relative true
  obtain ⟨-, -, value⟩ := matchRawValue_alike later
  rw [(headerValue_split matched).2.2, (headerValue_split matched').2.2,
    ← (vfmatchLoop_matched true sc valueStart).reaches.msg, ← (vfmatchLoop_matched true sc' valueStart).reaches.msg]
  exact value

theorem headerLine_alike {sc sc' : Scanner} (alike : sc.Alike sc') :
    (headerLine sc = none ∧ headerLine sc' = none) ∨
      ∃ line next next', headerLine sc = some (line, next) ∧ headerLine sc' = some (line, next') ∧
        next.Alike next' := by
  cases alike.tokens with
  | error status left right => exact .inl ⟨by rw [headerLine, left], by rw [headerLine, right]⟩
  | ok type length next next' left right later =>
    obtain ⟨status, behind⟩ := matchFormat_alike later headerValue_relative
    rw [headerLine, left, headerLine, right]
    dsimp only
    by_cases isLine : (decide (type = .identifier) && decide ((matchFormat next " : %R%c").1 = .ok)) = true
    · have value := headerValue_alike later (of_decide_eq_true (Bool.and_eq_true_iff.mp isLine).2)
      rw [(scannerGetToken_reaches left).msg, (scannerGetToken_reaches right).msg] at value
      have name : (Memptr.mk sc.cursor length).read sc.msg = (Memptr.mk sc'.cursor length).read sc'.msg :=
        congrArg (List.take length) alike.rest
      rw [if_pos isLine, if_pos (status ▸ isLine), name, value]
      exact .inr ⟨_, _, _, rfl, rfl, behind⟩
    · rw [if_neg isLine, if_neg (status ▸ isLine)]
      exact .inl ⟨rfl, rfl⟩

theorem headerLines_alike {sc sc' : Scanner} (alike : sc.Alike sc') : headerLines sc = headerLines sc' := by
  fun_induction headerLines sc generalizing sc' with
  | case1 sc line next found ih =>
    obtain ⟨none, -⟩ | ⟨other, next', behind, here, there, later⟩ := headerLine_alike alike
    · rw [none] at found
      cases found
    · obtain ⟨rfl, rfl⟩ := Prod.mk.inj (Option.some.inj (here.symm.trans found))
      rw [headerLines_next there, ih later]
  | case2 sc found =>
    obtain ⟨-, none⟩ | ⟨other, next', behind, here, -⟩ := headerLine_alike alike
    · rw [headerLines_end none]
    · rw [here] at found
      cases found

/-! ### The stages of the parser -/

theorem lookupMethod_named {name : List UInt8} {method : HttpMethod} (looked : lookupMethod name = some method) :
    method ≠ .soapPost ∧ method ≠ .simpleGet := by
  have entries : ∀ entry ∈ NameTable.methods.names, ∀ found ∈ lookupMethod entry,
      found ≠ .soapPost ∧ found ≠ .simpleGet := by
    with_unfolding_all decide
  obtain ⟨i, hit, -⟩ := Option.bind_eq_some_iff.mp looked
  have shape : mapStrToInt name NameTable.methods.names NameTable.methods.caseSensitive = some i := hit
  obtain ⟨entry, at_i, same⟩ := NameTable.hit shape
  have text : cstr name = entry := same
  have short : lookupMethod name = lookupMethod entry := by
    rw [lookupMethod, lookupMethod, ← text]
    exact congrArg (Option.bind · _) (@NameTable.mapStrToInt_cstr .methods name)
  exact entries entry (List.mem_of_getElem? at_i) method (short ▸ looked)

structure RequestLineRead (p next : HttpParser) : Prop where
  method : next.msg.method = (requestLine p.scanner).1
  scanner : next.scanner = (requestLine p.scanner).2
  headers : next.msg.headers = p.msg.headers
  isRequest : next.msg.isRequest = p.msg.isRequest
  named : next.msg.method ≠ .soapPost ∧ next.msg.method ≠ .simpleGet

@[simp] theorem storeVersion_isRequest (msg : HttpMessage) (scanned : List Int) :
    (storeVersion msg scanned).isRequest = msg.isRequest := by
  unfold storeVersion
  split <;> rfl

theorem parserParseFullRequest_read {res : Resolver} {p next : HttpParser} {method url version : List UInt8}
    (parsed : parserParseFullRequest res p method url version = (.ok, next)) :
    ∃ id, lookupMethod method = some id ∧ next.msg.method = id ∧ next.scanner = p.scanner ∧
      next.msg.headers = p.msg.headers ∧ next.msg.isRequest = p.msg.isRequest := by
  simp only [parserParseFullRequest] at parsed
  split at parsed
  · cases parsed
  · split at parsed
    · cases parsed
    · rename_i id looked
      split_ifs at parsed
      · cases parsed
      · cases parsed
        exact ⟨id, looked, rfl, rfl, storeVersion_headers _ _, storeVersion_isRequest _ _⟩

theorem parserParseFullRequest_not_success (res : Resolver) (p : HttpParser) (method url version : List UInt8) :
    (parserParseFullRequest res p method url version).1 ≠ .success := by
  simp only [parserParseFullRequest]
  split
  · simp
  · split
    · simp [parserFail]
    · split_ifs <;> simp [parserFail]

theorem parserParseSimpleGet_method {res : Resolver} {p : HttpParser} {method url : List UInt8}
    (parsed : (parserParseSimpleGet res p method url).1 = .success) :
    (parserParseSimpleGet res p method url).2.msg.method = .simpleGet := by
  unfold parserParseSimpleGet at parsed ⊢
  split at parsed
  · cases parsed
  · split_ifs at parsed ⊢
    · cases parsed
    · dsimp only at parsed ⊢
      split at parsed
      · cases parsed
      · rfl

theorem parserParseRequestline_read {res : Resolver} {p next : HttpParser}
    (parsed : parserParseRequestline res p = (.ok, next)) : RequestLineRead p next := by
  simp only [parserParseRequestline, parserMatchRequestline] at parsed
  split_ifs at parsed with blank simple full
  · exact absurd (congrArg Prod.fst parsed) blank
  · exact absurd (congrArg Prod.fst parsed) (parserParseSimpleGet_not_ok _ _ _ _)
  · exact absurd (congrArg Prod.fst parsed) full
  · obtain ⟨id, looked, method, scanner, headers, request⟩ := parserParseFullRequest_read parsed
    simp only [HttpParser.withScanner] at simple looked scanner headers request
    have line : requestLine p.scanner = (id, next.scanner) := by
      rw [requestLine]
      simp only [if_neg simple, looked, Option.getD_some, scanner]
    refine ⟨by rw [line, method], by rw [line], headers, request, ?_⟩
    rw [method]
    exact lookupMethod_named looked

theorem parserParseRequestline_simple {res : Resolver} {p : HttpParser}
    (parsed : (parserParseRequestline res p).1 = .success) :
    (parserParseRequestline res p).2.msg.method = .simpleGet ∧ (requestLine p.scanner).1 = .simpleGet := by
  have blank := (skipBlankLines_matched p.scanner).isMatch.only.1
  have full := (matchFormat_matched (skipBlankLines p.scanner).2 "%s\t%S\t%ihttp%w/%w%L%c").isMatch.only.1
  simp only [parserParseRequestline, parserMatchRequestline] at parsed ⊢
  split_ifs at parsed ⊢ with stopped simple missed
  · exact absurd parsed blank
  · refine ⟨parserParseSimpleGet_method parsed, ?_⟩
    simp only [HttpParser.withScanner] at simple
    rw [requestLine]
    simp only [if_pos simple]
  · exact absurd parsed full
  · exact absurd parsed (parserParseFullRequest_not_success _ _ _ _ _)

theorem parserParseHeaders_post {p : HttpParser} (ended : (parserParseHeaders p).1 = .success) :
    (parserParseHeaders p).2.msg.method = .post := by
  fun_induction parserParseHeaders p with
  | case1 p next found ih => exact ih ended
  | case2 p =>
    unfold parseHeaderLine at ended ⊢
    split at ended
    · rename_i status found
      exact absurd ended (scannerGetToken_isMatch found).only.1
    · split at ended
      · split_ifs at ended ⊢ with post
        rw [Bool.and_eq_true, decide_eq_true_eq] at post
        exact post.2
      · dsimp only at ended
        split_ifs at ended
        exact absurd ended (matchFormat_matched _ _).isMatch.only.1
      · cases ended

theorem parserEntityRound_method {p : HttpParser} (here : p.entPosition ≠ .chunkyHeaders) :
    (parserEntityRound p).2.msg.method = p.msg.method := by
  unfold parserEntityRound
  split
  · simp only [parserParseEntityUsingClen]
    split_ifs <;> rfl
  · simp only [parserParseChunkyEntity, parserChunkSizeRead]
    split_ifs <;> rfl
  · simp only [parserParseChunkyBody]
    split_ifs <;> rfl
  · contradiction
  · rfl
  · simp only [parserGetEntityReadMethod]
    split_ifs
    · rfl
    · rfl
    · unfold readMethodOfLength
      split
      · rfl
      · split_ifs <;> rfl

/-- The trailers are read behind all the chunks, with the method that the headers left. -/
theorem parserParseEntity_behindChunks {p : HttpParser} (chunked : p.Chunked)
    (success : (parserParseEntity p).1 = .success) :
    ∃ q read, p.ReadsSizes q read ∧ q.entPosition = .chunkyHeaders ∧ q.msg.method = p.msg.method ∧
      parserParseEntity p = parserParseChunkyHeaders q := by
  fun_induction parserParseEntity p with
  | case1 p next round ih =>
    have again : (parserEntityRound p).1 = .continue1 := by rw [round]
    have before : p.entPosition ≠ .chunkyHeaders := by
      intro here
      rw [parserEntityRound, here] at again
      exact parserParseChunkyHeaders_not_continue p again
    have method := parserEntityRound_method before
    rw [round] at method
    obtain ⟨read, first⟩ := parserEntityRound_reads chunked round
    obtain ⟨q, later, reads, here, same, ended⟩ := ih first.chunked success
    exact ⟨q, read ++ later, first.trans reads, here, same.trans method, ended⟩
  | case2 p last =>
    obtain ⟨here, -⟩ := parserEntityRound_ends chunked.chunks success
    exact ⟨p, [], .refl chunked, here, rfl, by rw [parserEntityRound, here]⟩

theorem parserParseEntity_plain {p : HttpParser} (plain : p.entPosition = .usingClen ∨ p.entPosition = .untilClose) :
    (parserParseEntity p).2.msg.method = p.msg.method := by
  have last : (parserEntityRound p).1 ≠ .continue1 := by
    obtain here | here := plain
    · rw [parserEntityRound, here]
      simp only [parserParseEntityUsingClen]
      split_ifs <;> simp
    · rw [parserEntityRound, here]
      simp [parserParseEntityUntilClose]
  rw [parserParseEntity_last last]
  apply parserEntityRound_method
  obtain here | here := plain <;> simp [here]

theorem parserParseChunkyHeaders_method {q : HttpParser} (success : (parserParseChunkyHeaders q).1 = .success)
    (hasEntity : q.msg.HasEntity) :
    (parserParseChunkyHeaders q).2.msg.method =
      if (headerLines q.scanner).any isSoapLine then .soapPost else q.msg.method := by
  have ended : (parserParseHeaders q).1 = .ok := by
    by_contra other
    simp only [parserParseChunkyHeaders, if_neg other] at success
    exact (parserParseHeaders_not_success hasEntity).1 success
  simp only [parserParseChunkyHeaders, if_pos ended]
  simp only [HttpParser.withPosition, HttpParser.withScanner, HttpParser.withEntity]
  rw [parserParseHeaders_msg]
  exact (foldl_addLine_method _ _).1

theorem parserParseEntity_method {p : HttpParser} (good : p.Good) (small : p.chunkSize < 2 ^ 32)
    (hasEntity : p.msg.HasEntity) (closed : p.entPosition = .determineReadMethod)
    (success : (parserParseEntity p).1 = .success) :
    (parserParseEntity p).2.msg.method =
      if (trailersRead p.msg p.scanner.rest).any isSoapLine then .soapPost else p.msg.method := by
  have round : parserEntityRound p = parserGetEntityReadMethod p := by rw [parserEntityRound, closed]
  have goods := good.readMethod
  have kept := parserEntityRound_method (p := p) (by rw [closed]; simp)
  have open_body : (!(p.msg.isRequest && decide (p.msg.method = .post))) = true := by
    rw [hasEntity, Bool.not_false]
  rw [trailersRead, HttpMessage.readsChunks, open_body, Bool.true_and]
  by_cases bodyless : p.msg.hasNoBody = true
  · rw [bodyless, Bool.not_true, Bool.false_and]
    rw [parserParseEntity_last, kept]
    · rfl
    · rw [round, parserGetEntityReadMethod, if_pos bodyless]
      simp
  · rw [eq_false_of_ne_true bodyless, Bool.not_false, Bool.true_and]
    rw [parserGetEntityReadMethod, if_neg bodyless] at round goods
    dsimp only at round goods
    by_cases chunked : isChunked p.msg = true
    · rw [if_pos chunked] at round goods ⊢
      set c := p.startEntity.searchTransferEncoding.withEntPosition .usingChunked with c_eq
      have enters : parserParseEntity p = parserParseEntity c := by
        rw [parserParseEntity_next (by rw [round]), round]
      have chunks : c.Chunked := ⟨goods, rfl, small, hasEntity⟩
      rw [enters] at success ⊢
      obtain ⟨q, read, reads, here, method, ended⟩ := parserParseEntity_behindChunks chunks success
      rw [ended] at success ⊢
      have ahead : chunkSizes p.scanner.rest = some (read, q.scanner.rest) := by
        have total := reads.ahead
        rw [show c.sizesAhead = chunkSizes p.scanner.rest from rfl] at total
        simpa [HttpParser.sizesAhead, here] using total
      have alike := headerLines_alike (Scanner.alike_init reads.chunked.good.more.entire)
      rw [parserParseChunkyHeaders_method success reads.chunked.hasEntity, trailersOf, ahead, method,
        alike]
      rfl
    · rw [if_neg chunked] at round ⊢
      obtain ⟨found, none⟩ := readMethodOfLength_entPosition p.startEntity.searchTransferEncoding
      by_cases more : (parserEntityRound p).1 = .continue1
      · rw [parserParseEntity_next more, parserParseEntity_plain, kept]
        · rfl
        · rw [round] at more ⊢
          exact found more
      · rw [parserParseEntity_last more, kept]
        rfl

/-! ### The whole request -/

theorem readsChunks_congr {msg msg' : HttpMessage} (headers : msg.headers = msg'.headers)
    (method : msg.method = msg'.method) (request : msg.isRequest = true) (request' : msg'.isRequest = true) :
    msg.readsChunks = msg'.readsChunks := by
  have chunked : isChunked msg = isChunked msg' := by
    rw [isChunked, isChunked, httpmsgFindHdr, httpmsgFindHdr, headers]
  rw [HttpMessage.readsChunks, HttpMessage.readsChunks, HttpMessage.hasNoBody, HttpMessage.hasNoBody,
    chunked, method, request, request']
  rfl

theorem any_soap_append (lines trailers : List ReadLine) (method : HttpMethod) :
    (if trailers.any isSoapLine then .soapPost else if lines.any isSoapLine then .soapPost else method) =
      if (lines ++ trailers).any isSoapLine then .soapPost else method := by
  rw [List.any_append]
  cases lines.any isSoapLine <;> cases trailers.any isSoapLine <;> rfl

theorem parserParse_headers_method {res : Resolver} {p : HttpParser} (unread : p.Unread)
    (position : p.position = .headers) (request : p.msg.isRequest = true)
    (success : (parserParse res p).1 = .success) :
    (parserParse res p).2.msg.method =
      if (headerLines p.scanner ++ trailersRead ((headerLines p.scanner).foldl addLine p.msg)
          ((trailersEnd p.scanner.rest).getD [])).any isSoapLine then .soapPost
      else p.msg.method := by
  have round : parserRound res p = parserParseHeaders p := by rw [parserRound, position]
  have stored := parserParseHeaders_msg p
  obtain ⟨method, request'⟩ := foldl_addLine_method (headerLines p.scanner) p.msg
  rw [← stored] at method request' ⊢
  rw [request] at request'
  by_cases ended : (parserParseHeaders p).1 = .ok
  · have entity := parserParseHeaders_hasEntity ended
    have unread' := unread.advance (parserParseHeaders_advances p) fun _ => entity
    have behind := parserParseHeaders_trailersEnd unread.good ended
    have round' : parserRound res (parserParseHeaders p).2 = parserParseEntity (parserParseHeaders p).2 := by
      rw [parserRound, parserParseHeaders_ok (Prod.ext ended rfl)]
    rw [parserParse_next (by rw [round, ended]), round, parserParse_last, round'] at success ⊢
    · rw [parserParseEntity_method unread'.good (unread'.size ▸ by decide) entity unread'.closed success, behind,
        Option.getD_some, method]
      exact any_soap_append _ _ _
    · rw [round']
      exact parserParseEntity_not_ok _
    · rw [round']
      exact parserParseEntity_not_ok _
  · rw [parserParse_last (by rwa [round]), round] at success ⊢
    have post := parserParseHeaders_post success
    have whole : (parserParseHeaders p).2.msg.readsChunks = false := by
      rw [HttpMessage.readsChunks, request', post]
      rfl
    rw [trailersRead, whole, if_neg Bool.false_ne_true, List.append_nil]
    exact method

theorem parserParse_method {res : Resolver} {stream : List UInt8}
    (success : (parserParse res (parserRequestInit.extend stream)).1 = .success) :
    (parserParse res (parserRequestInit.extend stream)).2.msg.method =
      if (requestLines stream ++ requestTrailers stream).any isSoapLine then .soapPost
      else namedMethod stream := by
  set p := parserRequestInit.extend stream with p_eq
  have unread : p.Unread := HttpParser.Initial.request.unread.extend stream
  have round : parserRound res p = parserParseRequestline res p := parserRound_requestLine rfl
  by_cases line : (parserParseRequestline res p).1 = .ok
  · have moved := parserParseRequestline_advances res p
    have position := parserParseRequestline_ok (Prod.ext line rfl)
    have read := parserParseRequestline_read (Prod.ext line rfl)
    have named : (parserParseRequestline res p).2.msg.method = namedMethod stream := read.method
    have lines : requestLines stream = headerLines (parserParseRequestline res p).2.scanner := by
      rw [requestLines, if_neg (named ▸ read.named.2), read.scanner]
      rfl
    have request : (parserParseRequestline res p).2.msg.isRequest = true := read.isRequest
    rw [parserParse_next (by rw [round, line]), round] at success ⊢
    have method := parserParse_headers_method (unread.advance moved (by rw [position]; simp)) position request success
    rw [← lines, named] at method
    rw [method, requestTrailers, trailersRead, trailersRead, headMessage]
    have same : ((requestLines stream).foldl addLine (parserParseRequestline res p).2.msg).readsChunks =
        ((requestLines stream).foldl addLine { httpmsgInit true .put with method := namedMethod stream }).readsChunks := by
      apply readsChunks_congr
      · exact foldl_addLine_congr _ read.headers
      · rw [(foldl_addLine_method _ _).1, (foldl_addLine_method _ _).1, named]
      · exact (foldl_addLine_method _ _).2.trans request
      · exact (foldl_addLine_method _ _).2
    rw [same, read.scanner]
    rfl
  · rw [parserParse_last (by rwa [round]), round] at success ⊢
    obtain ⟨method, simple⟩ := parserParseRequestline_simple success
    have named : namedMethod stream = .simpleGet := simple
    rw [method, requestTrailers, headMessage, requestLines, named]
    rfl

theorem namedMethod_ne_soap (stream : List UInt8) : namedMethod stream ≠ .soapPost := by
  rw [namedMethod, requestLine]
  dsimp only
  split_ifs
  · simp
  · cases looked : lookupMethod _ with
    | none => simp
    | some method => exact (lookupMethod_named looked).1

theorem requestTrailers_post {stream : List UInt8} (named : namedMethod stream = .post)
    (plain : (requestLines stream).any isSoapLine = false) : requestTrailers stream = [] := by
  have method : (headMessage stream).method = .post := by
    rw [headMessage, (foldl_addLine_method _ _).1, plain, if_neg Bool.false_ne_true, named]
  have request : (headMessage stream).isRequest = true := (foldl_addLine_method _ _).2
  rw [requestTrailers, trailersRead, HttpMessage.readsChunks, method, request]
  rfl

theorem expectedMethod_iff (stream : List UInt8) :
    (if (requestLines stream ++ requestTrailers stream).any isSoapLine then .soapPost
      else namedMethod stream) = expectedMethod stream ↔
        namedMethod stream = .post ∨
          ∀ line ∈ requestLines stream ++ requestTrailers stream, ¬isSoapLine line = true := by
  rw [expectedMethod, ← List.any_eq_false]
  by_cases named : namedMethod stream = .post
  · apply iff_of_true _ (.inl named)
    rw [named, decide_eq_true rfl, Bool.true_and, List.any_append]
    cases plain : (requestLines stream).any isSoapLine with
    | true => rfl
    | false => rw [requestTrailers_post named plain, List.any_nil, Bool.or_false]
  · rw [decide_eq_false named, Bool.false_and, if_neg Bool.false_ne_true]
    cases (requestLines stream ++ requestTrailers stream).any isSoapLine with
    | true => simp [named, (namedMethod_ne_soap stream).symm]
    | false => simp

theorem parserFeed_method {res : Resolver} {fragments : List (List UInt8)}
    (success : (parserFeed res parserRequestInit fragments).1 = .success) :
    (parserFeed res parserRequestInit fragments).2.msg.method =
      if (requestLines fragments.flatten ++ requestTrailers fragments.flatten).any isSoapLine then .soapPost
      else namedMethod fragments.flatten := by
  obtain ⟨whole, observed⟩ := parserFeed_success .request success []
  rw [List.append_nil] at whole observed
  rw [← (observe_fields observed).1]
  exact parserParse_method whole

/-- A request is dispatched by the method that it asks for, unless it has a line SOAPACTION and is no POST. -/
theorem parserFeed_method_iff {res : Resolver} {fragments : List (List UInt8)}
    (success : (parserFeed res parserRequestInit fragments).1 = .success) :
    (parserFeed res parserRequestInit fragments).2.msg.method = expectedMethod fragments.flatten ↔
      namedMethod fragments.flatten = .post ∨
        ∀ line ∈ requestLines fragments.flatten ++ requestTrailers fragments.flatten,
          ¬isSoapLine line = true := by
  rw [parserFeed_method success]
  exact expectedMethod_iff fragments.flatten

theorem parserFeed_method_get :
    (parserFeed noHosts parserRequestInit
        [bytes "GET / HTTP/1.1\r\nHO", bytes "ST: a\r\n\r\n"]).1 = .success ∧
      (parserFeed noHosts parserRequestInit
        [bytes "GET / HTTP/1.1\r\nHO", bytes "ST: a\r\n\r\n"]).2.msg.method =
          expectedMethod [bytes "GET / HTTP/1.1\r\nHO", bytes "ST: a\r\n\r\n"].flatten :=
  ⟨by decide +kernel, (parserFeed_method_iff (by decide +kernel)).mpr (.inr (by decide +kernel))⟩

/-- A GET with a SOAPACTION is dispatched as a SOAP call. -/
theorem parserFeed_get_soap :
    ¬∀ (res : Resolver) (fragments : List (List UInt8)),
      (parserFeed res parserRequestInit fragments).1 = .success →
        (parserFeed res parserRequestInit fragments).2.msg.method = expectedMethod fragments.flatten := by
  intro claim
  have same := claim noHosts [bytes "GET / HTTP/1.1\r\nSOAPACTION: a\r\nCONTENT-LENGTH: 0\r\n\r\n"]
    (by decide +kernel)
  revert same
  decide +kernel

/-- Which requests come to the SOAP handler. -/
theorem dispatchRequest_soap_iff {res : Resolver} {fragments : List (List UInt8)}
    (success : (parserFeed res parserRequestInit fragments).1 = .success) :
    dispatchRequest (parserFeed res parserRequestInit fragments).2.msg.method = some .soap ↔
      namedMethod fragments.flatten = .mpost ∨
        ∃ line ∈ requestLines fragments.flatten ++ requestTrailers fragments.flatten, isSoapLine line = true := by
  rw [parserFeed_method success, ← List.any_eq_true]
  have other := namedMethod_ne_soap fragments.flatten
  cases (requestLines fragments.flatten ++ requestTrailers fragments.flatten).any isSoapLine with
  | true => exact iff_of_true rfl (.inr rfl)
  | false =>
    rw [if_neg Bool.false_ne_true]
    generalize namedMethod fragments.flatten = named at other
    cases named <;> simp_all [dispatchRequest]

theorem dispatchRequest_soap_get :
    dispatchRequest (parserFeed noHosts parserRequestInit
      [bytes "GET / HTTP/1.1\r\nSOAPACTION: a\r\n", bytes "CONTENT-LENGTH: 0\r\n\r\n"]).2.msg.method = some .soap :=
  (dispatchRequest_soap_iff (by decide +kernel)).mpr (.inr (by decide +kernel))

end Pupnp.Http
