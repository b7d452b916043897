import Pupnp.Web.Framing
import Pupnp.Web.DocumentRoot

/-!
When the body of a response is framed as its headers announce.
-/

namespace Pupnp.Web
open Pupnp.CString Pupnp.Path Pupnp.Uri Pupnp.Http

section Cases
variable {σ : Type} {contents : WebContents σ} {req : HttpMessage} {document : Document}
  {prepared : Prepared} {details : FileDetails}

def InstrFramed (instr : SendInstruction) (content body : List UInt8) : Prop :=
  ∃ decoded, Announces content (if instr.isRangeActive then some instr.rangeHeader else none) decoded ∧
    if instr.isChunkActive then
      ∃ chunks tail, ChunkedBody body chunks tail ∧ trailersEnd tail = some [] ∧ chunks.flatten = decoded
    else (instr.isRangeActive ∨ 0 ≤ instr.readSendSize → (body.length : Int) = instr.readSendSize) ∧
      body = decoded

theorem framedAs_responseParts (instr : SendInstruction) (content body : List UInt8) :
    FramedAs (responseParts instr details) content body ↔ InstrFramed instr content body := by
  unfold FramedAs InstrFramed
  rw [announcedChunks_response, announcedRange_response]
  cases chunks : instr.isChunkActive with
  | true => rfl
  | false =>
    apply exists_congr
    intro decoded
    rw [announcedLength_response instr details chunks]
    simp only [Bool.false_eq_true, if_false, Bool.or_eq_true, decide_eq_true_eq]
    apply and_congr_right'
    split_ifs with sized
    · simp [sized]
    · simp [sized]

theorem not_instrFramed_chunks {instr : SendInstruction} {content body : List UInt8}
    (chunked : instr.isChunkActive = true) (never : ∀ chunks tail, ¬ChunkedBody body chunks tail) :
    ¬InstrFramed instr content body := by
  rintro ⟨decoded, -, framed⟩
  rw [if_pos chunked] at framed
  obtain ⟨chunks, tail, encoded, -⟩ := framed
  exact never chunks tail encoded

def askedBytes (instr : SendInstruction) (content : List UInt8) : List UInt8 :=
  if instr.isRangeActive then (content.drop instr.rangeOffset.toNat).take instr.readSendSize.toNat
  else content

theorem askedBytes_length {instr : SendInstruction} {content : List UInt8}
    (instructed : Instructed req document instr) (length : document.finfo.fileLength = content.length) :
    ((askedBytes instr content).length : Int) = instr.readSendSize := by
  unfold askedBytes
  split
  next range =>
      have inside := (instructed.selects range).inside
      rw [List.length_take, List.length_drop]
      omega
  next whole =>
      rw [instructed.whole (Bool.eq_false_iff.mpr whole), length]

theorem instrFramed_plain {instr : SendInstruction} {content : List UInt8}
    (instructed : Instructed req document instr) (plain : instr.isChunkActive = false)
    (accurate : 0 ≤ document.finfo.fileLength → document.finfo.fileLength = content.length) :
    InstrFramed instr content (askedBytes instr content) := by
  have known (sized : instr.isRangeActive = true ∨ 0 ≤ instr.readSendSize) :
      0 ≤ document.finfo.fileLength := by
    cases range : instr.isRangeActive with
    | true =>
      have inside := (instructed.selects range).inside
      omega
    | false =>
      have whole := instructed.whole range
      have size := sized.resolve_left (by rw [range]; exact Bool.false_ne_true)
      omega
  refine ⟨askedBytes instr content, ?_, ?_⟩
  · exact announces_instructed instructed fun range => accurate (known (.inl range))
  · rw [if_neg (by rw [plain]; exact Bool.false_ne_true)]
    exact ⟨fun sized => askedBytes_length instructed (accurate (known sized)), rfl⟩

/-- Without a virtual file of unknown length the `TE` header alone switches chunks on. -/
theorem Instructed.chunks_known {instr : SendInstruction} (instructed : Instructed req document instr)
    (known : 0 ≤ document.finfo.fileLength) : instr.isChunkActive = wantsTe req.headers := by
  have sized : document.finfo.fileLength ≠ Web.UPNP_USING_CHUNKED := by
    rw [Web.UPNP_USING_CHUNKED]
    omega
  rw [instructed.chunks, decide_eq_false sized, Bool.and_false, Bool.or_false]

theorem instrFramed_alias {instr : SendInstruction} {text : List UInt8}
    (instructed : Instructed req document instr) (markup : text.head? = some 60)
    (length : document.finfo.fileLength = text.length) :
    InstrFramed instr text text ↔
      wantsTe req.headers = false ∧ ∀ range, rangeText req.headers = some range →
        (createHTTPRangeResponseHeader range document.finfo.fileLength
          (newInstruction document)).2.readSendSize = document.finfo.fileLength := by
  have chunks : instr.isChunkActive = wantsTe req.headers := instructed.chunks_known (by omega)
  cases te : wantsTe req.headers with
  | true =>
    have never := @not_instrFramed_chunks instr text text (chunks.trans te) (not_chunkedBody_markup markup)
    exact ⟨fun framed => absurd framed never, fun fits => Bool.noConfusion fits.1⟩
  | false =>
    have plain := chunks.trans te
    constructor
    · rintro ⟨decoded, -, framed⟩
      rw [if_neg (by rw [plain]; exact Bool.false_ne_true)] at framed
      refine ⟨rfl, fun range here => ?_⟩
      rw [← instructed.size range here]
      cases active : instr.isRangeActive with
      | true => rw [length, framed.1 (.inl active)]
      | false => exact instructed.whole active
    · rintro ⟨-, fits⟩
      have asked : askedBytes instr text = text := by
        unfold askedBytes
        split
        next active =>
            obtain ⟨range, here⟩ := instructed.asked active
            have size := (instructed.size range here).trans (fits range here)
            have inside := (instructed.selects active).inside
            have start : instr.rangeOffset.toNat = 0 := by omega
            rw [start, List.drop_zero, List.take_of_length_le (by omega)]
        next => rfl
      have framed := instrFramed_plain instructed plain fun _ => length
      rwa [asked] at framed

theorem sentFile_known {reader : FileReader σ} {instr : SendInstruction} (known : 0 ≤ instr.readSendSize)
    {file : σ} (inside : instr.readSendSize ≤ (reader.rest file).length) :
    ∃ pieces, Pieces ((reader.rest file).take instr.readSendSize.toNat) pieces ∧
      (sendFile reader instr (sendAmount instr).2 (sendAmount instr).1 file).1 = piecesText instr pieces := by
  have amount : (sendAmount instr).1 = (instr.readSendSize.toNat : Int) := by
    simp only [sendAmount, if_pos known]
    omega
  have buffer : (sendAmount instr).2 ≤ WEB_SERVER_BUF_SIZE ∧
      (0 < instr.readSendSize.toNat → 0 < (sendAmount instr).2) := by
    have size : 0 < WEB_SERVER_BUF_SIZE := by decide
    simp only [sendAmount, if_pos known]
    split <;> omega
  obtain ⟨pieces, cut, sent⟩ := sendFile_known known buffer.2 buffer.1
    (show instr.readSendSize.toNat ≤ (reader.rest file).length by omega)
  exact ⟨pieces, cut, by rw [amount, sent]⟩

theorem instrFramed_known {reader : FileReader σ} {instr : SendInstruction} {file : σ}
    (instructed : Instructed req document instr) (known : 0 ≤ document.finfo.fileLength)
    (length : document.finfo.fileLength = (reader.rest file).length) :
    InstrFramed instr (reader.rest file)
      (sendFile reader instr (sendAmount instr).2 (sendAmount instr).1 (if instr.isRangeActive then
        reader.seek file instr.rangeOffset.toNat else file)).1 ↔ wantsTe req.headers = false := by
  have chunks := instructed.chunks_known known
  set start := if instr.isRangeActive then reader.seek file instr.rangeOffset.toNat else file with start_eq
  have sized : 0 ≤ instr.readSendSize ∧ instr.readSendSize ≤ (reader.rest start).length ∧
      (reader.rest start).take instr.readSendSize.toNat = askedBytes instr (reader.rest file) := by
    unfold askedBytes
    cases active : instr.isRangeActive with
    | true =>
      have inside := (instructed.selects active).inside
      rw [start_eq, active, if_pos rfl, if_pos rfl, reader.seek_rest, List.length_drop]
      exact ⟨inside.2.1, by omega, rfl⟩
    | false =>
      have whole := instructed.whole active
      rw [start_eq, active, if_neg Bool.false_ne_true, if_neg Bool.false_ne_true]
      exact ⟨by omega, by omega, List.take_of_length_le (by omega)⟩
  obtain ⟨pieces, cut, sent⟩ := sentFile_known sized.1 sized.2.1
  rw [sent]
  cases te : wantsTe req.headers with
  | true =>
    have never := @not_instrFramed_chunks instr (reader.rest file) _ (chunks.trans te)
      (not_chunkedBody_pieces cut.nonempty cut.below)
    rw [piecesText_chunks (chunks.trans te)]
    exact ⟨fun framed => absurd framed never, nofun⟩
  | false =>
    have framed := instrFramed_plain instructed (chunks.trans te) fun _ => length
    rw [piecesText_plain (chunks.trans te), cut.whole, sized.2.2]
    exact ⟨fun _ => rfl, fun _ => framed⟩

theorem instrFramed_unknown {reader : FileReader σ} {instr : SendInstruction} {file : σ}
    (instructed : Instructed req document instr) (unknown : document.finfo.fileLength < 0) :
    InstrFramed instr (reader.rest file)
      (sendFile reader instr (sendAmount instr).2 (sendAmount instr).1 (if instr.isRangeActive then
        reader.seek file instr.rangeOffset.toNat else file)).1 := by
  have whole : instr.isRangeActive = false := by
    by_contra active
    have inside := (instructed.selects (by simpa using active)).inside
    omega
  have size := instructed.whole whole
  have negative : instr.readSendSize < 0 := by omega
  have amount : sendAmount instr = ((WEB_SERVER_BUF_SIZE : Int), WEB_SERVER_BUF_SIZE) := by
    simp only [sendAmount, if_neg (not_le.mpr negative), lt_self_iff_false, if_false]
  obtain ⟨pieces, cut, sent⟩ := @sendFile_toEnd σ reader instr negative WEB_SERVER_BUF_SIZE file
    (by decide) le_rfl
  rw [amount, whole, if_neg Bool.false_ne_true, sent]
  refine ⟨reader.rest file, ?_, ?_⟩
  · rw [whole, if_neg Bool.false_ne_true]
    exact .whole
  · cases chunks : instr.isChunkActive with
    | true =>
      have ends : trailersEnd [CR, LF] = some [] := by decide +kernel
      rw [if_pos rfl, if_pos rfl, piecesText_chunks chunks]
      exact ⟨pieces, [CR, LF], chunks_chunkedBody cut.nonempty cut.below, ends, cut.whole⟩
    | false =>
      rw [if_neg Bool.false_ne_true, if_neg Bool.false_ne_true, piecesText_plain chunks, cut.whole,
        List.append_nil, whole]
      refine ⟨?_, rfl⟩
      rintro (active | positive)
      · exact Bool.noConfusion active
      · omega

theorem preparedRequest_ok (accepted : preparedRequest contents req = .ok (document, prepared)) :
    prepareResponse contents.details req document = .ok prepared := by
  unfold preparedRequest at accepted
  cases found : requestedDocument contents.server req with
  | error code => rw [found] at accepted; cases accepted
  | ok there =>
    rw [found] at accepted
    cases ready : prepareResponse contents.details req there with
    | error code => simp [Except.bind, Except.map, ready] at accepted
    | ok result =>
      have same : (there, result) = (document, prepared) := by
        simpa [Except.bind, Except.map, ready] using accepted
      obtain ⟨rfl, rfl⟩ := Prod.mk.inj same
      exact ready

/-- The body of a `GET` is the one that its instruction describes if and only if no chunks were asked for
of a document of known length and no proper range of the alias document. -/
theorem sentBody_get (get : req.method = .get) (instructed : Instructed req document prepared.instr)
    (kind : prepared.rtype = responseType req document.source) (name : prepared.filename = document.filename)
    {content : List UInt8} (serves : Serves contents document content) :
    InstrFramed prepared.instr content (sentBody contents prepared) ↔ FramingFits req document := by
  have notHead : req.method ≠ .head := by rw [get]; decide
  have notHead' : ¬req.method = .head := notHead
  unfold FramingFits
  rw [or_iff_right notHead']
  unfold responseType at kind
  rw [if_neg notHead'] at kind
  cases serves with
  | alias_ source length markup =>
    rw [source] at kind
    rw [sentBody_alias kind, instrFramed_alias instructed markup length]
    have large : ¬document.finfo.fileLength < 0 := by omega
    simp only [large, imp_false, Bool.not_eq_true, source, forall_const]
  | file source file opened accurate =>
    have kinds : prepared.rtype = .filedoc ∨ prepared.rtype = .webdoc := by
      cases origin : document.source with
      | virtualDir => rw [origin] at kind; exact .inr kind
      | xmlAlias => exact absurd origin source
      | documentRoot => rw [origin] at kind; exact .inl kind
    have opened' : contents.openFile prepared.instr.isVirtualFile (prepared.filename.getD []) =
        some file := by
      rw [instructed.virtual, name]
      exact opened
    rw [sentBody_file kinds opened']
    by_cases known : 0 ≤ document.finfo.fileLength
    · rw [instrFramed_known instructed known (accurate known)]
      have large : ¬document.finfo.fileLength < 0 := not_lt.mpr known
      simp [large, source]
    · have unknown := not_le.mp known
      simp [instrFramed_unknown instructed unknown, unknown, source]

/-- Behind the headers of an accepted `GET` or `HEAD` goes a body that is framed as they announce if and
only if no chunks were asked for of a document of known length and no proper range of the alias document. -/
theorem webServerCallback_framed (method : req.method = .get ∨ req.method = .head)
    (accepted : preparedRequest contents req = .ok (document, prepared)) {content : List UInt8}
    (serves : req.method = .get → Serves contents document content) :
    (webServerCallback contents prepared).1 =
        headerText contents.env prepared ++ sentBody contents prepared ∧
      (Framed req prepared.headers content (sentBody contents prepared) ↔ FramingFits req document) := by
  have notSimple : req.method ≠ .simpleGet := by
    rcases method with get | head
    · rw [get]; decide
    · rw [head]; decide
  obtain ⟨instructed, kind, name, headers⟩ := prepareResponse_ok notSimple (preparedRequest_ok accepted)
  have notPost : prepared.rtype ≠ .post := by
    rw [kind]
    unfold responseType
    split
    · decide
    · split <;> decide
  refine ⟨webServerCallback_body notPost, ?_⟩
  rcases method with get | head
  · have notHead : ¬req.method = .head := by rw [get]; decide
    rw [Framed, if_neg notHead, headers, framedAs_responseParts]
    exact sentBody_get get instructed kind name (serves get)
  · unfold responseType at kind
    rw [if_pos head] at kind
    rw [Framed, if_pos head, sentBody_headers kind]
    exact ⟨fun _ => .inl head, fun _ => rfl⟩

end Cases

def memoryReader : FileReader (List UInt8) where
  rest := id
  read text n := (text.take n, text.drop n)
  seek text n := text.drop n
  read_split text n := (List.take_append_drop n text).symm
  read_size text n := List.length_take_le n text
  read_some text n some more := by
    intro empty
    rcases List.take_eq_nil_iff.mp empty with zero | nothing
    · omega
    · exact more nothing
  seek_rest _ _ := rfl

/-- A server for `/srv/www` in whose file system every name is a file with the text `hello`. -/
def helloContents : WebContents (List UInt8) where
  server := { plainServer with fopen := fun _ => some ⟨.regular, 5⟩ }
  env := ⟨⟨4, 1, 0, 1970, 0, 0, 0⟩, bytes "Linux", bytes "6.1", none, fun _ => false⟩
  details _ _ := ⟨bytes "text/plain", ⟨4, 1, 0, 1970, 0, 0, 0⟩, []⟩
  aliasDoc := []
  reader := memoryReader
  openFile _ _ := some (bytes "hello")

theorem helloContents_prepared {req : HttpMessage} (accepted : (preparedRequest helloContents req).toOption.map
      (fun found => (found.1.source, found.1.finfo)) = some (.documentRoot, ⟨5, false, true⟩)) :
    ∃ document prepared, preparedRequest helloContents req = .ok (document, prepared) ∧
      document.finfo.fileLength = 5 ∧ document.source = .documentRoot ∧
        Serves helloContents document (bytes "hello") := by
  cases found : preparedRequest helloContents req with
  | error code => rw [found] at accepted; cases accepted
  | ok pair =>
    rw [found] at accepted
    obtain ⟨source, finfo⟩ := Prod.mk.inj (Option.some.inj accepted)
    have length : pair.1.finfo.fileLength = 5 := by rw [finfo]
    refine ⟨pair.1, pair.2, rfl, length, source, ?_⟩
    refine .file (by rw [source]; decide) (bytes "hello") rfl fun _ => ?_
    rw [length]
    decide

/-- A file without chunks. -/
theorem webServerCallback_framed_hello : ∃ document prepared,
    preparedRequest helloContents (parsedRequest (bytes "GET /hello.txt HTTP/1.1\r\n\r\n")) =
        .ok (document, prepared) ∧
      Framed (parsedRequest (bytes "GET /hello.txt HTTP/1.1\r\n\r\n")) prepared.headers (bytes "hello")
        (sentBody helloContents prepared) := by
  obtain ⟨document, prepared, accepted, -, source, serves⟩ := @helloContents_prepared
    (parsedRequest (bytes "GET /hello.txt HTTP/1.1\r\n\r\n")) (by decide +kernel)
  refine ⟨document, prepared, accepted, ?_⟩
  refine (webServerCallback_framed (.inl (by decide +kernel)) accepted fun _ => serves).2.mpr (.inr ⟨?_, ?_⟩)
  · intro chunks
    exact absurd chunks (by with_unfolding_all decide)
  · intro xmlAlias
    rw [source] at xmlAlias
    cases xmlAlias

/-- With a `TE` header the chunks of a plain file have no end. -/
theorem webServerCallback_not_framed :
    ¬∀ (σ : Type) (contents : WebContents σ) (text : List UInt8) (document : Document) (prepared : Prepared)
        (content : List UInt8),
      (parserAppend ⟨fun _ => none, fun _ _ => none, 0⟩ parserRequestInit text).1 = .success →
        ((parsedRequest text).method = .get ∨ (parsedRequest text).method = .head) →
          preparedRequest contents (parsedRequest text) = .ok (document, prepared) →
            ((parsedRequest text).method = .get → Serves contents document content) →
              Framed (parsedRequest text) prepared.headers content (sentBody contents prepared) := by
  intro claim
  obtain ⟨document, prepared, accepted, length, source, serves⟩ := @helloContents_prepared
    (parsedRequest (bytes "GET /hello.txt HTTP/1.1\r\nTE: trailers\r\n\r\n")) (by with_unfolding_all decide)
  have get : (parsedRequest (bytes "GET /hello.txt HTTP/1.1\r\nTE: trailers\r\n\r\n")).method = .get := by
    with_unfolding_all decide
  have framed := claim _ helloContents (bytes "GET /hello.txt HTTP/1.1\r\nTE: trailers\r\n\r\n") document
    prepared (bytes "hello") (by with_unfolding_all decide) (.inl get) accepted fun _ => serves
  obtain ⟨instructed, kind, name, headers⟩ := prepareResponse_ok (by rw [get]; decide)
    (preparedRequest_ok accepted)
  rw [Framed, if_neg (by rw [get]; decide), headers, framedAs_responseParts,
    sentBody_get get instructed kind name serves] at framed
  rcases framed with head | ⟨known, -⟩
  · rw [get] at head
    cases head
  · have negative := known (by with_unfolding_all decide)
    omega

/-! ### The whole of `process_request` -/

theorem prepareResponse_answer {server : WebServer} {details : Source → Option (List UInt8) → FileDetails}
    {req : HttpMessage} (notPost : req.method ≠ .post) (document : Document) (asked : List (List UInt8))
    (checks : server.checkOtherHTTPHeaders req document.finfo.fileLength =
      (checkOtherHTTPHeaders document.finfo.fileLength req.headers (newInstruction document)).1) :
    let answer := respond server req document.source document.filename document.finfo asked
    match prepareResponse details req document with
    | .ok prepared => answer.code = HTTP_OK ∧ answer.rtype = some prepared.rtype ∧
        answer.filename = prepared.filename
    | .error code => answer.code = code ∧ answer.rtype = none := by
  unfold respond prepareResponse
  dsimp only
  rw [checks]
  by_cases failed : (checkOtherHTTPHeaders document.finfo.fileLength req.headers (newInstruction document)).1 ≠
      HTTP_OK
  · rw [if_pos failed, if_pos failed]
    exact ⟨rfl, rfl⟩
  · rw [if_neg failed, if_neg failed, if_neg notPost]
    by_cases old : (document.source = .virtualDir && document.finfo.fileLength = Web.UPNP_USING_CHUNKED &&
        calcResponseVersion req.majorVersion req.minorVersion ≠ (1, 1))
    · rw [if_pos old, if_pos old]
      exact ⟨rfl, rfl⟩
    · rw [if_neg old, if_neg old]
      exact ⟨rfl, rfl, rfl⟩

theorem respond_source (server : WebServer) (req : HttpMessage) (source : Source)
    (filename : Option (List UInt8)) (finfo : FileInfo) (asked : List (List UInt8)) :
    (respond server req source filename finfo asked).source = some source := by
  unfold respond
  dsimp only
  split
  · rfl
  · split
    · rfl
    · split <;> rfl

theorem processRequest_document (server : WebServer) (req : HttpMessage) :
    match requestedDocument server req with
    | .ok document => ∃ asked, processRequest server req =
        respond server req document.source document.filename document.finfo asked
    | .error code => (processRequest server req).code = code ∧ (processRequest server req).rtype = none := by
  unfold requestedDocument processRequest
  dsimp only
  by_cases relative : charAt (requestDocument (pathquery req)) 0 ≠ SLASH
  · rw [if_pos relative, if_pos relative]
    exact ⟨rfl, rfl⟩
  rw [if_neg relative, if_neg relative]
  by_cases virtual : isFileInVirtualDir server (requestDocument (pathquery req)) = true
  · rw [if_pos virtual, if_pos virtual]
    cases (locate req server.getInfo (requestDocument (pathquery req))).found with
    | error code => exact ⟨rfl, rfl⟩
    | ok found => exact ⟨[], rfl⟩
  rw [if_neg virtual, if_neg virtual]
  cases getAlias server (requestDocument (pathquery req)) with
  | some finfo => exact ⟨[], rfl⟩
  | none =>
    dsimp only
    by_cases noRoot : server.gDocumentRootDir.length = 0
    · rw [if_pos noRoot, if_pos noRoot]
      exact ⟨rfl, rfl⟩
    rw [if_neg noRoot, if_neg noRoot]
    cases (locate req (getFileInfo server) (trimSlashes (server.gDocumentRootDir ++
        requestDocument (pathquery req)))).found with
    | error code => exact ⟨rfl, rfl⟩
    | ok found => exact ⟨_, rfl⟩

theorem processRequest_prepared {σ : Type} {contents : WebContents σ} {req : HttpMessage}
    (notPost : req.method ≠ .post)
    (checks : ∀ document : Document, contents.server.checkOtherHTTPHeaders req document.finfo.fileLength =
      (checkOtherHTTPHeaders document.finfo.fileLength req.headers (newInstruction document)).1) :
    let answer := processRequest contents.server req
    match preparedRequest contents req with
    | .ok (document, prepared) => answer.code = HTTP_OK ∧ answer.source = some document.source ∧
        answer.rtype = some prepared.rtype ∧ answer.filename = prepared.filename
    | .error code => answer.code = code ∧ answer.rtype = none := by
  have before := processRequest_document contents.server req
  unfold preparedRequest
  cases found : requestedDocument contents.server req with
  | error code =>
    rw [found] at before
    exact before
  | ok document =>
    rw [found] at before
    obtain ⟨asked, same⟩ := before
    have behind := @prepareResponse_answer _ contents.details req notPost document asked (checks document)
    have source := respond_source contents.server req document.source document.filename document.finfo asked
    rw [← same] at behind source
    cases ready : prepareResponse contents.details req document with
    | error code =>
      rw [ready] at behind
      simpa [Except.bind, Except.map, ready] using behind
    | ok prepared =>
      rw [ready] at behind
      simpa [Except.bind, Except.map, ready, source] using behind

end Pupnp.Web
