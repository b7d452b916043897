import Pupnp.Http.ChunkedBody
import Pupnp.Http.RecvMessage

/-!
Requests that a control point writes piece by piece: `http_OpenHttpConnection`,
`http_MakeHttpRequest`, `http_WriteHttpRequest`, `http_EndHttpRequest`. The socket
takes whatever it is given.
-/

namespace Pupnp.Http
open Pupnp.CString Pupnp.Uri Pupnp.Stream

def UPNP_USING_CHUNKED : Int := -3

structure HttpConnectionHandle where
  wire : List UInt8
  contentLength : Int
  requestStarted : Bool
  deriving DecidableEq, Repr

def HttpConnectionHandle.sockWrite (handle : HttpConnectionHandle) (buf : List UInt8) :
    Int × HttpConnectionHandle :=
  (toInt32 buf.length, { handle with wire := handle.wire ++ buf })

/-- `http_OpenHttpConnection`; `memory` is what `malloc` left at the content length, which nothing
sets. -/
def httpOpenHttpConnection (memory : Int) : HttpConnectionHandle :=
  { wire := [], contentLength := memory, requestStarted := false }

def httpMakeHttpRequest (makeGenericMessage : Int → List UInt8) (contentLength : Int)
    (handle : HttpConnectionHandle) : HttpConnectionHandle :=
  ({ handle with requestStarted := true }.sockWrite (makeGenericMessage contentLength)).2

/-- `http_WriteHttpRequest`: the result, the new `*size` and the handle. -/
def httpWriteHttpRequest (buf : List UInt8) (handle : HttpConnectionHandle) :
    Int × Nat × HttpConnectionHandle :=
  let tempbuf :=
    if handle.contentLength = UPNP_USING_CHUNKED then
      if buf.length ≠ 0 then hexDigits buf.length ++ [CR, LF] ++ buf ++ [CR, LF] else []
    else buf
  let sent := handle.sockWrite tempbuf
  if sent.1 < 0 then (sent.1, 0, sent.2) else (UPNP_E_SUCCESS, sent.1.toNat, sent.2)

def httpEndHttpRequest (handle : HttpConnectionHandle) : Int × HttpConnectionHandle :=
  if handle.requestStarted then
    let handle := { handle with requestStarted := false }
    if handle.contentLength = UPNP_USING_CHUNKED then
      (UPNP_E_SUCCESS, (handle.sockWrite (bytes "0\r\n\r\n")).2)
    else (UPNP_E_SUCCESS, handle)
  else (UPNP_E_SUCCESS, handle)

def openedRequest (memory : Int) (makeGenericMessage : Int → List UInt8) : HttpConnectionHandle :=
  httpMakeHttpRequest makeGenericMessage UPNP_USING_CHUNKED (httpOpenHttpConnection memory)

def writeAll (buffers : List (List UInt8)) (handle : HttpConnectionHandle) : HttpConnectionHandle :=
  buffers.foldl (fun handle buf => (httpWriteHttpRequest buf handle).2.2) handle

/-- What goes over the wire behind the header block of a request with these buffers. -/
def requestBody (memory : Int) (makeGenericMessage : Int → List UInt8)
    (buffers : List (List UInt8)) : List UInt8 :=
  let opened := openedRequest memory makeGenericMessage
  (httpEndHttpRequest (writeAll buffers opened)).2.wire.drop opened.wire.length

/-! ### What is on the wire -/

def chunkOf (data : List UInt8) : List UInt8 := hexDigits data.length ++ [CR, LF] ++ data ++ [CR, LF]

def lastChunk : List UInt8 := bytes "0\r\n\r\n"

def pieceOf (contentLength : Int) (buf : List UInt8) : List UInt8 :=
  if contentLength = UPNP_USING_CHUNKED then chunkOf buf else buf

theorem sent_handle (sent : Int × HttpConnectionHandle) :
    (if sent.1 < 0 then (sent.1, 0, sent.2) else (UPNP_E_SUCCESS, sent.1.toNat, sent.2)).2.2 =
      sent.2 := by
  split <;> rfl

theorem httpWriteHttpRequest_wire {handle : HttpConnectionHandle} {buf : List UInt8}
    (nonempty : buf ≠ []) : (httpWriteHttpRequest buf handle).2.2 =
      { handle with wire := handle.wire ++ pieceOf handle.contentLength buf } := by
  have length : buf.length ≠ 0 := by simpa using nonempty
  rw [httpWriteHttpRequest, sent_handle, if_pos length, HttpConnectionHandle.sockWrite]
  rfl

theorem writeAll_wire {handle : HttpConnectionHandle} {buffers : List (List UInt8)}
    (nonempty : ∀ b ∈ buffers, b ≠ []) : writeAll buffers handle =
      { handle with wire := handle.wire ++ buffers.flatMap (pieceOf handle.contentLength) } := by
  induction buffers generalizing handle with
  | nil => simp [writeAll]
  | cons buf rest ih =>
    have later := fun handle => @ih handle fun b member => nonempty b (List.mem_cons_of_mem buf member)
    rw [writeAll, List.foldl_cons, httpWriteHttpRequest_wire (nonempty buf List.mem_cons_self)]
    change writeAll rest _ = _
    rw [later, List.flatMap_cons, ← List.append_assoc]

theorem requestBody_eq (memory : Int) (makeGenericMessage : Int → List UInt8)
    {buffers : List (List UInt8)} (nonempty : ∀ b ∈ buffers, b ≠ []) :
    requestBody memory makeGenericMessage buffers = buffers.flatMap (pieceOf memory) ++
      if memory = UPNP_USING_CHUNKED then lastChunk else [] := by
  have contentLength : (openedRequest memory makeGenericMessage).contentLength = memory := rfl
  have started : (openedRequest memory makeGenericMessage).requestStarted = true := rfl
  rw [requestBody]
  simp only [writeAll_wire nonempty, httpEndHttpRequest, started, contentLength, if_true,
    HttpConnectionHandle.sockWrite]
  split
  · simp [lastChunk]
  · simp

theorem chunks_chunkedBody {buffers : List (List UInt8)} (nonempty : ∀ b ∈ buffers, b ≠ [])
    (small : ∀ b ∈ buffers, b.length < 2 ^ 32) :
    ChunkedBody (buffers.flatMap chunkOf ++ lastChunk) buffers [CR, LF] := by
  induction buffers with
  | nil =>
    have shape : hexDigits 0 ++ CR :: LF :: [CR, LF] = lastChunk := by decide +kernel
    have line := @chunkSizeLine_hexDigits 0 (by decide) [CR, LF]
    rw [shape] at line
    exact .last line
  | cons buf rest ih =>
    have later := ih (fun b member => nonempty b (List.mem_cons_of_mem buf member))
      fun b member => small b (List.mem_cons_of_mem buf member)
    have fits := small buf List.mem_cons_self
    refine .chunk ?_ (nonempty buf List.mem_cons_self) (chunkEnd_crlf _) later
    rw [List.flatMap_cons, chunkOf]
    simpa using @chunkSizeLine_hexDigits buf.length (by omega)
      (buf ++ CR :: LF :: (rest.flatMap chunkOf ++ lastChunk))

/-! ### What a parser makes of it -/

structure HttpParser.AwaitsChunks (p : HttpParser) : Prop where
  position : p.position = .entity
  entPosition : p.entPosition = .usingChunked
  entire : p.scanner.entireMsgLoaded = false
  loaded : p.scanner.cursor = p.scanner.msg.length
  start : p.entityStartPosition = p.scanner.cursor
  entity : p.msg.entity = ⟨some p.entityStartPosition, 0⟩
  discarded : p.msg.amountDiscarded = 0
  size : p.chunkSize = 0

/-- Fed in any pieces behind the headers, the body is parsed with success into this entity. -/
def ParsesBack (body entity : List UInt8) : Prop :=
  ∀ (res : Resolver) (p : HttpParser) (fragments : List (List UInt8)), p.AwaitsChunks →
    fragments.flatten = body →
      (parserFeed res p fragments).1 = .success ∧
        (parserFeed res p fragments).2.entityBytes = entity

namespace HttpParser.AwaitsChunks
variable {p : HttpParser} (waits : p.AwaitsChunks)
include waits

theorem good : p.Good := by
  refine ⟨⟨waits.entire, waits.loaded.le⟩, waits.discarded, fun _ => ?_, ?_⟩
  · rw [waits.entity]
  · rw [waits.entity]
    rintro buf found
    obtain rfl := Option.some.inj found
    rw [HttpParser.entityLimit, waits.entPosition]
    simp [EntPosition.isChunked, waits.start]

theorem atChunk (body : List UInt8) : (p.extend body).AtChunk [] body := by
  have inside := waits.loaded.le
  refine ⟨waits.entPosition, ⟨waits.entire, ?_⟩, waits.start.le, ?_, ?_, waits.discarded, ?_⟩
  · simp only [HttpParser.extend, HttpParser.withScanner, Scanner.extend, List.length_append]
    omega
  · change ((p.scanner.msg ++ body).take p.scanner.cursor).drop p.entityStartPosition = []
    rw [waits.start, List.drop_eq_nil_iff, List.length_take]
    exact Nat.min_le_left _ _
  · change (p.scanner.msg ++ body).drop p.scanner.cursor = body
    rw [waits.loaded, List.drop_left]
  · rw [show (p.extend body).chunkSize = p.chunkSize from rfl, waits.size]
    decide

theorem idle (res : Resolver) : parserParse res p = (.incomplete, p) := by
  have rest : p.scanner.rest = [] := by
    rw [Scanner.rest, waits.loaded, List.drop_length]
  have token : scannerGetToken p.scanner = .error .incomplete := by
    rw [scannerGetToken_rest, rest]
    rfl
  have matched : matchFormat p.scanner "%x%L%c" = (.incomplete, p.scanner, []) := by
    rw [matchFormat, format_chunkSize, vfmatch]
    simp [vfmatchLoop, matchDirective, matchInt, token]
  have round : parserEntityRound p = (.incomplete, p) := by
    rw [parserEntityRound, waits.entPosition]
    simp only [parserParseChunkyEntity, matched, storeChunkSize]
    rfl
  rw [parserParse_atEntity waits.position, parserParseEntity_last (by rw [round]; simp), round]

theorem feed_same (res : Resolver) (fragments : List (List UInt8)) :
    parserConsumer.Same (parserFeed res p fragments)
      (parserParseEntity (p.extend fragments.flatten)) := by
  have idle := waits.idle res
  have short : parserConsumer.waits (parserParse res p).1 := by
    rw [idle]
    exact .inl rfl
  have same := (parserParse_incremental res).feed_same (parserParse_settled res) waits.good short
    fragments (by
      rintro received later - ⟨requestLine, -⟩
      have here : (p.extend received.flatten).position = .entity := waits.position
      change (p.extend received.flatten).position = _ at requestLine
      rw [here] at requestLine
      contradiction)
  rw [idle] at same
  have here : (p.extend fragments.flatten).position = .entity := waits.position
  rw [← @parserParse_atEntity res _ here]
  exact same

end HttpParser.AwaitsChunks

theorem chunks_parseBack {buffers : List (List UInt8)} (nonempty : ∀ b ∈ buffers, b ≠ [])
    (small : ∀ b ∈ buffers, b.length < 2 ^ 32) :
    ParsesBack (buffers.flatMap chunkOf ++ lastChunk) buffers.flatten := by
  intro res p fragments waits whole
  have same := waits.feed_same res fragments
  rw [whole] at same
  obtain ⟨q, to_q, there⟩ :=
    parserParseEntity_chunks (waits.atChunk _) (chunks_chunkedBody nonempty small) small
  have buf : (p.extend (buffers.flatMap chunkOf ++ lastChunk)).msg.entity.buf =
      some (p.extend (buffers.flatMap chunkOf ++ lastChunk)).entityStartPosition :=
    congrArg Entity.buf waits.entity
  obtain ⟨success, entity⟩ := parserParseEntity_lineEnd there buf
  rw [to_q] at same
  refine ⟨same.status.trans success, ?_⟩
  calc (parserFeed res p fragments).2.entityBytes
      = (parserParseEntity q).2.entityBytes := congrArg Prod.snd same.observed
    _ = buffers.flatten := entity

theorem chunkSizes_sum {body rest : List UInt8} {values : List Int}
    (sizes : chunkSizes body = some (values, rest)) : (values.map takenSize).sum < body.length := by
  fun_induction chunkSizes body generalizing values rest with
  | case1 body none => cases sizes
  | case2 body value data line last =>
    cases sizes
    have shorter := chunkSizeLine_length line
    simp only [List.map_cons, List.map_nil, List.sum_cons, List.sum_nil, last]
    omega
  | case3 body value data line more ended => cases sizes
  | case4 body value data line more later ended ih =>
    obtain ⟨⟨tail, left⟩, found, same⟩ := Option.map_eq_some_iff.mp sizes
    cases same
    have fewer := ih found
    have shorter := chunkSizeLine_length line
    have ends := chunkEnd_length ended
    rw [List.length_drop] at ends
    simp only [List.map_cons, List.sum_cons]
    omega

def chunksAhead : HttpParser :=
  { parserResponseInit .get with
    position := .entity
    entPosition := .usingChunked
    msg := { httpmsgInit false .get with entity := ⟨some 0, 0⟩ } }

theorem not_parsesBack_self (text : List UInt8) : ¬ParsesBack text text := by
  intro back
  have waits : chunksAhead.AwaitsChunks := ⟨rfl, rfl, rfl, rfl, rfl, rfl, rfl, rfl⟩
  obtain ⟨success, entity⟩ := back noHosts chunksAhead [text] waits (by simp)
  have same := waits.feed_same noHosts [text]
  rw [same.status] at success
  have observed : (parserFeed noHosts chunksAhead [text]).2.entityBytes =
      (parserParseEntity (chunksAhead.extend [text].flatten)).2.entityBytes :=
    congrArg Prod.snd same.observed
  rw [observed] at entity
  have chunked : (chunksAhead.extend [text].flatten).Chunked :=
    ⟨waits.good.extend _, rfl, show 0 < 2 ^ 32 by decide, rfl⟩
  obtain ⟨-, values, rest, ahead, length⟩ := parserParseEntity_sizes chunked success
  have sizes : chunkSizes text = some (values, rest) := by
    have whole := (waits.atChunk [text].flatten).ahead
    rw [HttpParser.sizesAhead] at ahead
    change chunkSizes (chunksAhead.extend [text].flatten).scanner.rest = _ at ahead
    rwa [whole, List.flatten_singleton] at ahead
  have fewer := chunkSizes_sum sizes
  have taken : (chunksAhead.extend [text].flatten).takenSoFar = 0 := rfl
  rw [taken, Nat.zero_add] at length
  have bytes := congrArg List.length entity
  rw [HttpParser.entityBytes] at bytes
  split at bytes
  · rw [Memptr.read, List.length_take] at bytes
    have short := bytes.symm.le.trans (Nat.min_le_left _ _)
    dsimp only at short
    omega
  · have empty : text.length = 0 := bytes.symm
    omega

/-- What a control point writes into a request comes back out of a parser where the content length
in the handle happens to say that the request is chunked and no buffer has 4 GiB; it does not where
the content length says anything else. -/
theorem requestBody_parsesBack (memory : Int) (makeGenericMessage : Int → List UInt8)
    (buffers : List (List UInt8)) (nonempty : ∀ b ∈ buffers, b ≠ []) :
    (memory = UPNP_USING_CHUNKED ∧ (∀ b ∈ buffers, b.length < 2 ^ 32) →
        ParsesBack (requestBody memory makeGenericMessage buffers) buffers.flatten) ∧
      (ParsesBack (requestBody memory makeGenericMessage buffers) buffers.flatten →
        memory = UPNP_USING_CHUNKED) := by
  rw [requestBody_eq memory makeGenericMessage nonempty]
  constructor
  · rintro ⟨rfl, small⟩
    rw [if_pos rfl, show pieceOf UPNP_USING_CHUNKED = chunkOf from rfl]
    exact chunks_parseBack nonempty small
  · intro back
    by_contra other
    have raw : buffers.flatMap (pieceOf memory) = buffers.flatten := by
      rw [List.flatten_eq_flatMap]
      apply List.flatMap_congr
      intro buf _
      rw [pieceOf, if_neg other]
      rfl
    rw [raw, if_neg other, List.append_nil] at back
    exact not_parsesBack_self _ back

theorem requestBody_parsesBack_hello :
    ParsesBack (requestBody (-3) (fun _ => bytes "POST / HTTP/1.1\r\n\r\n") [bytes "hel", bytes "lo"])
      (bytes "hello") := by
  have back := (requestBody_parsesBack (-3) (fun _ => bytes "POST / HTTP/1.1\r\n\r\n")
    [bytes "hel", bytes "lo"] (by decide)).1 ⟨rfl, by decide⟩
  rwa [show [bytes "hel", bytes "lo"].flatten = bytes "hello" by decide] at back

/-- On a handle whose memory was zero, the buffers go out as they are. -/
theorem requestBody_not_chunked :
    ¬∀ (memory : Int) (makeGenericMessage : Int → List UInt8) (buffers : List (List UInt8)),
      (∀ b ∈ buffers, b ≠ []) →
        ParsesBack (requestBody memory makeGenericMessage buffers) buffers.flatten := by
  intro claim
  have back := claim 0 (fun _ => bytes "POST / HTTP/1.1\r\n\r\n") [bytes "hello"] (by decide)
  have body : requestBody 0 (fun _ => bytes "POST / HTTP/1.1\r\n\r\n") [bytes "hello"] =
      [bytes "hello"].flatten := by decide
  rw [body] at back
  exact not_parsesBack_self _ back

end Pupnp.Http
