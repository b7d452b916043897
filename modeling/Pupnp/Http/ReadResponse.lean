import Pupnp.Http.RecvMessage
import Pupnp.Http.ChunkedBody
import Pupnp.Library.Decimal

/-!
Responses that a control point reads piece by piece: `http_GetHttpResponse` and
`http_ReadHttpResponse`, which takes the bytes it delivers out of the raw message.
-/

namespace Pupnp.Http
open Pupnp.CString Pupnp.Uri Pupnp.Stream

def UPNP_E_BAD_RESPONSE : Int := -113
def UPNP_E_CANCELED : Int := -210

structure ResponseHandle where
  response : HttpParser
  cancel : Bool

/-- A loop of `ReadResponseLineAndHeaders` around one stage of the parser, from the status of a
call on; `none` while it waits for the next read. -/
def readStage (stage : HttpParser → ParseResult) (r : ParseResult) (reads : List SockRead) :
    Option (ParseResult × List SockRead) :=
  if r.1 = .incomplete then
    match reads with
    | [] => none
    | .data buf _ :: reads => readStage stage (stage (r.2.extend buf)) reads
    | .closed :: reads => some ((.failure, r.2), reads)
    | .error _ _ :: reads => some ((.failure, r.2), reads)
  else some (r, reads)

def readResponseLineAndHeaders (p : HttpParser) (reads : List SockRead) :
    Option (ParseResult × List SockRead) :=
  match readStage parserParseResponseline (parserParseResponseline p) reads with
  | none => none
  | some (r, reads) =>
      if r.1 = .ok then readStage parserParseHeaders (parserParseHeaders r.2) reads else some (r, reads)

def httpGetHttpResponse (handle : ResponseHandle) (reads : List SockRead) :
    Option (Int × ResponseHandle × List SockRead) :=
  match readResponseLineAndHeaders handle.response reads with
  | none => none
  | some (r, reads) =>
      if r.1 ≠ .ok then some (UPNP_E_BAD_RESPONSE, { handle with response := r.2 }, reads)
      else
        let method := parserGetEntityReadMethod r.2
        (if method.1 = .continue1 || method.1 = .success then UPNP_E_SUCCESS else UPNP_E_BAD_RESPONSE,
          { handle with response := method.2 }, reads)

/-- The statuses of `parser_parse_entity` that `http_ReadHttpResponse` goes on with. -/
def entityGoesOn (status : ParseStatus) : Bool :=
  status = .incompleteEntity || status = .success || status = .continue1 || status = .incomplete

/-- The loop of `http_ReadHttpResponse`: the result, the parser and the reads that are left. -/
def readMore (cancel : Bool) (size : Nat) (okOnClose : Bool) (p : HttpParser) (reads : List SockRead) :
    Option (Int × HttpParser × List SockRead) :=
  if p.msg.amountDiscarded + size > p.msg.entity.length && !cancel && p.position ≠ .complete then
    match reads with
    | [] => none
    | .data buf _ :: reads =>
        let r := parserParseEntity (p.extend buf)
        if entityGoesOn r.1 then
          readMore cancel size (okOnClose || r.1 = .incompleteEntity) r.2 reads
        else some (UPNP_E_BAD_RESPONSE, r.2, reads)
    | .closed :: reads =>
        if okOnClose then readMore cancel size okOnClose (p.withPosition .complete) reads
        else some (UPNP_E_BAD_HTTPMSG, { p with httpErrorCode := HTTP_BAD_REQUEST }, reads)
    | .error code _ :: reads => some (code, p, reads)
  else some (UPNP_E_SUCCESS, p, reads)

/-- Bytes in front of the cursor leave the raw message. Where the cursor stands in front of them, it
is not read again. -/
def Scanner.discard (sc : Scanner) (start size : Nat) : Scanner :=
  { sc with msg := membufferDelete sc.msg start size, cursor := sc.cursor - size }

def HttpParser.discard (p : HttpParser) (size : Nat) : HttpParser :=
  { p with
    scanner := p.scanner.discard p.entityStartPosition size
    msg := { p.msg with amountDiscarded := p.msg.amountDiscarded + size } }

structure HttpRead where
  ret : Int
  data : List UInt8
  handle : ResponseHandle
  reads : List SockRead

def httpReadHttpResponse (handle : ResponseHandle) (size : Nat) (reads : List SockRead) :
    Option HttpRead :=
  -- first parse what has already been gotten
  let first :=
    if handle.response.position = .complete then (.success, handle.response)
    else parserParseEntity handle.response
  if !entityGoesOn first.1 then
    some ⟨UPNP_E_BAD_RESPONSE, [], { handle with response := first.2 }, reads⟩
  else
    match readMore handle.cancel size (first.1 = .incompleteEntity) first.2 reads with
    | none => none
    | some (ret, p, reads) =>
        if ret ≠ UPNP_E_SUCCESS then some ⟨ret, [], { handle with response := p }, reads⟩
        else if handle.cancel then some ⟨UPNP_E_CANCELED, [], { handle with response := p }, reads⟩
        else
          let size := min size (p.msg.entity.length - p.msg.amountDiscarded)
          let data := (p.scanner.msg.drop p.entityStartPosition).take size
          some ⟨UPNP_E_SUCCESS, data, { handle with response := p.discard size }, reads⟩

/-- Calls with these buffers until one returns no bytes, all of them successful: what they return. -/
def readBody (handle : ResponseHandle) (reads : List SockRead) : List Nat → Option (List UInt8)
  | [] => none
  | size :: sizes =>
      match httpReadHttpResponse handle size reads with
      | none => none
      | some r =>
          if r.ret ≠ UPNP_E_SUCCESS then none
          else if r.data = [] then some []
          else (readBody r.handle r.reads sizes).map (r.data ++ ·)

def readResponse (requestMethod : HttpMethod) (reads : List SockRead) (sizes : List Nat) :
    Option (List UInt8) :=
  match httpGetHttpResponse ⟨parserResponseInit requestMethod, false⟩ reads with
  | none => none
  | some (ret, handle, reads) => if ret = UPNP_E_SUCCESS then readBody handle reads sizes else none

end Pupnp.Http
