import Pupnp.Http.Message

/-! The HTTP parser: request line, response line, headers and the framings of an entity. -/

namespace Pupnp.Http
open Pupnp.CString Pupnp.Uri

inductive ParserPos where
  | requestLine
  | responseLine
  | headers
  | entity
  | complete
  deriving DecidableEq, Repr

inductive EntPosition where
  | determineReadMethod
  | usingClen
  | usingChunked
  | untilClose
  | chunkyBody
  | chunkyHeaders
  deriving DecidableEq, Repr

def HTTP_BAD_REQUEST : Nat := 400
def HTTP_LENGTH_REQUIRED : Nat := 411
def HTTP_INTERNAL_SERVER_ERROR : Nat := 500
def HTTP_NOT_IMPLEMENTED : Nat := 501
def HTTP_HTTP_VERSION_NOT_SUPPORTED : Nat := 505

/-- `scanner.msg` is the raw message `msg.msg`, which the scanner points to. -/
structure HttpParser where
  msg : HttpMessage
  httpErrorCode : Nat
  validSsdpNotifyHack : Bool
  position : ParserPos
  entPosition : EntPosition
  contentLength : Nat
  chunkSize : Nat
  entityStartPosition : Nat
  scanner : Scanner
  deriving DecidableEq, Repr

abbrev ParseResult := ParseStatus × HttpParser

def HttpParser.withScanner (p : HttpParser) (scanner : Scanner) : HttpParser :=
  { p with scanner := scanner }

def HttpParser.withEntity (p : HttpParser) (entity : Entity) : HttpParser :=
  { p with msg := { p.msg with entity := entity } }

def HttpParser.withChunkSize (p : HttpParser) (chunkSize : Nat) : HttpParser :=
  { p with chunkSize := chunkSize }

def HttpParser.withEntPosition (p : HttpParser) (entPosition : EntPosition) : HttpParser :=
  { p with entPosition := entPosition }

def HttpParser.withPosition (p : HttpParser) (position : ParserPos) : HttpParser :=
  { p with position := position }

section Setters

variable (p : HttpParser) (sc sc' : Scanner) (entity entity' : Entity) (n : Nat)

@[simp] theorem HttpParser.withScanner_scanner : (p.withScanner sc).scanner = sc := rfl
@[simp] theorem HttpParser.withScanner_msg : (p.withScanner sc).msg = p.msg := rfl
@[simp] theorem HttpParser.withScanner_self : p.withScanner p.scanner = p := rfl
@[simp] theorem HttpParser.withEntity_scanner : (p.withEntity entity).scanner = p.scanner := rfl
@[simp] theorem HttpParser.withScanner_chunkSize : (p.withScanner sc).chunkSize = p.chunkSize := rfl
@[simp] theorem HttpParser.withChunkSize_scanner : (p.withChunkSize n).scanner = p.scanner := rfl
@[simp] theorem HttpParser.withChunkSize_chunkSize : (p.withChunkSize n).chunkSize = n := rfl
@[simp] theorem HttpParser.withEntity_entity : (p.withEntity entity).msg.entity = entity := rfl

@[simp] theorem HttpParser.withScanner_withScanner :
    (p.withScanner sc').withScanner sc = p.withScanner sc := rfl

@[simp] theorem HttpParser.withEntity_withEntity :
    (p.withEntity entity').withEntity entity = p.withEntity entity := rfl

end Setters

def httpmsgInit (isRequest : Bool) (requestMethod : HttpMethod) : HttpMessage :=
  { method := .put, uri := none, urlbuf := [], requestMethod := requestMethod, statusCode := 0,
    statusMsg := [], amountDiscarded := 0, isRequest := isRequest, majorVersion := 0,
    minorVersion := 0, headers := [], entity := ⟨none, 0⟩ }

def parserInit (isRequest : Bool) (requestMethod : HttpMethod) (position : ParserPos) : HttpParser :=
  { msg := httpmsgInit isRequest requestMethod, httpErrorCode := HTTP_BAD_REQUEST,
    validSsdpNotifyHack := false, position := position, entPosition := .determineReadMethod,
    contentLength := 0, chunkSize := 0, entityStartPosition := 0, scanner := scannerInit [] }

def parserRequestInit : HttpParser := parserInit true .put .requestLine

def parserResponseInit (requestMethod : HttpMethod) : HttpParser :=
  parserInit false requestMethod .responseLine

def strArg (args : List MatchArg) (i : Nat) : Memptr :=
  match args[i]? with
  | some (.str m) => m
  | _ => ⟨0, 0⟩

/-- `while (url.length >= 2 && url[0] == '/' && url[1] == '/') url++` -/
def stripSlashes : List UInt8 → List UInt8
  | a :: b :: rest => if a = 47 && b = 47 then stripSlashes (b :: rest) else a :: b :: rest
  | s => s

/-- Integers of `sscanf(s, "%d . %d", ..)`, as many as were converted. -/
def sscanfVersion (s : List UInt8) : List Int × List UInt8 :=
  match scanInt (cstr s) with
  | none => ([], [])
  | some (major, rest) =>
      match skipSpace rest with
      | 46 :: rest' =>
          match scanInt (skipSpace rest') with
          | none => ([major], [])
          | some (minor, rest'') => ([major, minor], rest'')
      | _ => ([major], [])

def sscanfStatus (s : List UInt8) : List Int :=
  match sscanfVersion s with
  | ([major, minor], rest) =>
      match scanInt (skipSpace rest) with
      | none => [major, minor]
      | some (code, _) => [major, minor, code]
  | (scanned, _) => scanned

def parserFail (p : HttpParser) (httpErrorCode : Nat) : ParseResult :=
  (.failure, { p with httpErrorCode := httpErrorCode })

def parserParseSimpleGet (res : Resolver) (p : HttpParser) (method url : List UInt8) : ParseResult :=
  match lookupMethod method with
  | none => parserFail p HTTP_NOT_IMPLEMENTED
  | some id =>
      if id ≠ .get then parserFail p HTTP_BAD_REQUEST
      else
        let urlbuf := stripSlashes url
        let stored := { p with msg := { p.msg with method := .simpleGet, urlbuf := urlbuf } }
        match parseUri res urlbuf urlbuf.length with
        | none => (.failure, stored)
        | some uri =>
            (.success, { stored with msg := { stored.msg with uri := some uri }, position := .complete })

def storeVersion (msg : HttpMessage) : List Int → HttpMessage
  | major :: minor :: _ => { msg with majorVersion := major, minorVersion := minor }
  | [major] => { msg with majorVersion := major }
  | [] => msg

def parserParseFullRequest (res : Resolver) (p : HttpParser) (method url version : List UInt8) :
    ParseResult :=
  let urlbuf := stripSlashes url
  let stored := { p with msg := { p.msg with urlbuf := urlbuf } }
  match parseUri res urlbuf urlbuf.length with
  | none => (.failure, stored)
  | some uri =>
      let parsed := { stored with msg := { stored.msg with uri := some uri } }
      match lookupMethod method with
      | none => parserFail parsed HTTP_NOT_IMPLEMENTED
      | some id =>
          let scanned := (sscanfVersion version).1
          let versioned := { parsed with msg := storeVersion parsed.msg scanned }
          -- an M-SEARCH must not be HTTP/1.0
          if scanned.length ≠ 2 || versioned.msg.majorVersion < 0 ||
              (versioned.msg.majorVersion = 1 && versioned.msg.minorVersion < 1 && id = .msearch) then
            parserFail versioned HTTP_HTTP_VERSION_NOT_SUPPORTED
          else
            (.ok, { versioned with msg := { versioned.msg with method := id }, position := .headers })

def parserMatchRequestline (res : Resolver) (p : HttpParser) : ParseResult :=
  let simple := matchFormat p.scanner "%s\t%S%w%c"
  if simple.1 = .ok then
    parserParseSimpleGet res (p.withScanner simple.2.1)
      ((strArg simple.2.2 0).read p.scanner.msg) ((strArg simple.2.2 1).read p.scanner.msg)
  else
    let full := matchFormat p.scanner "%s\t%S\t%ihttp%w/%w%L%c"
    if full.1 ≠ .ok then (full.1, p.withScanner full.2.1)
    else
      parserParseFullRequest res (p.withScanner full.2.1)
        ((strArg full.2.2 0).read p.scanner.msg) ((strArg full.2.2 1).read p.scanner.msg)
        ((strArg full.2.2 2).read p.scanner.msg)

def parserParseRequestline (res : Resolver) (p : HttpParser) : ParseResult :=
  let blank := skipBlankLines p.scanner
  if blank.1 ≠ .ok then (blank.1, p.withScanner blank.2)
  else parserMatchRequestline res (p.withScanner blank.2)

def skipNumber (s : List UInt8) : List UInt8 := (s.dropWhile (!isDigit ·)).dropWhile isDigit

/-- `line` is a part of the raw message; the skipping loops read on behind it. -/
def parserParseStatusLine (p : HttpParser) (line : Memptr) : ParseResult :=
  let memory := p.scanner.msg.drop line.buf
  let scanned := sscanfStatus (line.read p.scanner.msg)
  let msg := storeVersion p.msg scanned
  let stored := { p with msg := { msg with statusCode := scanned.getD 2 msg.statusCode } }
  if scanned.length ≠ 3 || stored.msg.majorVersion < 0 || stored.msg.minorVersion < 0 ||
      stored.msg.statusCode < 0 then (.failure, stored)
  else
    let rest := skipNumber (skipNumber (skipNumber memory))
    let c := rest.headD 0
    if c ≠ SP && c ≠ TAB then (.failure, stored)
    else
      let text := rest.dropWhile fun d => d = SP || d = TAB
      let n := subSize line.length (memory.length - text.length)
      (.ok, { stored with msg := { stored.msg with statusMsg := text.take n }, position := .headers })

def parserMatchResponseline (p : HttpParser) : ParseResult :=
  let m := matchFormat p.scanner "%ihttp%w/%w%L%c"
  if m.1 ≠ .ok then (m.1, p.withScanner m.2.1)
  else parserParseStatusLine (p.withScanner m.2.1) (strArg m.2.2 0)

def parserParseResponseline (p : HttpParser) : ParseResult :=
  let blank := skipBlankLines p.scanner
  if blank.1 ≠ .ok then (blank.1, p.withScanner blank.2)
  else parserMatchResponseline (p.withScanner blank.2)

def addHeader (msg : HttpMessage) (name value : List UInt8) : HttpMessage :=
  let known := lookupHeader name
  let msg := if known = some .soapaction then { msg with method := .soapPost } else msg
  let isOrig : HttpHeader → Bool :=
    match known with
    | some id => fun h => h.nameId = id
    | none => fun h => memptrCmpNocase h.name name = 0
  match msg.headers.find? isOrig with
  | none =>
      -- an empty value is stored as a single NUL
      { msg with headers := msg.headers ++
          [⟨name, known.getD .unknown, if value = [] then [0] else value⟩] }
  | some _ =>
      if value = [] then msg
      else
        let join (h : HttpHeader) := { h with value := h.value ++ bytes ", " ++ value }
        { msg with headers := updateFirst isOrig join msg.headers }

/-- One round of the loop of `parser_parse_headers`; `continue1` stands for the next round. -/
def parseHeaderLine (p : HttpParser) : ParseResult :=
  match scannerGetToken p.scanner with
  | .error status => (status, p)
  | .ok (token, next) =>
      match token.type with
      | .crlf =>
          if p.msg.isRequest && p.msg.method = .post then
            (.success, { p with scanner := next, position := .complete })
          else (.ok, { p with scanner := next, position := .entity })
      | .identifier =>
          let m := matchFormat next " : %R%c"
          if m.1 ≠ .ok then (m.1, p)
          else (.continue1, { p with
            scanner := m.2.1
            msg := addHeader p.msg (token.str.read p.scanner.msg)
              ((strArg m.2.2 0).read p.scanner.msg) })
      | _ => (.failure, p.withScanner next)

end Pupnp.Http
