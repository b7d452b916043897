import Pupnp.Web.ProcessRequest
import Pupnp.Ssdp.Packet
import Pupnp.Library.Hex

/-!
The record that `process_request` fills from the headers of a request, and the header block that it
makes from it.
-/

namespace Pupnp.Web
open Pupnp.CString Pupnp.Uri Pupnp.Http

def HTTP_PARTIAL_CONTENT : Nat := 206
def HTTP_REQUEST_RANGE_NOT_SATISFIABLE : Nat := 416

structure SendInstruction where
  isVirtualFile : Bool
  isChunkActive : Bool
  isRangeActive : Bool
  isTrailers : Bool
  rangeHeader : List UInt8
  acceptLanguageHeader : List UInt8
  rangeOffset : Int
  readSendSize : Int
  recvWriteSize : Int
  deriving DecidableEq, Repr

def toUpper (c : UInt8) : UInt8 := if isLower c then c - 32 else c

def strStr (s1 s2 : List UInt8) : Option Nat := strstr (s2.map toUpper) (s1.map toUpper)

def scanInt64 (s : List UInt8) : Option (Int × List UInt8) :=
  let r := strtol 10 s
  if r.endOff = 0 then none else some (r.num, s.drop r.endOff)

def scanRange (tok : List UInt8) : Int × Int :=
  match scanInt64 tok with
  | none => (-1, -1)
  | some (first, rest) =>
      match scanInt64 rest with
      | none => (first, -1)
      | some (last, _) => (first, last)

/-- `Is_Suffix_byte_Range`: no digit stands in front of the first `-`. -/
def isSuffixByteRange : List UInt8 → Bool
  | [] => true
  | c :: rest => if c = 45 then true else if isDigit c then false else isSuffixByteRange rest

def getNextRange (src : List UInt8) : Option (Int × Int) :=
  let tok := src.takeWhile (· ≠ 44)
  match strstr [45] tok with
  | none => none
  | some dash =>
      let scanned := scanRange (tok.set dash SP)
      if (scanned.1 = -1 || scanned.2 = -1) && isSuffixByteRange tok then some (scanned.2, scanned.1)
      else some scanned

def decimalInt (n : Int) : List UInt8 :=
  if n < 0 then 45 :: decimalDigits n.natAbs else decimalDigits n.natAbs

def contentRange (first last total : Int) : List UInt8 :=
  bytes "CONTENT-RANGE: bytes " ++ decimalInt first ++ bytes "-" ++ decimalInt last ++ bytes "/" ++
    decimalInt total ++ [CR, LF]

/-- The bytes from `first` to `last` are to be sent, if the header line fits its buffer. -/
def selectRange (instr : SendInstruction) (first last total size : Int) : Nat × SendInstruction :=
  let header := contentRange first last total
  let selected := { instr with
    rangeOffset := first
    readSendSize := size
    rangeHeader := header.take 199 }
  if 200 ≤ header.length then (HTTP_INTERNAL_SERVER_ERROR, selected) else (HTTP_OK, selected)

def createRange (first last fileLength : Int) (instr : SendInstruction) : Nat × SendInstruction :=
  if fileLength < first then (HTTP_REQUEST_RANGE_NOT_SATISFIABLE, instr)
  else if 0 ≤ first && 0 ≤ last && first ≤ last then
    let last := if fileLength ≤ last then fileLength - 1 else last
    selectRange instr first last fileLength (last - first + 1)
  else if 0 ≤ first && last = -1 && first < fileLength then
    selectRange instr first (fileLength - 1) fileLength (fileLength - first)
  else if first = -1 && 0 < last then
    if fileLength ≤ last then selectRange instr 0 (fileLength - 1) fileLength fileLength
    else selectRange instr (fileLength - last) (fileLength - 1) fileLength last
  else (HTTP_REQUEST_RANGE_NOT_SATISFIABLE, instr)

def createHTTPRangeResponseHeader (byteRangeSpecifier : List UInt8) (fileLength : Int)
    (instr : SendInstruction) : Nat × SendInstruction :=
  let instr := { instr with isRangeActive := true, readSendSize := fileLength }
  match strStr byteRangeSpecifier (bytes "bytes"), strStr byteRangeSpecifier (bytes "=") with
  | some _, some equals =>
      let ptr := byteRangeSpecifier.drop (equals + 1)
      if fileLength < 0 then
        if ptr = bytes "0-" then (HTTP_OK, { instr with isRangeActive := false })
        else (HTTP_REQUEST_RANGE_NOT_SATISFIABLE, instr)
      else
        match getNextRange ptr with
        | some (first, last) => createRange first last fileLength instr
        | none => (HTTP_REQUEST_RANGE_NOT_SATISFIABLE, instr)
  | _, _ => (HTTP_BAD_REQUEST, { instr with isRangeActive := false })

def checkOtherHTTPHeader (fileSize : Int) (header : HttpHeader) (instr : SendInstruction) :
    Nat × SendInstruction :=
  let tmpBuf := cstr header.value
  match lookupHeader header.name with
  | some .te =>
      let trailers := (bytes "gzip").length < tmpBuf.length && (strStr tmpBuf (bytes "trailers")).isSome
      (HTTP_OK, { instr with isChunkActive := true, isTrailers := instr.isTrailers || trailers })
  | some .contentLength => (HTTP_OK, { instr with recvWriteSize := toInt32 (strtol 10 tmpBuf).num })
  | some .range => createHTTPRangeResponseHeader tmpBuf fileSize instr
  | some .acceptLanguage => (HTTP_OK, { instr with acceptLanguageHeader := cstr (header.value.take 199) })
  | _ => (HTTP_OK, instr)

def checkOtherHTTPHeaders (fileSize : Int) : List HttpHeader → SendInstruction → Nat × SendInstruction
  | [], instr => (HTTP_OK, instr)
  | header :: headers, instr =>
      let r := checkOtherHTTPHeader fileSize header instr
      if r.1 ≠ HTTP_OK then r else checkOtherHTTPHeaders fileSize headers r.2

/-! ### The header block -/

/-- The directives of `http_MakeMessage` in the header block of a document. -/
inductive HeaderPart where
  /-- A directive that discovery packets use too. -/
  | plain (part : Ssdp.Part)
  | R (statusCode : Nat)
  | K
  | G (instr : SendInstruction)
  | N (bignum : Int)
  | T (contentType : List UInt8)
  | L (instr : SendInstruction)
  | t (date : Ssdp.Tm)
  | E (extraHeaders : List (Option (List UInt8)))
  | C

def http2xxCodes : List (List UInt8) :=
  [bytes "OK", bytes "Created", bytes "Accepted", bytes "Non-Authoritative Information",
    bytes "No Content", bytes "Reset Content", bytes "Partial Content"]

def WEB_SERVER_CONTENT_LANGUAGE : List UInt8 := []

/-- The text of a directive in a message of version `major.minor`. -/
def HeaderPart.text (env : Ssdp.Env) (major minor : Int) : HeaderPart → List UInt8
  | .plain part => part.text env
  | .R statusCode =>
      bytes "HTTP/" ++ decimalInt major ++ bytes "." ++ decimalInt minor ++ bytes " " ++
        decimalDigits statusCode ++ bytes " " ++ http2xxCodes.getD (statusCode - 200) [] ++ [CR, LF]
  | .K => bytes "TRANSFER-ENCODING: chunked\r\n"
  | .G instr => instr.rangeHeader
  | .N bignum => bytes "CONTENT-LENGTH: " ++ decimalInt bignum ++ bytes "\r\nAccept-Ranges: bytes\r\n"
  | .T contentType => bytes "CONTENT-TYPE: " ++ contentType ++ [CR, LF]
  | .L instr =>
      if instr.acceptLanguageHeader ≠ [] && WEB_SERVER_CONTENT_LANGUAGE ≠ [] then
        bytes "CONTENT-LANGUAGE: " ++ WEB_SERVER_CONTENT_LANGUAGE ++ [CR, LF]
      else []
  | .t date => date.text.take 199
  | .E extraHeaders => extraHeaders.flatMap fun resp => (resp.map (· ++ [CR, LF])).getD []
  | .C => if 1 < major || (major = 1 && minor = 1) then bytes "CONNECTION: close\r\n" else []

structure FileDetails where
  contentType : List UInt8
  lastModified : Ssdp.Tm
  extraHeaders : List (Option (List UInt8))

def datedParts (details : FileDetails) : List HeaderPart :=
  [.plain (.s (bytes "LAST-MODIFIED: ")), .t details.lastModified, .plain .c, .plain .S,
    .plain (.X (bytes "redsonic")), .plain .c, .E details.extraHeaders, .C, .plain .c]

/-- The directives that `process_request` picks for an instruction. -/
def responseParts (instr : SendInstruction) (details : FileDetails) : List HeaderPart :=
  let type := HeaderPart.T details.contentType
  if instr.isRangeActive && instr.isChunkActive then
    [.R HTTP_PARTIAL_CONTENT, type, .G instr, .K, .L instr, .plain .D] ++ datedParts details
  else if instr.isRangeActive then
    [.R HTTP_PARTIAL_CONTENT, .N instr.readSendSize, type, .G instr, .L instr, .plain .D] ++
      datedParts details
  else if instr.isChunkActive then
    [.R HTTP_OK, .K, type, .L instr, .plain .D] ++ datedParts details
  else if 0 ≤ instr.readSendSize then
    [.R HTTP_OK, .N instr.readSendSize, type, .L instr, .plain .D] ++ datedParts details
  else [.R HTTP_OK, type, .L instr, .plain .D] ++ datedParts details

end Pupnp.Web
