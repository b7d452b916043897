import Pupnp.Web.SendInstruction
import Pupnp.Http.ChunkWriter

/-!
The response to a `GET` or `HEAD`: the end of `process_request`, `http_SendMessage` and
`web_server_callback`. The socket takes whatever it is given.
-/

namespace Pupnp.Web
open Pupnp.CString Pupnp.Path Pupnp.Uri Pupnp.Http

def UPNP_E_FILE_READ_ERROR : Int := -503
def UPNP_E_INTERNAL_ERROR : Int := -911
def WEB_SERVER_BUF_SIZE : Nat := 1024 * 1024
def CHUNK_HEADER_SIZE : Nat := 10

/-- Open files: `fread` and `fseeko`, or the callbacks of a virtual directory. A read may be short, but
it brings something until the end of the file. -/
structure FileReader (σ : Type) where
  /-- What is left to be read. -/
  rest : σ → List UInt8
  read : σ → Nat → List UInt8 × σ
  seek : σ → Nat → σ
  read_split : ∀ h n, rest h = (read h n).1 ++ rest (read h n).2
  read_size : ∀ h n, (read h n).1.length ≤ n
  read_some : ∀ h n, 0 < n → rest h ≠ [] → (read h n).1 ≠ []
  seek_rest : ∀ h n, rest (seek h n) = (rest h).drop n

/-- The web server and the contents that it serves. -/
structure WebContents (σ : Type) where
  server : WebServer
  env : Ssdp.Env
  details : Source → Option (List UInt8) → FileDetails
  /-- The text of the alias document. -/
  aliasDoc : List UInt8
  reader : FileReader σ
  /-- `virtualDirCallback.open`, or `fopen`. -/
  openFile : Bool → List UInt8 → Option σ

/-- What `process_request` has found before it looks at the headers. -/
structure Document where
  source : Source
  filename : Option (List UInt8)
  finfo : FileInfo

/-- The first part of `process_request`, up to the length of the document. -/
def requestedDocument (server : WebServer) (req : HttpMessage) : Except Nat Document :=
  let requestDoc := requestDocument (pathquery req)
  if charAt requestDoc 0 ≠ SLASH then .error HTTP_BAD_REQUEST
  else if isFileInVirtualDir server requestDoc then
    (locate req server.getInfo requestDoc).found.map fun found =>
      ⟨.virtualDir, some found.1, found.2⟩
  else match getAlias server requestDoc with
    | some finfo => .ok ⟨.xmlAlias, none, finfo⟩
    | none =>
        if server.gDocumentRootDir.length = 0 then .error HTTP_INTERNAL_SERVER_ERROR
        else
          let filename := trimSlashes (server.gDocumentRootDir ++ requestDoc)
          (locate req (getFileInfo server) filename).found.map fun found =>
            ⟨.documentRoot, some found.1, found.2⟩

/-- What `process_request` hands to `web_server_callback`. -/
structure Prepared where
  rtype : RespType
  headers : List HeaderPart
  version : Int × Int
  instr : SendInstruction
  filename : Option (List UInt8)

def responseType (req : HttpMessage) (source : Source) : RespType :=
  if req.method = .head then .headers
  else match source with
    | .xmlAlias => .xmldoc
    | .virtualDir => .webdoc
    | .documentRoot => .filedoc

def newInstruction (document : Document) : SendInstruction :=
  { isVirtualFile := document.source = .virtualDir, isChunkActive := false, isRangeActive := false,
    isTrailers := false, rangeHeader := [], acceptLanguageHeader := [], rangeOffset := 0,
    readSendSize := document.finfo.fileLength, recvWriteSize := 0 }

/-- The rest of `process_request` for a request other than a `POST`. -/
def prepareResponse (details : Source → Option (List UInt8) → FileDetails) (req : HttpMessage)
    (document : Document) : Except Nat Prepared :=
  let checked := checkOtherHTTPHeaders document.finfo.fileLength req.headers (newInstruction document)
  let version := calcResponseVersion req.majorVersion req.minorVersion
  let usingChunked :=
    document.source = .virtualDir && document.finfo.fileLength = Web.UPNP_USING_CHUNKED
  if checked.1 ≠ HTTP_OK then .error checked.1
  else if usingChunked && version ≠ (1, 1) then .error HTTP_NOT_ACCEPTABLE
  else
    let instr := { checked.2 with isChunkActive := checked.2.isChunkActive || usingChunked }
    let parts := responseParts instr (details document.source document.filename)
    -- a simple request gets no headers
    let headers := if req.method = .simpleGet then [] else parts
    .ok ⟨responseType req document.source, headers, version, instr, document.filename⟩

/-- A format character of `http_SendMessage` with its arguments. -/
inductive SendArg where
  | I (instr : SendInstruction)
  | b (buf : List UInt8)
  | f (filename : List UInt8)

section Send
variable {σ : Type} (reader : FileReader σ)

/-- What goes out for the bytes of one read; `none` where the size line does not fit. -/
def sentPiece (instr : SendInstruction) (data : List UInt8) : Option (List UInt8) :=
  if instr.isChunkActive then
    if CHUNK_HEADER_SIZE ≤ (hexDigits data.length ++ [CR, LF]).length then none
    else some (chunkOf data)
  else some data

/-- The loop of `http_SendMessage` around the reads of a file: the bytes sent and the result. -/
def sendFile (instr : SendInstruction) (dataBufSize : Nat) (amount : Int) (file : σ) :
    List UInt8 × Int :=
  if amount = 0 then ([], UPNP_E_SUCCESS)
  else
    let n := if (dataBufSize : Int) ≤ amount then dataBufSize else amount.toNat
    let r := reader.read file n
    -- a negative size stands for the end of the file
    let amount := if instr.readSendSize < 0 then (dataBufSize : Int) else amount - r.1.length
    if _h : r.1 = [] then
      if instr.isChunkActive then (bytes "0\r\n\r\n", UPNP_E_SUCCESS) else ([], UPNP_E_FILE_READ_ERROR)
    else
      match sentPiece instr r.1 with
      | none => ([], UPNP_E_INTERNAL_ERROR)
      | some piece =>
          let later := sendFile instr dataBufSize amount r.2
          (piece ++ later.1, later.2)
termination_by (reader.rest file).length
decreasing_by
  have split := congrArg List.length (reader.read_split file n)
  have some : 0 < (reader.read file n).1.length := List.length_pos_iff.mpr _h
  rw [List.length_append] at split
  change (reader.rest (reader.read file n).2).length < (reader.rest file).length
  omega

def sendAmount (instr : SendInstruction) : Int × Nat :=
  let amount := if 0 ≤ instr.readSendSize then instr.readSendSize else (WEB_SERVER_BUF_SIZE : Int)
  (amount, if amount < WEB_SERVER_BUF_SIZE then amount.toNat else WEB_SERVER_BUF_SIZE)

/-- `f` in the format: the file is opened, sought and sent. Without an instruction the amount is zero. -/
def sendNamedFile (openFile : Bool → List UInt8 → Option σ) (instr : Option SendInstruction)
    (filename : List UInt8) : List UInt8 × Int :=
  match openFile ((instr.map SendInstruction.isVirtualFile).getD false) filename, instr with
  | none, _ => ([], UPNP_E_FILE_READ_ERROR)
  | some _, none => ([], UPNP_E_SUCCESS)
  | some file, some instr =>
      let file := if instr.isRangeActive then reader.seek file instr.rangeOffset.toNat else file
      sendFile reader instr (sendAmount instr).2 (sendAmount instr).1 file

def httpSendMessage (openFile : Bool → List UInt8 → Option σ) :
    Option SendInstruction → List SendArg → List UInt8 × Int
  | _, [] => ([], UPNP_E_SUCCESS)
  | instr, .I new :: args => httpSendMessage openFile (some (instr.getD new)) args
  | instr, .b buf :: args =>
      let later := httpSendMessage openFile instr args
      (buf ++ later.1, later.2)
  | instr, .f filename :: _ => sendNamedFile reader openFile instr filename

end Send

def headerText (env : Ssdp.Env) (prepared : Prepared) : List UInt8 :=
  prepared.headers.flatMap (HeaderPart.text env prepared.version.1 prepared.version.2)

/-- `process_request` for a request other than a `POST`. -/
def preparedRequest {σ : Type} (contents : WebContents σ) (req : HttpMessage) :
    Except Nat (Document × Prepared) :=
  (requestedDocument contents.server req).bind fun document =>
    (prepareResponse contents.details req document).map (document, ·)

/-- `web_server_callback` for a request that was not turned down: what goes over the socket. -/
def webServerCallback {σ : Type} (contents : WebContents σ) (prepared : Prepared) : List UInt8 × Int :=
  let headers := headerText contents.env prepared
  let send := httpSendMessage contents.reader contents.openFile none
  match prepared.rtype with
  | .filedoc => send [.I prepared.instr, .b headers, .f (prepared.filename.getD [])]
  | .xmldoc => send [.I prepared.instr, .b headers, .b contents.aliasDoc]
  | .webdoc => send [.I prepared.instr, .b headers, .f (prepared.filename.getD [])]
  | .headers => send [.b headers]
  | .post => ([], UPNP_E_SUCCESS)

end Pupnp.Web
