import Pupnp.Uri.Dots
import Pupnp.Http.Message

/-!
How the web server turns the URI of a request into a file name: decoding and dot
removal, then virtual directories, the alias document and last the document root.
Allocations succeed.
-/

namespace Pupnp.Web
open Pupnp.CString Pupnp.Path Pupnp.Uri Pupnp.Http

def HTTP_OK : Nat := 200
def HTTP_BAD_REQUEST : Nat := 400
def HTTP_FORBIDDEN : Nat := 403
def HTTP_NOT_FOUND : Nat := 404
def HTTP_NOT_ACCEPTABLE : Nat := 406
def HTTP_INTERNAL_SERVER_ERROR : Nat := 500

def UPNP_USING_CHUNKED : Int := -3

structure FileInfo where
  fileLength : Int
  isDirectory : Bool
  isReadable : Bool
  deriving DecidableEq, Repr

inductive FileKind where
  | directory
  | regular
  | other
  deriving DecidableEq, Repr

structure Stat where
  kind : FileKind
  size : Int
  deriving DecidableEq, Repr

structure XmlAlias where
  name : List UInt8
  docLength : Nat
  deriving DecidableEq, Repr

/-- The state of the web server and the answers of what it calls outside this file's concern. -/
structure WebServer where
  gDocumentRootDir : List UInt8
  /-- The names in `pVirtualDirList`. -/
  virtualDirs : List (List UInt8)
  gAliasDoc : Option XmlAlias
  /-- The file system; `none` where `fopen(name, "r")` or `fstat` fails. -/
  fopen : List UInt8 → Option Stat
  /-- `virtualDirCallback.get_info`; `none` where it fails. -/
  getInfo : List UInt8 → Option FileInfo
  /-- The code `CheckOtherHTTPHeaders` gives for a request and a file length. -/
  checkOtherHTTPHeaders : HttpMessage → Int → Nat
  /-- `UPNP_ENABLE_POST_WRITE` -/
  postWrite : Bool

inductive RespType where
  | filedoc
  | xmldoc
  | headers
  | webdoc
  | post
  deriving DecidableEq, Repr

def getFileInfo (server : WebServer) (filename : List UInt8) : Option FileInfo :=
  match server.fopen filename with
  | none => none
  | some ⟨.directory, size⟩ => some ⟨size, true, true⟩
  | some ⟨.regular, size⟩ => some ⟨size, false, true⟩
  | some ⟨.other, _⟩ => none

def inVirtualDir (filePath dirName : List UInt8) : Bool :=
  let webDirLen := dirName.length
  if webDirLen = 0 then false
  else if charAt dirName (webDirLen - 1) = SLASH then strncmp dirName filePath webDirLen = 0
  else
    let next := charAt filePath webDirLen
    strncmp dirName filePath webDirLen = 0 && (next = SLASH || next = 0 || next = 63)

def isFileInVirtualDir (server : WebServer) (filePath : List UInt8) : Bool :=
  server.virtualDirs.any (inVirtualDir filePath)

def getAlias (server : WebServer) (requestDoc : List UInt8) : Option FileInfo :=
  server.gAliasDoc.bind fun document =>
    if document.name = requestDoc then some ⟨document.docLength, false, true⟩ else none

/-- The path and query of the request line, as `parse_uri` cut them out. -/
def pathquery (req : HttpMessage) : List UInt8 :=
  (req.uri.map fun uri => uri.pathquery.read req.urlbuf).getD []

/-- The C string in `request_doc` once `remove_escaped_chars` and `remove_dots` are through. -/
def requestDocument (path : List UInt8) : List UInt8 :=
  cstr (removeDots (removeEscapedChars (path ++ [0]) path.length).1 path.length)

def indexFile (filename : List UInt8) : List UInt8 :=
  if filename.getLast? = some SLASH then filename ++ bytes "index.html"
  else filename ++ bytes "/index.html"

structure Lookup where
  asked : List (List UInt8)
  found : Except Nat (List UInt8 × FileInfo)

def lookupFile (getInfo : List UInt8 → Option FileInfo) (filename : List UInt8) : Lookup :=
  match getInfo filename with
  | none => ⟨[filename], .error HTTP_NOT_FOUND⟩
  | some finfo =>
      if finfo.isDirectory then
        let index := indexFile filename
        match getInfo index with
        | none => ⟨[filename, index], .error HTTP_NOT_FOUND⟩
        | some inner =>
            if inner.isDirectory then ⟨[filename, index], .error HTTP_NOT_FOUND⟩
            else if inner.isReadable then ⟨[filename, index], .ok (index, inner)⟩
            else ⟨[filename, index], .error HTTP_FORBIDDEN⟩
      else if finfo.isReadable then ⟨[filename], .ok (filename, finfo)⟩
      else ⟨[filename], .error HTTP_FORBIDDEN⟩

inductive Source where
  | virtualDir
  | xmlAlias
  | documentRoot
  deriving DecidableEq, Repr

/-- The code of `process_request`, the kind of response, the file name it leaves behind and
the names it asked the file system for. -/
structure Answer where
  code : Nat
  rtype : Option RespType
  source : Option Source
  filename : Option (List UInt8)
  asked : List (List UInt8)

def calcResponseVersion (major minor : Int) : Int × Int :=
  if 1 < major || (major = 1 && 1 ≤ minor) then (1, 1) else (major, minor)

/-- The last part of `process_request`: the other headers and the kind of response. -/
def respond (server : WebServer) (req : HttpMessage) (source : Source)
    (filename : Option (List UInt8)) (finfo : FileInfo) (asked : List (List UInt8)) : Answer :=
  let code := server.checkOtherHTTPHeaders req finfo.fileLength
  if code ≠ HTTP_OK then ⟨code, none, some source, filename, asked⟩
  else if req.method = .post then ⟨HTTP_OK, some .post, some source, filename, asked⟩
  else if source = .virtualDir && finfo.fileLength = UPNP_USING_CHUNKED &&
      calcResponseVersion req.majorVersion req.minorVersion ≠ (1, 1) then
    ⟨HTTP_NOT_ACCEPTABLE, none, some source, filename, asked⟩
  else
    let rtype : RespType :=
      if req.method = .head then .headers
      else match source with
        | .xmlAlias => .xmldoc
        | .virtualDir => .webdoc
        | .documentRoot => .filedoc
    ⟨HTTP_OK, some rtype, some source, filename, asked⟩

def locate (req : HttpMessage) (getInfo : List UInt8 → Option FileInfo) (filename : List UInt8) :
    Lookup :=
  if req.method = .post then ⟨[], .ok (filename, ⟨0, false, false⟩)⟩ else lookupFile getInfo filename

def processRequest (server : WebServer) (req : HttpMessage) : Answer :=
  let requestDoc := requestDocument (pathquery req)
  if charAt requestDoc 0 ≠ SLASH then ⟨HTTP_BAD_REQUEST, none, none, none, []⟩
  else if isFileInVirtualDir server requestDoc then
    match (locate req server.getInfo requestDoc).found with
    | .error code => ⟨code, none, some .virtualDir, some requestDoc, []⟩
    | .ok (filename, finfo) => respond server req .virtualDir (some filename) finfo []
  else match getAlias server requestDoc with
    | some finfo => respond server req .xmlAlias none finfo []
    | none =>
        if server.gDocumentRootDir.length = 0 then ⟨HTTP_INTERNAL_SERVER_ERROR, none, none, none, []⟩
        else
          let filename := trimSlashes (server.gDocumentRootDir ++ requestDoc)
          let lookup := locate req (getFileInfo server) filename
          match lookup.found with
          | .error code => ⟨code, none, some .documentRoot, some filename, lookup.asked⟩
          | .ok (name, finfo) => respond server req .documentRoot (some name) finfo lookup.asked

/-- The regular files the server opens for a request: those `process_request` asks about and the
one `web_server_callback` then reads or writes. -/
def openedFiles (server : WebServer) (req : HttpMessage) : List (List UInt8) :=
  let answer := processRequest server req
  let body :=
    if answer.source = some .documentRoot &&
        (answer.rtype = some .filedoc || (answer.rtype = some .post && server.postWrite)) then
      answer.filename.toList
    else []
  answer.asked ++ body

end Pupnp.Web
