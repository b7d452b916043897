import Pupnp.Http.Match
import Pupnp.Uri.Parse

/-! The HTTP message, its header list and the tables the parser looks names up in. -/

namespace Pupnp.Http
open Pupnp.CString Pupnp.Uri

inductive HttpMethod where
  | put
  | delete
  | get
  | head
  | post
  | mpost
  | subscribe
  | unsubscribe
  | notify
  | msearch
  | unknown
  | soapPost
  | simpleGet
  deriving DecidableEq, Repr

def httpMethodTable : List (List UInt8 × HttpMethod) :=
  [(bytes "DELETE", .delete), (bytes "GET", .get), (bytes "HEAD", .head), (bytes "M-POST", .mpost),
    (bytes "M-SEARCH", .msearch), (bytes "NOTIFY", .notify), (bytes "POST", .post),
    (bytes "SUBSCRIBE", .subscribe), (bytes "UNSUBSCRIBE", .unsubscribe), (bytes "POST", .soapPost),
    (bytes "PUT", .put)]

/-- The header names the library knows; `unknown` is `HDR_UNKNOWN`. -/
inductive HdrId where
  | unknown
  | accept | acceptCharset | acceptEncoding | acceptLanguage | acceptRange | cacheControl
  | callback | contentEncoding | contentLanguage | contentLength | contentLocation
  | contentRange | contentType | date | ext | host | ifRange | location | man | mx | nt | nts
  | range | seq | server | sid | soapaction | st | te | timeout | transferEncoding | userAgent
  | usn
  deriving DecidableEq, Repr

def httpHeaderNames : List (List UInt8 × HdrId) :=
  [(bytes "ACCEPT", .accept), (bytes "ACCEPT-CHARSET", .acceptCharset),
    (bytes "ACCEPT-ENCODING", .acceptEncoding), (bytes "ACCEPT-LANGUAGE", .acceptLanguage),
    (bytes "ACCEPT-RANGES", .acceptRange), (bytes "CACHE-CONTROL", .cacheControl),
    (bytes "CALLBACK", .callback), (bytes "CONTENT-ENCODING", .contentEncoding),
    (bytes "CONTENT-LANGUAGE", .contentLanguage), (bytes "CONTENT-LENGTH", .contentLength),
    (bytes "CONTENT-LOCATION", .contentLocation), (bytes "CONTENT-RANGE", .contentRange),
    (bytes "CONTENT-TYPE", .contentType), (bytes "DATE", .date), (bytes "EXT", .ext),
    (bytes "HOST", .host), (bytes "IF-RANGE", .ifRange), (bytes "LOCATION", .location),
    (bytes "MAN", .man), (bytes "MX", .mx), (bytes "NT", .nt), (bytes "NTS", .nts),
    (bytes "RANGE", .range), (bytes "SEQ", .seq), (bytes "SERVER", .server), (bytes "SID", .sid),
    (bytes "SOAPACTION", .soapaction), (bytes "ST", .st), (bytes "TE", .te),
    (bytes "TIMEOUT", .timeout), (bytes "TRANSFER-ENCODING", .transferEncoding),
    (bytes "USER-AGENT", .userAgent), (bytes "USN", .usn)]

def memptrCmp (m s : List UInt8) : Int :=
  let cmp := strncmp m s m.length
  if cmp = 0 && m.length < s.length then -1 else cmp

def memptrCmpNocase (m s : List UInt8) : Int :=
  let cmp := strncasecmp m s m.length
  if cmp = 0 && m.length < s.length then -1 else cmp

def mapStrToIntLoop (cmp : List UInt8 → Int) (names : List (List UInt8)) (top bot : Nat) :
    Option Nat :=
  if _h : top < bot then
    let mid := (top + bot - 1) / 2
    let order := cmp (names.getD mid [])
    if 0 < order then mapStrToIntLoop cmp names (mid + 1) bot
    else if order < 0 then mapStrToIntLoop cmp names top mid
    else some mid
  else none
termination_by bot - top
decreasing_by all_goals omega

def mapStrToInt (name : List UInt8) (names : List (List UInt8)) (caseSensitive : Bool) : Option Nat :=
  mapStrToIntLoop (if caseSensitive then memptrCmp name else memptrCmpNocase name) names 0
    names.length

def lookupMethod (name : List UInt8) : Option HttpMethod :=
  (mapStrToInt name (httpMethodTable.map (·.1)) true).bind fun index =>
    (httpMethodTable[index]?).map (·.2)

def lookupHeader (name : List UInt8) : Option HdrId :=
  (mapStrToInt name (httpHeaderNames.map (·.1)) false).bind fun index =>
    (httpHeaderNames[index]?).map (·.2)

structure HttpHeader where
  name : List UInt8
  nameId : HdrId
  value : List UInt8
  deriving DecidableEq, Repr

/-- The entity is a part of the raw message: the offset of `entity.buf` in it, or NULL. -/
structure Entity where
  buf : Option Nat
  length : Nat
  deriving DecidableEq, Repr

structure HttpMessage where
  method : HttpMethod
  uri : Option UriType
  urlbuf : List UInt8
  requestMethod : HttpMethod
  statusCode : Int
  statusMsg : List UInt8
  amountDiscarded : Nat
  isRequest : Bool
  majorVersion : Int
  minorVersion : Int
  headers : List HttpHeader
  entity : Entity
  deriving DecidableEq, Repr

def httpmsgFindHdr (msg : HttpMessage) (id : HdrId) : Option HttpHeader :=
  msg.headers.find? (·.nameId = id)

def httpmsgFindHdrStr (msg : HttpMessage) (name : List UInt8) : Option HttpHeader :=
  msg.headers.find? fun h => memptrCmpNocase h.name name = 0

/-- Replace the first header that satisfies `p`, the one a search with `p` finds. -/
def updateFirst (p : HttpHeader → Bool) (f : HttpHeader → HttpHeader) :
    List HttpHeader → List HttpHeader
  | [] => []
  | h :: rest => if p h then f h :: rest else h :: updateFirst p f rest

/-- The value the search sees: a lower case copy up to the first NUL, the rest as it was. -/
def lowerValue (value : List UInt8) : List UInt8 :=
  (cstr value).map toLower ++ value.drop (cstr value).length

def rawFindStr (value str : List UInt8) : Option Nat := strstr str (cstr (lowerValue value))

def rawToInt (value : List UInt8) (base : Nat) : Int :=
  if value.length = 0 then -1
  else
    let r := strtol base value
    if r.num < 0 || r.endOff ≠ value.length ||
        ((r.num = LONG_MIN || r.num = LONG_MAX) && r.erange) then -1
    else toInt32 r.num

end Pupnp.Http
