import Pupnp.Gena.Notification
import Pupnp.Gena.Subscribe
import Pupnp.Ixml.Print

/-! The request of `SoapSendAction`, and what `soap_request_and_response` makes of it after a 405. -/

namespace Pupnp.Soap
open Pupnp.CString Pupnp.Uri Pupnp.Http
open Pupnp.Gena.Subscribe (FixedUrl httpFixStrUrl)
open Pupnp.Gena.Notification (matchstr)

def UPNP_E_OUTOF_MEMORY : Int := -104
def UPNP_E_INVALID_URL : Int := -108
def UPNP_E_INVALID_ACTION : Int := -115
def HTTP_METHOD_NOT_ALLOWED : Int := 405

def contentTypeHeader : List UInt8 := bytes "CONTENT-TYPE: text/xml; charset=\"utf-8\"\r\n"

def xmlStart : List UInt8 :=
  bytes ("<s:Envelope xmlns:s=\"http://schemas.xmlsoap.org/soap/envelope/\" " ++
    "s:encodingStyle=\"http://schemas.xmlsoap.org/soap/encoding/\">\r\n<s:Body>")

def xmlEnd : List UInt8 := bytes "</s:Body>\r\n</s:Envelope>\r\n\r\n"

def getActionName (action : List UInt8) : Option (List UInt8) :=
  match matchstr action " <%s:%s" with
  | (.ok, _, [.str _, .str name]) => some (name.read action)
  | _ => none

/-- The lines in front of SOAPACTION: the directives `q` and `N` of `http_MakeMessage` and the type. -/
def requestHead (url : FixedUrl) (contentLength : Nat) : List UInt8 :=
  bytes "POST " ++ url.pathquery ++ bytes " HTTP/1.1\r\nHOST: " ++ url.hostport ++
    bytes "\r\nCONTENT-LENGTH: " ++ decimalDigits contentLength ++ bytes "\r\nAccept-Ranges: bytes\r\n" ++
    contentTypeHeader

def soapAction (serviceType name : List UInt8) : List UInt8 :=
  bytes "\"" ++ serviceType ++ bytes "#" ++ name ++ bytes "\""

/-- What follows SOAPACTION: the directive `U`, the end of the headers and the body. -/
def requestTail (env : Ssdp.Env) (body : List UInt8) : List UInt8 :=
  bytes "USER-AGENT: " ++ (env.sdkInfo ++ [CR, LF]).take 199 ++ [CR, LF] ++ body

/-- The message of an action, as `SoapSendAction` and `SoapSendActionEx` make it. -/
def actionRequest (env : Ssdp.Env) (url : FixedUrl) (serviceType name body : List UInt8) : List UInt8 :=
  requestHead url body.length ++ bytes "SOAPACTION: " ++ soapAction serviceType name ++ [CR, LF] ++
    requestTail env body

def manHdr : List UInt8 := bytes "MAN: \"http://schemas.xmlsoap.org/soap/envelope/\"; ns=01\r\n01-"

def membufferInsert (m buf : List UInt8) (index : Nat) : Option (List UInt8) :=
  if m.length < index then none else some (m.take index ++ buf ++ m.drop index)

/-- `add_man_header`; without the header the index is that of NULL, far behind the buffer. -/
def addManHeader (headers : List UInt8) : Option (List UInt8) :=
  (membufferInsert headers (bytes "M-") 0).bind fun headers =>
    (strstr (bytes "SOAPACTION:") (cstr headers)).bind fun n => membufferInsert headers manHdr n

structure Answer where
  msg : HttpMessage
  raw : List UInt8

/-- `http_RequestAndResponse` to one URL: its code, which is 0 for success, and the response. -/
abbrev Exchange := List UInt8 → HttpMethod → Int × Answer

def soapRequestAndResponse (exchange : Exchange) (request : List UInt8) : Except Int Answer :=
  let first := exchange request .soapPost
  if first.1 ≠ 0 then .error first.1
  else if first.2.msg.statusCode = HTTP_METHOD_NOT_ALLOWED then
    match addManHeader request with
    | none => .error UPNP_E_OUTOF_MEMORY
    | some request =>
        let second := exchange request .mpost
        if second.1 ≠ 0 then .error second.1 else .ok second.2
  else .ok first.2

structure Caller where
  resolver : Resolver
  env : Ssdp.Env
  exchange : Exchange

/-- `SoapSendAction` up to its response: the name of the action and the response, or the code. -/
def soapExchange (caller : Caller) (actionUrl serviceType : List UInt8) (actionNode : List Ixml.Node) :
    Except Int (List UInt8 × Answer) :=
  let actionStr := Ixml.printSiblings actionNode
  if actionStr = [] then .error UPNP_E_OUTOF_MEMORY
  else
    match getActionName actionStr with
    | none => .error UPNP_E_INVALID_ACTION
    | some name =>
        match httpFixStrUrl caller.resolver (cstr actionUrl) with
        | none => .error UPNP_E_INVALID_URL
        | some url =>
            let request := actionRequest caller.env url (cstr serviceType) name (xmlStart ++ actionStr ++ xmlEnd)
            (soapRequestAndResponse caller.exchange request).map fun answer => (name, answer)

end Pupnp.Soap
