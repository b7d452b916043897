import Pupnp.Ixml.Reparse
import Pupnp.Soap.Request

/-!
The answer to an action. `get_response_value` looks for the response along a path of names, prints what it
found and parses that again; the response itself is what `SoapSendAction` gives to its caller.
-/

namespace Pupnp.Soap
open Pupnp.CString Pupnp.Uri Pupnp.Http
open Pupnp.Gena.Notification (matchstr hasXmlContentType entityText)
open Pupnp.Ixml (Node Document)

def UPNP_E_BAD_RESPONSE : Int := -113
def HTTP_OK : Int := 200
def HTTP_INTERNAL_SERVER_ERROR : Int := 500

def nodeName : Node → List UInt8
  | .element tag _ _ => tag.nodeName
  | .text _ => bytes "#text"
  | .cdataSection _ => bytes "#cdata-section"

def nodeValue : Node → Option (List UInt8)
  | .element .. => none
  | .text value => some value
  | .cdataSection value => some value

def childNodes : Node → List Node
  | .element _ _ children => children
  | _ => []

def domCmpName (name : List UInt8) (node : Node) : Bool :=
  name = nodeName node ||
    match matchstr (nodeName node) "%s:%s%0" with
    | (.ok, _, [.str _, .str nameptr]) => nameptr.read (nodeName node) = name
    | _ => false

def domFindNode (name : List UInt8) (startNode : Node) : Option Node :=
  (childNodes startNode).find? (domCmpName name)

/-- `dom_find_deep_node`. The first name is compared, but only a path of one name depends on it. -/
def domFindDeepNode (names : List (List UInt8)) (startNode : Node) : Option Node :=
  match names with
  | [] => none
  | [name] => if domCmpName name startNode then some startNode else none
  | _ :: names => names.foldlM (fun node name => domFindNode name node) startNode

def getNodeValue (node : Node) : Option (List UInt8) := (childNodes node).head?.bind nodeValue

/-- What `get_response_value` reads of the answer to an action. None of its errors is the type of a message. -/
inductive ActionValue where
  | actionResp (actionValue : Document)
  | actionRespError (upnpErrorCode : Int) (actionValue : Document)
  | failed (errCode : Int)

/-- The checks of `get_response_value` down to the root of the document. -/
def rootNode (errorChar : Int) (answer : Answer) : Option Node :=
  if (answer.msg.statusCode ≠ HTTP_OK ∧ answer.msg.statusCode ≠ HTTP_INTERNAL_SERVER_ERROR) ∨
      !hasXmlContentType answer.msg then none
  else
    match Ixml.ixmlParseBufferEx errorChar (entityText answer.msg answer.raw) with
    | .error _ => none
    | .ok doc => doc.children.head?

def responsePath (name : List UInt8) : List (List UInt8) := [bytes "Envelope", bytes "Body", name]

def errorPath : List (List UInt8) :=
  [bytes "Envelope", bytes "Body", bytes "Fault", bytes "detail", bytes "UPnPError"]

def getResponseValue (errorChar : Int) (answer : Answer) (name : List UInt8) : ActionValue :=
  match rootNode errorChar answer with
  | none => .failed UPNP_E_BAD_RESPONSE
  | some root =>
      match domFindDeepNode (responsePath name) root with
      | some node =>
          match Ixml.ixmlParseBufferEx errorChar (Ixml.ixmlPrintNode node) with
          | .error _ => .failed UPNP_E_BAD_RESPONSE
          | .ok actionValue => .actionResp actionValue
      | none =>
          match domFindDeepNode errorPath root with
          | none => .failed UPNP_E_BAD_RESPONSE
          | some errorNode =>
              match (domFindNode (bytes "errorCode") errorNode).bind getNodeValue with
              | none => .failed UPNP_E_BAD_RESPONSE
              | some tempStr =>
                  let upnpErrorCode := atoi tempStr
                  if 400 < upnpErrorCode then .failed upnpErrorCode
                  else
                    match Ixml.ixmlParseBufferEx errorChar (Ixml.ixmlPrintNode errorNode) with
                    | .error _ => .failed UPNP_E_BAD_RESPONSE
                    | .ok actionValue => .actionRespError upnpErrorCode actionValue

def soapSendAction (errorChar : Int) (caller : Caller) (actionUrl serviceType : List UInt8)
    (actionNode : List Node) : Int × Option Document :=
  match soapExchange caller actionUrl serviceType actionNode with
  | .error errCode => (errCode, none)
  | .ok (name, answer) =>
      match getResponseValue errorChar answer (name ++ bytes "Response") with
      | .actionResp actionValue => (0, some actionValue)
      | .actionRespError upnpErrorCode actionValue => (upnpErrorCode, some actionValue)
      | .failed errCode => (errCode, none)

end Pupnp.Soap
