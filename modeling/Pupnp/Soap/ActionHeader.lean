import Pupnp.Gena.Notification
import Pupnp.Http.Method

/-! The header that names the action of a request, as the control part of a device reads it. -/

namespace Pupnp.Soap
open Pupnp.CString Pupnp.Uri Pupnp.Http
open Pupnp.Gena.Notification (matchstr)

def SREQ_HDR_NOT_FOUND : Int := -1
def SREQ_NOT_EXTENDED : Int := -3

def getMpostActonHdrval (request : HttpMessage) : Except Int (List UInt8) :=
  match httpmsgFindHdr request .man with
  | none => .error SREQ_NOT_EXTENDED
  | some hdr =>
      match matchstr hdr.value "%q%i ; ns = %s" with
      | (.ok, _, [.str _, .str nsValue]) =>
          match httpmsgFindHdrStr request (nsValue.read hdr.value ++ bytes "-SOAPACTION") with
          | none => .error SREQ_HDR_NOT_FOUND
          | some hdr => .ok hdr.value
      | _ => .error SREQ_NOT_EXTENDED

def soapactionValue (request : HttpMessage) : Except Int (List UInt8) :=
  if request.method = .soapPost then
    match httpmsgFindHdr request .soapaction with
    | none => .error SREQ_HDR_NOT_FOUND
    | some hdr => .ok hdr.value
  else getMpostActonHdrval request

def readHeaders (p : HttpParser) : Option HttpMessage :=
  let headers := parserParseHeaders p
  if headers.1 = .ok then some headers.2.msg else none

def headRead (res : Resolver) (text : List UInt8) : Option HttpMessage :=
  let line := parserParseRequestline res (parserRequestInit.extend text)
  if line.1 = .ok then readHeaders line.2 else none

def actionOf (res : Resolver) (text : List UInt8) : Option (Except Int (List UInt8)) :=
  (headRead res text).map soapactionValue

end Pupnp.Soap
