import Pupnp.Ssdp.Packet

/-! `ssdp_handle_ctrlpt_msg` and the way of a packet from the socket to it. -/

namespace Pupnp.Ssdp
open Pupnp.CString Pupnp.Uri Pupnp.Http

structure UpnpDiscovery where
  errCode : Int
  expires : Int
  deviceID : List UInt8
  deviceType : List UInt8
  serviceType : List UInt8
  location : List UInt8
  os : List UInt8
  date : List UInt8
  ext : List UInt8
  destAddr : SockAddr
  deriving DecidableEq, Repr

inductive EventType where
  | searchTimeout
  | advertisementAlive
  | advertisementByebye
  | searchResult
  deriving DecidableEq, Repr

structure SsdpSearchArg where
  searchTarget : List UInt8
  cookie : Nat
  requestType : SsdpSearchType
  deriving DecidableEq, Repr

/-- The parts of `Handle_Info` that describe a control point to SSDP. -/
structure CtrlPt where
  callback : Nat
  cookie : Nat
  ssdpSearchList : List SsdpSearchArg
  deriving DecidableEq, Repr

structure Report where
  callback : Nat
  eventType : EventType
  param : Option UpnpDiscovery
  cookie : Nat
  deriving DecidableEq, Repr

def matchstr (str : List UInt8) (fmt : String) : MatchResult := matchFormat ⟨str, 0, true⟩ fmt

def intArg (args : List MatchArg) (before : Int) : Int :=
  match args with
  | .int value :: _ => value
  | _ => before

def headerText (msg : HttpMessage) (id : HdrId) : Option (List UInt8) :=
  (httpmsgFindHdr msg id).map fun h => cstr h.value

/-- The match of the CACHE-CONTROL header and what it leaves in `expires`. -/
def readExpires (msg : HttpMessage) : ParseStatus × Int :=
  match httpmsgFindHdr msg .cacheControl with
  | none => (.ok, -1)
  | some h =>
      let m := matchstr h.value "%imax-age = %d%0"
      (m.1, intArg m.2.2 (-1))

def readOs (msg : HttpMessage) : List UInt8 :=
  match headerText msg .server with
  | some os => os
  | none => (headerText msg .userAgent).getD []

def readNames (msg : HttpMessage) : Bool × Bool × SsdpEvent :=
  let nt : Bool × SsdpEvent :=
    match headerText msg .nt with
    | none => (false, .clear)
    | some text => ((ssdpRequestType text).1 = 0, (ssdpRequestType text).2.2)
  match headerText msg .usn with
  | none => (nt.1, false, nt.2)
  | some text => (nt.1, (uniqueServiceName text nt.2).1 = 0, (uniqueServiceName text nt.2).2)

/-- `param` before the message is told apart. -/
def readDiscovery (msg : HttpMessage) (destAddr : SockAddr) : UpnpDiscovery :=
  let (ntFound, usnFound, event) := readNames msg
  { errCode := 0
    expires := (readExpires msg).2
    deviceID := if ntFound || usnFound then event.udn else []
    deviceType := if ntFound || usnFound then event.deviceType else []
    serviceType := if ntFound || usnFound then event.serviceType else []
    location := (headerText msg .location).getD []
    os := readOs msg
    date := (headerText msg .date).getD []
    ext := (headerText msg .ext).getD []
    destAddr := destAddr }

def notifyEvent (msg : HttpMessage) (param : UpnpDiscovery) : Option EventType :=
  let (ntFound, usnFound, _) := readNames msg
  match httpmsgFindHdr msg .nts with
  | none => none
  | some nts =>
      if memptrCmp nts.value (bytes "ssdp:alive") = 0 then
        if !ntFound || !usnFound || param.location = [] || param.expires ≤ 0 then none
        else some .advertisementAlive
      else if memptrCmp nts.value (bytes "ssdp:byebye") = 0 then
        if !ntFound || !usnFound then none else some .advertisementByebye
      else none

def searchMatched (arg : SsdpSearchArg) (requestType : SsdpSearchType) (st : List UInt8) : Bool :=
  match arg.requestType with
  | .all => true
  | .rootdevice => requestType = .rootdevice
  | .deviceudn => strncmp arg.searchTarget st st.length = 0
  | .devicetype | .service =>
      strncmp arg.searchTarget st (min st.length arg.searchTarget.length) = 0
  | .serror => false

def replyTarget (msg : HttpMessage) (param : UpnpDiscovery) : Option (List UInt8) :=
  let (_, usnFound, _) := readNames msg
  match httpmsgFindHdr msg .st with
  | none => none
  | some st =>
      if msg.statusCode ≠ 200 || param.expires ≤ 0 || param.location = [] || !usnFound ||
          (ssdpRequestType (cstr st.value)).1 ≠ 0 then none
      else some st.value

def searchReports (param : UpnpDiscovery) (st : List UInt8) (client : CtrlPt) : List Report :=
  (client.ssdpSearchList.filter fun arg => searchMatched arg (ssdpRequestType (cstr st)).2.1 st).map
    fun arg => ⟨client.callback, .searchResult, some param, arg.cookie⟩

/-- `ssdp_handle_ctrlpt_msg`, where the thread pool runs every job it is given. -/
def ssdpHandleCtrlptMsg (clients : List CtrlPt) (msg : HttpMessage) (destAddr : SockAddr)
    (timeout : Bool) : List Report :=
  if timeout then clients.map fun client => ⟨client.callback, .searchTimeout, none, client.cookie⟩
  else if (readExpires msg).1 ≠ .ok then []
  else
    let param := readDiscovery msg destAddr
    if msg.isRequest then
      match notifyEvent msg param with
      | none => []
      | some eventType =>
          clients.map fun client => ⟨client.callback, eventType, some param, client.cookie⟩
    else
      match replyTarget msg param with
      | none => []
      | some st => clients.flatMap (searchReports param st)

/-! ### From the socket -/

def BUFSIZE : Nat := 2500

def validSsdpMsg (msg : HttpMessage) : Bool :=
  if msg.method ≠ .notify && msg.method ≠ .msearch && msg.requestMethod ≠ .msearch then false
  else if msg.requestMethod ≠ .msearch then
    let path := msg.uri.any fun uri => uri.type = .relative &&
      strncmp (bytes "*") (msg.urlbuf.drop (uri.pathquery.buff.getD 0)) uri.pathquery.size = 0
    let host := (httpmsgFindHdr msg .host).any fun h =>
      memptrCmp h.value (bytes "239.255.255.250:1900") = 0 ||
        memptrCmp h.value (bytes "[FF02::C]:1900") = 0 ||
        memptrCmp h.value (bytes "[ff02::c]:1900") = 0 ||
        memptrCmp h.value (bytes "[FF05::C]:1900") = 0 ||
        memptrCmp h.value (bytes "[ff05::c]:1900") = 0
    path && host
  else true

def startEventHandler (res : Resolver) (p : HttpParser) : Option HttpMessage :=
  let r := parserParse res p
  let accepted := r.1 = .success ||
    (r.1 = .failure && r.2.msg.method = .notify && r.2.validSsdpNotifyHack)
  if accepted && validSsdpMsg r.2.msg then some r.2.msg else none

def ssdpEventHandlerThread (res : Resolver) (clients : List CtrlPt) (destAddr : SockAddr)
    (p : HttpParser) : List Report :=
  match startEventHandler res p with
  | none => []
  | some msg =>
      if msg.method = .notify || msg.requestMethod = .msearch then
        ssdpHandleCtrlptMsg clients msg destAddr false
      else []

/-- `readFromSSDPSocket` on the socket for searches or the one for notifications. -/
def readFromSSDPSocket (res : Resolver) (clients : List CtrlPt) (destAddr : SockAddr)
    (reqSocket : Bool) (packet : List UInt8) : List Report :=
  let p := if reqSocket then parserResponseInit .msearch else parserRequestInit
  ssdpEventHandlerThread res clients destAddr (p.extend (packet.take (BUFSIZE - 1)))

end Pupnp.Ssdp
