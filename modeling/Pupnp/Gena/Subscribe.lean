import Pupnp.Gena.TimeOut
import Pupnp.Http.ReadResponse
import Pupnp.Web.SendInstruction

/-!
Subscriptions over the network: the request of `gena_subscribe`, what a device makes of a SUBSCRIBE
or a renewal, its answer, and what `gena_subscribe` reads from that.
-/

namespace Pupnp.Gena.Subscribe
open Pupnp.CString Pupnp.Uri Pupnp.Http

def SID_SIZE : Nat := 41
def CP_MINIMUM_SUBSCRIPTION_TIME : Int := 15
def UPNP_E_SUBSCRIBE_UNACCEPTED : Int := -301

structure UuidUpnp where
  timeLow : UInt32
  timeMid : UInt16
  timeHiAndVersion : UInt16
  clockSeqHiAndReserved : UInt8
  clockSeqLow : UInt8
  node : Vector UInt8 6
  deriving DecidableEq, Repr

def paddedHex (w n : Nat) : List UInt8 := List.replicate (w - (hexDigits n).length) 48 ++ hexDigits n

def upnpUuidUnpack (u : UuidUpnp) : List UInt8 :=
  paddedHex 8 u.timeLow.toNat ++ bytes "-" ++ paddedHex 4 u.timeMid.toNat ++ bytes "-" ++
    paddedHex 4 u.timeHiAndVersion.toNat ++ bytes "-" ++ paddedHex 2 u.clockSeqHiAndReserved.toNat ++
    paddedHex 2 u.clockSeqLow.toNat ++ bytes "-" ++ u.node.toList.flatMap fun b => paddedHex 2 b.toNat

structure InAddr where
  a : UInt8
  b : UInt8
  c : UInt8
  d : UInt8
  deriving DecidableEq, Repr

def InAddr.text (addr : InAddr) : List UInt8 :=
  decimalDigits addr.a.toNat ++ bytes "." ++ decimalDigits addr.b.toNat ++ bytes "." ++
    decimalDigits addr.c.toNat ++ bytes "." ++ decimalDigits addr.d.toNat

def isAddr6Char (c : UInt8) : Bool := isXdigit c || c = 58 || c = 46

/-- A text that `inet_ntop` writes into a buffer of `INET6_ADDRSTRLEN` bytes. -/
structure Addr6Text where
  text : List UInt8
  chars : ∀ c ∈ text, isAddr6Char c = true
  fits : text.length ≤ 45

/-- The network interface of a host, as `UpnpGetIfInfo` leaves it, with the ports of the mini server;
a text is empty where the host has no such address. -/
structure Interface where
  ipv4 : Option InAddr
  ipv4Netmask : Option InAddr
  gIF_IPV6 : Addr6Text
  gIF_IPV6_PREFIX_LENGTH : Nat
  gIF_IPV6_ULA_GUA : Addr6Text
  gIF_IPV6_ULA_GUA_PREFIX_LENGTH : Nat
  LOCAL_PORT_V4 : UInt16
  LOCAL_PORT_V6 : UInt16
  LOCAL_PORT_V6_ULA_GUA : UInt16

def Interface.gIF_IPV4 (iface : Interface) : List UInt8 := (iface.ipv4.map InAddr.text).getD []

def Interface.gIF_IPV4_NETMASK (iface : Interface) : List UInt8 := (iface.ipv4Netmask.map InAddr.text).getD []

/-! ### The device -/

structure UrlList where
  size : Nat
  /-- The copy of the header value that the parsed URLs point into. -/
  urls : List UInt8
  parsedURLs : List UriType
  deriving DecidableEq, Repr

/-- A subscription, as far as the two requests read and write it; its SID is made from a UUID. -/
structure Subscription where
  uuid : UuidUpnp
  expireTime : Int
  deliveryURLs : UrlList
  deriving DecidableEq, Repr

def Subscription.sid (sub : Subscription) : List UInt8 := bytes "uuid:" ++ upnpUuidUnpack sub.uuid

structure ServiceInfo where
  controlURL : Option (List UInt8)
  eventURL : Option (List UInt8)
  active : Bool
  totalSubscriptions : Int
  subscriptionList : List Subscription
  deriving DecidableEq, Repr

structure HandleInfo where
  deviceAf : AddrFamily
  maxSubscriptions : Int
  maxSubscriptionTimeOut : MaxTimeOut
  /-- The setting is an `int`. -/
  isInt : maxSubscriptionTimeOut.value < 2 ^ 31
  serviceTable : List ServiceInfo

/-- What a request finds on a device, besides its handles. -/
structure Server where
  resolver : Resolver
  iface : Interface
  env : Ssdp.Env
  /-- `time(NULL)` -/
  now : Int
  /-- `uuid_create` -/
  uuid : UuidUpnp
  /-- The address family of the peer. -/
  foreign : AddrFamily
  /-- Whether `http_SendMessage` gets the answer through. -/
  sends : Bool

inductive Outcome where
  /-- `error_respond` with this code. -/
  | refused (code : Nat)
  /-- The connection broke under the answer. -/
  | unanswered
  /-- The subscription as recorded, and the answer. -/
  | accepted (sub : Subscription) (answer : List UInt8)
  deriving DecidableEq, Repr

def HTTP_PRECONDITION_FAILED : Nat := 412

/-- The URL behind a `<`. The size that `create_url_list` passes on is larger than what is left. -/
def urlAt (res : Resolver) (buff : List UInt8) (i : Nat) : Option UriType :=
  if charAt buff i = 60 && i + 1 < buff.length then
    (parseUri res (buff.drop (i + 1)) (buff.length - i + 1)).filter fun url => url.hostport.text.size ≠ 0
  else none

/-- `create_url_list`: its second pass reads a copy of what the first one has counted. -/
def createUrlList (res : Resolver) (buff : List UInt8) : UrlList :=
  let found := (List.range buff.length).filterMap (urlAt res buff)
  ⟨found.length, if found = [] then [] else buff, found⟩

def in6IsAddrLinklocal (addr : List UInt8) : Bool := addr.getD 0 0 = 0xfe && addr.getD 1 0 &&& 0xc0 = 0x80

/-- The address of a URL as a `sockaddr_in`; that of a `sockaddr_in6` holds its flow information there. -/
def sinAddr (url : UriType) : List UInt8 :=
  match url.hostport.ipAddress with
  | some ⟨.inet, addr, _, _⟩ => addr
  | _ => List.replicate 4 0

def sin6Addr (url : UriType) : List UInt8 :=
  match url.hostport.ipAddress with
  | some ⟨.inet6, addr, _, _⟩ => addr
  | _ => List.replicate 16 0

def masked (mask addr : List UInt8) : List UInt8 := List.zipWith (· &&& ·) mask addr

def genaValidateDeliveryUrls (server : Server) (list : UrlList) : Bool :=
  let res := server.resolver
  let iface := server.iface
  match server.foreign with
  | .inet =>
      match res.inetPton .inet iface.gIF_IPV4, res.inetPton .inet iface.gIF_IPV4_NETMASK with
      | some genaAddr4, some genaNetmask =>
          list.parsedURLs.all fun url => masked genaNetmask (sinAddr url) = masked genaNetmask genaAddr4
      | _, _ => false
  | .inet6 =>
      match res.inetPton .inet6 iface.gIF_IPV6.text, res.inetPton .inet6 iface.gIF_IPV6_ULA_GUA.text with
      | some genaAddr6Lla, some genaAddr6UlaGua =>
          list.parsedURLs.all fun url =>
            if in6IsAddrLinklocal (sin6Addr url) then
              (sin6Addr url).take (iface.gIF_IPV6_PREFIX_LENGTH / 8) =
                genaAddr6Lla.take (iface.gIF_IPV6_PREFIX_LENGTH / 8)
            else (sin6Addr url).take (iface.gIF_IPV6_ULA_GUA_PREFIX_LENGTH / 8) =
              genaAddr6UlaGua.take (iface.gIF_IPV6_ULA_GUA_PREFIX_LENGTH / 8)
      | _, _ => false

def pathqueryOf (res : Resolver) (url : List UInt8) : Option (List UInt8) :=
  (parseUri res url url.length).map fun uri => uri.pathquery.read url

/-- The loop of `FindServiceControlURLPath` and `FindServiceEventURLPath` over one URL of a service. -/
def findServicePath (res : Resolver) (url : ServiceInfo → Option (List UInt8)) (table : List ServiceInfo)
    (path : List UInt8) : Option Nat :=
  (pathqueryOf res path).bind fun wanted =>
    table.findIdx? fun service => (url service).bind (pathqueryOf res) = some wanted

def findServiceControlURLPath (res : Resolver) : List ServiceInfo → List UInt8 → Option Nat :=
  findServicePath res ServiceInfo.controlURL

def findServiceEventURLPath (res : Resolver) : List ServiceInfo → List UInt8 → Option Nat :=
  findServicePath res ServiceInfo.eventURL

def getDeviceHandleInfoForPath (res : Resolver) (handles : List HandleInfo) (path : List UInt8)
    (family : AddrFamily) : Option (Nat × Nat) :=
  handles.zipIdx.findSome? fun (info, handle) =>
    if info.deviceAf = family then
      ((findServiceControlURLPath res info.serviceTable path).or
        (findServiceEventURLPath res info.serviceTable path)).map (handle, ·)
    else none

def setService (handles : List HandleInfo) (place : Nat × Nat) (service : ServiceInfo) : List HandleInfo :=
  handles.modify place.1 fun info => { info with serviceTable := info.serviceTable.set place.2 service }

def removeSubscriptionSID (sid : List UInt8) (service : ServiceInfo) : ServiceInfo :=
  if service.subscriptionList.any (·.sid = sid) then
    { service with
      subscriptionList := service.subscriptionList.eraseP (·.sid = sid)
      totalSubscriptions := service.totalSubscriptions - 1 }
  else service

def getSubscriptionSID (sid : List UInt8) (now : Int) (service : ServiceInfo) :
    Option Subscription × ServiceInfo :=
  match service.subscriptionList.find? (·.sid = sid) with
  | none => (none, service)
  | some found =>
      if found.expireTime ≠ 0 && found.expireTime < now then (none, removeSubscriptionSID sid service)
      else (some found, service)

def answerParts (timeOut : Int) (sid : List UInt8) : List Web.HeaderPart :=
  [.R Web.HTTP_OK, .plain .D, .plain .S, .N 0, .plain (.X (bytes "redsonic")), .plain .c,
    .plain (.s (bytes "SID: ")), .plain (.s sid), .plain .c,
    .plain (.s (if 0 ≤ timeOut then bytes "TIMEOUT: Second-" ++ decimalDigits timeOut.toNat
      else bytes "TIMEOUT: Second-infinite")), .plain .c, .plain .c]

def answerText (env : Ssdp.Env) (timeOut : Int) (sid : List UInt8) (request : HttpMessage) : List UInt8 :=
  let version := Web.calcResponseVersion request.majorVersion request.minorVersion
  (answerParts timeOut sid).flatMap (Web.HeaderPart.text env version.1 version.2)

def valueOf (msg : HttpMessage) (id : HdrId) : Option (List UInt8) := (httpmsgFindHdr msg id).map (·.value)

def genaProcessSubscriptionRequest (server : Server) (handles : List HandleInfo) (request : HttpMessage) :
    Outcome × List HandleInfo :=
  match valueOf request .nt with
  | none => (.refused HTTP_BAD_REQUEST, handles)
  | some nt =>
    if memptrCmpNocase nt (bytes "upnp:event") ≠ 0 then (.refused HTTP_PRECONDITION_FAILED, handles)
    -- a SID does not go with the other headers
    else if valueOf request .sid ≠ none then (.refused HTTP_BAD_REQUEST, handles)
    else
      match getDeviceHandleInfoForPath server.resolver handles (cstr (Web.pathquery request)) server.foreign with
      | none => (.refused HTTP_INTERNAL_SERVER_ERROR, handles)
      | some place =>
        match handles[place.1]? with
        | none => (.refused HTTP_INTERNAL_SERVER_ERROR, handles)
        | some info =>
          match info.serviceTable[place.2]? with
          | none => (.refused Web.HTTP_NOT_FOUND, handles)
          | some service =>
            if !service.active then (.refused Web.HTTP_NOT_FOUND, handles)
            else if info.maxSubscriptions ≠ -1 && info.maxSubscriptions ≤ service.totalSubscriptions then
              (.refused HTTP_INTERNAL_SERVER_ERROR, handles)
            else
              match valueOf request .callback with
              | none => (.refused HTTP_PRECONDITION_FAILED, handles)
              | some callback =>
                let urls := createUrlList server.resolver callback
                if urls.size = 0 then (.refused HTTP_PRECONDITION_FAILED, handles)
                else if !genaValidateDeliveryUrls server urls then (.refused HTTP_PRECONDITION_FAILED, handles)
                else
                  let grant := subscriptionGrant info.maxSubscriptionTimeOut.value server.now
                    (valueOf request .timeout)
                  let sub : Subscription := ⟨server.uuid, grant.expireTime, urls⟩
                  if !server.sends then (.unanswered, handles)
                  else
                    (.accepted sub (answerText server.env grant.timeOut sub.sid request),
                      setService handles place { service with
                        subscriptionList := sub :: service.subscriptionList
                        totalSubscriptions := service.totalSubscriptions + 1 })

def genaProcessSubscriptionRenewalRequest (server : Server) (handles : List HandleInfo) (request : HttpMessage) :
    Outcome × List HandleInfo :=
  if valueOf request .callback ≠ none || valueOf request .nt ≠ none then (.refused HTTP_BAD_REQUEST, handles)
  else
    match valueOf request .sid with
    | none => (.refused HTTP_PRECONDITION_FAILED, handles)
    | some header =>
      if SID_SIZE < header.length then (.refused HTTP_PRECONDITION_FAILED, handles)
      else
        let sid := cstr header
        match getDeviceHandleInfoForPath server.resolver handles (cstr (Web.pathquery request)) server.foreign with
        | none => (.refused HTTP_PRECONDITION_FAILED, handles)
        | some place =>
          match handles[place.1]? with
          | none => (.refused HTTP_PRECONDITION_FAILED, handles)
          | some info =>
            match info.serviceTable[place.2]? with
            | none => (.refused HTTP_PRECONDITION_FAILED, handles)
            | some service =>
              if !service.active then (.refused HTTP_PRECONDITION_FAILED, handles)
              else
                match getSubscriptionSID sid server.now service with
                | (none, service) => (.refused HTTP_PRECONDITION_FAILED, setService handles place service)
                | (some sub, service) =>
                  -- too many subscriptions
                  if info.maxSubscriptions ≠ -1 && info.maxSubscriptions < service.totalSubscriptions then
                    (.refused HTTP_INTERNAL_SERVER_ERROR,
                      setService handles place (removeSubscriptionSID sub.sid service))
                  else
                    let grant := renewalGrant info.maxSubscriptionTimeOut.value server.now
                      (valueOf request .timeout)
                    let renewed := { sub with expireTime := grant.expireTime }
                    if !server.sends then
                      (.unanswered, setService handles place (removeSubscriptionSID sub.sid service))
                    else
                      (.accepted renewed (answerText server.env grant.timeOut sub.sid request),
                        setService handles place { service with
                          subscriptionList := service.subscriptionList.map fun other =>
                            if other.sid = sid then renewed else other })

def genaCallback (server : Server) (handles : List HandleInfo) (request : HttpMessage) :
    Option (Outcome × List HandleInfo) :=
  if request.method ≠ .subscribe then none
  else if valueOf request .nt = none then some (genaProcessSubscriptionRenewalRequest server handles request)
  else some (genaProcessSubscriptionRequest server handles request)

def hostHeaderIsNumeric (res : Resolver) (hostPort : List UInt8) : Bool :=
  let behind := (hostPort.reverse.takeWhile fun c => c ≠ 93 && c ≠ 58).length
  let colon := hostPort.length - behind - 1
  let host := if behind < hostPort.length && charAt hostPort colon = 58 then hostPort.take colon else hostPort
  (res.inetPton .inet host).isSome ||
    (3 ≤ host.length && host.head? = some 91 && host.getLast? = some 93 &&
      (res.inetPton .inet6 (host.drop 1).dropLast).isSome)

/-- `dispatch_request` on a message for the GENA callback; `none` where it does not get there. -/
def dispatchRequest (server : Server) (handles : List HandleInfo) (request : HttpMessage) :
    Option (Outcome × List HandleInfo) :=
  (valueOf request .host).bind fun header =>
    -- the address must be a number, which prevents DNS rebinding
    if hostHeaderIsNumeric server.resolver (header.take 255) then genaCallback server handles request else none

/-- `handle_request` of the mini server on a connection with these reads. -/
def handleRequest (server : Server) (maxContentLength : Nat) (handles : List HandleInfo) (reads : List SockRead) :
    Option (Outcome × List HandleInfo) :=
  (httpRecvMessage server.resolver maxContentLength .unknown reads).bind fun received =>
    if received.ret = UPNP_E_SUCCESS then dispatchRequest server handles received.parser.msg else none

/-! ### The control point -/

/-- A URL with the path that `http_FixUrl` gives it. -/
structure FixedUrl where
  uri : UriType
  pathquery : List UInt8
  hostport : List UInt8
  deriving DecidableEq, Repr

/-- `http_FixStrUrl`; `none` is `UPNP_E_INVALID_URL`. -/
def httpFixStrUrl (res : Resolver) (url : List UInt8) : Option FixedUrl :=
  (parseUri res url url.length).bind fun uri =>
    if tokenStringCasecmp (uri.scheme.read url) (bytes "http") ≠ 0 then none
    else if uri.hostport.text.size = 0 then none
    else
      some ⟨uri, if uri.pathquery.size = 0 then bytes "/" else uri.pathquery.read url,
        uri.hostport.text.read url⟩

def timeoutStr (timeout : Int) : List UInt8 :=
  if timeout < 0 then bytes "infinite"
  else if timeout < CP_MINIMUM_SUBSCRIPTION_TIME then decimalDigits CP_MINIMUM_SUBSCRIPTION_TIME.toNat
  else decimalDigits timeout.toNat

def usesLinklocal (iface : Interface) (dest : FixedUrl) : Bool :=
  in6IsAddrLinklocal (sin6Addr dest.uri) || iface.gIF_IPV6_ULA_GUA.text.length = 0

/-- Where the control point listens for events of that device: its address and its port. -/
def callbackHost (iface : Interface) (dest : FixedUrl) : List UInt8 × UInt16 :=
  match dest.uri.hostport.ipAddress with
  | some ⟨.inet6, _, _, _⟩ =>
      if usesLinklocal iface dest then (bytes "[" ++ iface.gIF_IPV6.text ++ bytes "]", iface.LOCAL_PORT_V6)
      else (bytes "[" ++ iface.gIF_IPV6_ULA_GUA.text ++ bytes "]", iface.LOCAL_PORT_V6_ULA_GUA)
  | _ => (iface.gIF_IPV4, iface.LOCAL_PORT_V4)

/-- The directive `q` of `http_MakeMessage`: a request line and the header HOST. -/
def startParts (url : FixedUrl) : List Ssdp.Part :=
  [.s (bytes "SUBSCRIBE"), .s (bytes " "), .s url.pathquery, .s (bytes " HTTP/"), .d 1, .s (bytes "."), .d 1, .c,
    .s (bytes "HOST: "), .s url.hostport, .c]

def requestParts (iface : Interface) (dest : FixedUrl) (timeout : Int) : Option (List UInt8) → List Ssdp.Part
  | some renewalSid =>
      [.s (bytes "SID: "), .s renewalSid, .c, .s (bytes "TIMEOUT: Second-"), .s (timeoutStr timeout), .c, .c]
  | none =>
      let host := callbackHost iface dest
      [.s (bytes "CALLBACK: <http://"), .s host.1, .s (bytes ":"), .d host.2.toNat, .s (bytes "/>"), .c,
        .s (bytes "NT: upnp:event"), .c, .s (bytes "TIMEOUT: Second-"), .s (timeoutStr timeout), .c, .c]

/-- The request of `gena_subscribe`, with the URL it goes to. -/
def subscribeRequest (res : Resolver) (env : Ssdp.Env) (iface : Interface) (url : List UInt8) (timeout : Int)
    (renewalSid : Option (List UInt8)) : Option (FixedUrl × List UInt8) :=
  (httpFixStrUrl res (cstr url)).map fun dest =>
    (dest, Ssdp.httpMakeMessage env (startParts dest ++ requestParts iface dest timeout renewalSid))

/-- What `gena_subscribe` takes from a response: the SID and the duration, or an error code. -/
def readAnswer (response : HttpMessage) : Except Int (List UInt8 × Int) :=
  if response.statusCode ≠ 200 then .error UPNP_E_SUBSCRIBE_UNACCEPTED
  else
    match valueOf response .sid, valueOf response .timeout with
    | some sid, some timeout =>
        if sid.length = 0 || timeout.length = 0 then .error UPNP_E_BAD_RESPONSE
        else
          match readTimeOut timeout with
          | some duration => .ok (cstr sid, duration)
          | none => .error UPNP_E_BAD_RESPONSE
    | _, _ => .error UPNP_E_BAD_RESPONSE

/-- `gena_subscribe` behind its request, on a connection with these reads; `none` while it waits. -/
def subscribeResult (res : Resolver) (maxContentLength : Nat) (reads : List SockRead) :
    Option (Except Int (List UInt8 × Int)) :=
  (httpRecvMessage res maxContentLength .subscribe reads).map fun received =>
    if received.ret = UPNP_E_SUCCESS then readAnswer received.parser.msg else .error received.ret

end Pupnp.Gena.Subscribe
