import Pupnp.Ssdp.Search
import Pupnp.Uri.Parse
import Mathlib.Data.List.DropRight

/-!
`AdvertiseAndReply`: the walk over the devices and services of a description and the
messages that it sends for each of them. The network takes whatever it is given.
-/

namespace Pupnp.Ssdp
open Pupnp.CString Pupnp.Uri

/-- The links that the walk follows in the description. Text stands for CDATA sections too. -/
inductive Node where
  | null
  | element (nodeName : List UInt8) (firstChild nextSibling : Node)
  | text (nodeValue : List UInt8) (nextSibling : Node)
  deriving DecidableEq, Repr

def Node.nodeName : Node → List UInt8
  | .element nodeName _ _ => nodeName
  | .text _ _ => bytes "#text"
  | .null => []

def Node.firstChild : Node → Node
  | .element _ firstChild _ => firstChild
  | _ => .null

def Node.siblings : Node → List Node
  | .null => []
  | .element nodeName firstChild nextSibling =>
      .element nodeName firstChild nextSibling :: nextSibling.siblings
  | .text nodeValue nextSibling => .text nodeValue nextSibling :: nextSibling.siblings

def getElementsByTagNameRecursive (tagname : List UInt8) : Node → List Node
  | .null => []
  | .element nodeName firstChild nextSibling =>
      (if tagname = nodeName ∨ tagname = bytes "*" then [.element nodeName firstChild nextSibling]
        else []) ++ getElementsByTagNameRecursive tagname firstChild ++
        getElementsByTagNameRecursive tagname nextSibling
  | .text _ nextSibling => getElementsByTagNameRecursive tagname nextSibling

def getElementsByTagName (tagname : List UInt8) : Node → List Node
  | .element nodeName firstChild nextSibling =>
      (if tagname = nodeName ∨ tagname = bytes "*" then [.element nodeName firstChild nextSibling]
        else []) ++ getElementsByTagNameRecursive tagname firstChild
  | _ => []

def Node.firstChildValue (n : Node) : Option (List UInt8) :=
  match n.firstChild with
  | .text nodeValue _ => some nodeValue
  | _ => none

def firstText (tagname : String) (n : Node) : Option (List UInt8) :=
  (getElementsByTagName (bytes tagname) n).head?.bind Node.firstChildValue

def copyType (s : List UInt8) : List UInt8 := s.take 99

def readDevice (device : Node) : Option (List UInt8 × List UInt8) :=
  match firstText "deviceType" device with
  | none => none
  | some devType =>
      match firstText "UDN" device with
      | none => none
      | some udn => some (copyType devType, copyType udn)

/-- The services behind the first direct child `serviceList`. -/
def serviceElements (device : Node) : List Node :=
  match device.firstChild.siblings.find? fun child => child.nodeName = bytes "serviceList" with
  | some serviceList => getElementsByTagName (bytes "service") serviceList
  | none => []

def readService (service : Node) : Option (List UInt8) := (firstText "serviceType" service).map copyType

/-- `MSGTYPE_SHUTDOWN`, `MSGTYPE_ADVERTISEMENT`, `MSGTYPE_REPLY` -/
inductive MsgType where
  | shutdown
  | advertisement
  | reply
  deriving DecidableEq, Repr

/-- What `CreateServicePacket` is given for a packet. -/
structure ServicePacket where
  msgType : MsgType
  nt : List UInt8
  usn : List UInt8
  location : List UInt8
  duration : Int
  addressFamily : AddrFamily
  powerState : Int
  sleepPeriod : Int
  registrationState : Int
  deriving DecidableEq, Repr

/-- The parts of `Handle_Info` that describe a device to SSDP. -/
structure HandleInfo where
  descURL : List UInt8
  lowerDescURL : List UInt8
  maxAge : Int
  powerState : Int
  sleepPeriod : Int
  registrationState : Int
  deviceAf : AddrFamily
  deviceList : List Node
  deriving DecidableEq, Repr

def milUsn (udn suffix : List UInt8) : Option (List UInt8) :=
  let usn := udn ++ bytes "::" ++ suffix
  if usn.length < LINE_SIZE then some usn else none

def UPNP_ROOTDEVICE : List UInt8 := bytes "upnp:rootdevice"

/-- `DeviceAdvertisement` and `DeviceShutdown`, which differ in the type of their messages. -/
def announceDevice (packet : List UInt8 → List UInt8 → ServicePacket) (devType : List UInt8)
    (rootDev : Bool) (udn : List UInt8) : List ServicePacket :=
  match if rootDev then milUsn udn UPNP_ROOTDEVICE else some [] with
  | none => []
  | some rootUsn =>
      match milUsn udn devType with
      | none => []
      | some usn =>
          (if rootDev then [packet UPNP_ROOTDEVICE rootUsn] else []) ++
            [packet udn udn, packet devType usn]

def announceService (packet : List UInt8 → List UInt8 → ServicePacket) (udn servType : List UInt8) :
    List ServicePacket :=
  match milUsn udn servType with
  | none => []
  | some usn => [packet servType usn]

def HandleInfo.packet (info : HandleInfo) (msgType : MsgType) (location : List UInt8) (duration : Int)
    (addressFamily : AddrFamily) (nt usn : List UInt8) : ServicePacket :=
  ⟨msgType, nt, usn, location, duration, addressFamily, info.powerState, info.sleepPeriod,
    info.registrationState⟩

def deviceReply (packet : List UInt8 → List UInt8 → ServicePacket) (devType : List UInt8)
    (rootDev : Bool) (udn : List UInt8) : List ServicePacket :=
  match if rootDev then milUsn udn UPNP_ROOTDEVICE else some [] with
  | none => []
  | some rootUsn =>
      if LINE_SIZE ≤ udn.length then []
      else if LINE_SIZE ≤ devType.length then []
      else
        match milUsn udn devType with
        | none => []
        | some usn =>
            (if rootDev then [packet (copyLine UPNP_ROOTDEVICE) rootUsn] else []) ++
              [packet udn udn, packet devType usn]

def sendReply (packet : List UInt8 → List UInt8 → ServicePacket) (devType : List UInt8)
    (rootDev : Bool) (udn : List UInt8) (byType : Bool) : List ServicePacket :=
  if rootDev then
    match milUsn udn UPNP_ROOTDEVICE with
    | none => []
    | some usn => [packet UPNP_ROOTDEVICE usn]
  else if !byType then [packet udn udn]
  else
    match milUsn udn devType with
    | none => []
    | some usn => [packet devType usn]

def sameIgnoringCase (a b : List UInt8) : Bool := a.map toLower = b.map toLower

/-- The arguments of `AdvertiseAndReply` besides the handle. -/
structure Call where
  adFlag : Int
  searchType : SsdpSearchType
  destFamily : AddrFamily
  deviceType : List UInt8
  deviceUDN : List UInt8
  serviceType : List UInt8
  exp : Int
  deriving DecidableEq, Repr

def behindLastColon (s : List UInt8) : List UInt8 := s.rtakeWhile (· ≠ 58)

/-- The version comparison of the two searches by type: no reply, or a reply with the lower
description or not. -/
def compareTypes (searched own : List UInt8) : Option Bool :=
  if strncasecmp searched own (searched.length - 2) = 0 then
    let version := atoi (own.drop (own.length - 1))
    if atoi (behindLastColon searched) < version then some true
    else if atoi (behindLastColon searched) = version then some false
    else none
  else none

def typeReply (info : HandleInfo) (call : Call) (searched own udn : List UInt8) : List ServicePacket :=
  match compareTypes searched own with
  | none => []
  | some lower =>
      sendReply (info.packet .reply (if lower then info.lowerDescURL else info.descURL) info.maxAge
        call.destFamily) searched false udn true

/-- What `AdvertiseAndReply` sends for a device, whose type and UDN it has read. -/
def deviceMessages (info : HandleInfo) (call : Call) (root : Bool) (devType udn : List UInt8) :
    List ServicePacket :=
  if call.adFlag ≠ 0 then
    announceDevice (info.packet (if call.adFlag = 1 then .advertisement else .shutdown) info.descURL
      call.exp info.deviceAf) devType root udn
  else
    let reply := info.packet .reply info.descURL info.maxAge call.destFamily
    match call.searchType with
    | .all => deviceReply reply devType root udn
    | .rootdevice => if root then sendReply reply devType true udn false else []
    | .deviceudn =>
        if call.deviceUDN ≠ [] ∧ sameIgnoringCase call.deviceUDN udn then
          sendReply reply devType false udn false
        else []
    | .devicetype => typeReply info call call.deviceType devType udn
    | _ => []

/-- What it sends for a service of a device with this UDN. -/
def serviceMessages (info : HandleInfo) (call : Call) (udn servType : List UInt8) :
    List ServicePacket :=
  if call.adFlag ≠ 0 then
    announceService (info.packet (if call.adFlag = 1 then .advertisement else .shutdown) info.descURL
      call.exp info.deviceAf) udn servType
  else
    match call.searchType with
    | .all =>
        announceService (info.packet .reply info.descURL info.maxAge call.destFamily) udn servType
    | .service => typeReply info call call.serviceType servType udn
    | _ => []

def aboutDevice (info : HandleInfo) (call : Call) (root : Bool) (device : Node) : List ServicePacket :=
  match readDevice device with
  | none => []
  | some (devType, udn) => deviceMessages info call root devType udn

def aboutService (info : HandleInfo) (call : Call) (device service : Node) : List ServicePacket :=
  match readDevice device with
  | none => []
  | some (_, udn) =>
      match readService service with
      | none => []
      | some servType => serviceMessages info call udn servType

def NUM_SSDP_COPY : Nat := 2

def advertisePass (info : HandleInfo) (call : Call) : List ServicePacket :=
  info.deviceList.zipIdx.flatMap fun (device, i) =>
    aboutDevice info call (i = 0) device ++
      (serviceElements device).flatMap (aboutService info call device)

def advertiseAndReply (info : HandleInfo) (call : Call) : List ServicePacket :=
  (List.replicate (if call.adFlag ≠ 0 then NUM_SSDP_COPY else 1) (advertisePass info call)).flatten

def searchCall (info : HandleInfo) (destFamily : AddrFamily) (st : List UInt8) : Call :=
  let (requestType, event) := (ssdpRequestType st).2
  ⟨0, requestType, destFamily, event.deviceType, event.udn, event.serviceType, info.maxAge⟩

def searchReplies (info : HandleInfo) (destFamily : AddrFamily) (st : List UInt8) :
    List ServicePacket :=
  if (ssdpRequestType st).1 = -1 then [] else advertiseAndReply info (searchCall info destFamily st)

theorem length_usn (udn suffix : List UInt8) :
    (udn ++ bytes "::" ++ suffix).length = udn.length + 2 + suffix.length := by
  rw [List.length_append, List.length_append, show (bytes "::").length = 2 by decide]

def UsnFits (udn suffix : List UInt8) : Prop := udn.length + 2 + suffix.length < LINE_SIZE

instance (udn suffix : List UInt8) : Decidable (UsnFits udn suffix) :=
  inferInstanceAs (Decidable (_ < _))

theorem milUsn_eq (udn suffix : List UInt8) :
    milUsn udn suffix = if UsnFits udn suffix then some (udn ++ bytes "::" ++ suffix) else none := by
  rw [milUsn]
  simp only [length_usn]
  rfl

/-- The lines that `DeviceReply` copies its names into are long enough for the names that its unique
service names have room for. -/
theorem deviceReply_eq (packet : List UInt8 → List UInt8 → ServicePacket) (devType : List UInt8)
    (rootDev : Bool) (udn : List UInt8) :
    deviceReply packet devType rootDev udn = announceDevice packet devType rootDev udn := by
  have root : copyLine UPNP_ROOTDEVICE = UPNP_ROOTDEVICE := by decide
  rw [deviceReply, announceDevice, root]
  cases if rootDev then milUsn udn UPNP_ROOTDEVICE else some [] with
  | none => rfl
  | some rootUsn =>
    simp only [milUsn_eq]
    by_cases fits : UsnFits udn devType
    · have lengths := fits
      unfold UsnFits at lengths
      rw [if_pos fits, if_neg (show ¬LINE_SIZE ≤ udn.length by omega),
        if_neg (show ¬LINE_SIZE ≤ devType.length by omega)]
    · rw [if_neg fits]
      simp

theorem announceDevice_eq (packet : List UInt8 → List UInt8 → ServicePacket) (devType : List UInt8)
    (rootDev : Bool) (udn : List UInt8) : announceDevice packet devType rootDev udn =
      if (rootDev = true → UsnFits udn UPNP_ROOTDEVICE) ∧ UsnFits udn devType then
        (if rootDev then [packet UPNP_ROOTDEVICE (udn ++ bytes "::" ++ UPNP_ROOTDEVICE)] else []) ++
          [packet udn udn, packet devType (udn ++ bytes "::" ++ devType)]
      else [] := by
  rw [announceDevice, milUsn_eq, milUsn_eq]
  cases rootDev
  · by_cases fits : UsnFits udn devType <;> simp [fits]
  · by_cases root : UsnFits udn UPNP_ROOTDEVICE <;> by_cases fits : UsnFits udn devType <;>
      simp [root, fits]

theorem announceService_eq (packet : List UInt8 → List UInt8 → ServicePacket)
    (udn servType : List UInt8) : announceService packet udn servType =
      if UsnFits udn servType then [packet servType (udn ++ bytes "::" ++ servType)] else [] := by
  rw [announceService, milUsn_eq]
  by_cases fits : UsnFits udn servType <;> simp [fits]

end Pupnp.Ssdp
