import Pupnp.Ssdp.Reply
import Mathlib.Data.List.Perm.Basic

/-!
The announcements of a description: what is sent for each device and service when the
root device comes, when it leaves and when a control point searches for everything.
-/

namespace Pupnp.Ssdp
open Pupnp.CString Pupnp.Uri

def HandleInfo.describing (info : HandleInfo) (doc : Node) : HandleInfo :=
  { info with deviceList := getElementsByTagNameRecursive (bytes "device") doc }

def devicesOf (doc : Node) : List Node := getElementsByTagNameRecursive (bytes "device") doc

/-- `ssdp:alive` for a positive flag, `ssdp:byebye` for a negative one. -/
def adCall (adFlag : Int) (exp : Int) : Call := ⟨adFlag, .serror, .inet, [], [], [], exp⟩

def pairs (sent : List ServicePacket) : List (List UInt8 × List UInt8) := sent.map fun p => (p.nt, p.usn)

def alivePairs (info : HandleInfo) (exp : Int) : List (List UInt8 × List UInt8) :=
  pairs (advertiseAndReply info (adCall 1 exp))

def byebyePairs (info : HandleInfo) (exp : Int) : List (List UInt8 × List UInt8) :=
  pairs (advertiseAndReply info (adCall (-1) exp))

def allPairs (info : HandleInfo) (destFamily : AddrFamily) : List (List UInt8 × List UInt8) :=
  pairs (searchReplies info destFamily (bytes "ssdp:all"))

/-! ### What a description says -/

def childrenNamed (name : String) (n : Node) : List Node :=
  n.firstChild.siblings.filter fun child => child.nodeName = bytes name

def ownServices (device : Node) : List Node :=
  (childrenNamed "serviceList" device).head?.elim [] (childrenNamed "service")

def named (udn name : List UInt8) : List UInt8 × List UInt8 := (name, udn ++ bytes "::" ++ name)

/-- Three entries for the root device, two for an embedded one and one for each service. -/
def ownEntries (root : Bool) (device : Node) : List (List UInt8 × List UInt8) :=
  let udn := (ownText "UDN" device).getD []
  (if root then [named udn UPNP_ROOTDEVICE] else []) ++
    [(udn, udn), named udn ((ownText "deviceType" device).getD [])] ++
      (ownServices device).map fun service => named udn ((ownText "serviceType" service).getD [])

def entries (doc : Node) : List (List UInt8 × List UInt8) :=
  (devicesOf doc).zipIdx.flatMap fun (device, i) => ownEntries (i = 0) device

def HasText (name : String) (n : Node) : Prop := ∃ text ∈ ownText name n, text.length ≤ 99

structure DescribesService (service : Node) : Prop where
  serviceType : HasText "serviceType" service
  only : ∀ child ∈ service.firstChild.siblings, child.nodeName ≠ bytes "serviceType" →
    getElementsByTagName (bytes "serviceType") child = []

structure DescribesDevice (device : Node) : Prop where
  deviceType : HasText "deviceType" device
  udn : HasText "UDN" device
  services : ∀ service ∈ ownServices device, DescribesService service
  /-- A service list holds services and nothing that holds services. -/
  flat : ∀ list ∈ childrenNamed "serviceList" device, ∀ child ∈ list.firstChild.siblings,
    getElementsByTagNameRecursive (bytes "service") child.firstChild = []

/-- A description: each device says its type and its UDN once, each service its type. -/
def Describes (doc : Node) : Prop := ∀ device ∈ devicesOf doc, DescribesDevice device

/-- The entries of a description are sent this many times when the device comes and when it leaves,
and once in answer to a search. -/
structure Announced (info : HandleInfo) (doc : Node) (copies : Nat) : Prop where
  alive : ∀ exp, (alivePairs (info.describing doc) exp).Perm (List.replicate copies (entries doc)).flatten
  byebye : ∀ exp, (byebyePairs (info.describing doc) exp).Perm (List.replicate copies (entries doc)).flatten
  all : ∀ destFamily, (allPairs (info.describing doc) destFamily).Perm (entries doc)

/-- No other element of the name comes before the one that is a direct child. -/
def OwnFirst (name : String) (n : Node) : Prop :=
  ∀ child ∈ n.firstChild.siblings.takeWhile (fun child => child.nodeName ≠ bytes name),
    getElementsByTagName (bytes name) child = []

/-- The unique service names of a device have room in a line. -/
structure NamesFit (root : Bool) (device : Node) : Prop where
  rootName : ∀ udn ∈ ownText "UDN" device, root = true → UsnFits udn UPNP_ROOTDEVICE
  typeName : ∀ udn ∈ ownText "UDN" device, ∀ devType ∈ ownText "deviceType" device, UsnFits udn devType
  serviceNames : ∀ udn ∈ ownText "UDN" device, ∀ service ∈ ownServices device,
    ∀ servType ∈ ownText "serviceType" service, UsnFits udn servType

instance (name : String) (n : Node) : Decidable (HasText name n) :=
  inferInstanceAs (Decidable (∃ text ∈ ownText name n, text.length ≤ 99))

instance (service : Node) : Decidable (DescribesService service) :=
  decidable_of_iff (HasText "serviceType" service ∧
    ∀ child ∈ service.firstChild.siblings, child.nodeName ≠ bytes "serviceType" →
      getElementsByTagName (bytes "serviceType") child = [])
    ⟨fun ⟨serviceType, only⟩ => ⟨serviceType, only⟩, fun d => ⟨d.serviceType, d.only⟩⟩

instance (device : Node) : Decidable (DescribesDevice device) :=
  decidable_of_iff (HasText "deviceType" device ∧ HasText "UDN" device ∧
    (∀ service ∈ ownServices device, DescribesService service) ∧
    ∀ list ∈ childrenNamed "serviceList" device, ∀ child ∈ list.firstChild.siblings,
      getElementsByTagNameRecursive (bytes "service") child.firstChild = [])
    ⟨fun ⟨deviceType, udn, services, flat⟩ => ⟨deviceType, udn, services, flat⟩,
      fun d => ⟨d.deviceType, d.udn, d.services, d.flat⟩⟩

instance (doc : Node) : Decidable (Describes doc) :=
  inferInstanceAs (Decidable (∀ device ∈ devicesOf doc, DescribesDevice device))

instance (name : String) (n : Node) : Decidable (OwnFirst name n) :=
  inferInstanceAs (Decidable (∀ child ∈
    n.firstChild.siblings.takeWhile (fun child => child.nodeName ≠ bytes name),
      getElementsByTagName (bytes name) child = []))

instance (root : Bool) (device : Node) : Decidable (NamesFit root device) :=
  decidable_of_iff ((∀ udn ∈ ownText "UDN" device, root = true → UsnFits udn UPNP_ROOTDEVICE) ∧
    (∀ udn ∈ ownText "UDN" device, ∀ devType ∈ ownText "deviceType" device, UsnFits udn devType) ∧
    ∀ udn ∈ ownText "UDN" device, ∀ service ∈ ownServices device,
      ∀ servType ∈ ownText "serviceType" service, UsnFits udn servType)
    ⟨fun ⟨rootName, typeName, serviceNames⟩ => ⟨rootName, typeName, serviceNames⟩,
      fun fit => ⟨fit.rootName, fit.typeName, fit.serviceNames⟩⟩

/-! ### What the walk reads -/

theorem getElementsByTagName_siblings (tagname : List UInt8) (n : Node) :
    getElementsByTagNameRecursive tagname n = n.siblings.flatMap (getElementsByTagName tagname) := by
  induction n with
  | null => rfl
  | element nodeName firstChild nextSibling _ ih =>
    rw [getElementsByTagNameRecursive, Node.siblings, List.flatMap_cons, getElementsByTagName, ih]
  | text nodeValue nextSibling ih =>
    rw [getElementsByTagNameRecursive, Node.siblings, List.flatMap_cons, ih]
    rfl

theorem getElementsByTagName_other {tagname nodeName : List UInt8} {firstChild nextSibling : Node}
    (other : tagname ≠ nodeName) (notStar : tagname ≠ bytes "*") :
    getElementsByTagName tagname (.element nodeName firstChild nextSibling) =
      firstChild.siblings.flatMap (getElementsByTagName tagname) := by
  rw [getElementsByTagName, if_neg (by simp [other, notStar]), List.nil_append,
    getElementsByTagName_siblings]

theorem mem_getElementsByTagNameRecursive {tagname : List UInt8} (notStar : tagname ≠ bytes "*")
    {n found : Node} (member : found ∈ getElementsByTagNameRecursive tagname n) :
    ∃ firstChild nextSibling, found = .element tagname firstChild nextSibling := by
  induction n with
  | null => cases member
  | element nodeName firstChild nextSibling child next =>
    rw [getElementsByTagNameRecursive, List.mem_append, List.mem_append] at member
    obtain (here | below) | behind := member
    · split at here
      next same =>
        obtain rfl := List.mem_singleton.mp here
        obtain rfl := same.resolve_right notStar
        exact ⟨_, _, rfl⟩
      next => cases here
    · exact child below
    · exact next behind
  | text nodeValue nextSibling ih => exact ih member

/-- Where nothing comes before a direct child, the walk reads the text of that child. -/
theorem firstText_own {name : String} {tagname : List UInt8} {firstChild nextSibling : Node}
    (other : bytes name ≠ tagname) (notStar : bytes name ≠ bytes "*")
    (first : OwnFirst name (.element tagname firstChild nextSibling))
    {text : List UInt8} (own : ownText name (.element tagname firstChild nextSibling) = some text) :
    firstText name (.element tagname firstChild nextSibling) = some text := by
  rw [ownText, Option.bind_eq_some_iff] at own
  obtain ⟨child, found, value⟩ := own
  have isNamed : child.nodeName = bytes name := by simpa using List.find?_some found
  rw [firstText, getElementsByTagName_other other notStar]
  rw [OwnFirst] at first
  change firstChild.siblings.find? _ = _ at found
  change ∀ child ∈ firstChild.siblings.takeWhile _, _ at first
  obtain ⟨-, before, after, split, away⟩ := List.find?_eq_some_iff_append.mp found
  have front : firstChild.siblings.takeWhile (fun child => child.nodeName ≠ bytes name) = before := by
    rw [split, List.takeWhile_append_of_pos]
    · simp [isNamed]
    · intro sibling member
      simpa using away sibling member
  rw [front] at first
  have empty : before.flatMap (getElementsByTagName (bytes name)) = [] :=
    List.flatMap_eq_nil_iff.mpr first
  have here : (getElementsByTagName (bytes name) child).head? = some child := by
    cases child with
    | null => cases value
    | text _ _ => cases value
    | element nodeName _ _ =>
      obtain rfl : nodeName = bytes name := isNamed
      rw [getElementsByTagName, if_pos (.inl rfl)]
      rfl
  rw [split, List.flatMap_append, empty, List.nil_append, List.flatMap_cons, List.head?_append, here]
  exact value

theorem DescribesService.first {service : Node} (describes : DescribesService service) :
    OwnFirst "serviceType" service := by
  intro child early
  have other := List.mem_takeWhile_imp early
  exact describes.only child (List.takeWhile_subset _ early) (by simpa using other)

theorem readService_own {service : Node} (isService : service.nodeName = bytes "service")
    (describes : DescribesService service) : readService service = ownText "serviceType" service := by
  obtain ⟨text, own, short⟩ := describes.serviceType
  cases service with
  | null => cases own
  | text _ _ => cases own
  | element nodeName firstChild nextSibling =>
    obtain rfl : nodeName = bytes "service" := isService
    have read := firstText_own (by decide) (by decide) describes.first own
    rw [readService, read, own, Option.map_some, copyType, List.take_of_length_le short]

theorem readDevice_own {device : Node} (isDevice : device.nodeName = bytes "device")
    {devType udn : List UInt8} (ownType : ownText "deviceType" device = some devType)
    (ownUdn : ownText "UDN" device = some udn) (shortType : devType.length ≤ 99)
    (shortUdn : udn.length ≤ 99) (typeFirst : OwnFirst "deviceType" device)
    (udnFirst : OwnFirst "UDN" device) : readDevice device = some (devType, udn) := by
  cases device with
  | null => cases ownType
  | text _ _ => cases ownType
  | element nodeName firstChild nextSibling =>
    obtain rfl : nodeName = bytes "device" := isDevice
    rw [readDevice, firstText_own (by decide) (by decide) typeFirst ownType,
      firstText_own (by decide) (by decide) udnFirst ownUdn]
    simp only [copyType, List.take_of_length_le shortType, List.take_of_length_le shortUdn]

theorem flatMap_flat {siblings : List Node} (flat : ∀ child ∈ siblings,
    getElementsByTagNameRecursive (bytes "service") child.firstChild = []) :
    siblings.flatMap (getElementsByTagName (bytes "service")) =
      siblings.filter fun child => child.nodeName = bytes "service" := by
  induction siblings with
  | nil => rfl
  | cons child rest ih =>
    have alone : getElementsByTagName (bytes "service") child =
        if child.nodeName = bytes "service" then [child] else [] := by
      cases child with
      | null => rfl
      | text _ _ => rfl
      | element nodeName firstChild nextSibling =>
        have empty : getElementsByTagNameRecursive (bytes "service") firstChild = [] :=
          flat _ List.mem_cons_self
        have notStar : bytes "service" ≠ bytes "*" := by decide
        rw [getElementsByTagName, empty, List.append_nil]
        by_cases same : nodeName = bytes "service"
        · simp [same, Node.nodeName]
        · simp [same, notStar, Ne.symm same, Node.nodeName]
    rw [List.flatMap_cons, alone, ih fun other member => flat other (List.mem_cons_of_mem child member),
      List.filter_cons]
    split <;> simp_all

theorem serviceElements_own {device : Node} (flat : ∀ list ∈ childrenNamed "serviceList" device,
    ∀ child ∈ list.firstChild.siblings,
      getElementsByTagNameRecursive (bytes "service") child.firstChild = []) :
    serviceElements device = ownServices device := by
  have named : (device.firstChild.siblings.filter fun child => child.nodeName = bytes "serviceList") =
      childrenNamed "serviceList" device := rfl
  rw [serviceElements, ← List.head?_filter, ownServices, named]
  cases found : (childrenNamed "serviceList" device).head? with
  | none => rfl
  | some list =>
    have member := List.mem_of_mem_head? found
    have isList : list.nodeName = bytes "serviceList" := by
      simpa using (List.mem_filter.mp member).2
    have below := flat list member
    simp only [Option.elim_some]
    cases list with
    | null => rfl
    | text _ _ => rfl
    | element nodeName firstChild nextSibling =>
      obtain rfl : nodeName = bytes "serviceList" := isList
      rw [getElementsByTagName_other (by decide) (by decide)]
      exact flatMap_flat below

theorem ownServices_named {device service : Node} (inside : service ∈ ownServices device) :
    service.nodeName = bytes "service" := by
  rw [ownServices] at inside
  cases found : (childrenNamed "serviceList" device).head? with
  | none =>
    rw [found] at inside
    cases inside
  | some list =>
    rw [found] at inside
    simpa using (List.mem_filter.mp inside).2

/-! ### What is sent -/

section
variable {info : HandleInfo} {call : Call} {root : Bool} {device : Node}

/-- A call that sends the three messages of a root device, the two of another one and the one of a
service. -/
structure SendsAll (info : HandleInfo) (call : Call) : Prop where
  device : ∀ root devType udn, ∃ packet : List UInt8 → List UInt8 → ServicePacket,
    (∀ nt usn, ((packet nt usn).nt, (packet nt usn).usn) = (nt, usn)) ∧
      deviceMessages info call root devType udn = announceDevice packet devType root udn
  service : ∀ udn servType, ∃ packet : List UInt8 → List UInt8 → ServicePacket,
    (∀ nt usn, ((packet nt usn).nt, (packet nt usn).usn) = (nt, usn)) ∧
      serviceMessages info call udn servType = announceService packet udn servType

theorem sendsAll_ad (info : HandleInfo) {adFlag : Int} (ad : adFlag ≠ 0) (exp : Int) :
    SendsAll info (adCall adFlag exp) := by
  have flag : (adCall adFlag exp).adFlag ≠ 0 := ad
  constructor
  · intro root devType udn
    exact ⟨_, fun _ _ => rfl, by rw [deviceMessages, if_pos flag]⟩
  · intro udn servType
    exact ⟨_, fun _ _ => rfl, by rw [serviceMessages, if_pos flag]⟩

theorem sendsAll_all (info : HandleInfo) (destFamily : AddrFamily) :
    SendsAll info (searchCall info destFamily (bytes "ssdp:all")) := by
  have call : searchCall info destFamily (bytes "ssdp:all") =
      ⟨0, .all, destFamily, [], [], [], info.maxAge⟩ := by
    have taken : ssdpRequestType (bytes "ssdp:all") = (0, .all, .clear) := by decide
    rw [searchCall, taken]
    rfl
  rw [call]
  constructor
  · intro root devType udn
    exact ⟨_, fun _ _ => rfl, deviceReply_eq _ _ _ _⟩
  · intro udn servType
    exact ⟨_, fun _ _ => rfl, rfl⟩

theorem pairs_append (a b : List ServicePacket) : pairs (a ++ b) = pairs a ++ pairs b := List.map_append

theorem pairs_announceDevice {packet : List UInt8 → List UInt8 → ServicePacket}
    (asNamed : ∀ nt usn, ((packet nt usn).nt, (packet nt usn).usn) = (nt, usn)) {devType udn : List UInt8}
    (rootFits : root = true → UsnFits udn UPNP_ROOTDEVICE) (fits : UsnFits udn devType) :
    pairs (announceDevice packet devType root udn) =
      (if root then [named udn UPNP_ROOTDEVICE] else []) ++ [(udn, udn), named udn devType] := by
  rw [announceDevice_eq, if_pos ⟨rootFits, fits⟩, pairs]
  cases root <;> simp [asNamed, named]

theorem pairs_announceService {packet : List UInt8 → List UInt8 → ServicePacket}
    (asNamed : ∀ nt usn, ((packet nt usn).nt, (packet nt usn).usn) = (nt, usn)) {udn servType : List UInt8}
    (fits : UsnFits udn servType) :
    pairs (announceService packet udn servType) = [named udn servType] := by
  rw [announceService_eq, if_pos fits, pairs]
  simp [asNamed, named]

theorem pairs_device (sends : SendsAll info call) (isDevice : device.nodeName = bytes "device")
    (describes : DescribesDevice device) (typeFirst : OwnFirst "deviceType" device)
    (udnFirst : OwnFirst "UDN" device) (fit : NamesFit root device) :
    pairs (aboutDevice info call root device ++
      (serviceElements device).flatMap (aboutService info call device)) = ownEntries root device := by
  obtain ⟨devType, ownType, shortType⟩ := describes.deviceType
  obtain ⟨udn, ownUdn, shortUdn⟩ := describes.udn
  have read := readDevice_own isDevice ownType ownUdn shortType shortUdn typeFirst udnFirst
  obtain ⟨packet, asNamed, sent⟩ := sends.device root devType udn
  have device_part : pairs (aboutDevice info call root device) =
      (if root then [named udn UPNP_ROOTDEVICE] else []) ++ [(udn, udn), named udn devType] := by
    rw [aboutDevice, read]
    simp only
    rw [sent, pairs_announceDevice asNamed (fit.rootName udn ownUdn) (fit.typeName udn ownUdn _ ownType)]
  have service_part : ∀ service ∈ ownServices device, pairs (aboutService info call device service) =
      [named udn ((ownText "serviceType" service).getD [])] := by
    intro service inside
    obtain ⟨servType, own, -⟩ := (describes.services service inside).serviceType
    obtain ⟨packet, asNamed, sent⟩ := sends.service udn servType
    rw [aboutService, read,
      readService_own (ownServices_named inside) (describes.services service inside), own]
    simp only [Option.getD_some]
    rw [sent, pairs_announceService asNamed (fit.serviceNames udn ownUdn service inside _ own)]
  have services : pairs ((ownServices device).flatMap (aboutService info call device)) =
      (ownServices device).map fun service => named udn ((ownText "serviceType" service).getD []) := by
    rw [pairs, List.map_flatMap, List.map_eq_flatMap]
    exact List.flatMap_congr service_part
  rw [pairs_append, device_part, serviceElements_own describes.flat, services, ownEntries, ownType, ownUdn]
  rfl

theorem pairs_pass {doc : Node} (sends : SendsAll (info.describing doc) call) (describes : Describes doc)
    (typeFirst : ∀ device ∈ devicesOf doc, OwnFirst "deviceType" device)
    (udnFirst : ∀ device ∈ devicesOf doc, OwnFirst "UDN" device)
    (fit : ∀ listed ∈ (devicesOf doc).zipIdx, NamesFit (listed.2 = 0) listed.1) :
    pairs (advertisePass (info.describing doc) call) = entries doc := by
  rw [advertisePass, entries, pairs, List.map_flatMap]
  apply List.flatMap_congr
  rintro ⟨device, i⟩ listed
  have member : device ∈ devicesOf doc := (List.mem_zipIdx' listed).2 ▸ List.getElem_mem _
  obtain ⟨firstChild, nextSibling, rfl⟩ := mem_getElementsByTagNameRecursive (by decide) member
  exact pairs_device sends rfl (describes _ member) (typeFirst _ member) (udnFirst _ member)
    (fit _ listed)

end

theorem pairs_copies (sent : List ServicePacket) (copies : Nat) :
    pairs (List.replicate copies sent).flatten = (List.replicate copies (pairs sent)).flatten := by
  rw [pairs, List.map_flatten, List.map_replicate]
  rfl

/-- Where each device gives its own type and UDN before it embeds other devices, and the names fit,
the entries of the description go out twice as the device comes, twice as it leaves, and once in
answer to a search for everything. -/
theorem announced (info : HandleInfo) (doc : Node) (describes : Describes doc)
    (typeFirst : ∀ device ∈ devicesOf doc, OwnFirst "deviceType" device)
    (udnFirst : ∀ device ∈ devicesOf doc, OwnFirst "UDN" device)
    (fit : ∀ listed ∈ (devicesOf doc).zipIdx, NamesFit (listed.2 = 0) listed.1) :
    Announced info doc NUM_SSDP_COPY := by
  have passes {call : Call} (sends : SendsAll (info.describing doc) call) :=
    pairs_pass sends describes typeFirst udnFirst fit
  constructor
  · intro exp
    rw [alivePairs, advertiseAndReply, pairs_copies, passes (sendsAll_ad _ (by decide) exp)]
    rfl
  · intro exp
    rw [byebyePairs, advertiseAndReply, pairs_copies, passes (sendsAll_ad _ (by decide) exp)]
    rfl
  · intro destFamily
    have found : (ssdpRequestType (bytes "ssdp:all")).1 ≠ -1 := by decide
    rw [allPairs, searchReplies, if_neg found, advertiseAndReply, pairs_copies,
      passes (sendsAll_all _ destFamily)]
    exact List.Perm.of_eq List.flatten_singleton

def leaf (name : String) (text : List UInt8) (nextSibling : Node) : Node :=
  .element (bytes name) (.text text .null) nextSibling

/-- The description of a hub with these elements in its device. -/
def hub (elements : Node) : Node := .element (bytes "root") (.element (bytes "device") elements .null) .null

def hubNames (nextSibling : Node) : Node :=
  leaf "deviceType" (bytes "urn:schemas-upnp-org:device:Hub:1") (leaf "UDN" (bytes "uuid:hub") nextSibling)

def hubServices (nextSibling : Node) : Node :=
  .element (bytes "serviceList")
    (.element (bytes "service")
      (leaf "serviceType" (bytes "urn:schemas-upnp-org:service:Switch:1") .null) .null) nextSibling

def hubDevices (nextSibling : Node) : Node :=
  .element (bytes "deviceList")
    (.element (bytes "device")
      (leaf "deviceType" (bytes "urn:schemas-upnp-org:device:Lamp:1") (leaf "UDN" (bytes "uuid:lamp") .null))
      .null) nextSibling

theorem announced_hub :
    Announced lightDescription (hub (hubNames (hubServices (hubDevices .null)))) 2 :=
  announced lightDescription _ (by decide) (by decide) (by decide)
    (by decide)

/-- A device whose names are as long as the walk allows. -/
def longNames : Node :=
  leaf "deviceType" (bytes "urn:schemas-upnp-org:device:" ++ List.replicate 71 97)
    (leaf "UDN" (bytes "uuid:" ++ List.replicate 94 97) .null)

/-- The announcements go out more than once; an embedded device that comes first lends its type and
UDN to the device around it; and names without room in a line are not announced. -/
theorem not_announced :
    (¬∀ info doc, Describes doc → Announced info doc 1) ∧
      (¬∀ info doc, Describes doc →
        (∀ listed ∈ (devicesOf doc).zipIdx, NamesFit (listed.2 = 0) listed.1) →
          Announced info doc NUM_SSDP_COPY) ∧
      ¬∀ info doc, Describes doc →
        (∀ device ∈ devicesOf doc, OwnFirst "deviceType" device ∧ OwnFirst "UDN" device) →
          Announced info doc NUM_SSDP_COPY := by
  constructor
  · intro claim
    have sent := (claim lightDescription (hub (hubNames .null)) (by decide)).alive 1800
    exact absurd sent.length_eq (by decide)
  constructor
  · intro claim
    have sent := (claim lightDescription (hub (hubDevices (hubNames .null))) (by decide)
      (by decide)).alive 1800
    have own : (bytes "uuid:hub", bytes "uuid:hub") ∈
        (List.replicate NUM_SSDP_COPY (entries (hub (hubDevices (hubNames .null))))).flatten := by
      decide
    exact absurd (sent.mem_iff.mpr own) (by decide)
  · intro claim
    have sent := (claim lightDescription (hub longNames) (by decide) (by decide)).alive 1800
    exact absurd sent.length_eq (by decide +kernel)

end Pupnp.Ssdp
