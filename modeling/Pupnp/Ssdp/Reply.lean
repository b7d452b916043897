import Pupnp.Ssdp.Target

/-!
Which devices and services answer a search for a type, and with which description. The
code compares a fixed part of the two types and the last digit of a version.
-/

namespace Pupnp.Ssdp
open Pupnp.CString Pupnp.Uri

def ownText (tagname : String) (n : Node) : Option (List UInt8) :=
  (n.firstChild.siblings.find? fun child => child.nodeName = bytes tagname).bind Node.firstChildValue

namespace SearchTarget
variable (t : SearchTarget)

def wantedDevice (device : Node) : Option Nat :=
  if t.kind = .device then (ownText "deviceType" device).bind t.wanted else none

def wantedService (service : Node) : Option Nat :=
  if t.kind = .service then (ownText "serviceType" service).bind t.wanted else none

/-- The replies for a device or service of which this version is wanted: one that echoes the
target, with the lower description exactly where the target's version is lower. -/
def Answered (info : HandleInfo) (replies : List ServicePacket) : Option Nat → Prop
  | none => replies = []
  | some version => ∃ reply, replies = [reply] ∧ reply.nt = t.text ∧
      reply.location = if t.ver < version then info.lowerDescURL else info.descURL

end SearchTarget

/-- Each device and service is answered as the target wants. -/
structure SearchAnswered (info : HandleInfo) (destFamily : AddrFamily) (t : SearchTarget) : Prop where
  devices : ∀ device i, (device, i) ∈ info.deviceList.zipIdx →
    t.Answered info (aboutDevice info (searchCall info destFamily t.text) (i = 0) device)
      (t.wantedDevice device)
  services : ∀ device ∈ info.deviceList, ∀ service ∈ serviceElements device,
    t.Answered info (aboutService info (searchCall info destFamily t.text) device service)
      (t.wantedService service)

/-! ### The condition -/

/-- A wanted type that the comparison meets, its last digit on the same side of the searched version
as its whole version. -/
structure MetAs (info : HandleInfo) (t : SearchTarget) (version : Nat) (own udn : List UInt8) : Prop where
  shares : SharesAllButTwo t own
  number : t.verNumber ≤ lastNumber own
  fits : UsnFits udn t.text
  order : (t.verNumber < lastNumber own ↔ t.ver < version) ∨ info.descURL = info.lowerDescURL

def Passed (t : SearchTarget) (own udn : List UInt8) : Prop :=
  SharesAllButTwo t own → t.verNumber ≤ lastNumber own → ¬UsnFits udn t.text

def DeviceSilent (t : SearchTarget) (root : Bool) (devType udn : List UInt8) : Prop :=
  match ssdpRequestType1 t.text with
  | .all => (root = true ∧ ¬UsnFits udn UPNP_ROOTDEVICE) ∨ ¬UsnFits udn devType
  | .rootdevice => root = true → ¬UsnFits udn UPNP_ROOTDEVICE
  | .deviceudn =>
      let deviceUDN := (uniqueServiceName t.text .clear).2.udn
      deviceUDN = [] ∨ sameIgnoringCase deviceUDN udn = false
  | .devicetype => Passed t devType udn
  | _ => True

def ServiceSilent (t : SearchTarget) (servType udn : List UInt8) : Prop :=
  match ssdpRequestType1 t.text with
  | .all => ¬UsnFits udn servType
  | .service => Passed t servType udn
  | _ => True

def DeviceToldApart (info : HandleInfo) (t : SearchTarget) (root : Bool) (device : Node) : Prop :=
  match t.wantedDevice device with
  | some version => ssdpRequestType1 t.text = .devicetype ∧
      ∃ devType udn, readDevice device = some (devType, udn) ∧ MetAs info t version devType udn
  | none => ∀ devType udn, readDevice device = some (devType, udn) → DeviceSilent t root devType udn

/-- A service with the very text of a target that is taken for a search for everything is answered
by accident. -/
def ServiceToldApart (info : HandleInfo) (t : SearchTarget) (device service : Node) : Prop :=
  match t.wantedService service with
  | some version => ∃ devType udn servType,
      readDevice device = some (devType, udn) ∧ readService service = some servType ∧
        ((ssdpRequestType1 t.text = .service ∧ MetAs info t version servType udn) ∨
          (ssdpRequestType1 t.text = .all ∧ servType = t.text ∧ UsnFits udn t.text ∧
            (¬t.ver < version ∨ info.descURL = info.lowerDescURL)))
  | none => ∀ devType udn servType,
      readDevice device = some (devType, udn) → readService service = some servType →
        ServiceSilent t servType udn

/-! ### The searches by type -/

namespace SearchTarget
variable (t : SearchTarget)

theorem compareTypes_copy {own : List UInt8} (short : own.length ≤ 99) :
    compareTypes (copyLine t.text) own = compareTypes t.text own := by
  by_cases long : t.text.length ≤ LINE_SIZE - 1
  · rw [copyLine, List.take_of_length_le long]
  · have apart : ¬SharesAllButTwo t own := by
      intro shares
      have lengths := congrArg List.length shares
      unfold LINE_SIZE at long
      simp only [List.length_map, List.length_take] at lengths
      omega
    have length : (copyLine t.text).length = 179 := by
      unfold LINE_SIZE at long
      rw [copyLine, List.length_take, LINE_SIZE]
      omega
    rw [compareTypes_text, if_neg fun both => apart both.1, compareTypes, if_neg]
    have noNul : ∀ c ∈ copyLine t.text, c ≠ 0 := fun c member => t.noNul c (List.mem_of_mem_take member)
    intro shares
    have lengths := congrArg List.length ((strncasecmp_zero (Nat.sub_le _ _) noNul).mp shares)
    simp only [List.length_map, List.length_take] at lengths
    omega

theorem sendReply_byType (packet : List UInt8 → List UInt8 → ServicePacket) (devType udn : List UInt8) :
    sendReply packet devType false udn true =
      if UsnFits udn devType then [packet devType (udn ++ bytes "::" ++ devType)] else [] := by
  by_cases fits : UsnFits udn devType <;> simp [sendReply, milUsn_eq, fits]

variable {info : HandleInfo} {call : Call} {own udn : List UInt8}

theorem typeReply_text (short : own.length ≤ 99) :
    typeReply info call (copyLine t.text) own udn =
      if SharesAllButTwo t own ∧ t.verNumber ≤ lastNumber own ∧ UsnFits udn t.text then
        [info.packet .reply
          (if t.verNumber < lastNumber own then info.lowerDescURL else info.descURL) info.maxAge
          call.destFamily t.text (udn ++ bytes "::" ++ t.text)]
      else [] := by
  rw [typeReply, t.compareTypes_copy short, compareTypes_text]
  by_cases meets : SharesAllButTwo t own ∧ t.verNumber ≤ lastNumber own
  · rw [if_pos meets]
    simp only [t.long_shares short meets.1, sendReply_byType, decide_eq_true_eq]
    by_cases fits : UsnFits udn t.text
    · simp only [meets, fits, and_self, if_true]
    · simp only [fits, and_false, if_false]
  · rw [if_neg meets, if_neg fun all => meets ⟨all.1, all.2.1⟩]

theorem typeReply_unwanted (short : own.length ≤ 99) :
    t.Answered info (typeReply info call (copyLine t.text) own udn) none ↔ Passed t own udn := by
  rw [typeReply_text t short, Answered, Passed]
  split
  next meets => simp [meets]
  next misses =>
    simp only [true_iff]
    intro shares number fits
    exact misses ⟨shares, number, fits⟩

theorem typeReply_wanted (version : Nat) (short : own.length ≤ 99) :
    t.Answered info (typeReply info call (copyLine t.text) own udn) (some version) ↔
      MetAs info t version own udn := by
  rw [typeReply_text t short, Answered]
  split
  next meets =>
    obtain ⟨shares, number, fits⟩ := meets
    constructor
    · rintro ⟨reply, same, -, location⟩
      obtain rfl := List.singleton_inj.mp same
      refine ⟨shares, number, fits, ?_⟩
      change (if t.verNumber < lastNumber own then info.lowerDescURL else info.descURL) = _ at location
      split_ifs at location with less lower lower
      · exact .inl ⟨fun _ => lower, fun _ => less⟩
      · exact .inr location.symm
      · exact .inr location
      · exact .inl ⟨fun le => absurd le less, fun lt => absurd lt lower⟩
    · intro met
      refine ⟨_, rfl, rfl, ?_⟩
      change (if t.verNumber < lastNumber own then info.lowerDescURL else info.descURL) = _
      obtain order | same := met.order
      · simp only [order]
      · simp only [same, ite_self]
  next misses =>
    constructor
    · rintro ⟨reply, same, -⟩
      cases same
    · intro met
      exact absurd ⟨met.shares, met.number, met.fits⟩ misses

/-! ### The call that a target leads to -/

theorem text_split : t.text = bytes "urn" ++ (COLON :: t.domain ++ COLON :: t.kind.name ++
    COLON :: t.type ++ COLON :: decimalDigits t.ver) := by
  rw [text, urn, show bytes "urn:" = bytes "urn" ++ [COLON] by decide]
  simp only [List.append_assoc, List.cons_append, List.nil_append]

theorem hasUrn : hasStr "urn:" t.text = true := by
  rw [hasStr_iff, text, urn]
  simp only [List.append_assoc]
  exact (List.prefix_append _ _).isInfix

theorem urnName_text {kind : String} (found : hasStr kind t.text = true) :
    urnName kind t.text = some (copyLine t.text) := by
  have first : strstr (bytes "urn") t.text = some 0 := by
    rw [text_split]
    exact strstr_prefix _ _
  rw [urnName, hasUrn, found, first]
  rfl

theorem no_schemas (none : hasStr "uuid:" t.text = false) : hasStr "uuid:schemas" t.text = false := by
  rw [Bool.eq_false_iff] at none ⊢
  intro schemas
  apply none
  rw [hasStr_iff] at schemas ⊢
  have inside : bytes "uuid:" <+: bytes "uuid:schemas" := by decide
  exact inside.isInfix.trans schemas

theorem requestType_type (byType : ssdpRequestType1 t.text = .devicetype ∨
    ssdpRequestType1 t.text = .service) : hasStr "uuid:" t.text = false ∧
      (ssdpRequestType1 t.text = .devicetype → hasStr ":device:" t.text = true) ∧
      (ssdpRequestType1 t.text = .service → hasStr ":service:" t.text = true) := by
  rw [ssdpRequestType1] at byType ⊢
  split_ifs at byType ⊢ with all root uuid device service <;> simp_all

theorem not_root_device : UPNP_ROOTDEVICE ≠ t.text := by
  intro same
  have second := congrArg (·[1]?) same
  simp [text_split, UPNP_ROOTDEVICE, bytes] at second

theorem not_udn {udn : List UInt8} (taken : ssdpRequestType1 t.text = .deviceudn)
    (same : sameIgnoringCase (uniqueServiceName t.text .clear).2.udn udn = true) : udn ≠ t.text := by
  rintro rfl
  have noRoot : hasStr "::upnp:rootdevice" t.text = false := by
    have shorter : hasStr ":rootdevice" t.text = false := by
      rw [ssdpRequestType1] at taken
      split_ifs at taken with all root
      · simpa using root
    rw [Bool.eq_false_iff] at shorter ⊢
    intro root
    apply shorter
    rw [hasStr_iff] at root ⊢
    have inside : bytes ":rootdevice" <:+ bytes "::upnp:rootdevice" := by decide
    exact inside.isInfix.trans root
  have second := congrArg (·[1]?) (of_decide_eq_true same)
  have letter : (t.text.map toLower)[1]? = some 114 := by
    rw [text_split]
    rfl
  simp only [letter, List.getElem?_map] at second
  obtain ⟨c, found, lower⟩ := Option.map_eq_some_iff.mp second
  obtain rfl := uniqueServiceName_udn noRoot c found
  exact absurd lower (by decide)

theorem call_deviceType (family : AddrFamily) (byType : ssdpRequestType1 t.text = .devicetype) :
    (searchCall info family t.text).deviceType = copyLine t.text := by
  obtain ⟨uuid, device, -⟩ := t.requestType_type (.inl byType)
  change (uniqueServiceName t.text .clear).2.deviceType = _
  rw [uniqueServiceName, t.no_schemas uuid]
  simp [t.urnName_text (device byType)]

theorem call_serviceType (family : AddrFamily) (byType : ssdpRequestType1 t.text = .service) :
    (searchCall info family t.text).serviceType = copyLine t.text := by
  obtain ⟨uuid, -, service⟩ := t.requestType_type (.inr byType)
  change (uniqueServiceName t.text .clear).2.serviceType = _
  rw [uniqueServiceName, t.no_schemas uuid]
  simp [t.urnName_text (service byType)]

end SearchTarget

theorem readDevice_short {device : Node} {devType udn : List UInt8}
    (read : readDevice device = some (devType, udn)) : devType.length ≤ 99 := by
  rw [readDevice] at read
  split at read
  next => cases read
  next => split at read
          next => cases read
          next =>
            cases read
            exact List.length_take_le _ _

theorem readService_short {service : Node} {servType : List UInt8}
    (read : readService service = some servType) : servType.length ≤ 99 := by
  obtain ⟨text, -, rfl⟩ := Option.map_eq_some_iff.mp read
  exact List.length_take_le _ _

theorem announceDevice_nil {packet : List UInt8 → List UInt8 → ServicePacket} {devType udn : List UInt8}
    {root : Bool} : announceDevice packet devType root udn = [] ↔
      (root = true ∧ ¬UsnFits udn UPNP_ROOTDEVICE) ∨ ¬UsnFits udn devType := by
  rw [announceDevice_eq]
  split
  next fits => simpa [fits.2] using fits.1
  next misfit =>
    simp only [true_iff]
    by_contra neither
    push Not at neither
    exact misfit neither

theorem announceDevice_several {packet : List UInt8 → List UInt8 → ServicePacket}
    {devType udn : List UInt8} {root : Bool} (reply : ServicePacket) :
    announceDevice packet devType root udn ≠ [reply] := by
  rw [announceDevice_eq]
  split
  · cases root <;> simp
  · simp

/-! ### Devices and services one by one -/

section
variable {info : HandleInfo} {family : AddrFamily} {t : SearchTarget} {devType udn servType : List UInt8}

theorem deviceMessages_silent {root : Bool} (short : devType.length ≤ 99) :
    deviceMessages info (searchCall info family t.text) root devType udn = [] ↔
      DeviceSilent t root devType udn := by
  have notAd : ¬(searchCall info family t.text).adFlag ≠ 0 := not_not.mpr rfl
  have search : (searchCall info family t.text).searchType = ssdpRequestType1 t.text := rfl
  rw [deviceMessages, if_neg notAd, DeviceSilent]
  simp only [search]
  cases taken : ssdpRequestType1 t.text with
  | all => rw [deviceReply_eq, announceDevice_nil]
  | rootdevice =>
    cases root
    · simp
    · by_cases fits : UsnFits udn UPNP_ROOTDEVICE <;> simp [sendReply, milUsn_eq, fits]
  | deviceudn =>
    have name : (searchCall info family t.text).deviceUDN = (uniqueServiceName t.text .clear).2.udn := rfl
    simp only [name]
    by_cases empty : (uniqueServiceName t.text .clear).2.udn = []
    · simp [empty]
    · simp [empty, sendReply]
  | devicetype =>
    simp only [t.call_deviceType family taken]
    exact t.typeReply_unwanted short
  | service => simp
  | serror => simp

theorem deviceMessages_wanted {root : Bool} (version : Nat) (short : devType.length ≤ 99) :
    t.Answered info (deviceMessages info (searchCall info family t.text) root devType udn)
      (some version) ↔ ssdpRequestType1 t.text = .devicetype ∧ MetAs info t version devType udn := by
  have notAd : ¬(searchCall info family t.text).adFlag ≠ 0 := not_not.mpr rfl
  have search : (searchCall info family t.text).searchType = ssdpRequestType1 t.text := rfl
  rw [deviceMessages, if_neg notAd]
  simp only [search]
  cases taken : ssdpRequestType1 t.text with
  | all =>
    simp only [reduceCtorEq, false_and, iff_false]
    rintro ⟨reply, same, -⟩
    rw [deviceReply_eq] at same
    exact announceDevice_several reply same
  | rootdevice =>
    simp only [reduceCtorEq, false_and, iff_false]
    rintro ⟨reply, same, echo, -⟩
    cases root
    · cases same
    · by_cases fits : UsnFits udn UPNP_ROOTDEVICE
      · simp only [sendReply, milUsn_eq, fits, if_true] at same
        obtain rfl := List.singleton_inj.mp same
        exact t.not_root_device echo
      · simp [sendReply, milUsn_eq, fits] at same
  | deviceudn =>
    simp only [reduceCtorEq, false_and, iff_false]
    rintro ⟨reply, same, echo, -⟩
    split at same
    next asked =>
      obtain rfl := List.singleton_inj.mp same
      exact t.not_udn taken asked.2 echo
    next => cases same
  | devicetype =>
    simp only [t.call_deviceType family taken, true_and]
    exact t.typeReply_wanted version short
  | service => simp [SearchTarget.Answered]
  | serror => simp [SearchTarget.Answered]

theorem serviceMessages_silent (short : servType.length ≤ 99) :
    serviceMessages info (searchCall info family t.text) udn servType = [] ↔
      ServiceSilent t servType udn := by
  have notAd : ¬(searchCall info family t.text).adFlag ≠ 0 := not_not.mpr rfl
  have search : (searchCall info family t.text).searchType = ssdpRequestType1 t.text := rfl
  rw [serviceMessages, if_neg notAd, ServiceSilent]
  simp only [search]
  cases taken : ssdpRequestType1 t.text with
  | all =>
    rw [announceService_eq]
    by_cases fits : UsnFits udn servType <;> simp [fits]
  | service =>
    simp only [t.call_serviceType family taken]
    exact t.typeReply_unwanted short
  | rootdevice => simp
  | deviceudn => simp
  | devicetype => simp
  | serror => simp

theorem serviceMessages_wanted (version : Nat) (short : servType.length ≤ 99) :
    t.Answered info (serviceMessages info (searchCall info family t.text) udn servType)
      (some version) ↔
        (ssdpRequestType1 t.text = .service ∧ MetAs info t version servType udn) ∨
          (ssdpRequestType1 t.text = .all ∧ servType = t.text ∧ UsnFits udn t.text ∧
            (¬t.ver < version ∨ info.descURL = info.lowerDescURL)) := by
  have notAd : ¬(searchCall info family t.text).adFlag ≠ 0 := not_not.mpr rfl
  have search : (searchCall info family t.text).searchType = ssdpRequestType1 t.text := rfl
  rw [serviceMessages, if_neg notAd]
  simp only [search]
  cases taken : ssdpRequestType1 t.text with
  | all =>
    simp only [reduceCtorEq, false_and, false_or, true_and, announceService_eq]
    constructor
    · rintro ⟨reply, same, echo, location⟩
      split at same
      next fits =>
        obtain rfl := List.singleton_inj.mp same
        obtain rfl : servType = t.text := echo
        refine ⟨rfl, fits, ?_⟩
        change info.descURL = _ at location
        split at location
        next => exact .inr location
        next lower => exact .inl lower
      next => cases same
    · rintro ⟨rfl, fits, order⟩
      refine ⟨_, if_pos fits, rfl, ?_⟩
      change info.descURL = _
      obtain lower | same := order
      · rw [if_neg lower]
      · rw [same, ite_self]
  | service =>
    simp only [t.call_serviceType family taken, reduceCtorEq, true_and, false_and, or_false]
    exact t.typeReply_wanted version short
  | rootdevice => simp [SearchTarget.Answered]
  | deviceudn => simp [SearchTarget.Answered]
  | devicetype => simp [SearchTarget.Answered]
  | serror => simp [SearchTarget.Answered]

theorem aboutDevice_answered (root : Bool) (device : Node) :
    t.Answered info (aboutDevice info (searchCall info family t.text) root device)
      (t.wantedDevice device) ↔ DeviceToldApart info t root device := by
  rw [DeviceToldApart, aboutDevice]
  cases read : readDevice device with
  | none => cases t.wantedDevice device <;> simp [SearchTarget.Answered]
  | some names =>
    obtain ⟨devType, udn⟩ := names
    have short := readDevice_short read
    cases t.wantedDevice device with
    | none =>
      apply (deviceMessages_silent short).trans
      simp only [Option.some.injEq, Prod.mk.injEq, and_imp]
      constructor
      · rintro silent _ _ rfl rfl
        exact silent
      · intro silent
        exact silent _ _ rfl rfl
    | some version =>
      apply (deviceMessages_wanted version short).trans
      simp

theorem aboutService_answered (device service : Node) :
    t.Answered info (aboutService info (searchCall info family t.text) device service)
      (t.wantedService service) ↔ ServiceToldApart info t device service := by
  rw [ServiceToldApart, aboutService]
  cases read : readDevice device with
  | none => cases t.wantedService service <;> simp [SearchTarget.Answered]
  | some names =>
    obtain ⟨devType, udn⟩ := names
    simp only
    cases readType : readService service with
    | none => cases t.wantedService service <;> simp [SearchTarget.Answered]
    | some servType =>
      have short := readService_short readType
      cases t.wantedService service with
      | none =>
        apply (serviceMessages_silent short).trans
        simp only [Option.some.injEq, Prod.mk.injEq, and_imp]
        constructor
        · rintro silent _ _ _ rfl rfl rfl
          exact silent
        · intro silent
          exact silent _ _ _ rfl rfl rfl
      | some version =>
        apply (serviceMessages_wanted version short).trans
        simp

end

/-- A search for a type is answered as it should be exactly where the fixed part of the target and
one digit of each version tell the devices and services of the description apart. -/
theorem searchAnswered_iff (info : HandleInfo) (destFamily : AddrFamily) (t : SearchTarget) :
    SearchAnswered info destFamily t ↔
      (∀ device i, (device, i) ∈ info.deviceList.zipIdx → DeviceToldApart info t (i = 0) device) ∧
        ∀ device ∈ info.deviceList, ∀ service ∈ serviceElements device,
          ServiceToldApart info t device service := by
  constructor
  · intro answered
    constructor
    · intro device i listed
      exact (aboutDevice_answered _ _).mp (answered.devices device i listed)
    · intro device listed service inside
      exact (aboutService_answered _ _).mp (answered.services device listed service inside)
  · rintro ⟨devices, services⟩
    constructor
    · intro device i listed
      exact (aboutDevice_answered _ _).mpr (devices device i listed)
    · intro device listed service inside
      exact (aboutService_answered _ _).mpr (services device listed service inside)

def lightDescription : HandleInfo where
  descURL := bytes "http://192.168.0.1:49152/light.xml"
  lowerDescURL := bytes "http://192.168.0.1:49152/light1.xml"
  maxAge := 1800
  powerState := 0
  sleepPeriod := 0
  registrationState := 0
  deviceAf := .inet
  deviceList := [.element (bytes "device")
    (.element (bytes "deviceType") (.text (bytes "urn:schemas-upnp-org:device:Light:12") .null)
      (.element (bytes "UDN") (.text (bytes "uuid:light") .null) .null)) .null]

def lightTarget : SearchTarget where
  kind := .device
  domain := bytes "schemas-upnp-org"
  type := bytes "Light"
  ver := 3
  domain_name := by decide
  type_name := by decide
  ver_positive := by decide

/-- The light does not answer a search for version 3, since the last digit of 12 is below it. -/
theorem light_silent : ¬∀ info destFamily t, SearchAnswered info destFamily t := by
  intro claim
  let device := lightDescription.deviceList.headD .null
  have listed : (device, 0) ∈ lightDescription.deviceList.zipIdx := List.mem_singleton.mpr rfl
  have answered := (claim lightDescription .inet lightTarget).devices device 0 listed
  have silent : aboutDevice lightDescription (searchCall lightDescription .inet lightTarget.text)
      true device = [] := by with_unfolding_all decide
  have wanted : lightTarget.wantedDevice device = some 12 := by decide
  rw [wanted] at answered
  obtain ⟨reply, replies, -⟩ := answered
  exact List.cons_ne_nil _ _ (replies.symm.trans silent)

end Pupnp.Ssdp
