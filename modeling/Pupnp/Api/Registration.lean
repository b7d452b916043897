import Pupnp.Api.Dispatch
import Pupnp.Library.Run

/-!
Registering devices and clients, and taking them back. Each call is one step: it holds the lock of the
handle table where it changes the table, the counter or a flag.
-/

namespace Pupnp.Api
open Pupnp.Uri Pupnp.Run

def UPNP_E_SUCCESS : Int := 0
def UPNP_E_INVALID_HANDLE : Int := -100
def UPNP_E_INVALID_PARAM : Int := -101
def UPNP_E_OUTOF_HANDLE : Int := -102
def UPNP_E_OUTOF_MEMORY : Int := -104
def UPNP_E_INVALID_DESC : Int := -107
def UPNP_E_FINISH : Int := -116
def UPNP_E_ALREADY_REGISTERED : Int := -120

def HandleInfo.Active : HandleInfo → Prop
  | .client => True
  | .device _ serviceTable => ∀ service ∈ serviceTable, service.active = true

theorem client_active : ∀ info ∈ some HandleInfo.client, info.Active := by
  rintro _ ⟨⟩
  trivial

def Registry.put (r : Registry) (handle : Nat) (entry : Option HandleInfo)
    (good : ∀ info ∈ entry, info.Active) : Registry :=
  { r with
    handleTable := r.handleTable.set handle entry
    size := by rw [List.length_set, r.size]
    active := by
      intro deviceAf serviceTable member
      obtain old | new := List.mem_or_eq_of_mem_set member
      · exact r.active deviceAf serviceTable old
      · exact good _ new.symm }

structure Sdk where
  registry : Registry
  clientRegistered : Int
  sdkInit : Bool

/-- What a call returns and, if it does so, writes to `*Hnd`. -/
structure Outcome where
  retVal : Int
  hnd : Option Int
  deriving DecidableEq, Repr

def getHandleInfo (r : Registry) (hnd : Int) : Option HandleInfo :=
  if hnd < 1 || NUM_HANDLE ≤ hnd then none else r.handleTable[hnd.toNat]?.join

def getFreeHandle (r : Registry) : Option Nat :=
  ((r.handleTable.drop 1).findIdx? (·.isNone)).map (· + 1)

def freeHandle (r : Registry) (hnd : Int) : Registry × Int :=
  match getHandleInfo r hnd with
  | none => (r, UPNP_E_INVALID_HANDLE)
  | some _ => (r.put hnd.toNat none nofun, UPNP_E_SUCCESS)

def hasFamily (af : AddrFamily) : Option HandleInfo → Bool
  | some (.device deviceAf _) => deviceAf = af
  | _ => false

def isClient : Option HandleInfo → Bool
  | some .client => true
  | _ => false

def getDeviceHandleInfo (r : Registry) (start : Int) (af : AddrFamily) : Option Nat :=
  if r.registered af = false then none
  else if start < 0 || NUM_HANDLE - 1 ≤ start then none
  else ((r.handleTable.drop (start.toNat + 1)).findIdx? (hasFamily af)).map (· + (start.toNat + 1))

/-- What a registration finds: memory, the result of getting the description document, whether that has a
"device" element, and the services in it. -/
structure Found where
  allocates : Bool
  document : Int
  device : Bool
  serviceTable : List ServiceInfo
  active : ∀ service ∈ serviceTable, service.active = true

def Registry.setRegistered (r : Registry) : AddrFamily → Bool → Registry
  | .inet, flag => { r with deviceRegisteredV4 := flag }
  | .inet6, flag => { r with deviceRegisteredV6 := flag }

def registerDevice (sdk : Sdk) (valid : Bool) (af : AddrFamily) (found : Found) : Sdk × Outcome :=
  if !sdk.sdkInit then (sdk, ⟨UPNP_E_FINISH, none⟩)
  else if !valid then (sdk, ⟨UPNP_E_INVALID_PARAM, none⟩)
  else
    match getFreeHandle sdk.registry with
    | none => (sdk, ⟨UPNP_E_OUTOF_MEMORY, some UPNP_E_OUTOF_HANDLE⟩)
    | some hnd =>
        if !found.allocates then (sdk, ⟨UPNP_E_OUTOF_MEMORY, some hnd⟩)
        else
          let entered := sdk.registry.put hnd (some (.device af found.serviceTable)) (by
            rintro _ ⟨⟩
            exact found.active)
          if found.document ≠ UPNP_E_SUCCESS then
            ({ sdk with registry := (freeHandle entered hnd).1 }, ⟨found.document, some hnd⟩)
          else if !found.device then
            ({ sdk with registry := (freeHandle entered hnd).1 }, ⟨UPNP_E_INVALID_DESC, some hnd⟩)
          else ({ sdk with registry := entered.setRegistered af true }, ⟨UPNP_E_SUCCESS, some hnd⟩)

/-- The pointers that a registration gets; an URL is `none` for a null pointer. -/
structure Arguments where
  func : Bool
  hnd : Bool
  descUrl : Option (List UInt8)
  deriving DecidableEq, Repr

def Arguments.hasUrl (args : Arguments) : Bool :=
  args.descUrl.any fun url => !(CString.cstr url).isEmpty

def upnpRegisterRootDevice (sdk : Sdk) (args : Arguments) (found : Found) : Sdk × Outcome :=
  registerDevice sdk (args.hnd && args.func && args.hasUrl) .inet found

/-- `UpnpRegisterRootDevice2`, which takes a description in place of an URL. -/
def upnpRegisterRootDevice2 (sdk : Sdk) (args : Arguments) (found : Found) : Sdk × Outcome :=
  registerDevice sdk (args.hnd && args.func) .inet found

/-- `UpnpRegisterRootDevice4`; the family is `none` where it is neither `AF_INET` nor `AF_INET6`. -/
def upnpRegisterRootDevice4 (sdk : Sdk) (args : Arguments) (addressFamily : Option AddrFamily)
    (found : Found) : Sdk × Outcome :=
  registerDevice sdk (args.hnd && args.func && args.hasUrl && addressFamily.isSome)
    (addressFamily.getD .inet6) found

def genaUnregisterDevice (r : Registry) (hnd : Int) : Option Registry :=
  match getHandleInfo r hnd with
  | some (.device deviceAf _) => some (r.put hnd.toNat (some (.device deviceAf [])) (by
      rintro _ ⟨⟩
      nofun))
  | _ => none

def advertiseAndReply (r : Registry) (hnd : Int) : Int :=
  match getHandleInfo r hnd with
  | some (.device _ _) => UPNP_E_SUCCESS
  | _ => UPNP_E_INVALID_HANDLE

/-- The end of `UpnpUnRegisterRootDeviceLowPower`: the flag of the family is cleared. -/
def dropDevice (r : Registry) (hnd : Int) (deviceAf : AddrFamily) : Registry :=
  (freeHandle (r.setRegistered deviceAf false) hnd).1

def upnpUnRegisterRootDevice (sdk : Sdk) (hnd : Int) : Sdk × Outcome :=
  if !sdk.sdkInit then (sdk, ⟨UPNP_E_FINISH, none⟩)
  else
    match genaUnregisterDevice sdk.registry hnd with
    | none => (sdk, ⟨UPNP_E_INVALID_HANDLE, none⟩)
    | some quiet =>
        match getHandleInfo quiet hnd with
        | none => ({ sdk with registry := quiet }, ⟨UPNP_E_INVALID_HANDLE, none⟩)
        | some .client =>
            ({ sdk with registry := (freeHandle quiet hnd).1 }, ⟨advertiseAndReply quiet hnd, none⟩)
        | some (.device deviceAf _) =>
            ({ sdk with registry := dropDevice quiet hnd deviceAf }, ⟨advertiseAndReply quiet hnd, none⟩)

def Registry.flags (r : Registry) : Int := r.deviceRegisteredV4.toNat + r.deviceRegisteredV6.toNat

def upnpRegisterClient (sdk : Sdk) (func hnd allocates : Bool) : Sdk × Outcome :=
  if !sdk.sdkInit then (sdk, ⟨UPNP_E_FINISH, none⟩)
  else if !func || !hnd then (sdk, ⟨UPNP_E_INVALID_PARAM, none⟩)
  else if NUM_HANDLE - 1 ≤ sdk.clientRegistered + sdk.registry.flags then
    (sdk, ⟨UPNP_E_ALREADY_REGISTERED, none⟩)
  else
    match getFreeHandle sdk.registry with
    | none => (sdk, ⟨UPNP_E_OUTOF_MEMORY, some UPNP_E_OUTOF_HANDLE⟩)
    | some hnd =>
        if !allocates then (sdk, ⟨UPNP_E_OUTOF_MEMORY, some hnd⟩)
        else
          ({ sdk with
              registry := sdk.registry.put hnd (some .client) client_active
              clientRegistered := sdk.clientRegistered + 1 },
            ⟨UPNP_E_SUCCESS, some hnd⟩)

/-- `UpnpUnRegisterClient`; `genaUnregisterClient` turns down what is no client. -/
def upnpUnRegisterClient (sdk : Sdk) (hnd : Int) : Sdk × Outcome :=
  if !sdk.sdkInit then (sdk, ⟨UPNP_E_FINISH, none⟩)
  else if sdk.clientRegistered = 0 then (sdk, ⟨UPNP_E_INVALID_HANDLE, none⟩)
  else
    match getHandleInfo sdk.registry hnd with
    | some .client =>
        ({ sdk with
            registry := (freeHandle sdk.registry hnd).1, clientRegistered := sdk.clientRegistered - 1 },
          ⟨UPNP_E_SUCCESS, none⟩)
    | _ => (sdk, ⟨UPNP_E_INVALID_HANDLE, none⟩)

inductive Call where
  | registerRootDevice (args : Arguments) (found : Found)
  | registerRootDevice2 (args : Arguments) (found : Found)
  | registerRootDevice4 (args : Arguments) (addressFamily : Option AddrFamily) (found : Found)
  | registerClient (func hnd allocates : Bool)
  | unRegisterRootDevice (hnd : Int)
  | unRegisterClient (hnd : Int)

def Call.perform (sdk : Sdk) : Call → Sdk × Outcome
  | .registerRootDevice args found => upnpRegisterRootDevice sdk args found
  | .registerRootDevice2 args found => upnpRegisterRootDevice2 sdk args found
  | .registerRootDevice4 args addressFamily found => upnpRegisterRootDevice4 sdk args addressFamily found
  | .registerClient func hnd allocates => upnpRegisterClient sdk func hnd allocates
  | .unRegisterRootDevice hnd => upnpUnRegisterRootDevice sdk hnd
  | .unRegisterClient hnd => upnpUnRegisterClient sdk hnd

/-! ### The registrations as the callers see them -/

/-- The handles that callers have got and not given back, with what they have registered. -/
abbrev Live := Int → Option HandleInfo

def Call.registers : Call → Option HandleInfo
  | .registerRootDevice _ found | .registerRootDevice2 _ found => some (.device .inet found.serviceTable)
  | .registerRootDevice4 _ addressFamily found =>
      some (.device (addressFamily.getD .inet6) found.serviceTable)
  | .registerClient _ _ _ => some .client
  | .unRegisterRootDevice _ | .unRegisterClient _ => none

def Call.about (out : Outcome) : Call → Option Int
  | .unRegisterRootDevice hnd | .unRegisterClient hnd => some hnd
  | _ => out.hnd

def Live.after (live : Live) (call : Call) (out : Outcome) : Live := fun hnd =>
  if out.retVal = UPNP_E_SUCCESS ∧ call.about out = some hnd then call.registers else live hnd

/-- The library and what its callers have seen of it. -/
structure Session where
  sdk : Sdk
  live : Live

def Session.step (call : Call) (s : Session) : Option Session :=
  some ⟨(call.perform s.sdk).1, s.live.after call (call.perform s.sdk).2⟩

def emptyRegistry : Registry :=
  { handleTable := List.replicate NUM_HANDLE none
    size := List.length_replicate
    active := by
      intro deviceAf serviceTable member
      exact nomatch List.eq_of_mem_replicate member
    deviceRegisteredV4 := false
    deviceRegisteredV6 := false }

def Session.initial (sdkInit : Bool) : Session := ⟨⟨emptyRegistry, 0, sdkInit⟩, fun _ => none⟩

def isDevice (r : Registry) (af : AddrFamily) (hnd : Int) : Prop :=
  ∃ serviceTable, getHandleInfo r hnd = some (.device af serviceTable)

def IsNext (r : Registry) (start : Int) (af : AddrFamily) : Option Nat → Prop
  | some hnd => start < hnd ∧ isDevice r af hnd ∧ ∀ other, start < other → isDevice r af other → hnd ≤ other
  | none => ∀ other, start < other → ¬isDevice r af other

/-- The table, the counter and the lookup tell what is registered. -/
structure Consistent (s : Session) : Prop where
  table : ∀ hnd, getHandleInfo s.sdk.registry hnd = s.live hnd
  clients : s.sdk.clientRegistered = s.sdk.registry.handleTable.countP isClient
  lookup : ∀ start af, 0 ≤ start →
    IsNext s.sdk.registry start af (getDeviceHandleInfo s.sdk.registry start af)

/-- A device is taken back only when no other device of its family is registered. -/
def lastOfFamily : Call → Session → Bool
  | .unRegisterRootDevice hnd, s =>
      match getHandleInfo s.sdk.registry hnd with
      | some (.device deviceAf _) =>
          !s.sdk.sdkInit || !(s.sdk.registry.handleTable.set hnd.toNat none).any (hasFamily deviceAf)
      | _ => true
  | _, _ => true

/-! ### What each call does -/

theorem getHandleInfo_eq {r : Registry} {hnd : Int} (inside : 1 ≤ hnd ∧ hnd < NUM_HANDLE) :
    getHandleInfo r hnd = r.handleTable[hnd.toNat]?.join := by
  have low : ¬hnd < 1 := by omega
  have high : ¬(NUM_HANDLE : Int) ≤ hnd := by omega
  simp [getHandleInfo, low, high]

theorem getHandleInfo_some {r : Registry} {hnd : Int} {info : HandleInfo} :
    getHandleInfo r hnd = some info ↔
      (1 ≤ hnd ∧ hnd < NUM_HANDLE) ∧ r.handleTable[hnd.toNat]? = some (some info) := by
  by_cases inside : 1 ≤ hnd ∧ hnd < NUM_HANDLE
  · rw [getHandleInfo_eq inside, Option.join_eq_some_iff]
    exact ⟨fun found => ⟨inside, found⟩, fun found => found.2⟩
  · have outside : hnd < 1 ∨ (NUM_HANDLE : Int) ≤ hnd := by omega
    constructor
    · intro found
      simp [getHandleInfo, outside] at found
    · exact fun found => absurd found.1 inside

theorem getHandleInfo_set {r r' : Registry} {handle : Nat} {entry : Option HandleInfo}
    (table : r'.handleTable = r.handleTable.set handle entry) (inside : 1 ≤ handle ∧ handle < NUM_HANDLE)
    (hnd : Int) : getHandleInfo r' hnd = if hnd = handle then entry else getHandleInfo r hnd := by
  by_cases valid : 1 ≤ hnd ∧ hnd < NUM_HANDLE
  · rw [getHandleInfo_eq valid, getHandleInfo_eq valid, table, List.getElem?_set]
    by_cases same : hnd = handle
    · have here : handle = hnd.toNat := by omega
      have room : handle < r.handleTable.length := by rw [r.size]; omega
      rw [if_pos here, if_pos same, if_pos room]
      rfl
    · have other : handle ≠ hnd.toNat := by omega
      rw [if_neg other, if_neg same]
  · have outside : hnd < 1 ∨ (NUM_HANDLE : Int) ≤ hnd := by omega
    have other : hnd ≠ handle := by omega
    simp [getHandleInfo, outside, other]

theorem getFreeHandle_some {r : Registry} {handle : Nat} (free : getFreeHandle r = some handle) :
    (1 ≤ handle ∧ handle < NUM_HANDLE) ∧ r.handleTable[handle]? = some none := by
  unfold getFreeHandle at free
  obtain ⟨place, found, rfl⟩ := Option.map_eq_some_iff.mp free
  obtain ⟨entry, here, none, -⟩ := findIdx?_first.mp found
  rw [List.getElem?_drop, Option.isNone_iff_eq_none.mp none] at here
  rw [Nat.add_comm 1] at here
  obtain ⟨room, -⟩ := List.getElem?_eq_some_iff.mp here
  rw [r.size] at room
  exact ⟨⟨by omega, room⟩, here⟩

theorem Registry.setRegistered_table (r : Registry) (af : AddrFamily) (flag : Bool) :
    (r.setRegistered af flag).handleTable = r.handleTable := by
  cases af <;> rfl

theorem Registry.setRegistered_registered (r : Registry) (af other : AddrFamily) (flag : Bool) :
    (r.setRegistered af flag).registered other = if other = af then flag else r.registered other := by
  cases af <;> cases other <;> rfl

theorem freeHandle_table {r : Registry} {hnd : Int} {info : HandleInfo}
    (here : getHandleInfo r hnd = some info) :
    (freeHandle r hnd).1.handleTable = r.handleTable.set hnd.toNat none ∧
      ∀ af, (freeHandle r hnd).1.registered af = r.registered af := by
  rw [freeHandle, here]
  refine ⟨rfl, fun af => ?_⟩
  cases af <;> rfl

inductive Change (sdk : Sdk) (call : Call) : Sdk × Outcome → Prop
  | refused {after : Sdk} {out : Outcome} (failed : out.retVal ≠ UPNP_E_SUCCESS)
      (table : after.registry.handleTable = sdk.registry.handleTable)
      (flags : ∀ af, after.registry.registered af = sdk.registry.registered af)
      (clients : after.clientRegistered = sdk.clientRegistered) : Change sdk call (after, out)
  | enters {after : Sdk} (handle : Nat) (info : HandleInfo) (inside : 1 ≤ handle ∧ handle < NUM_HANDLE)
      (free : sdk.registry.handleTable[handle]? = some none) (registers : call.registers = some info)
      (about : call.about ⟨UPNP_E_SUCCESS, some handle⟩ = some (handle : Int))
      (table : after.registry.handleTable = sdk.registry.handleTable.set handle (some info))
      (flags : ∀ af, after.registry.registered af =
        if hasFamily af (some info) then true else sdk.registry.registered af)
      (clients : after.clientRegistered = sdk.clientRegistered + (isClient (some info)).toNat) :
      Change sdk call (after, ⟨UPNP_E_SUCCESS, some handle⟩)
  | leaves {after : Sdk} (hnd : Int) (info : HandleInfo) (here : getHandleInfo sdk.registry hnd = some info)
      (registers : call.registers = none) (about : call.about ⟨UPNP_E_SUCCESS, none⟩ = some hnd)
      (table : after.registry.handleTable = sdk.registry.handleTable.set hnd.toNat none)
      (flags : ∀ af, after.registry.registered af =
        if hasFamily af (some info) then false else sdk.registry.registered af)
      (clients : after.clientRegistered + (isClient (some info)).toNat = sdk.clientRegistered)
      (alone : ∀ s : Session, s.sdk = sdk → lastOfFamily call s = true → ∀ af, hasFamily af (some info) = true →
        (sdk.registry.handleTable.set hnd.toNat none).any (hasFamily af) = false) :
      Change sdk call (after, ⟨UPNP_E_SUCCESS, none⟩)

theorem Change.of_same {sdk : Sdk} {call : Call} {out : Outcome} (failed : out.retVal ≠ UPNP_E_SUCCESS) :
    Change sdk call (sdk, out) :=
  .refused failed rfl (fun _ => rfl) rfl

theorem registerDevice_change (sdk : Sdk) (valid : Bool) (af : AddrFamily) (found : Found) {call : Call}
    (registers : call.registers = some (.device af found.serviceTable))
    (about : ∀ hnd, call.about ⟨UPNP_E_SUCCESS, some hnd⟩ = some hnd) :
    Change sdk call (registerDevice sdk valid af found) := by
  unfold registerDevice
  split
  · exact .of_same (by decide)
  · split
    · exact .of_same (by decide)
    · split
      next => exact .of_same (by decide)
      next handle free =>
        obtain ⟨inside, empty⟩ := getFreeHandle_some free
        have undone (entered : Registry) (retVal : Int) (failed : retVal ≠ UPNP_E_SUCCESS)
            (table : entered.handleTable =
              sdk.registry.handleTable.set handle (some (.device af found.serviceTable)))
            (flags : ∀ other, entered.registered other = sdk.registry.registered other) :
            Change sdk call ({ sdk with registry := (freeHandle entered handle).1 }, ⟨retVal, some handle⟩) := by
          have here : getHandleInfo entered handle = some (.device af found.serviceTable) := by
            rw [getHandleInfo_set table inside, if_pos rfl]
          obtain ⟨freed, same⟩ := freeHandle_table here
          refine .refused failed ?_ (fun other => (same other).trans (flags other)) rfl
          rw [freed, table, Int.toNat_natCast, List.set_set]
          obtain ⟨room, value⟩ := List.getElem?_eq_some_iff.mp empty
          rw [← value]
          exact List.set_getElem_self room
        split
        · exact .of_same (show UPNP_E_OUTOF_MEMORY ≠ UPNP_E_SUCCESS by decide)
        · dsimp only
          split
          next failed => exact undone _ _ failed rfl fun other => by cases other <;> rfl
          next =>
            split
            next => exact undone _ _ (by decide) rfl fun other => by cases other <;> rfl
            next =>
              refine .enters handle _ inside empty registers (about handle) ?_ ?_ ?_
              · rw [Registry.setRegistered_table]
                rfl
              · intro other
                rw [Registry.setRegistered_registered]
                cases af <;> cases other <;> rfl
              · exact (Int.add_zero _).symm

theorem registerClient_change (sdk : Sdk) (func hnd allocates : Bool) :
    Change sdk (.registerClient func hnd allocates) (upnpRegisterClient sdk func hnd allocates) := by
  unfold upnpRegisterClient
  split
  · exact .of_same (by decide)
  · split
    · exact .of_same (by decide)
    · split
      · exact .of_same (by decide)
      · split
        next => exact .of_same (by decide)
        next handle free =>
          obtain ⟨inside, empty⟩ := getFreeHandle_some free
          split
          · exact .of_same (show UPNP_E_OUTOF_MEMORY ≠ UPNP_E_SUCCESS by decide)
          · refine .enters handle .client inside empty rfl rfl rfl (fun af => ?_) rfl
            cases af <;> rfl

theorem unRegisterRootDevice_change (sdk : Sdk) (hnd : Int) :
    Change sdk (.unRegisterRootDevice hnd) (upnpUnRegisterRootDevice sdk hnd) := by
  unfold upnpUnRegisterRootDevice
  split
  · exact .of_same (by decide)
  next up =>
    cases here : getHandleInfo sdk.registry hnd with
    | none =>
      rw [genaUnregisterDevice, here]
      exact .of_same (by decide)
    | some info =>
      cases info with
      | client =>
        rw [genaUnregisterDevice, here]
        exact .of_same (by decide)
      | device deviceAf serviceTable =>
        rw [genaUnregisterDevice, here]
        dsimp only
        generalize quietEq : sdk.registry.put hnd.toNat (some (.device deviceAf [])) _ = quiet
        have table : quiet.handleTable = sdk.registry.handleTable.set hnd.toNat (some (.device deviceAf [])) := by
          rw [← quietEq]
          rfl
        have flags (af : AddrFamily) : quiet.registered af = sdk.registry.registered af := by
          rw [← quietEq]
          cases af <;> rfl
        obtain ⟨⟨low, high⟩, -⟩ := getHandleInfo_some.mp here
        have still : getHandleInfo quiet hnd = some (.device deviceAf []) := by
          rw [getHandleInfo_set table (by omega), if_pos (by omega)]
        rw [still]
        have returns : advertiseAndReply quiet hnd = UPNP_E_SUCCESS := by
          rw [advertiseAndReply, still]
        dsimp only
        rw [returns]
        have again : getHandleInfo (quiet.setRegistered deviceAf false) hnd = some (.device deviceAf []) := by
          rw [← still]
          unfold getHandleInfo
          rw [Registry.setRegistered_table]
        obtain ⟨freed, same⟩ := freeHandle_table again
        refine .leaves hnd _ here rfl rfl ?_ ?_ (Int.add_zero _) ?_
        · rw [dropDevice, freed, Registry.setRegistered_table, table, List.set_set]
        · intro af
          rw [dropDevice, same, Registry.setRegistered_registered, flags]
          cases af <;> cases deviceAf <;> rfl
        · rintro s rfl alone af family
          obtain rfl : deviceAf = af := by simpa [hasFamily] using family
          simpa [lastOfFamily, here, up] using alone

theorem unRegisterClient_change (sdk : Sdk) (hnd : Int) :
    Change sdk (.unRegisterClient hnd) (upnpUnRegisterClient sdk hnd) := by
  unfold upnpUnRegisterClient
  split
  · exact .of_same (by decide)
  · split
    · exact .of_same (by decide)
    · split
      next here =>
        obtain ⟨freed, same⟩ := freeHandle_table here
        refine .leaves hnd .client here rfl rfl freed (fun af => ?_) ?_ ?_
        · rw [same]
          rfl
        · exact Int.sub_add_cancel _ _
        · intro s _ _ af family
          contradiction
      next => exact .of_same (by decide)

theorem perform_change (sdk : Sdk) (call : Call) : Change sdk call (call.perform sdk) := by
  cases call with
  | registerRootDevice args found => exact registerDevice_change sdk _ _ found rfl fun _ => rfl
  | registerRootDevice2 args found => exact registerDevice_change sdk _ _ found rfl fun _ => rfl
  | registerRootDevice4 args addressFamily found => exact registerDevice_change sdk _ _ found rfl fun _ => rfl
  | registerClient func hnd allocates => exact registerClient_change sdk func hnd allocates
  | unRegisterRootDevice hnd => exact unRegisterRootDevice_change sdk hnd
  | unRegisterClient hnd => exact unRegisterClient_change sdk hnd

/-! ### Runs -/

structure Tracked (s : Session) : Prop where
  table : ∀ hnd, getHandleInfo s.sdk.registry hnd = s.live hnd
  clients : s.sdk.clientRegistered = s.sdk.registry.handleTable.countP isClient

def Flagged (s : Session) : Prop :=
  ∀ af, s.sdk.registry.handleTable.any (hasFamily af) = true → s.sdk.registry.registered af = true

theorem initial_tracked (sdkInit : Bool) : Tracked (.initial sdkInit) := by
  refine ⟨fun hnd => ?_, ?_⟩
  · cases here : getHandleInfo (Session.initial sdkInit).sdk.registry hnd with
    | none => rfl
    | some info =>
      obtain ⟨-, entry⟩ := getHandleInfo_some.mp here
      exact nomatch List.eq_of_mem_replicate (List.mem_of_getElem? entry)
  · have none : emptyRegistry.handleTable.countP isClient = 0 := by
      rw [List.countP_eq_zero]
      intro entry member
      rw [List.eq_of_mem_replicate member]
      nofun
    exact (congrArg Nat.cast none).symm

theorem initial_flagged (sdkInit : Bool) : Flagged (.initial sdkInit) := by
  intro af some_
  obtain ⟨entry, member, family⟩ := List.any_eq_true.mp some_
  rw [List.eq_of_mem_replicate member] at family
  contradiction

theorem Live.after_eq (live : Live) (call : Call) (out : Outcome) (hnd : Int) : live.after call out hnd =
    if out.retVal = UPNP_E_SUCCESS ∧ call.about out = some hnd then call.registers else live hnd := rfl

theorem Tracked.after {s : Session} {call : Call} {after : Sdk} {out : Outcome} (tracked : Tracked s)
    (change : Change s.sdk call (after, out)) : Tracked ⟨after, s.live.after call out⟩ := by
  obtain ⟨table, clients⟩ := tracked
  cases change with
  | refused failed kept flags counter =>
    refine ⟨fun hnd => ?_, ?_⟩
    · dsimp only
      rw [Live.after_eq, if_neg fun both => failed both.1, ← table]
      unfold getHandleInfo
      rw [kept]
    · exact counter.trans (clients.trans (by rw [kept]))
  | enters handle info inside free registers about entered flags counter =>
    refine ⟨fun hnd => ?_, ?_⟩
    · dsimp only
      rw [getHandleInfo_set entered inside, Live.after_eq, about, registers, ← table]
      by_cases same : hnd = handle
      · rw [if_pos same, if_pos ⟨rfl, by rw [same]⟩]
      · rw [if_neg same, if_neg fun both => same (Option.some.inj both.2).symm]
    · have counts := countP_set free (some info) isClient
      rw [← entered, show isClient none = false from rfl, Bool.toNat_false] at counts
      dsimp only
      omega
  | leaves hnd info here registers about left flags counter alone =>
    obtain ⟨inside, entry⟩ := getHandleInfo_some.mp here
    refine ⟨fun other => ?_, ?_⟩
    · dsimp only
      rw [getHandleInfo_set left (by omega), Live.after_eq, about, registers, ← table]
      by_cases same : other = hnd
      · rw [if_pos (by omega), if_pos ⟨rfl, by rw [same]⟩]
      · rw [if_neg (by omega), if_neg fun both => same (Option.some.inj both.2).symm]
    · have counts := countP_set entry none isClient
      rw [← left, show isClient none = false from rfl, Bool.toNat_false] at counts
      dsimp only
      omega

theorem step_tracked (call : Call) (s t : Session) (taken : Session.step call s = some t)
    (tracked : Tracked s) : Tracked t := by
  obtain rfl := Option.some.inj taken
  exact tracked.after (perform_change s.sdk call)

theorem any_set {entries : List (Option HandleInfo)} {handle : Nat} {entry : Option HandleInfo}
    {p : Option HandleInfo → Bool} (found : (entries.set handle entry).any p = true) :
    p entry = true ∨ entries.any p = true := by
  obtain ⟨other, member, good⟩ := List.any_eq_true.mp found
  obtain old | rfl := List.mem_or_eq_of_mem_set member
  · exact .inr (List.any_eq_true.mpr ⟨other, old, good⟩)
  · exact .inl good

theorem step_flagged (call : Call) (s t : Session) (allowed : lastOfFamily call s = true)
    (taken : Session.step call s = some t) (flagged : Flagged s) : Flagged t := by
  obtain rfl := Option.some.inj taken
  have change := perform_change s.sdk call
  generalize call.perform s.sdk = performed at change
  intro af registered
  cases change with
  | refused failed kept flags counter =>
    change List.any _ _ = true at registered
    rw [kept] at registered
    exact (flags af).trans (flagged af registered)
  | enters handle info inside free registers about entered flags counter =>
    change List.any _ _ = true at registered
    rw [entered] at registered
    refine (flags af).trans ?_
    split
    next => rfl
    next other =>
      obtain new | old := any_set registered
      · exact absurd new other
      · exact flagged af old
  | leaves hnd info here registers about left flags counter alone =>
    change List.any _ _ = true at registered
    rw [left] at registered
    refine (flags af).trans ?_
    split
    next same =>
      rw [alone s rfl allowed af same] at registered
      contradiction
    next other =>
      obtain new | old := any_set registered
      · contradiction
      · exact flagged af old

theorem Flagged.isNext {s : Session} (flagged : Flagged s) {start : Int} (af : AddrFamily) (nonneg : 0 ≤ start) :
    IsNext s.sdk.registry start af (getDeviceHandleInfo s.sdk.registry start af) := by
  have inTable {hnd : Int} (device : isDevice s.sdk.registry af hnd) :
      (1 ≤ hnd ∧ hnd < NUM_HANDLE) ∧
        ∃ entry, s.sdk.registry.handleTable[hnd.toNat]? = some entry ∧ hasFamily af entry = true := by
    obtain ⟨serviceTable, here⟩ := device
    obtain ⟨inside, entry⟩ := getHandleInfo_some.mp here
    exact ⟨inside, _, entry, decide_eq_true rfl⟩
  unfold getDeviceHandleInfo
  split
  next unset =>
    intro other _ device
    obtain ⟨-, entry, here, family⟩ := inTable device
    rw [flagged af (List.any_eq_true.mpr ⟨entry, List.mem_of_getElem? here, family⟩)] at unset
    contradiction
  next =>
    split
    next outside =>
      intro other above device
      obtain ⟨inside, -⟩ := inTable device
      simp only [Bool.or_eq_true, decide_eq_true_eq] at outside
      omega
    next =>
      cases search : (s.sdk.registry.handleTable.drop (start.toNat + 1)).findIdx? (hasFamily af) with
      | none =>
        intro other above device
        obtain ⟨inside, entry, here, family⟩ := inTable device
        have absent := List.findIdx?_eq_none_iff.mp search entry (List.mem_of_getElem?
          (i := other.toNat - (start.toNat + 1)) (by
            rw [List.getElem?_drop, ← here]
            congr 1
            omega))
        rw [family] at absent
        contradiction
      | some place =>
        obtain ⟨entry, here, family, first⟩ := findIdx?_first.mp search
        rw [List.getElem?_drop] at here
        obtain ⟨room, -⟩ := List.getElem?_eq_some_iff.mp here
        rw [s.sdk.registry.size] at room
        change IsNext _ _ _ (some (place + (start.toNat + 1)))
        refine ⟨?_, ?_, ?_⟩
        · omega
        · cases entry with
          | none => contradiction
          | some info =>
            cases info with
            | client => contradiction
            | device deviceAf serviceTable =>
              obtain rfl : deviceAf = af := of_decide_eq_true family
              refine ⟨serviceTable, getHandleInfo_some.mpr ⟨by omega, ?_⟩⟩
              rw [← here]
              congr 1
              omega
        · intro other above device
          obtain ⟨inside, entry', here', family'⟩ := inTable device
          have before := first (other.toNat - (start.toNat + 1)) entry' (by
            rw [List.getElem?_drop, ← here']
            congr 1
            omega) family'
          omega

/-- In a run in which a device is taken back only when no other device of its family is registered, the
table, the counter and the lookup tell what is registered. -/
theorem run_consistent (sdkInit : Bool) (calls : List Call) (s : Session)
    (allowed : Along Session.step (fun call s => lastOfFamily call s) calls (.initial sdkInit))
    (ran : run Session.step calls (.initial sdkInit) = some s) : Consistent s := by
  obtain ⟨table, clients⟩ := run_invariant step_tracked (initial_tracked sdkInit) ran
  have flagged : Flagged s := run_keeps step_flagged (initial_flagged sdkInit) allowed ran
  exact ⟨table, clients, fun start af nonneg => flagged.isNext af nonneg⟩

def bare : Found := ⟨true, UPNP_E_SUCCESS, true, [], nofun⟩

def registerIPv4 : Call := .registerRootDevice2 ⟨true, true, none⟩ bare

theorem run_consistent_client :
    ∃ s, run Session.step [registerIPv4, .registerClient true true true, .unRegisterRootDevice 1]
      (.initial true) = some s ∧ s.sdk.clientRegistered = 1 ∧ Consistent s := by
  have ends : (run Session.step [registerIPv4, .registerClient true true true, .unRegisterRootDevice 1]
      (.initial true)).map (·.sdk.clientRegistered) = some 1 := by
    decide
  obtain ⟨s, ran, counter⟩ := Option.map_eq_some_iff.mp ends
  exact ⟨s, ran, counter, run_consistent true _ s (by decide) ran⟩

/-- When the first of two devices has been taken back, the lookup does not find the second one. -/
theorem run_hides_device :
    ¬∀ (sdkInit : Bool) (calls : List Call) (s : Session),
      run Session.step calls (.initial sdkInit) = some s → Consistent s := by
  intro claim
  have ends : (run Session.step [registerIPv4, registerIPv4, .unRegisterRootDevice 1] (.initial true)).map
      (fun s => (getDeviceHandleInfo s.sdk.registry 0 .inet, getHandleInfo s.sdk.registry 2)) =
        some (none, some (.device .inet [])) := by
    decide
  obtain ⟨s, ran, found⟩ := Option.map_eq_some_iff.mp ends
  obtain ⟨search, second⟩ := Prod.mk.inj found
  have next := (claim true _ s ran).lookup 0 .inet (Int.le_refl 0)
  rw [search] at next
  exact next 2 (by decide) ⟨[], second⟩

end Pupnp.Api
