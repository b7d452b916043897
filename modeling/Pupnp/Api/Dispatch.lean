import Pupnp.Uri.Parse

/-!
The table of handles and the lookup by which SOAP and GENA requests find their
service. The lookup takes the first service whose control URL or event URL has
the path; both protocols use it.
-/

namespace Pupnp.Api
open Pupnp.CString Pupnp.Uri

/-- A service as the lookup and its callers read it; an URL is missing where the description had
none. -/
structure ServiceInfo where
  controlURL : Option (List UInt8)
  eventURL : Option (List UInt8)
  active : Bool
  deriving DecidableEq, Repr

inductive HandleInfo where
  | client
  | device (deviceAf : AddrFamily) (serviceTable : List ServiceInfo)
  deriving DecidableEq, Repr

def NUM_HANDLE : Nat := 200

/-- `HandleTable` and the two registration flags. `getServiceList` makes every service active and
nothing changes that. -/
structure Registry where
  handleTable : List (Option HandleInfo)
  size : handleTable.length = NUM_HANDLE
  active : ∀ deviceAf serviceTable, some (.device deviceAf serviceTable) ∈ handleTable →
    ∀ service ∈ serviceTable, service.active = true
  deviceRegisteredV4 : Bool
  deviceRegisteredV6 : Bool

def Registry.registered (r : Registry) : AddrFamily → Bool
  | .inet => r.deviceRegisteredV4
  | .inet6 => r.deviceRegisteredV6

/-- A service by its handle and its place in the service table. -/
structure ServiceRef where
  handle : Nat
  index : Nat
  deriving DecidableEq, Repr

/-- Path and query of an URL, if `parse_uri` takes it. -/
def pathOf (res : Resolver) (url : List UInt8) : Option (List UInt8) :=
  (parseUri res (cstr url) (cstr url).length).map fun uri => uri.pathquery.read (cstr url)

def ServiceInfo.controlPath (res : Resolver) (service : ServiceInfo) : Option (List UInt8) :=
  service.controlURL.bind (pathOf res)

def ServiceInfo.eventPath (res : Resolver) (service : ServiceInfo) : Option (List UInt8) :=
  service.eventURL.bind (pathOf res)

/-- `FindServiceControlURLPath`; the path is `none` for a null pointer. -/
def findServiceControlURLPath (res : Resolver) (table : List ServiceInfo)
    (path : Option (List UInt8)) : Option Nat :=
  (path.bind (pathOf res)).bind fun parsed =>
    table.findIdx? fun service => service.controlPath res = some parsed

def findServiceEventURLPath (res : Resolver) (table : List ServiceInfo)
    (path : Option (List UInt8)) : Option Nat :=
  (path.bind (pathOf res)).bind fun parsed =>
    table.findIdx? fun service => service.eventPath res = some parsed

/-- What the loop of `GetDeviceHandleInfoForPath` finds in one entry. -/
def searchHandle (res : Resolver) (af : AddrFamily) (path : Option (List UInt8)) :
    Option HandleInfo → Option Nat
  | some (.device deviceAf table) =>
      if deviceAf = af then
        (findServiceControlURLPath res table path).or (findServiceEventURLPath res table path)
      else none
  | _ => none

def searchHandles (res : Resolver) (af : AddrFamily) (path : Option (List UInt8)) :
    Nat → List (Option HandleInfo) → Option ServiceRef
  | _, [] => none
  | handle, entry :: rest =>
      match searchHandle res af path entry with
      | some index => some ⟨handle, index⟩
      | none => searchHandles res af path (handle + 1) rest

def getDeviceHandleInfoForPath (res : Resolver) (r : Registry) (af : AddrFamily)
    (path : Option (List UInt8)) : Option ServiceRef :=
  if r.registered af then searchHandles res af path 1 (r.handleTable.drop 1) else none

/-- The service at a reference, if its device has the address family. -/
def Registry.service? (r : Registry) (af : AddrFamily) (ref : ServiceRef) : Option ServiceInfo :=
  if ref.handle = 0 then none
  else
    match r.handleTable[ref.handle]? with
    | some (some (.device deviceAf table)) => if deviceAf = af then table[ref.index]? else none
    | _ => none

inductive Request where
  | soapPost
  | subscribe
  | renewal
  | unsubscribe
  deriving DecidableEq, Repr

def HTTP_NOT_FOUND : Nat := 404
def HTTP_PRECONDITION_FAILED : Nat := 412
def HTTP_INTERNAL_SERVER_ERROR : Nat := 500

/-- `get_dev_service` and the answer of `soap_device_callback` where it fails. -/
def getDevService (res : Resolver) (r : Registry) (af : AddrFamily) (pathquery : List UInt8) :
    Except Nat ServiceRef :=
  match getDeviceHandleInfoForPath res r af (some pathquery) with
  | none => .error HTTP_NOT_FOUND
  | some ref => .ok ref

def genaService (res : Resolver) (r : Registry) (af : AddrFamily) (missing inactive : Nat)
    (path : Option (List UInt8)) : Except Nat ServiceRef :=
  match getDeviceHandleInfoForPath res r af path with
  | none => .error missing
  | some ref =>
      if (r.service? af ref).any (·.active) then .ok ref else .error inactive

/-- A `membuffer` to which nothing has been appended has no buffer. -/
def membufferPath (pathquery : List UInt8) : Option (List UInt8) :=
  if pathquery.isEmpty then none else some pathquery

def subscriptionService (res : Resolver) (r : Registry) (af : AddrFamily) (pathquery : List UInt8) :
    Except Nat ServiceRef :=
  genaService res r af HTTP_INTERNAL_SERVER_ERROR HTTP_NOT_FOUND (some pathquery)

def renewalService (res : Resolver) (r : Registry) (af : AddrFamily) (pathquery : List UInt8) :
    Except Nat ServiceRef :=
  genaService res r af HTTP_PRECONDITION_FAILED HTTP_PRECONDITION_FAILED (membufferPath pathquery)

def unsubscribeService (res : Resolver) (r : Registry) (af : AddrFamily) (pathquery : List UInt8) :
    Except Nat ServiceRef :=
  genaService res r af HTTP_PRECONDITION_FAILED HTTP_PRECONDITION_FAILED (membufferPath pathquery)

/-- The service a request is handed to, by path and query of its URI. -/
def dispatch (res : Resolver) (r : Registry) (af : AddrFamily) : Request → List UInt8 →
    Except Nat ServiceRef
  | .soapPost => getDevService res r af
  | .subscribe => subscriptionService res r af
  | .renewal => renewalService res r af
  | .unsubscribe => unsubscribeService res r af

/-! What the requests are for: SOAP for the control URL, GENA for the event URL. -/

def Request.path (res : Resolver) : Request → ServiceInfo → Option (List UInt8)
  | .soapPost, service => service.controlPath res
  | .subscribe, service | .renewal, service | .unsubscribe, service => service.eventPath res

def Request.handed : Request → List UInt8 → Option (List UInt8)
  | .soapPost, pathquery | .subscribe, pathquery => some pathquery
  | .renewal, pathquery | .unsubscribe, pathquery => membufferPath pathquery

/-- The path in the request as the lookup parses it again. -/
def Request.asked (res : Resolver) (request : Request) (pathquery : List UInt8) :
    Option (List UInt8) :=
  (request.handed pathquery).bind (pathOf res)

theorem Registry.service?_eq_some {r : Registry} {af : AddrFamily} {ref : ServiceRef}
    {service : ServiceInfo} : r.service? af ref = some service ↔ ref.handle ≠ 0 ∧ ∃ table,
      r.handleTable[ref.handle]? = some (some (.device af table)) ∧ table[ref.index]? = some service := by
  unfold Registry.service?
  split
  next zero => simp [zero]
  next positive =>
    split
    next deviceAf table here =>
      split
      next same =>
        subst same
        simp [positive, here]
      next other =>
        constructor
        · nofun
        · rintro ⟨-, table', here', -⟩
          rw [here] at here'
          simp only [Option.some.injEq, HandleInfo.device.injEq] at here'
          exact absurd here'.1 other
    next nothing =>
      constructor
      · nofun
      · rintro ⟨-, table, here, -⟩
        exact absurd here (nothing af table)

theorem Registry.service_active {r : Registry} {af : AddrFamily} {ref : ServiceRef}
    {service : ServiceInfo} (found : r.service? af ref = some service) : service.active = true := by
  obtain ⟨-, table, here, inside⟩ := Registry.service?_eq_some.mp found
  exact r.active af table (List.mem_of_getElem? here) service (List.mem_of_getElem? inside)

theorem findIdx?_first {A : Type} {l : List A} {p : A → Bool} {j : Nat} :
    l.findIdx? p = some j ↔
      ∃ a, l[j]? = some a ∧ p a = true ∧ ∀ k b, l[k]? = some b → p b = true → j ≤ k := by
  rw [List.findIdx?_eq_some_iff_getElem]
  constructor
  · rintro ⟨inside, good, before⟩
    refine ⟨l[j], List.getElem?_eq_getElem inside, good, ?_⟩
    intro k b at_ goodToo
    obtain ⟨inside', rfl⟩ := List.getElem?_eq_some_iff.mp at_
    by_contra early
    exact before k (by omega) goodToo
  · rintro ⟨a, at_, good, least⟩
    obtain ⟨inside, rfl⟩ := List.getElem?_eq_some_iff.mp at_
    refine ⟨inside, good, ?_⟩
    intro k early goodToo
    have := least k l[k] (List.getElem?_eq_getElem (by omega)) goodToo
    omega

def ServiceInfo.Answers (res : Resolver) (service : ServiceInfo) (parsed : List UInt8) : Prop :=
  service.controlPath res = some parsed ∨ service.eventPath res = some parsed

/-- The place in a table that the lookup comes to first: control URLs come before event URLs. -/
structure FirstIn (res : Resolver) (table : List ServiceInfo) (parsed : List UInt8) (j : Nat)
    (service : ServiceInfo) : Prop where
  here : table[j]? = some service
  answers : service.Answers res parsed
  control : ∀ k other, table[k]? = some other → other.controlPath res = some parsed →
    service.controlPath res = some parsed ∧ j ≤ k
  event : ∀ k other, table[k]? = some other → other.eventPath res = some parsed →
    service.controlPath res = some parsed ∨ j ≤ k

theorem searchTable_some {res : Resolver} {table : List ServiceInfo} {path : Option (List UInt8)}
    {parsed : List UInt8} (asked : path.bind (pathOf res) = some parsed) {j : Nat} :
    (findServiceControlURLPath res table path).or (findServiceEventURLPath res table path) = some j ↔
      ∃ service, FirstIn res table parsed j service := by
  simp only [findServiceControlURLPath, findServiceEventURLPath, asked, Option.bind_some,
    Option.or_eq_some_iff, findIdx?_first, List.findIdx?_eq_none_iff, decide_eq_true_eq,
    decide_eq_false_iff_not]
  constructor
  · rintro (⟨service, here, control, first⟩ | ⟨none, service, here, event, first⟩)
    · exact ⟨service, here, Or.inl control, fun k other at_ same => ⟨control, first k other at_ same⟩,
        fun _ _ _ _ => Or.inl control⟩
    · exact ⟨service, here, Or.inr event,
        fun k other at_ same => absurd same (none other (List.mem_of_getElem? at_)),
        fun k other at_ same => Or.inr (first k other at_ same)⟩
  · rintro ⟨service, here, answers, control, event⟩
    by_cases own : service.controlPath res = some parsed
    · exact Or.inl ⟨service, here, own, fun k other at_ same => (control k other at_ same).2⟩
    · refine Or.inr ⟨?_, service, here, answers.resolve_left own, ?_⟩
      · intro other member same
        obtain ⟨k, at_⟩ := List.getElem?_of_mem member
        exact own (control k other at_ same).1
      · exact fun k other at_ same => (event k other at_ same).resolve_left own

theorem searchTable_none {res : Resolver} {table : List ServiceInfo} {path : Option (List UInt8)}
    {parsed : List UInt8} (asked : path.bind (pathOf res) = some parsed) :
    (findServiceControlURLPath res table path).or (findServiceEventURLPath res table path) = none ↔
      ∀ service ∈ table, ¬service.Answers res parsed := by
  simp only [findServiceControlURLPath, findServiceEventURLPath, asked, Option.bind_some,
    Option.or_eq_none_iff, List.findIdx?_eq_none_iff, decide_eq_false_iff_not,
    ServiceInfo.Answers, not_or]
  exact ⟨fun both service member => ⟨both.1 service member, both.2 service member⟩,
    fun both => ⟨fun service member => (both service member).1,
      fun service member => (both service member).2⟩⟩

theorem searchHandles_some {res : Resolver} {af : AddrFamily} {path : Option (List UInt8)}
    {entries : List (Option HandleInfo)} {handle : Nat} {ref : ServiceRef} :
    searchHandles res af path handle entries = some ref ↔
      ∃ i entry, entries[i]? = some entry ∧ ref.handle = handle + i ∧
        searchHandle res af path entry = some ref.index ∧
        ∀ k earlier, k < i → entries[k]? = some earlier → searchHandle res af path earlier = none := by
  induction entries generalizing handle with
  | nil => simp [searchHandles]
  | cons first rest ih =>
    rw [searchHandles]
    cases found : searchHandle res af path first with
    | some index =>
      simp only [Option.some.injEq]
      constructor
      · rintro rfl
        exact ⟨0, first, rfl, rfl, found, nofun⟩
      · rintro ⟨i, entry, at_, place, index', before⟩
        cases i with
        | zero =>
          obtain rfl : first = entry := by simpa using at_
          obtain rfl : index = ref.index := Option.some.inj (found.symm.trans index')
          rw [Nat.add_zero] at place
          rw [← place]
        | succ i =>
          have := before 0 first (Nat.succ_pos i) rfl
          rw [found] at this
          contradiction
    | none =>
      simp only [ih]
      constructor
      · rintro ⟨i, entry, at_, place, index, before⟩
        refine ⟨i + 1, entry, at_, by omega, index, ?_⟩
        intro k earlier early at_'
        cases k with
        | zero =>
          obtain rfl : first = earlier := by simpa using at_'
          exact found
        | succ k => exact before k earlier (by omega) (by simpa using at_')
      · rintro ⟨i, entry, at_, place, index, before⟩
        cases i with
        | zero =>
          obtain rfl : first = entry := by simpa using at_
          rw [found] at index
          contradiction
        | succ i =>
          refine ⟨i, entry, by simpa using at_, by omega, index, ?_⟩
          exact fun k earlier early at_' => before (k + 1) earlier (by omega) (by simpa using at_')

theorem searchHandles_none {res : Resolver} {af : AddrFamily} {path : Option (List UInt8)}
    {entries : List (Option HandleInfo)} {handle : Nat} :
    searchHandles res af path handle entries = none ↔
      ∀ entry ∈ entries, searchHandle res af path entry = none := by
  induction entries generalizing handle with
  | nil => simp [searchHandles]
  | cons first rest ih =>
    rw [searchHandles, List.forall_mem_cons, ← @ih (handle + 1)]
    cases searchHandle res af path first <;> simp

theorem searchHandle_some {res : Resolver} {af : AddrFamily} {path : Option (List UInt8)}
    {parsed : List UInt8} (asked : path.bind (pathOf res) = some parsed) {entry : Option HandleInfo}
    {j : Nat} : searchHandle res af path entry = some j ↔
      ∃ table, entry = some (.device af table) ∧ ∃ service, FirstIn res table parsed j service := by
  unfold searchHandle
  split
  next deviceAf table =>
    split
    next same =>
      subst same
      rw [searchTable_some asked]
      simp
    next other => simp [other]
  next nothing =>
    constructor
    · nofun
    · rintro ⟨table, rfl, -⟩
      exact absurd rfl (nothing af table)

theorem searchHandle_none {res : Resolver} {af : AddrFamily} {path : Option (List UInt8)}
    {parsed : List UInt8} (asked : path.bind (pathOf res) = some parsed) {entry : Option HandleInfo} :
    searchHandle res af path entry = none ↔
      ∀ table, entry = some (.device af table) → ∀ service ∈ table, ¬service.Answers res parsed := by
  unfold searchHandle
  split
  next deviceAf table =>
    split
    next same =>
      subst same
      rw [searchTable_none asked]
      simp
    next other => simp [other]
  next nothing =>
    refine ⟨fun _ table here => absurd here (nothing af table), fun _ => rfl⟩

/-- The service the lookup comes to first: the devices are searched one after the other, each for
a control URL and then for an event URL. -/
structure Foremost (res : Resolver) (r : Registry) (af : AddrFamily) (parsed : List UInt8)
    (ref : ServiceRef) (service : ServiceInfo) : Prop where
  found : r.service? af ref = some service
  answers : service.Answers res parsed
  handles : ∀ other rival, r.service? af other = some rival → rival.Answers res parsed →
    ref.handle ≤ other.handle
  control : ∀ other rival, r.service? af other = some rival → other.handle = ref.handle →
    rival.controlPath res = some parsed →
      service.controlPath res = some parsed ∧ ref.index ≤ other.index
  event : ∀ other rival, r.service? af other = some rival → other.handle = ref.handle →
    rival.eventPath res = some parsed → service.controlPath res = some parsed ∨ ref.index ≤ other.index

theorem getDeviceHandleInfoForPath_some {res : Resolver} {r : Registry} {af : AddrFamily}
    {path : Option (List UInt8)} {parsed : List UInt8} (asked : path.bind (pathOf res) = some parsed)
    {ref : ServiceRef} : getDeviceHandleInfoForPath res r af path = some ref ↔
      r.registered af = true ∧ ∃ service, Foremost res r af parsed ref service := by
  unfold getDeviceHandleInfoForPath
  split
  next registered =>
    simp only [registered, true_and, searchHandles_some, List.getElem?_drop]
    constructor
    · rintro ⟨i, entry, at_, place, found, before⟩
      obtain ⟨table, rfl, service, first⟩ := (searchHandle_some asked).mp found
      rw [← place] at at_
      have here : r.service? af ref = some service :=
        Registry.service?_eq_some.mpr ⟨by omega, table, at_, first.here⟩
      have sameTable : ∀ other rival, r.service? af other = some rival →
          other.handle = ref.handle → table[other.index]? = some rival := by
        intro other rival found' same
        obtain ⟨-, table', at_', inside⟩ := Registry.service?_eq_some.mp found'
        rw [same, at_] at at_'
        simp only [Option.some.injEq, HandleInfo.device.injEq, true_and] at at_'
        exact at_' ▸ inside
      refine ⟨service, here, first.answers, ?_, ?_, ?_⟩
      · intro other rival found' answers
        obtain ⟨positive, table', at_', inside⟩ := Registry.service?_eq_some.mp found'
        by_contra early
        have at_'' : r.handleTable[1 + (other.handle - 1)]? = some (some (.device af table')) := by
          rw [← at_']
          congr 1
          omega
        have silent := before (other.handle - 1) _ (by omega) at_''
        exact (searchHandle_none asked).mp silent table' rfl rival (List.mem_of_getElem? inside) answers
      · intro other rival found' same control
        exact first.control other.index rival (sameTable other rival found' same) control
      · intro other rival found' same event
        exact first.event other.index rival (sameTable other rival found' same) event
    · rintro ⟨service, found, answers, handles, control, event⟩
      obtain ⟨positive, table, at_, inside⟩ := Registry.service?_eq_some.mp found
      have place : 1 + (ref.handle - 1) = ref.handle := by omega
      refine ⟨ref.handle - 1, some (.device af table), by rw [place, at_], place.symm, ?_, ?_⟩
      · refine (searchHandle_some asked).mpr ⟨table, rfl, service, inside, answers, ?_, ?_⟩
        · intro k other at_' same
          exact control ⟨ref.handle, k⟩ other
            (Registry.service?_eq_some.mpr ⟨positive, table, at_, at_'⟩) rfl same
        · intro k other at_' same
          exact event ⟨ref.handle, k⟩ other
            (Registry.service?_eq_some.mpr ⟨positive, table, at_, at_'⟩) rfl same
      · intro k earlier early at_'
        refine (searchHandle_none asked).mpr ?_
        rintro table' rfl rival member answers'
        obtain ⟨index, inside'⟩ := List.getElem?_of_mem member
        have := handles ⟨1 + k, index⟩ rival
          (Registry.service?_eq_some.mpr ⟨by simp, table', at_', inside'⟩) answers'
        simp only at this
        omega
  next unregistered => simp [unregistered]

theorem getDeviceHandleInfoForPath_unparsed {res : Resolver} {r : Registry} {af : AddrFamily}
    {path : Option (List UInt8)} (asked : path.bind (pathOf res) = none) :
    getDeviceHandleInfoForPath res r af path = none := by
  have silent : ∀ entry, searchHandle res af path entry = none := by
    intro entry
    unfold searchHandle
    split
    · simp [findServiceControlURLPath, findServiceEventURLPath, asked]
    · rfl
  unfold getDeviceHandleInfoForPath
  split
  · rw [Option.eq_none_iff_forall_not_mem]
    intro ref found
    obtain ⟨i, entry, -, -, found, -⟩ := searchHandles_some.mp found
    rw [silent] at found
    contradiction
  · rfl

theorem genaService_ok {res : Resolver} {r : Registry} {af : AddrFamily} {missing inactive : Nat}
    {path : Option (List UInt8)} {ref : ServiceRef} :
    genaService res r af missing inactive path = .ok ref ↔
      getDeviceHandleInfoForPath res r af path = some ref := by
  unfold genaService
  cases asked : path.bind (pathOf res) with
  | none => simp [getDeviceHandleInfoForPath_unparsed asked]
  | some parsed =>
    cases found : getDeviceHandleInfoForPath res r af path with
    | none => simp
    | some first =>
      obtain ⟨-, service, foremost⟩ := (getDeviceHandleInfoForPath_some asked).mp found
      have active := Registry.service_active foremost.found
      simp [foremost.found, active]

/-- Every request is handed to the service that comes first for the path it asks for. -/
theorem dispatch_ok {res : Resolver} {r : Registry} {af : AddrFamily} {request : Request}
    {pathquery : List UInt8} {ref : ServiceRef} :
    dispatch res r af request pathquery = .ok ref ↔ r.registered af = true ∧
      ∃ parsed, request.asked res pathquery = some parsed ∧
        ∃ service, Foremost res r af parsed ref service := by
  have looked : getDeviceHandleInfoForPath res r af (request.handed pathquery) = some ref ↔
      r.registered af = true ∧ ∃ parsed, request.asked res pathquery = some parsed ∧
        ∃ service, Foremost res r af parsed ref service := by
    cases asked : (request.handed pathquery).bind (pathOf res) with
    | none => simp [Request.asked, asked, getDeviceHandleInfoForPath_unparsed asked]
    | some parsed => simp [Request.asked, asked, getDeviceHandleInfoForPath_some asked]
  rw [← looked]
  cases request with
  | soapPost =>
    simp only [dispatch, getDevService, Request.handed]
    split <;> simp_all
  | subscribe => exact genaService_ok
  | renewal => exact genaService_ok
  | unsubscribe => exact genaService_ok

theorem getDeviceHandleInfoForPath_none {res : Resolver} {r : Registry} {af : AddrFamily}
    {path : Option (List UInt8)} {parsed : List UInt8} (asked : path.bind (pathOf res) = some parsed)
    (registered : r.registered af = true) (nothing : getDeviceHandleInfoForPath res r af path = none)
    {ref : ServiceRef} {service : ServiceInfo} (found : r.service? af ref = some service) :
    ¬service.Answers res parsed := by
  rw [getDeviceHandleInfoForPath, if_pos registered] at nothing
  obtain ⟨positive, table, at_, inside⟩ := Registry.service?_eq_some.mp found
  have member : some (.device af table) ∈ r.handleTable.drop 1 := by
    refine @List.mem_of_getElem? _ _ (ref.handle - 1) _ ?_
    rw [List.getElem?_drop, ← at_]
    congr 1
    omega
  exact (searchHandle_none asked).mp (searchHandles_none.mp nothing _ member) table rfl service
    (List.mem_of_getElem? inside)

/-- Either nobody has the path as the URL this request is for, and nobody answers to the path as it
is parsed again; or one service alone has it as that URL, and this is the one the lookup comes to
first. -/
def WellRouted (res : Resolver) (r : Registry) (af : AddrFamily) (request : Request)
    (pathquery : List UInt8) : Prop :=
  (∀ ref service, r.service? af ref = some service → request.path res service ≠ some pathquery ∧
      (r.registered af = true → ∀ parsed, request.asked res pathquery = some parsed →
        ¬service.Answers res parsed)) ∨
    ∃ ref service, request.path res service = some pathquery ∧
      (∀ other rival, r.service? af other = some rival →
        request.path res rival = some pathquery → other = ref) ∧
      r.registered af = true ∧
      ∃ parsed, request.asked res pathquery = some parsed ∧ Foremost res r af parsed ref service

/-- A request reaches the service whose URL has its path, and no other, exactly where the path is
well routed. -/
theorem dispatch_iff (res : Resolver) (r : Registry) (af : AddrFamily) (request : Request)
    (pathquery : List UInt8) :
    (∀ ref, dispatch res r af request pathquery = .ok ref ↔
        ∃ service, r.service? af ref = some service ∧ request.path res service = some pathquery) ↔
      WellRouted res r af request pathquery := by
  constructor
  · intro claim
    by_cases reached : ∃ ref, dispatch res r af request pathquery = .ok ref
    · obtain ⟨ref, ok⟩ := reached
      obtain ⟨registered, parsed, asked, service, foremost⟩ := dispatch_ok.mp ok
      obtain ⟨service', found, path⟩ := (claim ref).mp ok
      obtain rfl := Option.some.inj (foremost.found.symm.trans found)
      refine Or.inr ⟨ref, service, path, ?_, registered, parsed, asked, foremost⟩
      intro other rival found' path'
      have ok' := (claim other).mpr ⟨rival, found', path'⟩
      exact Except.ok.inj (ok'.symm.trans ok)
    · refine Or.inl fun ref service found => ⟨?_, ?_⟩
      · intro path
        exact reached ⟨ref, (claim ref).mpr ⟨service, found, path⟩⟩
      · intro registered parsed asked
        apply getDeviceHandleInfoForPath_none asked registered _ found
        rw [Option.eq_none_iff_forall_not_mem]
        intro first looked
        have foremost := (getDeviceHandleInfoForPath_some asked).mp looked
        exact reached ⟨first, dispatch_ok.mpr ⟨registered, parsed, asked, foremost.2⟩⟩
  · rintro (nobody | ⟨ref, service, path, sole, registered, parsed, asked, foremost⟩) other
    · constructor
      · intro ok
        obtain ⟨registered, parsed, asked, service, foremost⟩ := dispatch_ok.mp ok
        exact absurd foremost.answers ((nobody other service foremost.found).2 registered parsed asked)
      · rintro ⟨service, found, path⟩
        exact absurd path (nobody other service found).1
    · have ok := dispatch_ok.mpr ⟨registered, parsed, asked, service, foremost⟩
      constructor
      · intro ok'
        obtain rfl := Except.ok.inj (ok.symm.trans ok')
        exact ⟨service, foremost.found, path⟩
      · rintro ⟨rival, found, path'⟩
        rw [sole other rival found path']
        exact ok

/-- A registry with one IPv4 device, which has one service. -/
def oneService (service : ServiceInfo) (active : service.active = true) : Registry :=
  { handleTable := [none, some (.device .inet [service])] ++ List.replicate 198 none
    size := rfl
    active := by
      intro deviceAf serviceTable member
      simp only [List.mem_append, List.mem_cons, List.mem_replicate] at member
      obtain (one | two | gone) | rest := member
      · contradiction
      · obtain ⟨-, rfl⟩ := HandleInfo.device.inj (Option.some.inj two)
        simpa using active
      · contradiction
      · exact absurd rest.2 nofun
    deviceRegisteredV4 := true
    deviceRegisteredV6 := false }

def literalResolver : Resolver := ⟨fun _ => none, fun _ _ => some [192, 168, 0, 1], 0⟩

def lightSwitch : ServiceInfo :=
  ⟨some (bytes "http://192.168.0.1:49152/control"), some (bytes "http://192.168.0.1:49152/event"), true⟩

/-- SUBSCRIBE to the control URL of a service is taken for a subscription to its events. -/
theorem dispatch_wrong_url :
    ¬∀ (res : Resolver) (r : Registry) (af : AddrFamily) (request : Request)
      (pathquery : List UInt8) (ref : ServiceRef),
      dispatch res r af request pathquery = .ok ref ↔
        ∃ service, r.service? af ref = some service ∧ request.path res service = some pathquery := by
  intro claim
  have ok : (dispatch literalResolver (oneService lightSwitch rfl) .inet .subscribe
      (bytes "/control")).toOption = some ⟨1, 0⟩ := by decide +kernel
  have reached : dispatch literalResolver (oneService lightSwitch rfl) .inet .subscribe
      (bytes "/control") = .ok ⟨1, 0⟩ := by
    cases shape : dispatch literalResolver (oneService lightSwitch rfl) .inet .subscribe
        (bytes "/control") with
    | error status =>
        rw [shape] at ok
        contradiction
    | ok ref =>
        rw [shape] at ok
        exact congrArg _ (Option.some.inj ok)
  obtain ⟨service, found, path⟩ := (claim _ _ _ _ _ _).mp reached
  obtain rfl : lightSwitch = service := Option.some.inj found
  have event : lightSwitch.eventPath literalResolver = some (bytes "/event") := by decide +kernel
  exact absurd (event.symm.trans path) (by decide)

end Pupnp.Api
