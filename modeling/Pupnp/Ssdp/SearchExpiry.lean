import Mathlib.Data.List.Perm.Basic
import Mathlib.Data.Multiset.Dedup
import Pupnp.Api.HandleTable
import Pupnp.Library.Run
import Pupnp.Ssdp.CtrlPt

/-!
The searches of control points and the timer jobs that end them. A search, the argument of its job and
the timer event hang together by the id of the event alone; a handle may be given to another client
before the job runs. Every step is what a thread does while it holds the lock of the handle table.
-/

namespace Pupnp.Ssdp.SearchExpiry
open Pupnp.Api Pupnp.Run

/-- `SsdpSearchArg` with the id of the event that ends the search. -/
structure TimedSearch extends SsdpSearchArg where
  timeoutEventId : Int
  deriving DecidableEq, Repr

structure SsdpSearchExpArg where
  handle : Int
  timeoutEventId : Int
  deriving DecidableEq, Repr

/-- The parts of `Handle_Info` that a search needs. The number of the registration stands for the
address of the structure: it tells apart the clients that have the same handle one after the other. -/
structure Client where
  registration : Nat
  callback : Nat
  ssdpSearchList : List TimedSearch
  deriving DecidableEq, Repr

inductive HandleInfo where
  | device
  | client (info : Client)
  deriving DecidableEq, Repr

structure Accepted where
  registration : Nat
  callback : Nat
  search : TimedSearch
  deriving DecidableEq, Repr

inductive Event where
  | accepted (entry : Accepted)
  | expired (timeoutEventId : Int)
  | unregistered (registration : Nat)
  deriving DecidableEq, Repr

/-- The callback with `UPNP_DISCOVERY_SEARCH_TIMEOUT` that the job of an event makes. -/
structure TimeoutCall where
  timeoutEventId : Int
  callback : Nat
  cookie : Nat
  deriving DecidableEq, Repr

inductive Leaving where
  | checked (hnd : Int)
  | unsubscribed (hnd : Int)
  deriving DecidableEq, Repr

structure State where
  handleTable : HandleTable HandleInfo
  clientRegistered : Int
  /-- `UpnpSdkDeviceRegisteredV4 + UpnpSdkDeviceregisteredV6` -/
  deviceRegistered : Int
  registrations : Nat
  /-- The ids that the timer has given out. -/
  issued : List Int
  /-- The jobs that the timer has not run yet. -/
  queue : List SsdpSearchExpArg
  leaving : List Leaving
  /-- The jobs that have released the lock and are about to call back. -/
  calling : List TimeoutCall
  reported : List TimeoutCall
  history : List Event

def upnpRegisterClient (callback : Nat) (allocates : Bool) (s : State) : State :=
  if callback = 0 then s
  else if NUM_HANDLE - 1 ≤ s.clientRegistered + s.deviceRegistered then s
  else
    match s.handleTable.getFreeHandle with
    | none => s
    | some hnd =>
        if allocates then
          { s with
            handleTable := s.handleTable.set hnd (some (.client ⟨s.registrations, callback, []⟩))
            clientRegistered := s.clientRegistered + 1
            registrations := s.registrations + 1 }
        else s

def upnpUnRegisterClient (hnd : Int) (s : State) : State :=
  if s.clientRegistered = 0 then s else { s with leaving := s.leaving ++ [.checked hnd] }

/-- `genaUnregisterClient` as far as this part of the library sees it: it turns down what is no client. -/
def genaUnregisterClient (i : Nat) (hnd : Int) (s : State) : State :=
  match s.handleTable.get hnd with
  | some (.client _) => { s with leaving := s.leaving.set i (.unsubscribed hnd) }
  | _ => { s with leaving := s.leaving.eraseIdx i }

def HandleInfo.registration? : HandleInfo → Option Nat
  | .client info => some info.registration
  | .device => none

/-- The last locked part of `UpnpUnRegisterClient`, which frees the searches and the handle. -/
def freeClient (i : Nat) (hnd : Int) (s : State) : State :=
  match s.handleTable.get hnd with
  | none => { s with leaving := s.leaving.eraseIdx i }
  | some info =>
      { s with
        handleTable := s.handleTable.set hnd none
        clientRegistered := s.clientRegistered - 1
        leaving := s.leaving.eraseIdx i
        history := s.history ++ (info.registration?.map .unregistered).toList }

/-- `SearchByTarget` up to the end of its locked part. The packets are `prepared` unless one does not fit
its buffer or the address of the interface is bad; `id` is what the timer writes. -/
def searchByTarget (hnd : Int) (st : List UInt8) (cookie : Nat) (prepared : Bool) (id : Int) (s : State) :
    State :=
  if ssdpRequestType1 st = .serror || !prepared then s
  else
    match s.handleTable.get hnd with
    | some (.client info) =>
        let newArg : TimedSearch :=
          { searchTarget := st, cookie := cookie, requestType := ssdpRequestType1 st, timeoutEventId := id }
        { s with
          handleTable := s.handleTable.set hnd
            (some (.client { info with ssdpSearchList := info.ssdpSearchList ++ [newArg] }))
          issued := s.issued ++ [id]
          queue := s.queue ++ [⟨hnd, id⟩]
          history := s.history ++ [.accepted ⟨info.registration, info.callback, newArg⟩] }
    | _ => s

def searchExpired (i : Nat) (arg : SsdpSearchExpArg) (s : State) : State :=
  let ran := { s with
    queue := s.queue.eraseIdx i, history := s.history ++ [.expired arg.timeoutEventId] }
  match s.handleTable.get arg.handle with
  | some (.client info) =>
      match info.ssdpSearchList.find? (·.timeoutEventId = arg.timeoutEventId) with
      | none => ran
      | some item =>
          { ran with
            handleTable := s.handleTable.set arg.handle (some (.client { info with
              ssdpSearchList := info.ssdpSearchList.eraseP (·.timeoutEventId = arg.timeoutEventId) }))
            calling := s.calling ++ [⟨arg.timeoutEventId, info.callback, item.cookie⟩] }
  | _ => ran

inductive Label where
  | registerClient (callback : Nat) (allocates : Bool)
  | unRegisterClient (hnd : Int)
  | genaUnregisterClient (i : Nat)
  | freeClient (i : Nat)
  | searchByTarget (hnd : Int) (st : List UInt8) (cookie : Nat) (prepared : Bool) (id : Int)
  | searchExpired (i : Nat)
  | callback (i : Nat)
  deriving DecidableEq, Repr

/-- The timer never gives an id out twice; the jobs may run and call back in any order. -/
def step : Label → State → Option State
  | .registerClient callback allocates, s => some (upnpRegisterClient callback allocates s)
  | .unRegisterClient hnd, s => some (upnpUnRegisterClient hnd s)
  | .genaUnregisterClient i, s =>
      match s.leaving[i]? with
      | some (.checked hnd) => some (genaUnregisterClient i hnd s)
      | _ => none
  | .freeClient i, s =>
      match s.leaving[i]? with
      | some (.unsubscribed hnd) => some (freeClient i hnd s)
      | _ => none
  | .searchByTarget hnd st cookie prepared id, s =>
      if id ∈ s.issued then none else some (searchByTarget hnd st cookie prepared id s)
  | .searchExpired i, s => s.queue[i]?.map fun arg => searchExpired i arg s
  | .callback i, s =>
      s.calling[i]?.map fun call =>
        { s with calling := s.calling.eraseIdx i, reported := s.reported ++ [call] }

def deviceTable (device : Nat → Bool) : HandleTable HandleInfo where
  entries := (List.range NUM_HANDLE).map fun hnd => if device hnd then some .device else none
  size := by rw [List.length_map, List.length_range]

def initial (device : Nat → Bool) (deviceRegistered : Int) : State where
  handleTable := deviceTable device
  clientRegistered := 0
  deviceRegistered := deviceRegistered
  registrations := 0
  issued := []
  queue := []
  leaving := []
  calling := []
  reported := []
  history := []

/-! ### What one step does -/

/-- What the searches depend on: the clients by handle, the jobs and the callbacks without their order. -/
structure View where
  clients : Int → Option Client
  registrations : Nat
  issued : List Int
  queue : Multiset SsdpSearchExpArg
  calls : Multiset TimeoutCall
  history : List Event

def clientOf : Option HandleInfo → Option Client
  | some (.client info) => some info
  | _ => none

def State.view (s : State) : View where
  clients := fun hnd => clientOf (s.handleTable.get hnd)
  registrations := s.registrations
  issued := s.issued
  queue := s.queue
  calls := s.calling ++ s.reported
  history := s.history

inductive Effect (v : View) : View → Prop where
  | nothing : Effect v v
  | registers (hnd : Int) (callback : Nat) (free : v.clients hnd = none) :
      Effect v { v with
        clients := Function.update v.clients hnd (some ⟨v.registrations, callback, []⟩)
        registrations := v.registrations + 1 }
  | leaves (hnd : Int) (info : Client) (found : v.clients hnd = some info) :
      Effect v { v with
        clients := Function.update v.clients hnd none
        history := v.history ++ [.unregistered info.registration] }
  | accepts (hnd : Int) (info : Client) (search : TimedSearch) (found : v.clients hnd = some info)
      (fresh : search.timeoutEventId ∉ v.issued) :
      Effect v { v with
        clients := Function.update v.clients hnd
          (some { info with ssdpSearchList := info.ssdpSearchList ++ [search] })
        issued := v.issued ++ [search.timeoutEventId]
        queue := ⟨hnd, search.timeoutEventId⟩ ::ₘ v.queue
        history := v.history ++ [.accepted ⟨info.registration, info.callback, search⟩] }
  | misses (arg : SsdpSearchExpArg) (rest : Multiset SsdpSearchExpArg) (waiting : v.queue = arg ::ₘ rest)
      (absent : ∀ info, v.clients arg.handle = some info →
        ∀ search ∈ info.ssdpSearchList, search.timeoutEventId ≠ arg.timeoutEventId) :
      Effect v { v with queue := rest, history := v.history ++ [.expired arg.timeoutEventId] }
  | ends (arg : SsdpSearchExpArg) (rest : Multiset SsdpSearchExpArg) (waiting : v.queue = arg ::ₘ rest)
      (info : Client) (found : v.clients arg.handle = some info) (item : TimedSearch)
      (listed : item ∈ info.ssdpSearchList) (own : item.timeoutEventId = arg.timeoutEventId) :
      Effect v { v with
        clients := Function.update v.clients arg.handle (some { info with
          ssdpSearchList := info.ssdpSearchList.eraseP (·.timeoutEventId = arg.timeoutEventId) })
        queue := rest
        calls := ⟨arg.timeoutEventId, info.callback, item.cookie⟩ ::ₘ v.calls
        history := v.history ++ [.expired arg.timeoutEventId] }

theorem clients_set (table : HandleTable HandleInfo) {hnd : Int} (valid : HandleTable.Valid hnd)
    (entry : Option HandleInfo) :
    (fun h => clientOf ((table.set hnd entry).get h)) =
      Function.update (fun h => clientOf (table.get h)) hnd (clientOf entry) := by
  funext h
  rw [HandleTable.get_set table valid, Function.update_apply, apply_ite clientOf]

theorem coe_eraseIdx {α : Type} {l : List α} {i : Nat} {a : α} (found : l[i]? = some a) :
    (l : Multiset α) = a ::ₘ (l.eraseIdx i : Multiset α) := by
  obtain ⟨room, rfl⟩ := List.getElem?_eq_some_iff.mp found
  exact Multiset.coe_eq_coe.mpr (List.getElem_cons_eraseIdx_perm room).symm

theorem view_enter (s : State) {hnd : Int} (valid : HandleTable.Valid hnd) (info : Client) :
    (State.view { s with handleTable := s.handleTable.set hnd (some (.client info)) }).clients =
      Function.update s.view.clients hnd (some info) :=
  clients_set s.handleTable valid _

theorem view_free (s : State) {hnd : Int} (valid : HandleTable.Valid hnd) :
    (State.view { s with handleTable := s.handleTable.set hnd none }).clients =
      Function.update s.view.clients hnd none :=
  clients_set s.handleTable valid none

theorem view_client {s : State} {hnd : Int} {info : Client} :
    s.view.clients hnd = some info ↔ s.handleTable.get hnd = some (.client info) := by
  change clientOf (s.handleTable.get hnd) = some info ↔ _
  unfold clientOf
  split
  next found => rw [found, Option.some.injEq, Option.some.injEq, HandleInfo.client.injEq]
  next other => exact ⟨nofun, fun found => absurd found (other info)⟩

theorem upnpRegisterClient_effect (callback : Nat) (allocates : Bool) (s : State) :
    Effect s.view (upnpRegisterClient callback allocates s).view := by
  unfold upnpRegisterClient
  split
  next => exact .nothing
  next =>
    split
    next => exact .nothing
    next =>
      split
      next => exact .nothing
      next hnd free =>
        split
        next =>
          obtain ⟨valid, empty⟩ := HandleTable.getFreeHandle_some free
          have entered := Effect.registers (v := s.view) hnd callback (congrArg clientOf empty)
          rw [← view_enter s valid] at entered
          exact entered
        next => exact .nothing

theorem freeClient_effect (i : Nat) (hnd : Int) (s : State) : Effect s.view (freeClient i hnd s).view := by
  unfold freeClient
  split
  next => exact .nothing
  next info found =>
    have valid := HandleTable.get_valid found
    cases info with
    | device =>
      have same : Function.update s.view.clients hnd none = s.view.clients := by
        have none_here : s.view.clients hnd = none := congrArg clientOf found
        rw [← none_here, Function.update_eq_self]
      have freed : Effect s.view { s.view with clients := Function.update s.view.clients hnd none } := by
        rw [same]
        exact .nothing
      rw [← view_free s valid] at freed
      have no_news : (HandleInfo.device.registration?.map Event.unregistered).toList = [] := rfl
      rw [no_news, List.append_nil]
      exact freed
    | client info =>
      have freed := Effect.leaves hnd info (view_client.mpr found)
      rw [← view_free s valid] at freed
      exact freed

theorem searchByTarget_effect (hnd : Int) (st : List UInt8) (cookie : Nat) (prepared : Bool) (id : Int)
    {s : State} (fresh : id ∉ s.issued) :
    Effect s.view (searchByTarget hnd st cookie prepared id s).view := by
  unfold searchByTarget
  split
  next => exact .nothing
  next =>
    split
    next info found =>
      have added := Effect.accepts hnd info
        { searchTarget := st, cookie := cookie, requestType := ssdpRequestType1 st, timeoutEventId := id }
        (view_client.mpr found) fresh
      rw [← view_enter s (HandleTable.get_valid found)] at added
      have queue : ((s.queue ++ [⟨hnd, id⟩] : List SsdpSearchExpArg) : Multiset SsdpSearchExpArg) =
          ⟨hnd, id⟩ ::ₘ (s.queue : Multiset SsdpSearchExpArg) :=
        Multiset.coe_eq_coe.mpr (List.perm_append_singleton _ _)
      unfold State.view at added ⊢
      rw [queue]
      exact added
    next => exact .nothing

theorem searchExpired_effect {i : Nat} {arg : SsdpSearchExpArg} {s : State} (found : s.queue[i]? = some arg) :
    Effect s.view (searchExpired i arg s).view := by
  have waiting : s.view.queue = arg ::ₘ (s.queue.eraseIdx i : Multiset SsdpSearchExpArg) := coe_eraseIdx found
  unfold searchExpired
  split
  next info here =>
    have client := view_client.mpr here
    split
    next absent =>
      refine .misses arg _ waiting ?_
      intro other same search listed
      obtain rfl : info = other := Option.some.inj (client.symm.trans same)
      simpa using List.find?_eq_none.mp absent search listed
    next item first =>
      have ended := Effect.ends arg _ waiting info client item (List.mem_of_find?_eq_some first)
        (by simpa using List.find?_some first)
      rw [← view_enter s (HandleTable.get_valid here)] at ended
      have calls (call : TimeoutCall) : ((s.calling ++ [call] ++ s.reported : List TimeoutCall) : Multiset TimeoutCall) =
          call ::ₘ (s.calling ++ s.reported : List TimeoutCall) := by
        rw [List.append_assoc]
        exact Multiset.coe_eq_coe.mpr List.perm_middle
      unfold State.view at ended ⊢
      rw [calls]
      exact ended
  next other =>
    refine .misses arg _ waiting ?_
    intro info same
    exact absurd (view_client.mp same) (other info)

theorem step_effect {label : Label} {s t : State} (taken : step label s = some t) : Effect s.view t.view := by
  cases label with
  | registerClient callback allocates =>
    obtain rfl := Option.some.inj taken
    exact upnpRegisterClient_effect callback allocates s
  | unRegisterClient hnd =>
    obtain rfl := Option.some.inj taken
    unfold upnpUnRegisterClient
    split <;> exact .nothing
  | genaUnregisterClient i =>
    simp only [step] at taken
    split at taken
    next hnd _ =>
      obtain rfl := Option.some.inj taken
      unfold genaUnregisterClient
      split <;> exact .nothing
    next => cases taken
  | freeClient i =>
    simp only [step] at taken
    split at taken
    next hnd _ =>
      obtain rfl := Option.some.inj taken
      exact freeClient_effect i hnd s
    next => cases taken
  | searchByTarget hnd st cookie prepared id =>
    simp only [step] at taken
    split at taken
    next => cases taken
    next fresh =>
      obtain rfl := Option.some.inj taken
      exact searchByTarget_effect hnd st cookie prepared id fresh
  | searchExpired i =>
    obtain ⟨arg, found, rfl⟩ := Option.map_eq_some_iff.mp taken
    exact searchExpired_effect found
  | callback i =>
    obtain ⟨call, found, rfl⟩ := Option.map_eq_some_iff.mp taken
    have calls : ((s.calling.eraseIdx i ++ (s.reported ++ [call]) : List TimeoutCall) : Multiset TimeoutCall) =
        (s.calling ++ s.reported : List TimeoutCall) := by
      have moved := coe_eraseIdx found
      simp only [← Multiset.coe_add, moved, Multiset.cons_add, Multiset.coe_singleton]
      rw [← Multiset.add_assoc, Multiset.add_comm _ {call}, Multiset.singleton_add]
    have same : State.view { s with
        calling := s.calling.eraseIdx i, reported := s.reported ++ [call] } = s.view := by
      unfold State.view
      rw [calls]
    rw [same]
    exact .nothing

/-! ### The invariant -/

/-- The entry of an accepted search is in the list of its client. -/
def View.Listed (v : View) (entry : Accepted) : Prop :=
  ∃ hnd info, v.clients hnd = some info ∧ info.registration = entry.registration ∧
    entry.search ∈ info.ssdpSearchList

structure Inv (v : View) : Prop where
  registrations : ∀ hnd info, v.clients hnd = some info → info.registration < v.registrations
  one_handle : ∀ hnd info other info', v.clients hnd = some info → v.clients other = some info' →
    info.registration = info'.registration → hnd = other
  gone : ∀ n, .unregistered n ∈ v.history →
    n < v.registrations ∧ ∀ hnd info, v.clients hnd = some info → info.registration ≠ n
  listed : ∀ hnd info, v.clients hnd = some info → ∀ search ∈ info.ssdpSearchList,
    .accepted ⟨info.registration, info.callback, search⟩ ∈ v.history ∧
      .expired search.timeoutEventId ∉ v.history
  once : ∀ hnd info, v.clients hnd = some info → (info.ssdpSearchList.map (·.timeoutEventId)).Nodup
  accepted : ∀ entry, .accepted entry ∈ v.history → entry.search.timeoutEventId ∈ v.issued ∧
    (.expired entry.search.timeoutEventId ∈ v.history ∨ .unregistered entry.registration ∈ v.history ∨
      v.Listed entry)
  ids : ∀ entry other, .accepted entry ∈ v.history → .accepted other ∈ v.history →
    entry.search.timeoutEventId = other.search.timeoutEventId → entry = other
  waiting : ∀ arg ∈ v.queue, arg.timeoutEventId ∈ v.issued ∧ .expired arg.timeoutEventId ∉ v.history ∧
    ∀ hnd info, v.clients hnd = some info → ∀ search ∈ info.ssdpSearchList,
      search.timeoutEventId = arg.timeoutEventId → hnd = arg.handle
  jobs : (v.queue.map (·.timeoutEventId)).Nodup
  expired : ∀ id, .expired id ∈ v.history → id ∈ v.issued
  calls : ∀ call ∈ v.calls, .expired call.timeoutEventId ∈ v.history ∧
    ∃ entry, .accepted entry ∈ v.history ∧ entry.search.timeoutEventId = call.timeoutEventId ∧
      entry.callback = call.callback ∧ entry.search.cookie = call.cookie
  callIds : (v.calls.map (·.timeoutEventId)).Nodup

/-- Where no two searches have one id, none with the id is left after the first has gone. -/
theorem not_id_of_mem_eraseP {list : List TimedSearch} {id : Int}
    (once : (list.map (·.timeoutEventId)).Nodup) {search : TimedSearch}
    (left : search ∈ list.eraseP (·.timeoutEventId = id)) : search.timeoutEventId ≠ id := by
  induction list with
  | nil => cases left
  | cons first others ih =>
    rw [List.map_cons, List.nodup_cons] at once
    obtain ⟨apart, later⟩ := once
    by_cases here : first.timeoutEventId = id
    · rw [List.eraseP_cons_of_pos (by simpa using here)] at left
      intro same
      exact apart (List.mem_map.mpr ⟨search, left, same.trans here.symm⟩)
    · rw [List.eraseP_cons_of_neg (by simpa using here)] at left
      obtain rfl | member := List.mem_cons.mp left
      · exact here
      · exact ih later member

section Steps
variable {v : View} (inv : Inv v)
include inv

/-- The registered clients after a client has entered or left, or its list has changed. -/
theorem Inv.registers {hnd : Int} {callback : Nat} (free : v.clients hnd = none) :
    Inv { v with
      clients := Function.update v.clients hnd (some ⟨v.registrations, callback, []⟩)
      registrations := v.registrations + 1 } := by
  have old {h : Int} {info : Client}
      (found : Function.update v.clients hnd (some ⟨v.registrations, callback, []⟩) h = some info) :
      (h = hnd ∧ info = ⟨v.registrations, callback, []⟩) ∨ (h ≠ hnd ∧ v.clients h = some info) := by
    rw [Function.update_apply] at found
    split at found
    next same => exact .inl ⟨same, (Option.some.inj found).symm⟩
    next different => exact .inr ⟨different, found⟩
  refine { inv with
    registrations := ?_, one_handle := ?_, gone := ?_, listed := ?_, once := ?_, accepted := ?_, waiting := ?_ }
  · intro h info found
    obtain ⟨-, rfl⟩ | ⟨-, before⟩ := old found
    · exact Nat.lt_succ_self _
    · exact Nat.lt_succ_of_lt (inv.registrations h info before)
  · intro h info other info' found found' same
    obtain ⟨here, rfl⟩ | ⟨-, before⟩ := old found <;> obtain ⟨here', rfl⟩ | ⟨-, before'⟩ := old found'
    · rw [here, here']
    · have earlier := inv.registrations other info' before'
      dsimp only at same
      omega
    · have earlier := inv.registrations h info before
      dsimp only at same
      omega
    · exact inv.one_handle h info other info' before before' same
  · intro n ended
    obtain ⟨earlier, apart⟩ := inv.gone n ended
    refine ⟨Nat.lt_succ_of_lt earlier, ?_⟩
    intro h info found
    obtain ⟨-, rfl⟩ | ⟨-, before⟩ := old found
    · exact fun same => absurd same earlier.ne'
    · exact apart h info before
  · intro h info found search listed
    obtain ⟨-, rfl⟩ | ⟨-, before⟩ := old found
    · cases listed
    · exact inv.listed h info before search listed
  · intro h info found
    obtain ⟨-, rfl⟩ | ⟨-, before⟩ := old found
    · exact List.nodup_nil
    · exact inv.once h info before
  · intro entry accepted
    obtain ⟨issued, rest⟩ := inv.accepted entry accepted
    refine ⟨issued, rest.imp_right (Or.imp_right ?_)⟩
    rintro ⟨h, info, found, same, listed⟩
    have different : h ≠ hnd := by
      intro same
      rw [same, free] at found
      cases found
    exact ⟨h, info, by dsimp only; rw [Function.update_of_ne different]; exact found, same, listed⟩
  · intro arg waiting
    obtain ⟨issued, pending, handle⟩ := inv.waiting arg waiting
    refine ⟨issued, pending, ?_⟩
    intro h info found search listed same
    obtain ⟨-, rfl⟩ | ⟨-, before⟩ := old found
    · cases listed
    · exact handle h info before search listed same

theorem Inv.leaves {hnd : Int} {info : Client} (found : v.clients hnd = some info) :
    Inv { v with
      clients := Function.update v.clients hnd none
      history := v.history ++ [.unregistered info.registration] } := by
  have old {h : Int} {other : Client} (left : Function.update v.clients hnd none h = some other) :
      h ≠ hnd ∧ v.clients h = some other := by
    rw [Function.update_apply] at left
    split at left
    next => cases left
    next different => exact ⟨different, left⟩
  constructor <;> dsimp only <;> try simp only [List.mem_append, List.mem_singleton, reduceCtorEq, or_false,
    Event.unregistered.injEq]
  case registrations => exact fun h other left => inv.registrations h other (old left).2
  case one_handle =>
    intro h other h' other' left left' same
    exact inv.one_handle h other h' other' (old left).2 (old left').2 same
  case gone =>
    rintro n (ended | rfl)
    · obtain ⟨earlier, apart⟩ := inv.gone n ended
      exact ⟨earlier, fun h other left => apart h other (old left).2⟩
    · refine ⟨inv.registrations hnd info found, ?_⟩
      intro h other left same
      exact (old left).1 (inv.one_handle h other hnd info (old left).2 found same)
  case listed => exact fun h other left => inv.listed h other (old left).2
  case once => exact fun h other left => inv.once h other (old left).2
  case accepted =>
    intro entry accepted
    obtain ⟨issued, expired | ended | ⟨h, other, here, same, listed⟩⟩ := inv.accepted entry accepted
    · exact ⟨issued, .inl expired⟩
    · exact ⟨issued, .inr (.inl (.inl ended))⟩
    · refine ⟨issued, .inr ?_⟩
      by_cases left : h = hnd
      · rw [left, found] at here
        obtain rfl := Option.some.inj here
        exact .inl (.inr same.symm)
      · exact .inr ⟨h, other, by dsimp only; rw [Function.update_of_ne left]; exact here, same, listed⟩
  case ids => exact inv.ids
  case waiting =>
    intro arg waiting
    obtain ⟨issued, pending, handle⟩ := inv.waiting arg waiting
    exact ⟨issued, pending, fun h other left => handle h other (old left).2⟩
  case jobs => exact inv.jobs
  case expired => exact inv.expired
  case calls => exact inv.calls
  case callIds => exact inv.callIds

theorem Inv.accepts {hnd : Int} {info : Client} {search : TimedSearch} (found : v.clients hnd = some info)
    (fresh : search.timeoutEventId ∉ v.issued) :
    Inv { v with
      clients := Function.update v.clients hnd
        (some { info with ssdpSearchList := info.ssdpSearchList ++ [search] })
      issued := v.issued ++ [search.timeoutEventId]
      queue := ⟨hnd, search.timeoutEventId⟩ ::ₘ v.queue
      history := v.history ++ [.accepted ⟨info.registration, info.callback, search⟩] } := by
  have old {h : Int} {other : Client} (here : Function.update v.clients hnd
      (some { info with ssdpSearchList := info.ssdpSearchList ++ [search] }) h = some other) :
      (h = hnd ∧ other = { info with ssdpSearchList := info.ssdpSearchList ++ [search] }) ∨
        v.clients h = some other := by
    rw [Function.update_apply] at here
    split at here
    next same => exact .inl ⟨same, (Option.some.inj here).symm⟩
    next => exact .inr here
  have same_client {h : Int} {other : Client} (here : Function.update v.clients hnd
      (some { info with ssdpSearchList := info.ssdpSearchList ++ [search] }) h = some other) :
      ∃ before, v.clients h = some before ∧ before.registration = other.registration := by
    obtain ⟨rfl, rfl⟩ | before := old here
    · exact ⟨info, found, rfl⟩
    · exact ⟨other, before, rfl⟩
  have other_id (entry : Accepted) (accepted : .accepted entry ∈ v.history) :
      entry.search.timeoutEventId ≠ search.timeoutEventId :=
    fun same => fresh (same ▸ (inv.accepted entry accepted).1)
  constructor <;> dsimp only <;> try simp only [List.mem_append, List.mem_singleton, reduceCtorEq, or_false,
    Event.accepted.injEq]
  case registrations =>
    intro h other here
    obtain ⟨before, was, same⟩ := same_client here
    exact same ▸ inv.registrations h before was
  case one_handle =>
    intro h other h' other' here here' same
    obtain ⟨before, was, number⟩ := same_client here
    obtain ⟨before', was', number'⟩ := same_client here'
    exact inv.one_handle h before h' before' was was' (number.trans (same.trans number'.symm))
  case gone =>
    intro n ended
    obtain ⟨earlier, apart⟩ := inv.gone n ended
    refine ⟨earlier, ?_⟩
    intro h other here
    obtain ⟨before, was, number⟩ := same_client here
    exact number ▸ apart h before was
  case listed =>
    intro h other here item listed
    obtain ⟨-, rfl⟩ | was := old here
    · obtain older | new := List.mem_append.mp listed
      · obtain ⟨accepted, pending⟩ := inv.listed hnd info found item older
        exact ⟨.inl accepted, pending⟩
      · obtain rfl := List.mem_singleton.mp new
        exact ⟨.inr rfl, fun expired => fresh (inv.expired _ expired)⟩
    · obtain ⟨accepted, pending⟩ := inv.listed h other was item listed
      exact ⟨.inl accepted, pending⟩
  case once =>
    intro h other here
    obtain ⟨-, rfl⟩ | was := old here
    · dsimp only
      rw [List.map_append, List.map_singleton, List.nodup_append]
      refine ⟨inv.once hnd info found, List.nodup_singleton _, ?_⟩
      intro id member last new
      obtain ⟨item, older, rfl⟩ := List.mem_map.mp member
      rw [List.mem_singleton.mp new]
      exact other_id _ (inv.listed hnd info found item older).1
    · exact inv.once h other was
  case accepted =>
    rintro entry (accepted | rfl)
    · obtain ⟨issued, expired | ended | ⟨h, other, here, same, listed⟩⟩ := inv.accepted entry accepted
      · exact ⟨.inl issued, .inl expired⟩
      · exact ⟨.inl issued, .inr (.inl ended)⟩
      · refine ⟨.inl issued, .inr (.inr ?_)⟩
        by_cases this_one : h = hnd
        · rw [this_one, found] at here
          obtain rfl := Option.some.inj here
          exact ⟨hnd, _, Function.update_self .., same, List.mem_append_left _ listed⟩
        · exact ⟨h, other, by dsimp only; rw [Function.update_of_ne this_one]; exact here, same, listed⟩
    · refine ⟨.inr rfl, .inr (.inr ⟨hnd, _, Function.update_self .., rfl, ?_⟩)⟩
      exact List.mem_append_right _ (List.mem_singleton_self _)
  case ids =>
    rintro entry other (accepted | rfl) (accepted' | rfl) same
    · exact inv.ids entry other accepted accepted' same
    · exact absurd same (other_id entry accepted)
    · exact absurd same.symm (other_id other accepted')
    · rfl
  case waiting =>
    intro arg waiting
    obtain rfl | older := Multiset.mem_cons.mp waiting
    · refine ⟨.inr rfl, fun expired => fresh (inv.expired _ expired), ?_⟩
      intro h other here item listed same
      obtain ⟨at_hnd, -⟩ | was := old here
      · exact at_hnd
      · exact absurd same (other_id _ (inv.listed h other was item listed).1)
    · obtain ⟨issued, pending, handle⟩ := inv.waiting arg older
      refine ⟨.inl issued, pending, ?_⟩
      intro h other here item listed same
      obtain ⟨at_hnd, rfl⟩ | was := old here
      · obtain before | new := List.mem_append.mp listed
        · exact at_hnd ▸ handle hnd info found item before same
        · obtain rfl := List.mem_singleton.mp new
          exact absurd (same ▸ issued) fresh
      · exact handle h other was item listed same
  case jobs =>
    rw [Multiset.map_cons, Multiset.nodup_cons]
    refine ⟨?_, inv.jobs⟩
    intro twice
    obtain ⟨arg, waiting, same⟩ := Multiset.mem_map.mp twice
    change arg.timeoutEventId = search.timeoutEventId at same
    exact fresh (same ▸ (inv.waiting arg waiting).1)
  case expired => exact fun id expired => .inl (inv.expired id expired)
  case calls =>
    intro call made
    obtain ⟨expired, entry, accepted, same⟩ := inv.calls call made
    exact ⟨expired, entry, .inl accepted, same⟩
  case callIds => exact inv.callIds

theorem Inv.misses {arg : SsdpSearchExpArg} {rest : Multiset SsdpSearchExpArg}
    (waiting : v.queue = arg ::ₘ rest)
    (absent : ∀ info, v.clients arg.handle = some info →
      ∀ search ∈ info.ssdpSearchList, search.timeoutEventId ≠ arg.timeoutEventId) :
    Inv { v with queue := rest, history := v.history ++ [.expired arg.timeoutEventId] } := by
  obtain ⟨issued, pending, handle⟩ := inv.waiting arg (waiting ▸ Multiset.mem_cons_self _ _)
  have jobs := inv.jobs
  rw [waiting, Multiset.map_cons, Multiset.nodup_cons] at jobs
  constructor <;> dsimp only <;> try simp only [List.mem_append, List.mem_singleton, reduceCtorEq, or_false,
    Event.expired.injEq]
  case registrations => exact inv.registrations
  case one_handle => exact inv.one_handle
  case gone => exact inv.gone
  case listed =>
    intro h info here search listed
    obtain ⟨accepted, older⟩ := inv.listed h info here search listed
    refine ⟨accepted, ?_⟩
    rintro (expired | same)
    · exact older expired
    · obtain rfl := handle h info here search listed same
      exact absent info here search listed same
  case once => exact inv.once
  case accepted =>
    intro entry accepted
    obtain ⟨given, expired | rest⟩ := inv.accepted entry accepted
    · exact ⟨given, .inl (.inl expired)⟩
    · exact ⟨given, .inr rest⟩
  case ids => exact inv.ids
  case waiting =>
    intro other older
    obtain ⟨given, not_yet, place⟩ := inv.waiting other (waiting ▸ Multiset.mem_cons_of_mem older)
    refine ⟨given, ?_, place⟩
    rintro (expired | same)
    · exact not_yet expired
    · exact jobs.1 (Multiset.mem_map.mpr ⟨other, older, same⟩)
  case jobs => exact jobs.2
  case expired =>
    rintro id (expired | rfl)
    · exact inv.expired id expired
    · exact issued
  case calls =>
    intro call made
    obtain ⟨expired, entry⟩ := inv.calls call made
    exact ⟨.inl expired, entry⟩
  case callIds => exact inv.callIds

theorem Inv.ends {arg : SsdpSearchExpArg} {rest : Multiset SsdpSearchExpArg}
    (waiting : v.queue = arg ::ₘ rest) {info : Client} (found : v.clients arg.handle = some info)
    {item : TimedSearch} (listed : item ∈ info.ssdpSearchList) (own : item.timeoutEventId = arg.timeoutEventId) :
    Inv { v with
      clients := Function.update v.clients arg.handle (some { info with
        ssdpSearchList := info.ssdpSearchList.eraseP (·.timeoutEventId = arg.timeoutEventId) })
      queue := rest
      calls := ⟨arg.timeoutEventId, info.callback, item.cookie⟩ ::ₘ v.calls
      history := v.history ++ [.expired arg.timeoutEventId] } := by
  obtain ⟨issued, pending, handle⟩ := inv.waiting arg (waiting ▸ Multiset.mem_cons_self _ _)
  have jobs := inv.jobs
  rw [waiting, Multiset.map_cons, Multiset.nodup_cons] at jobs
  have accepted := (inv.listed arg.handle info found item listed).1
  have kept : ∀ search ∈ info.ssdpSearchList.eraseP (·.timeoutEventId = arg.timeoutEventId),
      search ∈ info.ssdpSearchList ∧ search.timeoutEventId ≠ arg.timeoutEventId := by
    intro search left
    refine ⟨List.mem_of_mem_eraseP left, ?_⟩
    exact not_id_of_mem_eraseP (inv.once arg.handle info found) left
  have old {h : Int} {other : Client} (here : Function.update v.clients arg.handle (some { info with
      ssdpSearchList := info.ssdpSearchList.eraseP (·.timeoutEventId = arg.timeoutEventId) }) h = some other) :
      ∃ before, v.clients h = some before ∧ before.registration = other.registration ∧
        before.callback = other.callback ∧ other.ssdpSearchList.Sublist before.ssdpSearchList ∧
        ∀ search ∈ other.ssdpSearchList, search.timeoutEventId ≠ arg.timeoutEventId := by
    rw [Function.update_apply] at here
    split at here
    next same =>
      obtain rfl := Option.some.inj here
      exact ⟨info, same ▸ found, rfl, rfl, List.eraseP_sublist, fun search left => (kept search left).2⟩
    next different =>
      refine ⟨other, here, rfl, rfl, List.Sublist.refl _, ?_⟩
      exact fun search left same => different (handle h other here search left same)
  constructor <;> dsimp only <;> try simp only [List.mem_append, List.mem_singleton, reduceCtorEq, or_false,
    Event.expired.injEq]
  case registrations =>
    intro h other here
    obtain ⟨before, was, number, -⟩ := old here
    exact number ▸ inv.registrations h before was
  case one_handle =>
    intro h other h' other' here here' same
    obtain ⟨before, was, number, -⟩ := old here
    obtain ⟨before', was', number', -⟩ := old here'
    exact inv.one_handle h before h' before' was was' (number.trans (same.trans number'.symm))
  case gone =>
    intro n ended
    obtain ⟨earlier, apart⟩ := inv.gone n ended
    refine ⟨earlier, ?_⟩
    intro h other here
    obtain ⟨before, was, number, -⟩ := old here
    exact number ▸ apart h before was
  case listed =>
    intro h other here search left
    obtain ⟨before, was, number, callback, sublist, others⟩ := old here
    obtain ⟨given, not_yet⟩ := inv.listed h before was search (sublist.subset left)
    refine ⟨number ▸ callback ▸ given, ?_⟩
    rintro (expired | same)
    · exact not_yet expired
    · exact others search left same
  case once =>
    intro h other here
    obtain ⟨before, was, -, -, sublist, -⟩ := old here
    exact (inv.once h before was).sublist (sublist.map _)
  case accepted =>
    intro entry taken
    obtain ⟨given, expired | ended | ⟨h, other, here, number, left⟩⟩ := inv.accepted entry taken
    · exact ⟨given, .inl (.inl expired)⟩
    · exact ⟨given, .inr (.inl ended)⟩
    · by_cases same : entry.search.timeoutEventId = arg.timeoutEventId
      · exact ⟨given, .inl (.inr same)⟩
      · refine ⟨given, .inr (.inr ?_)⟩
        by_cases this_one : h = arg.handle
        · rw [this_one, found] at here
          obtain rfl := Option.some.inj here
          refine ⟨arg.handle, _, Function.update_self .., number, ?_⟩
          exact (List.mem_eraseP_of_neg (by simpa using same)).mpr left
        · exact ⟨h, other, by dsimp only; rw [Function.update_of_ne this_one]; exact here, number, left⟩
  case ids => exact inv.ids
  case waiting =>
    intro other older
    obtain ⟨given, not_yet, place⟩ := inv.waiting other (waiting ▸ Multiset.mem_cons_of_mem older)
    refine ⟨given, ?_, ?_⟩
    · rintro (expired | same)
      · exact not_yet expired
      · exact jobs.1 (Multiset.mem_map.mpr ⟨other, older, same⟩)
    · intro h client here search left same
      obtain ⟨before, was, -, -, sublist, -⟩ := old here
      exact place h before was search (sublist.subset left) same
  case jobs => exact jobs.2
  case expired =>
    rintro id (expired | rfl)
    · exact inv.expired id expired
    · exact issued
  case calls =>
    intro call made
    obtain rfl | older := Multiset.mem_cons.mp made
    · exact ⟨.inr rfl, _, accepted, own, rfl, rfl⟩
    · obtain ⟨expired, entry⟩ := inv.calls call older
      exact ⟨.inl expired, entry⟩
  case callIds =>
    rw [Multiset.map_cons, Multiset.nodup_cons]
    refine ⟨?_, inv.callIds⟩
    intro twice
    obtain ⟨call, made, same⟩ := Multiset.mem_map.mp twice
    change call.timeoutEventId = arg.timeoutEventId at same
    exact pending (same ▸ (inv.calls call made).1)

theorem Inv.after {u : View} (effect : Effect v u) : Inv u := by
  cases effect with
  | nothing => exact inv
  | registers hnd callback free => exact inv.registers free
  | leaves hnd info found => exact inv.leaves found
  | accepts hnd info search found fresh => exact inv.accepts found fresh
  | misses arg rest waiting absent => exact inv.misses waiting absent
  | ends arg rest waiting info found item listed own => exact inv.ends waiting found listed own

end Steps

theorem initial_inv (device : Nat → Bool) (deviceRegistered : Int) : Inv (initial device deviceRegistered).view := by
  have empty (hnd : Int) : (initial device deviceRegistered).view.clients hnd = none := by
    change clientOf ((deviceTable device).get hnd) = none
    rw [HandleTable.get]
    split
    next => rfl
    next =>
      rw [deviceTable]
      dsimp only
      rw [List.getElem?_map]
      cases (List.range NUM_HANDLE)[hnd.toNat]? with
      | none => rfl
      | some h => cases taken : device h <;> simp [clientOf, taken]
  constructor
  case registrations => simp [empty]
  case one_handle => simp [empty]
  case listed => simp [empty]
  case once => simp [empty]
  case waiting => exact fun _ member => absurd member (Multiset.notMem_zero _)
  case calls => exact fun _ member => absurd member (Multiset.notMem_zero _)
  case jobs => exact Multiset.nodup_zero
  case callIds => exact Multiset.nodup_zero
  case ids => exact fun _ _ member => absurd member List.not_mem_nil
  all_goals exact fun _ member => absurd member List.not_mem_nil

theorem run_inv {device : Nat → Bool} {deviceRegistered : Int} {labels : List Label} {s : State}
    (ran : run step labels (initial device deviceRegistered) = some s) : Inv s.view := by
  have keeps (label : Label) (s t : State) (taken : step label s = some t) (inv : Inv s.view) : Inv t.view :=
    inv.after (step_effect taken)
  exact run_invariant keeps (initial_inv device deviceRegistered) ran

/-! ### What the callers see -/

/-- The search is in the list of the client that it was accepted for. -/
def State.Listed (s : State) (entry : Accepted) : Prop :=
  ∃ hnd info, s.handleTable.get hnd = some (.client info) ∧ info.registration = entry.registration ∧
    entry.search ∈ info.ssdpSearchList

def State.callsOf (s : State) (id : Int) : List TimeoutCall :=
  (s.calling ++ s.reported).filter (·.timeoutEventId = id)

def State.ExpiresOnly (s t : State) (id : Int) : Prop :=
  (∀ entry, .accepted entry ∈ s.history → entry.search.timeoutEventId ≠ id →
    (t.Listed entry ↔ s.Listed entry)) ∧
  ∀ other, other ≠ id → t.callsOf other = s.callsOf other

structure SearchesEnd (s : State) : Prop where
  until_its_end : ∀ entry, .accepted entry ∈ s.history →
    (s.Listed entry ↔
      .expired entry.search.timeoutEventId ∉ s.history ∧ .unregistered entry.registration ∉ s.history)
  once : ∀ entry, .accepted entry ∈ s.history → (s.callsOf entry.search.timeoutEventId).length ≤ 1
  own_cookie : ∀ call ∈ s.calling ++ s.reported, ∃ entry, .accepted entry ∈ s.history ∧
    call = ⟨entry.search.timeoutEventId, entry.callback, entry.search.cookie⟩
  no_other : ∀ i arg t, s.queue[i]? = some arg → step (.searchExpired i) s = some t →
    s.ExpiresOnly t arg.timeoutEventId

theorem listed_iff {s : State} {entry : Accepted} : s.view.Listed entry ↔ s.Listed entry := by
  unfold View.Listed State.Listed
  simp only [view_client]

theorem Inv.until_its_end {s : State} (inv : Inv s.view) {entry : Accepted}
    (accepted : .accepted entry ∈ s.history) :
    s.Listed entry ↔
      .expired entry.search.timeoutEventId ∉ s.history ∧ .unregistered entry.registration ∉ s.history := by
  rw [← listed_iff]
  constructor
  · rintro ⟨hnd, info, found, number, listed⟩
    refine ⟨(inv.listed hnd info found entry.search listed).2, ?_⟩
    exact fun ended => (inv.gone entry.registration ended).2 hnd info found number
  · rintro ⟨pending, registered⟩
    obtain ⟨-, expired | ended | listed⟩ := inv.accepted entry accepted
    · exact absurd expired pending
    · exact absurd ended registered
    · exact listed

theorem Inv.calls_once {s : State} (inv : Inv s.view) (id : Int) : (s.callsOf id).length ≤ 1 := by
  have distinct : ((s.calling ++ s.reported).map (·.timeoutEventId)).Nodup := Multiset.coe_nodup.mp inv.callIds
  have count : ((s.calling ++ s.reported).map (·.timeoutEventId)).count id = (s.callsOf id).length := by
    rw [List.count, List.countP_map, List.countP_eq_length_filter, State.callsOf]
    rfl
  exact count ▸ List.nodup_iff_count_le_one.mp distinct id

theorem searchExpired_history (i : Nat) (arg : SsdpSearchExpArg) (s : State) :
    (searchExpired i arg s).history = s.history ++ [.expired arg.timeoutEventId] := by
  unfold searchExpired
  split
  · split <;> rfl
  · rfl

theorem searchExpired_calls (i : Nat) (arg : SsdpSearchExpArg) (s : State) {other : Int}
    (different : other ≠ arg.timeoutEventId) : (searchExpired i arg s).callsOf other = s.callsOf other := by
  unfold searchExpired
  split
  · split
    · rfl
    · simp [State.callsOf, different.symm]
  · rfl

theorem Inv.no_other {s : State} (inv : Inv s.view) {i : Nat} {arg : SsdpSearchExpArg}
    (found : s.queue[i]? = some arg) : s.ExpiresOnly (searchExpired i arg s) arg.timeoutEventId := by
  refine ⟨?_, fun other different => searchExpired_calls i arg s different⟩
  intro entry accepted different
  have later : Inv (searchExpired i arg s).view := inv.after (searchExpired_effect found)
  have history := searchExpired_history i arg s
  rw [inv.until_its_end accepted, later.until_its_end (by
    rw [history]
    exact List.mem_append_left _ accepted), history]
  simp [different]

/-- Every search stays in its client's list until its own job has run or its client has been taken back;
it is reported at most once, with its own cookie, and no job touches another search. -/
theorem searches_end (device : Nat → Bool) (deviceRegistered : Int) (labels : List Label) (s : State)
    (ran : run step labels (initial device deviceRegistered) = some s) : SearchesEnd s := by
  have inv := run_inv ran
  refine ⟨fun entry => inv.until_its_end, fun entry _ => inv.calls_once _, ?_, ?_⟩
  · intro call made
    obtain ⟨-, entry, accepted, id, callback, cookie⟩ := inv.calls call (Multiset.mem_coe.mpr made)
    refine ⟨entry, accepted, ?_⟩
    rw [id, callback, cookie]
  · intro i arg t found taken
    simp only [step, found, Option.map_some, Option.some.injEq] at taken
    exact taken ▸ inv.no_other found

/-- The job of a client's search runs after another client has got the handle. -/
def reusedHandle : List Label :=
  [.registerClient 7 true, .searchByTarget 1 (CString.bytes "ssdp:all") 40 true 0, .unRegisterClient 1,
    .genaUnregisterClient 0, .freeClient 0, .registerClient 8 true,
    .searchByTarget 1 (CString.bytes "ssdp:all") 41 true 1, .searchExpired 0, .searchExpired 0, .callback 0]

theorem searches_end_reused : ∃ s, run step reusedHandle (initial (fun _ => false) 0) = some s ∧
    s.reported = [⟨1, 8, 41⟩] ∧ SearchesEnd s := by
  have reported : (run step reusedHandle (initial (fun _ => false) 0)).map (·.reported) =
      some [⟨1, 8, 41⟩] := by decide
  obtain ⟨s, ran, calls⟩ := Option.map_eq_some_iff.mp reported
  exact ⟨s, ran, calls, searches_end (fun _ => false) 0 reusedHandle s ran⟩

end Pupnp.Ssdp.SearchExpiry
