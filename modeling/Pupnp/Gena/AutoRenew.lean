import Pupnp.Gena.ClientTable
import Pupnp.ThreadPool.TimerRuns

/-!
The renewal events of a control point. A subscription and the event that will renew it are tied together
by `RenewEventId` only; every part of a call that holds `HandleLock` is one step, and so is what a call
does between two of them. Allocations succeed, and a control point that registers again gets the handle
it had.
-/

namespace Pupnp.Gena.AutoRenew
open Pupnp.CString Pupnp.Run Pupnp.ThreadPool Pupnp.TimerThread

def AUTO_RENEW_TIME : Int := 10
def UPNP_INFINITE : Int := -1

/-- The jobs in the queue of the timer: renewals, with the SID in their `UpnpEventSubscribe`, and those of
other parts of the library. -/
inductive Job where
  | autoRenew (sid : List UInt8)
  | other
  deriving DecidableEq, Repr

inductive Thread where
  /-- `genaSubscribe` during the exchange with the device. -/
  | subscribing
  /-- `genaRenewSubscription` during the exchange. -/
  | renewing (inSid : List UInt8) (subCopy : ClientSubscription)
  /-- `genaUnSubscribe`, before and after `free_client_subscription(sub_copy)`. -/
  | unsubscribing (inSid : List UInt8) (subCopy : ClientSubscription)
  | removing (inSid : List UInt8)
  /-- `genaUnregisterClient` between the rounds of its loop, with a copy that it has not freed yet. -/
  | unregistering (subCopy : Option ClientSubscription)
  /-- `UpnpUnRegisterClient` once `genaUnregisterClient` has succeeded. -/
  | unregistered
  /-- A job of the timer that the pool has not started yet. -/
  | fired (sid : List UInt8)
  | done
  deriving DecidableEq, Repr

structure State where
  /-- `GetHandleInfo(client_handle) == HND_CLIENT` -/
  registered : Bool
  clientSubList : List ClientSubscription
  timer : Timer Job
  /-- The SIDs given out so far. -/
  issued : List (List UInt8)
  threads : List Thread
  deriving DecidableEq, Repr

def State.initial : State := ⟨false, [], ⟨false, 0, [], 0⟩, [], []⟩

def freeClientSubscription (sub : ClientSubscription) (timer : Timer Job) : Timer Job :=
  if sub.renewEventId ≠ -1 then (timerThreadRemove timer sub.renewEventId).2.2 else timer

def State.removeSid (s : State) (sid : List UInt8) : State :=
  let (found, list) := removeClientSubClientSID s.clientSubList sid
  { s with
    clientSubList := list
    timer := match found with
      | none => s.timer
      | some sub => freeClientSubscription sub s.timer }

def scheduleGenaAutoRenew (now timeOut : Int) (sub : ClientSubscription) (timer : Timer Job) :
    ClientSubscription × Timer Job :=
  if timeOut = UPNP_INFINITE then (sub, timer)
  else
    let job : TimerJob Job := ⟨⟨.autoRenew sub.sid, .med⟩, true, true⟩
    let call : ScheduleCall Job := ⟨job, .shortTerm, calculateEventTime now (timeOut - AUTO_RENEW_TIME) .relSec⟩
    let (scheduled, timer) := timerThreadSchedule true true timer call
    ({ sub with renewEventId := scheduled.id }, timer)

/-- Writing to the subscription that `GetClientSubClientSID` finds. -/
def updateSub (sid : List UInt8) (f : ClientSubscription → ClientSubscription) :
    List ClientSubscription → List ClientSubscription
  | [] => []
  | sub :: rest => if sub.sid = sid then f sub :: rest else sub :: updateSub sid f rest

/-- What a SUBSCRIBE or a renewal is answered with: the SID of the device and the timeout. -/
structure Granted where
  actualSID : List UInt8
  timeOut : Int
  deriving DecidableEq, Repr

inductive Label where
  /-- `UpnpRegisterClient` -/
  | register
  | subscribe
  /-- The second part of `genaSubscribe`; `uuid_create` has given it the SID. -/
  | subscribeEnd (i : Nat) (granted : Option Granted) (sid eventURL : List UInt8) (now : Int)
  | renew (inSid : List UInt8)
  /-- The pool starts a job of the timer, `GenaAutoRenewSubscription`. -/
  | renewJob (i : Nat)
  | renewEnd (i : Nat) (granted : Option Granted) (now : Int)
  | unsubscribe (inSid : List UInt8)
  | unsubscribeFree (i : Nat)
  | unsubscribeEnd (i : Nat)
  | unregister
  | unregisterRound (i : Nat)
  | unregisterFree (i : Nat)
  /-- The second part of `UpnpUnRegisterClient`. -/
  | freeHandle (i : Nat)
  /-- A round of the timer's worker; `accepted` is whether the pool takes the job. -/
  | fire (now : Int) (accepted : Bool)
  /-- Another part of the library schedules a job. -/
  | scheduleOther (call : TimerJob Unit) (eventTime : Int)
  deriving DecidableEq, Repr

def State.start (s : State) (thread : Thread) : State := { s with threads := s.threads ++ [thread] }

def State.goes (s : State) (i : Nat) (thread : Thread) : State := { s with threads := s.threads.set i thread }

/-- The first part of `genaRenewSubscription`: what becomes of the thread, and the state. -/
def renewBegin (inSid : List UInt8) (s : State) : Thread × State :=
  if !s.registered then (.done, s)
  else match getClientSubClientSID s.clientSubList inSid with
    | none => (.done, s)
    | some sub =>
        let idle := { sub with renewEventId := -1 }
        (.renewing inSid idle, { s with
          clientSubList := updateSub inSid (fun _ => idle) s.clientSubList
          timer := (timerThreadRemove s.timer sub.renewEventId).2.2 })

def renewFinish (inSid : List UInt8) (subCopy : ClientSubscription) (granted : Option Granted) (now : Int)
    (s : State) : State :=
  if !s.registered then s
  else match granted with
    | none =>
        let s := s.removeSid inSid
        { s with timer := freeClientSubscription subCopy s.timer }
    | some granted =>
        match getClientSubClientSID s.clientSubList inSid with
        | none => { s with timer := freeClientSubscription subCopy s.timer }
        | some sub =>
            let (sub, timer) := scheduleGenaAutoRenew now granted.timeOut { sub with actualSID := granted.actualSID } s.timer
            { s with
              clientSubList := updateSub inSid (fun _ => sub) s.clientSubList
              timer := freeClientSubscription subCopy timer }

def subscribeFinish (granted : Option Granted) (sid eventURL : List UInt8) (now : Int) (s : State) : State :=
  match granted with
  | none => s
  | some granted =>
      if !s.registered then s
      else
        let (sub, timer) := scheduleGenaAutoRenew now granted.timeOut ⟨-1, sid, granted.actualSID, eventURL⟩ s.timer
        { s with clientSubList := sub :: s.clientSubList, timer := timer, issued := sid :: s.issued }

def unregisterLoop (s : State) : Thread × State :=
  if !s.registered then (.done, s)
  else match s.clientSubList with
    | [] => (.unregistered, s)
    | sub :: _ => (.unregistering (some sub), s.removeSid sub.sid)

def step : Label → State → Option State
  | .register, s => if s.registered then none else some { s with registered := true, clientSubList := [] }
  | .subscribe, s => some (if s.registered then s.start .subscribing else s)
  | .subscribeEnd i granted sid eventURL now, s =>
      match s.threads[i]? with
      | some .subscribing =>
          if sid ∈ s.issued then none else some ((subscribeFinish granted sid eventURL now s).goes i .done)
      | _ => none
  | .renew inSid, s =>
      let (thread, s) := renewBegin inSid s
      some (s.start thread)
  | .renewJob i, s =>
      match s.threads[i]? with
      | some (.fired sid) =>
          let (thread, s) := renewBegin sid s
          some (s.goes i thread)
      | _ => none
  | .renewEnd i granted now, s =>
      match s.threads[i]? with
      | some (.renewing inSid subCopy) => some ((renewFinish inSid subCopy granted now s).goes i .done)
      | _ => none
  | .unsubscribe inSid, s =>
      if !s.registered then some s
      else match getClientSubClientSID s.clientSubList inSid with
        | none => some s
        | some sub => some (s.start (.unsubscribing inSid sub))
  | .unsubscribeFree i, s =>
      match s.threads[i]? with
      | some (.unsubscribing inSid subCopy) =>
          some { s.goes i (.removing inSid) with timer := freeClientSubscription subCopy s.timer }
      | _ => none
  | .unsubscribeEnd i, s =>
      match s.threads[i]? with
      | some (.removing inSid) => some ((if s.registered then s.removeSid inSid else s).goes i .done)
      | _ => none
  | .unregister, s => some (s.start (.unregistering none))
  | .unregisterRound i, s =>
      match s.threads[i]? with
      | some (.unregistering none) =>
          let (thread, s) := unregisterLoop s
          some (s.goes i thread)
      | _ => none
  | .unregisterFree i, s =>
      match s.threads[i]? with
      | some (.unregistering (some subCopy)) =>
          some { s.goes i (.unregistering none) with timer := freeClientSubscription subCopy s.timer }
      | _ => none
  | .freeHandle i, s =>
      match s.threads[i]? with
      | some .unregistered =>
          some ({ s with registered := false, clientSubList := if s.registered then [] else s.clientSubList }.goes i .done)
      | _ => none
  | .fire now accepted, s =>
      let (_, happenings, timer) := timerThreadWorker now accepted s.timer
      let jobs := happenings.filterMap Happening.handed? |>.filterMap fun event =>
        match event.job.request.func with
        | .autoRenew sid => some (Thread.fired sid)
        | .other => none
      some { s with timer := timer, threads := s.threads ++ jobs }
  | .scheduleOther job eventTime, s =>
      let call : ScheduleCall Job := ⟨⟨⟨.other, job.request.priority⟩, job.arg, job.freeFunc⟩, .shortTerm, eventTime⟩
      some { s with timer := (timerThreadSchedule true true s.timer call).2 }

/-- The renewal events in the queue for a SID. -/
def State.pendingFor (s : State) (sid : List UInt8) : List (TimerEvent Job) :=
  s.timer.eventQ.filter (·.job.request.func = .autoRenew sid)

/-- A subscription has one event at most, which its `RenewEventId` names, and only subscriptions in the
list have one. -/
structure Exact (s : State) : Prop where
  named : ∀ sub ∈ s.clientSubList,
    s.pendingFor sub.sid = [] ∨ ∃ event, s.pendingFor sub.sid = [event] ∧ event.id = sub.renewEventId
  owned : ∀ sid, s.pendingFor sid ≠ [] → ∃ sub ∈ s.clientSubList, sub.sid = sid

/-- A renewal that comes back with a finite timeout finds no event of its subscription in the queue, and
the handle is freed when no subscription has one. Event ids do not overflow. -/
def Orderly : Label → State → Prop
  | .subscribeEnd _ _ _ _ _, s => s.timer.created + 1 < 2 ^ 31
  | .renewEnd i granted _, s =>
      s.timer.created + 1 < 2 ^ 31 ∧
        match s.threads[i]?, granted with
        | some (.renewing inSid _), some granted => granted.timeOut ≠ UPNP_INFINITE → s.pendingFor inSid = []
        | _, _ => True
  | .freeHandle _, s => ∀ sub ∈ s.clientSubList, s.pendingFor sub.sid = []
  | .scheduleOther _ _, s => s.timer.created + 1 < 2 ^ 31
  | _, _ => True

instance decidableOrderly : ∀ label s, Decidable (Orderly label s)
  | .subscribeEnd _ _ _ _ _, s => inferInstanceAs (Decidable (s.timer.created + 1 < 2 ^ 31))
  | .renewEnd i granted _, s =>
      have : Decidable (match s.threads[i]?, granted with
        | some (.renewing inSid _), some granted => granted.timeOut ≠ UPNP_INFINITE → s.pendingFor inSid = []
        | _, _ => True) := by split <;> infer_instance
      inferInstanceAs (Decidable (s.timer.created + 1 < 2 ^ 31 ∧ _))
  | .freeHandle _, s => inferInstanceAs (Decidable (∀ sub ∈ s.clientSubList, s.pendingFor sub.sid = []))
  | .scheduleOther _ _, s => inferInstanceAs (Decidable (s.timer.created + 1 < 2 ^ 31))
  | .register, _ | .subscribe, _ | .renew _, _ | .renewJob _, _ | .unsubscribe _, _ | .unsubscribeFree _, _
  | .unsubscribeEnd _, _ | .unregister, _ | .unregisterRound _, _ | .unregisterFree _, _ | .fire _ _, _ =>
      isTrue trivial

/-! ### The queue -/

structure QueueOk (timer : Timer Job) : Prop where
  ids : (timer.eventQ.map (·.id)).Nodup
  below : ∀ event ∈ timer.eventQ, 0 ≤ event.id ∧ event.id < timer.lastEventId
  counted : timer.lastEventId = timer.created
  small : timer.created < 2 ^ 31

section Queue
variable {before after : Timer Job}

theorem QueueOk.leaves (ok : QueueOk before) (order : after.eventQ.Sublist before.eventQ)
    (lastEventId : after.lastEventId = before.lastEventId) (created : after.created = before.created) :
    QueueOk after where
  ids := ok.ids.sublist (order.map _)
  below event member := lastEventId ▸ ok.below event (order.mem member)
  counted := by rw [lastEventId, created, ok.counted]
  small := created ▸ ok.small

/-- Events leave the queue: none is new, and what they were named by stays as it is. -/
theorem QueueOk.drops {news : List (Happening Job)} (ok : QueueOk before) (effect : Effect false before after news) :
    QueueOk after ∧ after.eventQ.Sublist before.eventQ := by
  cases effect with
  | leaves _ order _ _ lastEventId created => exact ⟨ok.leaves order lastEventId created, order⟩
  | creates scheduling => cases scheduling

theorem timerThreadRemove_drops (ok : QueueOk before) (id : Int) :
    QueueOk (timerThreadRemove before id).2.2 ∧
      ∀ event ∈ (timerThreadRemove before id).2.2.eventQ, event ∈ before.eventQ ∧ event.id ≠ id := by
  obtain ⟨kept, order⟩ := ok.drops (timerThreadRemove_effect before id)
  refine ⟨kept, fun event member => ⟨order.mem member, ?_⟩⟩
  unfold timerThreadRemove at member
  split at member
  next missing =>
    have other := List.find?_eq_none.mp missing event member
    simpa using other
  next temp found =>
    obtain ⟨first, front, rest, split, earlier⟩ := List.find?_eq_some_iff_append.mp found
    have without : before.eventQ.eraseP (fun event => decide (event.id = id)) = front ++ rest := by
      rw [split, List.eraseP_append_right _ (by simpa using earlier)]
      exact congrArg (front ++ ·) (List.eraseP_cons_of_pos first)
    obtain rfl : temp.id = id := of_decide_eq_true first
    have others : (before.eventQ.map (·.id)).Perm (temp.id :: (front ++ rest).map (·.id)) := by
      rw [split]
      exact List.perm_middle.map _
    have ids := List.nodup_cons.mp (others.nodup_iff.mp ok.ids)
    dsimp only at member
    rw [without] at member
    exact fun same => ids.1 (List.mem_map.mpr ⟨event, member, same⟩)

theorem freeClientSubscription_drops (ok : QueueOk before) (sub : ClientSubscription) :
    QueueOk (freeClientSubscription sub before) ∧ ∀ event ∈ (freeClientSubscription sub before).eventQ,
      event ∈ before.eventQ ∧ event.id ≠ sub.renewEventId := by
  unfold freeClientSubscription
  split
  next => exact timerThreadRemove_drops ok sub.renewEventId
  next none =>
    refine ⟨ok, fun event member => ⟨member, ?_⟩⟩
    have known := (ok.below event member).1
    have id : sub.renewEventId = -1 := not_not.mp none
    omega

theorem timerThreadSchedule_adds (ok : QueueOk before) (room : before.created + 1 < 2 ^ 31) (call : ScheduleCall Job) :
    QueueOk (timerThreadSchedule true true before call).2 ∧
      (timerThreadSchedule true true before call).1.id = before.lastEventId ∧
      ∀ event ∈ (timerThreadSchedule true true before call).2.eventQ,
        event ∈ before.eventQ ∨ event.id = before.lastEventId ∧ event.job = call.job := by
  have next : toInt32 (before.lastEventId + 1) = before.created + 1 := by
    have small := toInt32_small room
    rw [ok.counted]
    exact small
  refine ⟨⟨?_, ?_, ?_, room⟩, rfl, ?_⟩
  · change ((addEvent _ before.eventQ).map (·.id)).Nodup
    rw [addEvent_orderedInsert, ((List.perm_orderedInsert NotLater _ before.eventQ).map (·.id)).nodup_iff,
      List.map_cons, List.nodup_cons]
    refine ⟨?_, ok.ids⟩
    intro used
    obtain ⟨event, member, same⟩ := List.mem_map.mp used
    have below := (ok.below event member).2
    dsimp only at same
    omega
  · intro event member
    change event ∈ addEvent _ before.eventQ at member
    change 0 ≤ event.id ∧ event.id < toInt32 (before.lastEventId + 1)
    have counted := ok.counted
    rw [addEvent_orderedInsert, List.mem_orderedInsert] at member
    rw [next]
    rcases member with rfl | old
    · dsimp only
      omega
    · have below := ok.below event old
      omega
  · exact next
  · intro event member
    change event ∈ addEvent _ before.eventQ at member
    rw [addEvent_orderedInsert, List.mem_orderedInsert] at member
    rcases member with rfl | old
    · exact .inr ⟨rfl, rfl⟩
    · exact .inl old

end Queue

/-! ### The list -/

section Lists
variable {list : List ClientSubscription} {sid : List UInt8} {sub : ClientSubscription}

theorem sub_unique (sids : (list.map (·.sid)).Nodup) {other : ClientSubscription} (member : sub ∈ list)
    (member' : other ∈ list) (same : other.sid = sub.sid) : other = sub :=
  List.inj_on_of_nodup_map sids member' member same

theorem updateSub_sids {f : ClientSubscription → ClientSubscription} (keeps : ∀ sub, sub.sid = sid → (f sub).sid = sid) :
    (updateSub sid f list).map (·.sid) = list.map (·.sid) := by
  induction list with
  | nil => rfl
  | cons first rest ih =>
    rw [updateSub]
    split
    next own => rw [List.map_cons, List.map_cons, keeps first own, own]
    next => rw [List.map_cons, List.map_cons, ih]

theorem mem_updateSub_other {f : ClientSubscription → ClientSubscription} (member : sub ∈ list) (other : sub.sid ≠ sid) :
    sub ∈ updateSub sid f list := by
  induction list with
  | nil => cases member
  | cons first rest ih =>
    rw [updateSub]
    split
    next own =>
      obtain rfl | later := List.mem_cons.mp member
      · exact absurd own other
      · exact List.mem_cons_of_mem _ later
    next =>
      obtain rfl | later := List.mem_cons.mp member
      · exact List.mem_cons_self
      · exact List.mem_cons_of_mem _ (ih later)

theorem mem_updateSub_found (found : getClientSubClientSID list sid = some sub) (new : ClientSubscription) :
    new ∈ updateSub sid (fun _ => new) list := by
  induction list with
  | nil => cases found
  | cons first rest ih =>
    rw [updateSub]
    split
    next => exact List.mem_cons_self
    next other =>
      rw [getClientSubClientSID, List.find?_cons_of_neg (by simpa using other)] at found
      exact List.mem_cons_of_mem _ (ih found)

theorem getClientSubClientSID_some (found : getClientSubClientSID list sid = some sub) :
    sub ∈ list ∧ sub.sid = sid := by
  unfold getClientSubClientSID at found
  exact ⟨List.mem_of_find?_eq_some found, by simpa using List.find?_some found⟩

theorem mem_eraseSid_other (member : sub ∈ list) (other : sub.sid ≠ sid) : sub ∈ list.eraseP (·.sid = sid) := by
  apply (List.mem_eraseP_of_neg _).mpr member
  simpa using other

end Lists

/-! ### The invariant -/

/-- Every renewal event belongs to a subscription in the list that names it. -/
def Named (list : List ClientSubscription) (timer : Timer Job) : Prop :=
  ∀ event ∈ timer.eventQ, ∀ sid, event.job.request.func = .autoRenew sid →
    ∃ sub ∈ list, sub.sid = sid ∧ sub.renewEventId = event.id

structure Inv (s : State) : Prop where
  queue : QueueOk s.timer
  named : Named s.clientSubList s.timer
  sids : (s.clientSubList.map (·.sid)).Nodup
  issued : ∀ sub ∈ s.clientSubList, sub.sid ∈ s.issued
  registered : s.registered = false → s.clientSubList = []

theorem Inv.initial : Inv State.initial where
  queue := ⟨List.nodup_nil, nofun, rfl, by decide⟩
  named := nofun
  sids := List.nodup_nil
  issued := nofun
  registered _ := rfl

section States
variable {s : State}

theorem Inv.named_only (inv : Inv s) {sub : ClientSubscription} (member : sub ∈ s.clientSubList)
    {event : TimerEvent Job} (queued : event ∈ s.timer.eventQ) (own : event.job.request.func = .autoRenew sub.sid) :
    event.id = sub.renewEventId := by
  obtain ⟨other, found, same, id⟩ := inv.named event queued sub.sid own
  rw [← id, sub_unique inv.sids member found same]

theorem Inv.exact (inv : Inv s) : Exact s := by
  have queued {event : TimerEvent Job} {sid : List UInt8} (member : event ∈ s.pendingFor sid) :
      event ∈ s.timer.eventQ ∧ event.job.request.func = .autoRenew sid := by
    obtain ⟨inside, own⟩ := List.mem_filter.mp member
    exact ⟨inside, of_decide_eq_true own⟩
  constructor
  · intro sub member
    have name (event : TimerEvent Job) (pending : event ∈ s.pendingFor sub.sid) : event.id = sub.renewEventId :=
      inv.named_only member (queued pending).1 (queued pending).2
    have ids : ((s.pendingFor sub.sid).map (·.id)).Nodup := inv.queue.ids.sublist (List.filter_sublist.map _)
    match shape : s.pendingFor sub.sid with
    | [] => exact .inl rfl
    | [event] => exact .inr ⟨event, rfl, name event (by rw [shape]; exact List.mem_singleton_self _)⟩
    | first :: second :: rest =>
      have one := name first (by rw [shape]; exact List.mem_cons_self)
      have two := name second (by rw [shape]; exact List.mem_cons_of_mem _ List.mem_cons_self)
      rw [shape, List.map_cons, List.map_cons, List.nodup_cons, one, two] at ids
      exact absurd List.mem_cons_self ids.1
  · intro sid some
    obtain ⟨event, pending⟩ := List.exists_mem_of_ne_nil _ some
    obtain ⟨inside, own⟩ := queued pending
    obtain ⟨sub, member, same, -⟩ := inv.named event inside sid own
    exact ⟨sub, member, same⟩

theorem Inv.drops (inv : Inv s) {timer : Timer Job} (ok : QueueOk timer) (order : ∀ event ∈ timer.eventQ, event ∈ s.timer.eventQ) :
    Inv { s with timer := timer } where
  queue := ok
  named event member := inv.named event (order event member)
  sids := inv.sids
  issued := inv.issued
  registered := inv.registered

theorem Inv.free (inv : Inv s) (sub : ClientSubscription) :
    Inv { s with timer := freeClientSubscription sub s.timer } := by
  obtain ⟨ok, kept⟩ := freeClientSubscription_drops inv.queue sub
  exact inv.drops ok fun event member => (kept event member).1

theorem Inv.removeSid (inv : Inv s) (sid : List UInt8) : Inv (s.removeSid sid) := by
  have shorter : (s.clientSubList.eraseP (·.sid = sid)).Sublist s.clientSubList := List.eraseP_sublist
  unfold State.removeSid removeClientSubClientSID
  dsimp only
  cases found : s.clientSubList.find? (·.sid = sid) with
  | none =>
    have same : s.clientSubList.eraseP (·.sid = sid) = s.clientSubList := by
      apply List.eraseP_of_forall_not
      exact List.find?_eq_none.mp found
    rw [same]
    exact inv
  | some sub =>
    obtain ⟨member, own⟩ := getClientSubClientSID_some found
    obtain ⟨ok, kept⟩ := freeClientSubscription_drops inv.queue sub
    refine ⟨ok, ?_, inv.sids.sublist (shorter.map _), fun other inside => inv.issued other (shorter.mem inside), ?_⟩
    · intro event queued sid' func
      obtain ⟨before, other⟩ := kept event queued
      obtain ⟨sub', member', same, id⟩ := inv.named event before sid' func
      refine ⟨sub', mem_eraseSid_other member' ?_, same, id⟩
      intro removed
      rw [sub_unique inv.sids member member' (removed.trans own.symm)] at id
      exact other id.symm
    · intro gone
      dsimp only
      rw [inv.registered gone]
      rfl

theorem not_pending {sid : List UInt8} (nothing : s.pendingFor sid = []) {event : TimerEvent Job}
    (member : event ∈ s.timer.eventQ) : event.job.request.func ≠ .autoRenew sid := by
  have other := List.filter_eq_nil_iff.mp nothing event member
  simpa using other

/-- What `ScheduleGenaAutoRenew` leaves: nothing new for an infinite subscription, else an event that the
subscription names. -/
inductive Scheduled (sub : ClientSubscription) (timer : Timer Job) (timeOut : Int) :
    ClientSubscription × Timer Job → Prop where
  | infinite (forever : timeOut = UPNP_INFINITE) : Scheduled sub timer timeOut (sub, timer)
  | finite (limited : timeOut ≠ UPNP_INFINITE) (id : Int) (after : Timer Job) (ok : QueueOk after)
      (adds : ∀ event ∈ after.eventQ,
        event ∈ timer.eventQ ∨ event.id = id ∧ event.job.request.func = .autoRenew sub.sid) :
      Scheduled sub timer timeOut ({ sub with renewEventId := id }, after)

theorem scheduleGenaAutoRenew_scheduled {timer : Timer Job} (ok : QueueOk timer) (room : timer.created + 1 < 2 ^ 31)
    (now timeOut : Int) (sub : ClientSubscription) :
    Scheduled sub timer timeOut (scheduleGenaAutoRenew now timeOut sub timer) := by
  unfold scheduleGenaAutoRenew
  split
  next forever => exact .infinite forever
  next limited =>
    obtain ⟨ok', id, adds⟩ := timerThreadSchedule_adds ok room
      ⟨⟨⟨.autoRenew sub.sid, .med⟩, true, true⟩, .shortTerm, calculateEventTime now (timeOut - AUTO_RENEW_TIME) .relSec⟩
    refine .finite limited _ _ ok' fun event member => ?_
    rcases adds event member with old | ⟨own, job⟩
    · exact .inl old
    · exact .inr ⟨own.trans id.symm, by rw [job]⟩

theorem renewBegin_inv (inv : Inv s) (inSid : List UInt8) : Inv (renewBegin inSid s).2 := by
  unfold renewBegin
  split
  next => exact inv
  next active =>
    split
    next => exact inv
    next sub found =>
      obtain ⟨member, own⟩ := getClientSubClientSID_some found
      obtain ⟨ok, kept⟩ := timerThreadRemove_drops inv.queue sub.renewEventId
      have sids : (updateSub inSid (fun _ => { sub with renewEventId := -1 }) s.clientSubList).map (·.sid) =
          s.clientSubList.map (·.sid) := updateSub_sids fun _ _ => own
      refine ⟨ok, ?_, ?_, ?_, ?_⟩
      · intro event queued sid func
        obtain ⟨before, other⟩ := kept event queued
        obtain ⟨sub', member', same, id⟩ := inv.named event before sid func
        refine ⟨sub', mem_updateSub_other member' ?_, same, id⟩
        intro renewed
        rw [sub_unique inv.sids member member' (renewed.trans own.symm)] at id
        exact other id.symm
      · exact sids ▸ inv.sids
      · intro other inside
        have known : other.sid ∈ s.clientSubList.map (·.sid) := sids ▸ List.mem_map_of_mem inside
        obtain ⟨old, member, same⟩ := List.mem_map.mp known
        exact same ▸ inv.issued old member
      · intro gone
        rw [gone] at active
        exact absurd rfl active

theorem renewSchedule_inv (inv : Inv s) (active : s.registered = true) {inSid : List UInt8} {sub : ClientSubscription}
    (found : getClientSubClientSID s.clientSubList inSid = some sub) (granted : Granted)
    {result : ClientSubscription × Timer Job}
    (scheduled : Scheduled { sub with actualSID := granted.actualSID } s.timer granted.timeOut result)
    (orderly : granted.timeOut ≠ UPNP_INFINITE → s.pendingFor inSid = []) :
    Inv { s with clientSubList := updateSub inSid (fun _ => result.1) s.clientSubList, timer := result.2 } := by
  obtain ⟨member, own⟩ := getClientSubClientSID_some found
  have same : result.1.sid = inSid := by cases scheduled <;> exact own
  have sids : (updateSub inSid (fun _ => result.1) s.clientSubList).map (·.sid) = s.clientSubList.map (·.sid) :=
    updateSub_sids fun _ _ => same
  have new := mem_updateSub_found found result.1
  have others {event : TimerEvent Job} {sid : List UInt8} (queued : event ∈ s.timer.eventQ)
      (func : event.job.request.func = .autoRenew sid) (apart : sid ≠ inSid) :
      ∃ sub ∈ updateSub inSid (fun _ => result.1) s.clientSubList, sub.sid = sid ∧ sub.renewEventId = event.id := by
    obtain ⟨sub', member', same, id⟩ := inv.named event queued sid func
    exact ⟨sub', mem_updateSub_other member' (same ▸ apart), same, id⟩
  have list (timer : Timer Job) (ok : QueueOk timer)
      (named : Named (updateSub inSid (fun _ => result.1) s.clientSubList) timer) :
      Inv { s with clientSubList := updateSub inSid (fun _ => result.1) s.clientSubList, timer := timer } := by
    refine ⟨ok, named, sids ▸ inv.sids, ?_, ?_⟩
    · intro other inside
      have known : other.sid ∈ s.clientSubList.map (·.sid) := sids ▸ List.mem_map_of_mem inside
      obtain ⟨old, member, same⟩ := List.mem_map.mp known
      exact same ▸ inv.issued old member
    · intro gone
      cases active.symm.trans gone
  cases scheduled with
  | infinite forever =>
    refine list s.timer inv.queue fun event queued sid func => ?_
    by_cases apart : sid = inSid
    · subst apart
      refine ⟨_, new, same, ?_⟩
      rw [← own] at func
      exact (inv.named_only member queued func).symm
    · exact others queued func apart
  | finite limited id after ok adds =>
    refine list after ok fun event queued sid func => ?_
    rcases adds event queued with old | ⟨named, job⟩
    · by_cases apart : sid = inSid
      · subst apart
        exact absurd func (not_pending (orderly limited) old)
      · exact others old func apart
    · rw [job] at func
      obtain rfl := Job.autoRenew.inj func
      exact ⟨_, new, rfl, named.symm⟩

theorem renewFinish_inv (inv : Inv s) (room : s.timer.created + 1 < 2 ^ 31) (inSid : List UInt8)
    (subCopy : ClientSubscription) (granted : Option Granted) (now : Int)
    (orderly : ∀ g ∈ granted, g.timeOut ≠ UPNP_INFINITE → s.pendingFor inSid = []) :
    Inv (renewFinish inSid subCopy granted now s) := by
  unfold renewFinish
  split
  next => exact inv
  next active =>
    have active : s.registered = true := by simpa using active
    cases granted with
    | none => exact (inv.removeSid inSid).free subCopy
    | some granted =>
      dsimp only
      split
      next => exact inv.free subCopy
      next sub found =>
        have scheduled := scheduleGenaAutoRenew_scheduled inv.queue room now granted.timeOut
          { sub with actualSID := granted.actualSID }
        exact (renewSchedule_inv inv active found granted scheduled (orderly granted rfl)).free subCopy

theorem subscribeFinish_inv (inv : Inv s) (room : s.timer.created + 1 < 2 ^ 31) (granted : Option Granted)
    {sid : List UInt8} (fresh : sid ∉ s.issued) (eventURL : List UInt8) (now : Int) :
    Inv (subscribeFinish granted sid eventURL now s) := by
  unfold subscribeFinish
  cases granted with
  | none => exact inv
  | some granted =>
    dsimp only
    split
    next => exact inv
    next active =>
      have scheduled := scheduleGenaAutoRenew_scheduled inv.queue room now granted.timeOut
        ⟨-1, sid, granted.actualSID, eventURL⟩
      generalize scheduleGenaAutoRenew now granted.timeOut ⟨-1, sid, granted.actualSID, eventURL⟩ s.timer = result
        at scheduled ⊢
      have same : result.1.sid = sid := by cases scheduled <;> rfl
      have older {event : TimerEvent Job} {sid' : List UInt8} (queued : event ∈ s.timer.eventQ)
          (func : event.job.request.func = .autoRenew sid') :
          ∃ sub ∈ result.1 :: s.clientSubList, sub.sid = sid' ∧ sub.renewEventId = event.id := by
        obtain ⟨sub, member, same, id⟩ := inv.named event queued sid' func
        exact ⟨sub, List.mem_cons_of_mem _ member, same, id⟩
      have queue : QueueOk result.2 ∧ Named (result.1 :: s.clientSubList) result.2 := by
        cases scheduled with
        | infinite forever => exact ⟨inv.queue, fun event queued sid' func => older queued func⟩
        | finite limited id after ok adds =>
          refine ⟨ok, fun event queued sid' func => ?_⟩
          rcases adds event queued with old | ⟨named, job⟩
          · exact older old func
          · rw [job] at func
            obtain rfl := Job.autoRenew.inj func
            exact ⟨_, List.mem_cons_self, rfl, named.symm⟩
      refine ⟨queue.1, queue.2, ?_, ?_, ?_⟩
      · rw [List.map_cons, List.nodup_cons, same]
        refine ⟨fun used => ?_, inv.sids⟩
        obtain ⟨sub, member, own⟩ := List.mem_map.mp used
        exact fresh (own ▸ inv.issued sub member)
      · intro sub member
        obtain rfl | old := List.mem_cons.mp member
        · rw [same]
          exact List.mem_cons_self
        · exact List.mem_cons_of_mem _ (inv.issued sub old)
      · intro gone
        rw [gone] at active
        exact absurd rfl active

theorem unregisterLoop_inv (inv : Inv s) : Inv (unregisterLoop s).2 := by
  unfold unregisterLoop
  split
  next => exact inv
  next =>
    split
    next => exact inv
    next sub _ _ => exact inv.removeSid sub.sid

theorem Inv.goes (inv : Inv s) (threads : List Thread) : Inv { s with threads := threads } :=
  ⟨inv.queue, inv.named, inv.sids, inv.issued, inv.registered⟩

end States

theorem step_inv (label : Label) (s t : State) (orderly : Orderly label s) (taken : step label s = some t)
    (inv : Inv s) : Inv t := by
  cases label with
  | register =>
    rw [step] at taken
    split at taken
    next => cases taken
    next =>
      obtain rfl := Option.some.inj taken
      have empty : s.clientSubList = [] := inv.registered (by simp_all)
      refine ⟨inv.queue, ?_, List.nodup_nil, nofun, fun _ => rfl⟩
      rw [← empty]
      exact inv.named
  | subscribe =>
    obtain rfl := Option.some.inj taken
    split
    · exact inv.goes _
    · exact inv
  | subscribeEnd i granted sid eventURL now =>
    simp only [step] at taken
    split at taken
    next =>
      split at taken
      next => cases taken
      next fresh =>
        obtain rfl := Option.some.inj taken
        exact (subscribeFinish_inv inv orderly granted fresh eventURL now).goes _
    next => cases taken
  | renew inSid =>
    obtain rfl := Option.some.inj taken
    exact (renewBegin_inv inv inSid).goes _
  | renewJob i =>
    simp only [step] at taken
    split at taken
    next sid _ =>
      obtain rfl := Option.some.inj taken
      exact (renewBegin_inv inv sid).goes _
    next => cases taken
  | renewEnd i granted now =>
    simp only [step] at taken
    split at taken
    next inSid subCopy found =>
      obtain rfl := Option.some.inj taken
      obtain ⟨room, idle⟩ := orderly
      rw [found] at idle
      refine (renewFinish_inv inv room inSid subCopy granted now ?_).goes _
      rintro g ⟨⟩
      exact idle
    next => cases taken
  | unsubscribe inSid =>
    simp only [step] at taken
    split at taken
    next => obtain rfl := Option.some.inj taken; exact inv
    next =>
      split at taken
      next => obtain rfl := Option.some.inj taken; exact inv
      next => obtain rfl := Option.some.inj taken; exact inv.goes _
  | unsubscribeFree i =>
    simp only [step] at taken
    split at taken
    next inSid subCopy _ =>
      obtain rfl := Option.some.inj taken
      exact (inv.free subCopy).goes _
    next => cases taken
  | unsubscribeEnd i =>
    simp only [step] at taken
    split at taken
    next inSid _ =>
      obtain rfl := Option.some.inj taken
      split
      · exact (inv.removeSid inSid).goes _
      · exact inv.goes _
    next => cases taken
  | unregister =>
    obtain rfl := Option.some.inj taken
    exact inv.goes _
  | unregisterRound i =>
    simp only [step] at taken
    split at taken
    next =>
      obtain rfl := Option.some.inj taken
      exact (unregisterLoop_inv inv).goes _
    next => cases taken
  | unregisterFree i =>
    simp only [step] at taken
    split at taken
    next subCopy _ =>
      obtain rfl := Option.some.inj taken
      exact (inv.free subCopy).goes _
    next => cases taken
  | freeHandle i =>
    simp only [step] at taken
    split at taken
    next =>
      obtain rfl := Option.some.inj taken
      have empty : (if s.registered then [] else s.clientSubList) = [] := by
        cases active : s.registered with
        | true => rfl
        | false => exact inv.registered active
      rw [empty]
      -- an event in the queue would belong to a subscription that has none
      refine ⟨inv.queue, ?_, List.nodup_nil, nofun, fun _ => rfl⟩
      intro event queued sid func
      obtain ⟨sub, member, rfl, -⟩ := inv.named event queued sid func
      exact absurd func (not_pending (orderly sub member) queued)
    next => cases taken
  | fire now accepted =>
    obtain rfl := Option.some.inj taken
    obtain ⟨ok, order⟩ := inv.queue.drops (timerThreadWorker_effect s.timer now accepted)
    exact (inv.drops ok fun event member => order.mem member).goes _
  | scheduleOther job eventTime =>
    obtain rfl := Option.some.inj taken
    obtain ⟨ok, -, adds⟩ := timerThreadSchedule_adds inv.queue orderly
      ⟨⟨⟨.other, job.request.priority⟩, job.arg, job.freeFunc⟩, .shortTerm, eventTime⟩
    refine ⟨ok, ?_, inv.sids, inv.issued, inv.registered⟩
    intro event queued sid func
    rcases adds event queued with old | ⟨-, own⟩
    · exact inv.named event old sid func
    · rw [own] at func
      cases func

/-- In every state of a run whose steps are orderly, a subscription has one renewal event at most, the one
that its `RenewEventId` names, and no other renewal event is in the queue. -/
theorem runs_exact (labels : List Label) (s : State) (ran : run step labels .initial = some s)
    (orderly : Along step Orderly labels .initial) : Exact s :=
  (run_keeps step_inv Inv.initial orderly ran).exact

def sid1 : List UInt8 := bytes "uuid:1"
def sid2 : List UInt8 := bytes "uuid:2"
def answer (timeOut : Int) : Option Granted := some ⟨bytes "uuid:device", timeOut⟩

/-- The job of the second subscription renews it, while the first one is given up and renewed at once. -/
def overlapping : List Label :=
  [.register, .subscribe, .subscribe, .subscribeEnd 0 (answer 1800) sid1 [] 0, .subscribeEnd 1 (answer 300) sid2 [] 0,
    .fire 290 true, .unsubscribe sid1, .renewJob 2, .renewEnd 2 (answer 300) 291, .unsubscribeFree 3, .renew sid1,
    .unsubscribeEnd 3, .renewEnd 4 (answer 1800) 292, .fire 600 true]

theorem runs_exact_overlapping :
    ∃ s, run step overlapping .initial = some s ∧ s.clientSubList.map (·.sid) = [sid2] ∧ Exact s := by
  have sids : (run step overlapping .initial).map (fun s => s.clientSubList.map (·.sid)) = some [sid2] := by
    decide
  obtain ⟨s, ran, left⟩ := Option.map_eq_some_iff.mp sids
  exact ⟨s, ran, left, runs_exact overlapping s ran (by decide)⟩

/-- A subscription is renewed twice at the same time: both renewals remove the event, then both schedule one. -/
def renewedTwice : List Label :=
  [.register, .subscribe, .subscribeEnd 0 (answer 1800) sid1 [] 0, .renew sid1, .renew sid1,
    .renewEnd 1 (answer 1800) 1, .renewEnd 2 (answer 1800) 2]

theorem Exact.pendingFor_short {s : State} (exact : Exact s) {sub : ClientSubscription} (member : sub ∈ s.clientSubList) :
    (s.pendingFor sub.sid).length ≤ 1 := by
  rcases exact.named sub member with none | ⟨event, one, -⟩
  · rw [none]
    exact Nat.zero_le 1
  · rw [one]
    exact le_rfl

/-- The subscription has two events then, and keeps one of them when it is given up. -/
theorem renewedTwice_orphan :
    (∃ s, run step renewedTwice .initial = some s ∧ ¬ Exact s ∧ s.clientSubList.map (·.renewEventId) = [2] ∧
      (s.pendingFor sid1).map (·.id) = [1, 2]) ∧
    ∃ s, run step (renewedTwice ++ [.unsubscribe sid1, .unsubscribeFree 3, .unsubscribeEnd 3]) .initial = some s ∧
      ¬ Exact s ∧ s.clientSubList = [] ∧ (s.pendingFor sid1).map (·.id) = [1] := by
  constructor
  · have facts : (run step renewedTwice .initial).map
        (fun s => (s.clientSubList, (s.pendingFor sid1).map (·.id))) =
        some ([⟨2, sid1, bytes "uuid:device", []⟩], [1, 2]) := by decide
    obtain ⟨s, ran, same⟩ := Option.map_eq_some_iff.mp facts
    obtain ⟨list, pending⟩ := Prod.mk.inj same
    refine ⟨s, ran, ?_, by rw [list]; rfl, pending⟩
    intro exact
    have short : (s.pendingFor sid1).length ≤ 1 := exact.pendingFor_short (list ▸ List.mem_singleton_self _)
    have two := congrArg List.length pending
    rw [List.length_map] at two
    rw [two] at short
    exact absurd short (by decide)
  · have facts : (run step (renewedTwice ++ [.unsubscribe sid1, .unsubscribeFree 3, .unsubscribeEnd 3]) .initial).map
        (fun s => (s.clientSubList, (s.pendingFor sid1).map (·.id))) = some ([], [1]) := by decide
    obtain ⟨s, ran, same⟩ := Option.map_eq_some_iff.mp facts
    obtain ⟨list, pending⟩ := Prod.mk.inj same
    refine ⟨s, ran, ?_, list, pending⟩
    intro exact
    obtain ⟨sub, member, -⟩ := exact.owned sid1 (by rintro none; rw [none] at pending; cases pending)
    rw [list] at member
    cases member

end Pupnp.Gena.AutoRenew
