import Pupnp.Gena.Device
import Pupnp.Library.Run

/-!
`TotalSubscriptions` beside the list of subscriptions. The counter is written wherever a subscription
enters or leaves the list, also where a lookup drops one that has expired.
-/

namespace Pupnp.Gena.Counter
open Pupnp.Gena Pupnp.Run

/-- A device with the setting of `UpnpSetMaxSubscriptions` for each handle; -1 is `UPNP_INFINITE`. -/
structure Device where
  state : State
  maxSubscriptions : Int → Int

inductive Label where
  | gena (label : Gena.Label)
  | setMaxSubscriptions (hnd maxSubscriptions : Int)
  deriving DecidableEq, Repr

def upnpSetMaxSubscriptions (hnd maxSubscriptions : Int) (d : Device) : Device :=
  if hnd ∉ d.state.handles then d
  else if maxSubscriptions ≠ -1 && maxSubscriptions < 0 then d
  else { d with maxSubscriptions := Function.update d.maxSubscriptions hnd maxSubscriptions }

/-- The limit for a service: the one of its device. -/
def Device.limit (d : Device) (service : ServiceInfo) : Int := d.maxSubscriptions service.deviceHandle

/-- The service that a request is for, where it reads the limit. -/
def limited : Gena.Label → Option Nat
  | .subscribe i _ => some i
  | .renew i _ _ _ _ => some i
  | _ => none

def Device.facing (d : Device) (label : Gena.Label) : State :=
  match (limited label).bind fun i => d.state.services[i]? with
  | some service => { d.state with maxSubscriptions := d.limit service }
  | none => d.state

def step : Label → Device → Option Device
  | .gena label, d => (Gena.step label (d.facing label)).map fun state => { d with state := state }
  | .setMaxSubscriptions hnd maxSubscriptions, d => some (upnpSetMaxSubscriptions hnd maxSubscriptions d)

/-- `getServiceList` leaves every service with an empty list and the counter 0. -/
structure Start extends Setup where
  counted : ∀ service ∈ services, service.totalSubscriptions = 0
  limits : Int → Int

def initial (start : Start) : Device := ⟨Gena.initial start.toSetup, start.limits⟩

/-! ### The counter -/

def Counted (service : ServiceInfo) : Prop := service.totalSubscriptions = service.subscriptionList.length

def AllCounted (s : State) : Prop := ∀ service ∈ s.services, Counted service

variable {service : ServiceInfo} {s : State}

theorem removeSubscriptionSID_counted (counted : Counted service) (sid : Nat) :
    Counted (removeSubscriptionSID sid service) := by
  unfold removeSubscriptionSID
  split
  next found =>
    obtain ⟨sub, member, same⟩ := List.any_eq_true.mp found
    have shorter : (service.subscriptionList.eraseP (·.sid = sid)).length = service.subscriptionList.length - 1 :=
      List.length_eraseP_of_mem member same
    have some : 0 < service.subscriptionList.length := List.length_pos_of_mem member
    unfold Counted at counted ⊢
    dsimp only
    omega
  next => exact counted

theorem getSubscriptionSID_counted (counted : Counted service) (sid : Nat) (now : Int) :
    Counted (getSubscriptionSID sid now service).2 := by
  unfold getSubscriptionSID
  split
  next => exact counted
  next =>
    split
    · exact removeSubscriptionSID_counted counted sid
    · exact counted

theorem updateSubscription_counted (counted : Counted service) (sid : Nat) (f : Subscription → Subscription) :
    Counted (updateSubscription sid f service) := by
  unfold Counted updateSubscription at *
  rw [List.length_map]
  exact counted

/-- Each subscription that the walk unlinks is taken off the counter. -/
theorem notifySubscriptions_counted (s : State) (make : Nat → Nat → NotifyThreadStruct) (now : Int)
    (subscriptions : List Subscription) (total : Int) (p : ThreadPool.Pool SendJob) (nextEvent : Nat) :
    let out := notifySubscriptions s make now subscriptions total p nextEvent
    out.totalSubscriptions - out.subscriptions.length = total - subscriptions.length := by
  induction subscriptions generalizing total p nextEvent with
  | nil => rfl
  | cons sub rest ih =>
    unfold notifySubscriptions
    dsimp only at ih ⊢
    split
    · have unlinked := ih (total - 1) p nextEvent
      rw [List.length_cons]
      omega
    · split
      · split
        · split
          · have started := ih total (threadPoolAdd now p (.genaNotifyThread (make nextEvent sub.sid))).2 (nextEvent + 1)
            simp only [List.length_cons]
            omega
          · simp only [List.length_cons]
        · have queued := ih total p (nextEvent + 1)
          simp only [List.length_cons]
          omega
      · have passed := ih total p nextEvent
        simp only [List.length_cons]
        omega

theorem setService_counted (all : AllCounted s) (i : Nat) {service : ServiceInfo} (counted : Counted service) :
    AllCounted (s.setService i service) := by
  intro other member
  obtain old | rfl := List.mem_or_eq_of_mem_set member
  · exact all other old
  · exact counted

theorem AllCounted.at {i : Nat} (all : AllCounted s) (found : s.services[i]? = some service) : Counted service :=
  all service (List.mem_of_getElem? found)

theorem context_counted (all : AllCounted s) (now : Int) (input : NotifyThreadStruct) :
    AllCounted (s.context now input).2 := by
  unfold State.context
  split
  next => exact all
  next i _ =>
    split
    next => exact all
    next service found =>
      split
      · exact setService_counted all i (getSubscriptionSID_counted (all.at found) input.sid now)
      · exact all

theorem notifyBegin_counted (all : AllCounted s) (now : Int) (k : Nat) (input : NotifyThreadStruct) :
    AllCounted (notifyBegin now k input s) := by
  have looked := context_counted all now input
  unfold notifyBegin
  generalize s.context now input = context at looked ⊢
  obtain ⟨found, after⟩ := context
  cases found <;> exact looked

theorem notifyFinish_counted (all : AllCounted s) (now : Int) (remove : Bool) (k : Nat)
    (input : NotifyThreadStruct) : AllCounted (notifyFinish now remove k input s) := by
  have looked := context_counted all now input
  unfold notifyFinish
  generalize s.context now input = context at looked ⊢
  obtain ⟨found, after⟩ := context
  cases found with
  | none => exact looked
  | some pair =>
    obtain ⟨i, sub⟩ := pair
    dsimp only
    split
    next => exact looked
    next service here =>
      have counted := looked.at here
      generalize advanceQueue now after.gSendThreadPool sub.outgoing = queue
      obtain ⟨outgoing, pool⟩ := queue
      have sent := updateSubscription_counted counted input.sid fun sub =>
        { sub with toSendEventKey := nextEventKey sub.toSendEventKey, outgoing := outgoing }
      dsimp only
      refine setService_counted looked i ?_
      split
      · exact removeSubscriptionSID_counted sent input.sid
      · exact sent

theorem genaInitNotify_counted (all : AllCounted s) (deviceHandle : Int) (udn servId propertySet : List UInt8)
    (sid : Nat) (now : Int) : AllCounted (genaInitNotify deviceHandle udn servId propertySet sid now s).2 := by
  unfold genaInitNotify
  split
  next => exact all
  next i _ =>
    split
    next => exact all
    next service found =>
      have counted := all.at found
      dsimp only
      split
      next => exact setService_counted all i (getSubscriptionSID_counted counted sid now)
      next sub _ =>
        split
        · exact all
        · generalize threadPoolAdd now s.gSendThreadPool _ = added
          obtain ⟨ok, pool⟩ := added
          exact setService_counted all i (updateSubscription_counted counted sid _)

theorem genaNotifyAll_counted (all : AllCounted s) (deviceHandle : Int) (udn servId propertySet : List UInt8)
    (now : Int) : AllCounted (genaNotifyAll deviceHandle udn servId propertySet now s).2 := by
  unfold genaNotifyAll
  split
  next => exact all
  next i _ =>
    split
    next => exact all
    next service found =>
      have counted := all.at found
      refine setService_counted all i ?_
      have walked := notifySubscriptions_counted s
        (fun event sid => ⟨event, propertySet, servId, udn, sid, now, deviceHandle⟩) now service.subscriptionList
        service.totalSubscriptions s.gSendThreadPool s.nextEvent
      unfold Counted at counted ⊢
      dsimp only at walked ⊢
      omega

theorem subscribe_counted (all : AllCounted s) (i : Nat) (expireTime : Int) :
    AllCounted (subscribe i expireTime s) := by
  unfold subscribe
  split
  next => exact all
  next service found =>
    split
    · exact all
    · refine setService_counted all i ?_
      have counted := all.at found
      unfold Counted at counted ⊢
      rw [List.length_cons]
      dsimp only
      omega

theorem renew_counted (all : AllCounted s) (i sid : Nat) (now expireTime : Int) (responds : Bool) :
    AllCounted (renew i sid now expireTime responds s) := by
  unfold renew
  split
  next => exact all
  next service found =>
    have counted := all.at found
    split
    · dsimp only
      split
      next => exact setService_counted all i (getSubscriptionSID_counted counted sid now)
      next sub _ =>
        split
        · exact setService_counted all i (removeSubscriptionSID_counted counted sid)
        · refine setService_counted all i ?_
          have renewed := updateSubscription_counted counted sid fun sub => { sub with expireTime := expireTime }
          split
          · exact renewed
          · exact removeSubscriptionSID_counted renewed sid
    · exact all

theorem unsubscribe_counted (all : AllCounted s) (i sid : Nat) (now : Int) :
    AllCounted (unsubscribe i sid now s) := by
  unfold unsubscribe
  split
  next => exact all
  next service found =>
    have counted := all.at found
    split
    · dsimp only
      split
      next => exact setService_counted all i (getSubscriptionSID_counted counted sid now)
      next => exact setService_counted all i (removeSubscriptionSID_counted counted sid)
    · exact all

theorem takeJob_services (c : ThreadPool.Choice) (s : State) : (takeJob c s).services = s.services := by
  unfold takeJob
  dsimp only
  split
  next => split <;> rfl
  next => rfl

theorem gena_step_counted {label : Gena.Label} {s t : State} (taken : Gena.step label s = some t)
    (all : AllCounted s) : AllCounted t := by
  cases label with
  | subscribe i expireTime =>
    obtain rfl := Option.some.inj taken
    exact subscribe_counted all i expireTime
  | renew i sid now expireTime responds =>
    obtain rfl := Option.some.inj taken
    exact renew_counted all i sid now expireTime responds
  | unsubscribe i sid now =>
    obtain rfl := Option.some.inj taken
    exact unsubscribe_counted all i sid now
  | initNotify deviceHandle udn servId propertySet sid now =>
    obtain rfl := Option.some.inj taken
    exact genaInitNotify_counted all deviceHandle udn servId propertySet sid now
  | notifyAll deviceHandle udn servId propertySet now =>
    obtain rfl := Option.some.inj taken
    exact genaNotifyAll_counted all deviceHandle udn servId propertySet now
  | addOther now =>
    obtain rfl := Option.some.inj taken
    exact all
  | takeJob c =>
    obtain rfl := Option.some.inj taken
    unfold AllCounted
    rw [takeJob_services]
    exact all
  | advance k now remove =>
    obtain ⟨worker, -, rfl⟩ := Option.map_eq_some_iff.mp taken
    cases worker.stage with
    | called => exact notifyBegin_counted all now k worker.input
    | sending => exact notifyFinish_counted all now remove k worker.input

theorem facing_services (d : Device) (label : Gena.Label) : (d.facing label).services = d.state.services := by
  unfold Device.facing
  split <;> rfl

theorem step_counted {label : Label} {d e : Device} (taken : step label d = some e)
    (all : AllCounted d.state) : AllCounted e.state := by
  cases label with
  | gena label =>
    obtain ⟨state, inner, rfl⟩ := Option.map_eq_some_iff.mp taken
    refine gena_step_counted inner ?_
    unfold AllCounted
    rw [facing_services]
    exact all
  | setMaxSubscriptions hnd maxSubscriptions =>
    obtain rfl := Option.some.inj taken
    unfold upnpSetMaxSubscriptions
    split
    · exact all
    · split <;> exact all

/-! ### The limit -/

/-- No counter is above what it was before, unless it stays within the limit of its device. -/
def WithinLimit (d e : Device) : Prop :=
  ∀ (i : Nat) (service after : ServiceInfo), d.state.services[i]? = some service → e.state.services[i]? = some after →
    after.totalSubscriptions ≤ service.totalSubscriptions ∨ d.limit service = -1 ∨
      after.totalSubscriptions ≤ d.limit service

theorem subscribe_within {i : Nat} {expireTime : Int} {d e : Device}
    (taken : step (.gena (.subscribe i expireTime)) d = some e) : WithinLimit d e := by
  rw [step, Option.map_eq_some_iff] at taken
  obtain ⟨state, inner, rfl⟩ := taken
  obtain rfl := Option.some.inj inner
  intro j service after here there
  dsimp only at there
  unfold subscribe at there
  rw [facing_services] at there
  split at there
  next =>
    rw [facing_services, here] at there
    obtain rfl := Option.some.inj there
    exact .inl (Int.le_refl _)
  next own found =>
    have limit : (d.facing (.subscribe i expireTime)).maxSubscriptions = d.limit own := by
      unfold Device.facing limited
      rw [Option.bind_some, found]
    rw [limit] at there
    split at there
    next =>
      rw [facing_services, here] at there
      obtain rfl := Option.some.inj there
      exact .inl (Int.le_refl _)
    next accepted =>
      rw [State.setService] at there
      dsimp only at there
      rw [facing_services, List.getElem?_set] at there
      split at there
      next same =>
        subst same
        obtain rfl : own = service := Option.some.inj (found.symm.trans here)
        split at there
        next =>
          obtain rfl := Option.some.inj there
          simp only [Bool.or_eq_true, Bool.and_eq_true, decide_eq_true_iff, not_or, not_and] at accepted
          by_cases infinite : d.limit own = -1
          · exact .inr (.inl infinite)
          · have room := accepted.2 infinite
            dsimp only
            exact .inr (.inr (by omega))
        next => cases there
      next =>
        rw [here] at there
        obtain rfl := Option.some.inj there
        exact .inl (Int.le_refl _)

theorem initial_counted (start : Start) : AllCounted (initial start).state := by
  intro service member
  rw [Counted, start.counted service member, start.unsubscribed service member]
  rfl

/-- After every run each counter is the length of its list, and no SUBSCRIBE takes it over a finite limit. -/
theorem totalSubscriptions_exact (start : Start) (labels : List Label) (d : Device)
    (ran : run step labels (initial start) = some d) :
    (∀ service ∈ d.state.services, service.totalSubscriptions = service.subscriptionList.length) ∧
      ∀ i expireTime e, step (.gena (.subscribe i expireTime)) d = some e → WithinLimit d e := by
  have keeps (label : Label) (d e : Device) (taken : step label d = some e) (all : AllCounted d.state) :
      AllCounted e.state := step_counted taken all
  exact ⟨run_invariant keeps (initial_counted start) ran, fun _ _ _ taken => subscribe_within taken⟩

def oneService : Start where
  handles := [1]
  services := [⟨1, [83], [85], true, [], 0⟩]
  unsubscribed := by decide
  maxSubscriptions := -1
  eqMaxLen := 10
  eqMaxAge := 30
  attr := ⟨0, 1, 10000, 1, 100, 500⟩
  counted := by decide
  limits := fun _ => -1

/-- The limit is set between two of three subscriptions; one of them expires, and the next event finds it so. -/
def limitedRun : List Label :=
  [.gena (.subscribe 0 5), .setMaxSubscriptions 1 2, .gena (.subscribe 0 0), .gena (.subscribe 0 0),
    .gena (.notifyAll 1 [85] [83] [] 9)]

theorem totalSubscriptions_limitedRun : ∃ d, run step limitedRun (initial oneService) = some d ∧
    d.state.services.map (·.totalSubscriptions) = [1] ∧
    (∀ service ∈ d.state.services, service.totalSubscriptions = service.subscriptionList.length) ∧
      ∀ i expireTime e, step (.gena (.subscribe i expireTime)) d = some e → WithinLimit d e := by
  have counters : (run step limitedRun (initial oneService)).map
      (fun d => d.state.services.map (·.totalSubscriptions)) = some [1] := by decide
  obtain ⟨d, ran, one⟩ := Option.map_eq_some_iff.mp counters
  exact ⟨d, ran, one, totalSubscriptions_exact oneService limitedRun d ran⟩

end Pupnp.Gena.Counter
