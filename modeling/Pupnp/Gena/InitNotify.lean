import Pupnp.Gena.Delivery

/-!
The initial event of a subscription when memory runs out. `genaInitNotifyCommon` allocates before and after
it has marked the subscription active, and hands a job to a pool that may refuse it.
-/

namespace Pupnp.Gena
open Pupnp.ThreadPool Pupnp.Run

/-- Which of the allocations of a call succeed, in their order; `pool` is for those of `ThreadPoolAdd`. -/
structure InitAllocations where
  job : Bool
  referenceCount : Bool
  udnCopy : Bool
  servIdCopy : Bool
  headers : Bool
  threadStruct : Bool
  pool : Choice
  node : Bool
  deriving DecidableEq, Repr

def InitAllocations.early (alloc : InitAllocations) : Bool :=
  alloc.job && (alloc.referenceCount && (alloc.udnCopy && alloc.servIdCopy))

/-- `ThreadPoolAdd` of a job of medium priority, whose allocations may fail. -/
def threadPoolAddWith (c : Choice) (p : Pool SendJob) (job : SendJob) : Bool × Pool SendJob :=
  let move := addJob c p ⟨job, .med⟩
  match move.pc with
  | .addWorker frame => (frame.rc = 0, { move.pool with lastJobId := move.pool.lastJobId + 1 })
  | _ => (false, p)

def Subscription.activate (sub : Subscription) : Subscription := { sub with active := true }

/-- `genaInitNotifyCommon`, whose allocations may fail. The early ones fail before the state is read. -/
def genaInitNotifyCommon (alloc : InitAllocations) (deviceHandle : Int) (udn servId propertySet : List UInt8)
    (sid : Nat) (now : Int) (s : State) : Int × State :=
  if !alloc.early then (UPNP_E_OUTOF_MEMORY, s)
  else
    match s.findServiceId deviceHandle servId udn with
    | none => (if deviceHandle ∈ s.handles then GENA_E_BAD_SERVICE else GENA_E_BAD_HANDLE, s)
    | some i =>
        match s.services[i]? with
        | none => (GENA_E_BAD_SERVICE, s)
        | some service =>
            let found := getSubscriptionSID sid now service
            match found.1 with
            | none => (GENA_E_BAD_SID, s.setService i found.2)
            | some sub =>
                if sub.active then (GENA_E_BAD_SID, s)
                else
                  let activated := updateSubscription sid Subscription.activate service
                  if !alloc.headers || !alloc.threadStruct then (UPNP_E_OUTOF_MEMORY, s.setService i activated)
                  else
                    let arg : NotifyThreadStruct :=
                      ⟨s.nextEvent, propertySet, servId, udn, sid, now, deviceHandle⟩
                    let (ok, pool) := threadPoolAddWith alloc.pool s.gSendThreadPool (.genaNotifyThread arg)
                    let queued := ok && alloc.node
                    let started := if queued then
                        updateSubscription sid (fun sub => { sub with outgoing := sub.outgoing ++ [⟨arg, true⟩] })
                          activated
                      else activated
                    (if queued then GENA_SUCCESS else UPNP_E_OUTOF_MEMORY,
                      { s.setService i started with
                        gSendThreadPool := pool, nextEvent := s.nextEvent + 1 })

/-- All allocations succeed, at the time of the call. -/
def plenty (now : Int) : InitAllocations :=
  ⟨true, true, true, true, true, true, ⟨true, true, true, false, ⟨now, 0⟩⟩, true⟩

theorem updateSubscription_twice (sid : Nat) (f g : Subscription → Subscription) (keeps : ∀ sub, (f sub).sid = sub.sid)
    (service : ServiceInfo) :
    updateSubscription sid g (updateSubscription sid f service) =
      updateSubscription sid (fun sub => g (f sub)) service := by
  simp only [updateSubscription, List.map_map, ServiceInfo.mk.injEq, and_true, true_and]
  apply List.map_congr_left
  intro sub member
  simp only [Function.comp]
  by_cases own : sub.sid = sid
  · rw [if_pos own, if_pos own, if_pos ((keeps sub).trans own)]
  · rw [if_neg own, if_neg own, if_neg own]

theorem genaInitNotifyCommon_plenty (deviceHandle : Int) (udn servId propertySet : List UInt8) (sid : Nat) (now : Int)
    (s : State) :
    genaInitNotifyCommon (plenty now) deviceHandle udn servId propertySet sid now s =
      genaInitNotify deviceHandle udn servId propertySet sid now s := by
  unfold genaInitNotifyCommon genaInitNotify
  rw [if_neg (by simp [plenty, InitAllocations.early])]
  cases place : s.findServiceId deviceHandle servId udn with
  | none => rfl
  | some i =>
    cases found : s.services[i]? with
    | none => simp only [found]
    | some service =>
      simp only [found]
      cases got : (getSubscriptionSID sid now service).1 with
      | none => rfl
      | some sub =>
        simp only
        split
        · rfl
        rw [if_neg (by simp [plenty])]
        have same : threadPoolAddWith (plenty now).pool = threadPoolAdd now := rfl
        rw [same, updateSubscription_twice sid Subscription.activate _ (fun _ => rfl)]
        generalize threadPoolAdd now s.gSendThreadPool _ = added
        obtain ⟨ok, pool⟩ := added
        cases ok <;> rfl

def State.serviceOf (s : State) (deviceHandle : Int) (servId udn : List UInt8) : Option ServiceInfo :=
  (s.findServiceId deviceHandle servId udn).bind (s.services[·]?)

def ServiceInfo.unexpired (service : ServiceInfo) (sid : Nat) (now : Int) : List Subscription :=
  service.subscriptionList.filter fun sub => sub.sid = sid && !sub.expired now

/-- After an error the subscription is as before, now and later: another call can succeed. -/
def InitRestores (alloc : InitAllocations) (deviceHandle : Int) (udn servId propertySet : List UInt8) (sid : Nat)
    (now : Int) (s : State) : Prop :=
  let called := genaInitNotifyCommon alloc deviceHandle udn servId propertySet sid now s
  called.1 ≠ GENA_SUCCESS → ∀ later, now ≤ later →
    (called.2.serviceOf deviceHandle servId udn).map (·.unexpired sid later) =
        (s.serviceOf deviceHandle servId udn).map (·.unexpired sid later) ∧
      ∀ service sub again, s.serviceOf deviceHandle servId udn = some service →
        (getSubscriptionSID sid later service).1 = some sub → sub.active = false →
        called.2.gSendThreadPool.totalJobs < called.2.gSendThreadPool.attr.maxJobsTotal →
          (genaInitNotifyCommon (plenty later) deviceHandle udn servId again sid later called.2).1 = GENA_SUCCESS

def InitAllocations.accepted (alloc : InitAllocations) (p : Pool SendJob) : Bool :=
  p.totalJobs < p.attr.maxJobsTotal && (alloc.pool.allocates && alloc.pool.links)

section Call
variable {s : State} {deviceHandle : Int} {servId udn : List UInt8} {i sid : Nat} {service service' : ServiceInfo}

theorem getSubscriptionSID_some {now : Int} {sub : Subscription} (got : (getSubscriptionSID sid now service).1 = some sub) :
    sub ∈ service.unexpired sid now ∧ (getSubscriptionSID sid now service).2 = service := by
  unfold getSubscriptionSID at got ⊢
  cases search : service.subscriptionList.find? (·.sid = sid) with
  | none =>
    rw [search] at got
    contradiction
  | some found =>
    rw [search] at got
    simp only at got ⊢
    split at got
    · contradiction
    next fresh =>
      obtain rfl := Option.some.inj got
      rw [if_neg fresh]
      refine ⟨List.mem_filter.mpr ⟨List.mem_of_find?_eq_some search, ?_⟩, rfl⟩
      have own := List.find?_some search
      simp [fresh, of_decide_eq_true own]

end Call

/-- A call with plenty of memory starts a subscription that is there and not active. -/
theorem plenty_succeeds {s : State} {deviceHandle : Int} {servId udn propertySet : List UInt8} {sid : Nat} {now : Int}
    {service : ServiceInfo} {sub : Subscription} (named : s.serviceOf deviceHandle servId udn = some service)
    (got : (getSubscriptionSID sid now service).1 = some sub) (inactive : sub.active = false)
    (room : s.gSendThreadPool.totalJobs < s.gSendThreadPool.attr.maxJobsTotal) :
    (genaInitNotifyCommon (plenty now) deviceHandle udn servId propertySet sid now s).1 = GENA_SUCCESS := by
  obtain ⟨i, place, found⟩ := Option.bind_eq_some_iff.mp named
  rw [genaInitNotifyCommon_plenty, genaInitNotify]
  simp only [place, found, got, inactive, Bool.false_eq_true, if_false]
  rw [(threadPoolAdd_room now _ room).1]
  rfl

section Outcomes
variable {alloc : InitAllocations} {s : State} {deviceHandle : Int} {servId udn propertySet : List UInt8} {sid : Nat}
variable {now : Int}

theorem InitRestores.of_same
    (same : (genaInitNotifyCommon alloc deviceHandle udn servId propertySet sid now s).2 = s) :
    InitRestores alloc deviceHandle udn servId propertySet sid now s := by
  intro failed later order
  simp only [same]
  refine ⟨trivial, ?_⟩
  intro service sub again named got inactive room
  exact plenty_succeeds named got inactive room

end Outcomes

end Pupnp.Gena
