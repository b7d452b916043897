import Pupnp.ThreadPool.Pool

/-!
The event side of a GENA device: subscriptions with their queues of outgoing events
and the jobs that send them. Each step is what a thread does under one `HandleLock`,
or a worker of `gSendThreadPool` taking its next job. Allocations succeed.
-/

namespace Pupnp.Gena
open Pupnp.ThreadPool

/-- One event on its way to one subscription; `event` is the identity of the allocation. -/
structure NotifyThreadStruct where
  event : Nat
  propertySet : List UInt8
  servId : List UInt8
  udn : List UInt8
  sid : Nat
  ctime : Int
  deviceHandle : Int
  deriving DecidableEq, Repr

/-- The jobs of `gSendThreadPool`: calls of `genaNotifyThread` and those of other users. -/
inductive SendJob where
  | genaNotifyThread (input : NotifyThreadStruct)
  | other
  deriving DecidableEq, Repr

/-- A job in a queue of outgoing events; `stale` where its id is `STALE_JOBID`. -/
structure OutgoingJob where
  arg : NotifyThreadStruct
  stale : Bool
  deriving DecidableEq, Repr

/-- Subscription ids come from a counter, as UUIDs do not repeat. -/
structure Subscription where
  sid : Nat
  toSendEventKey : Int
  expireTime : Int
  active : Bool
  outgoing : List OutgoingJob
  deriving DecidableEq, Repr

structure ServiceInfo where
  deviceHandle : Int
  serviceId : List UInt8
  udn : List UInt8
  active : Bool
  subscriptionList : List Subscription
  totalSubscriptions : Int
  deriving DecidableEq, Repr

/-- Where a call of `genaNotifyThread` stands: before its first lock, or sending. -/
inductive Stage where
  | called
  | sending (seq : Int)
  deriving DecidableEq, Repr

structure Worker where
  input : NotifyThreadStruct
  stage : Stage
  deriving DecidableEq, Repr

structure State where
  /-- The handles that belong to devices. -/
  handles : List Int
  /-- The service tables of all devices, one after the other. -/
  services : List ServiceInfo
  maxSubscriptions : Int
  eqMaxLen : Int
  eqMaxAge : Int
  gSendThreadPool : Pool SendJob
  /-- The workers that are executing `genaNotifyThread`. -/
  workers : List Worker
  nextSid : Nat
  nextEvent : Nat
  deriving DecidableEq, Repr

def GENA_SUCCESS : Int := 0
def GENA_E_BAD_HANDLE : Int := -100
def GENA_E_BAD_SERVICE : Int := -111
def GENA_E_BAD_SID : Int := -109
def UPNP_E_OUTOF_MEMORY : Int := -104

def threadPoolAdd (now : Int) (p : Pool SendJob) (job : SendJob) : Bool × Pool SendJob :=
  let move := addJob ⟨true, true, true, false, ⟨now, 0⟩⟩ p ⟨job, .med⟩
  match move.pc with
  | .addWorker frame => (frame.rc = 0, { move.pool with lastJobId := move.pool.lastJobId + 1 })
  | _ => (false, p)

def Subscription.expired (sub : Subscription) (now : Int) : Bool :=
  sub.expireTime ≠ 0 && sub.expireTime < now

def removeSubscriptionSID (sid : Nat) (service : ServiceInfo) : ServiceInfo :=
  if service.subscriptionList.any (·.sid = sid) then
    { service with
      subscriptionList := service.subscriptionList.eraseP (·.sid = sid)
      totalSubscriptions := service.totalSubscriptions - 1 }
  else service

def getSubscriptionSID (sid : Nat) (now : Int) (service : ServiceInfo) :
    Option Subscription × ServiceInfo :=
  match service.subscriptionList.find? (·.sid = sid) with
  | none => (none, service)
  | some found =>
      if found.expired now then (none, removeSubscriptionSID sid service) else (some found, service)

def updateSubscription (sid : Nat) (f : Subscription → Subscription) (service : ServiceInfo) :
    ServiceInfo :=
  { service with
    subscriptionList := service.subscriptionList.map fun sub => if sub.sid = sid then f sub else sub }

def State.setService (s : State) (i : Nat) (service : ServiceInfo) : State :=
  { s with services := s.services.set i service }

/-- `FindServiceId` in the table of a device; `none` also where the handle is no device. -/
def State.findServiceId (s : State) (deviceHandle : Int) (servId udn : List UInt8) : Option Nat :=
  if deviceHandle ∈ s.handles then
    s.services.findIdx? fun service =>
      service.deviceHandle = deviceHandle && service.serviceId = servId && service.udn = udn
  else none

def maybeDiscardEvents (eqMaxLen eqMaxAge now : Int) : List OutgoingJob → List OutgoingJob
  | head :: second :: rest =>
      if eqMaxLen < (head :: second :: rest).length || eqMaxAge < now - second.arg.ctime then
        maybeDiscardEvents eqMaxLen eqMaxAge now (head :: rest)
      else head :: second :: rest
  | queue => queue
termination_by queue => queue.length

/-- What `genaNotifyThread` looks up under each lock: its service and its subscription. -/
def State.context (s : State) (now : Int) (input : NotifyThreadStruct) :
    Option (Nat × Subscription) × State :=
  match s.findServiceId input.deviceHandle input.servId input.udn with
  | none => (none, s)
  | some i =>
      match s.services[i]? with
      | none => (none, s)
      | some service =>
          if service.active then
            let found := getSubscriptionSID input.sid now service
            (found.1.map (i, ·), s.setService i found.2)
          else (none, s)

def notifyBegin (now : Int) (k : Nat) (input : NotifyThreadStruct) (s : State) : State :=
  let (found, s) := s.context now input
  match found with
  | none => { s with workers := s.workers.eraseIdx k }
  | some (_, sub) => { s with workers := s.workers.set k ⟨input, .sending sub.toSendEventKey⟩ }

def nextEventKey (key : Int) : Int := if key + 1 = 2 ^ 31 then 1 else key + 1

def advanceQueue (now : Int) (p : Pool SendJob) (outgoing : List OutgoingJob) :
    List OutgoingJob × Pool SendJob :=
  match outgoing.tail with
  | [] => ([], p)
  | job :: rest =>
      ({ job with stale := true } :: rest, (threadPoolAdd now p (.genaNotifyThread job.arg)).2)

/-- `genaNotifyThread` behind the sending; `remove` where the control point did not know the id. -/
def notifyFinish (now : Int) (remove : Bool) (k : Nat) (input : NotifyThreadStruct) (s : State) :
    State :=
  let (found, s) := s.context now input
  let s := { s with workers := s.workers.eraseIdx k }
  match found with
  | none => s
  | some (i, sub) =>
      match s.services[i]? with
      | none => s
      | some service =>
          let (outgoing, pool) := advanceQueue now s.gSendThreadPool sub.outgoing
          let sent := updateSubscription input.sid (fun sub =>
            { sub with toSendEventKey := nextEventKey sub.toSendEventKey, outgoing := outgoing }) service
          let kept := if remove then removeSubscriptionSID input.sid sent else sent
          { s.setService i kept with gSendThreadPool := pool }

def genaInitNotify (deviceHandle : Int) (udn servId propertySet : List UInt8) (sid : Nat) (now : Int)
    (s : State) : Int × State :=
  match s.findServiceId deviceHandle servId udn with
  | none => (if deviceHandle ∈ s.handles then GENA_E_BAD_SERVICE else GENA_E_BAD_HANDLE, s)
  | some i =>
      match s.services[i]? with
      | none => (GENA_E_BAD_SERVICE, s)
      | some service =>
          let found := getSubscriptionSID sid now service
          match found.1 with
          | none => (GENA_E_BAD_SID, s.setService i found.2)
          | some sub =>
              if sub.active then (GENA_E_BAD_SID, s)
              else
                let arg : NotifyThreadStruct :=
                  ⟨s.nextEvent, propertySet, servId, udn, sid, now, deviceHandle⟩
                let (ok, pool) := threadPoolAdd now s.gSendThreadPool (.genaNotifyThread arg)
                let started := updateSubscription sid (fun sub =>
                  { sub with
                    active := true
                    outgoing := if ok then sub.outgoing ++ [⟨arg, true⟩] else sub.outgoing }) service
                (if ok then GENA_SUCCESS else UPNP_E_OUTOF_MEMORY,
                  { s.setService i started with
                    gSendThreadPool := pool, nextEvent := s.nextEvent + 1 })

/-- What the loop of `genaNotifyAllCommon` has changed so far. -/
structure Fanout where
  ret : Int
  subscriptions : List Subscription
  totalSubscriptions : Int
  pool : Pool SendJob
  nextEvent : Nat
  deriving DecidableEq, Repr

/-- The loop of `genaNotifyAllCommon` over `GetFirstSubscription` and `GetNextSubscription`, which
unlink what has expired, each time with `TotalSubscriptions--`, and pass over what is not active. -/
def notifySubscriptions (s : State) (make : Nat → Nat → NotifyThreadStruct) (now : Int) :
    List Subscription → Int → Pool SendJob → Nat → Fanout
  | [], total, p, nextEvent => ⟨GENA_SUCCESS, [], total, p, nextEvent⟩
  | sub :: rest, total, p, nextEvent =>
      if sub.expired now then notifySubscriptions s make now rest (total - 1) p nextEvent
      else if sub.active then
        let job : OutgoingJob := ⟨make nextEvent sub.sid, false⟩
        let outgoing := maybeDiscardEvents s.eqMaxLen s.eqMaxAge now sub.outgoing ++ [job]
        if outgoing.length = 1 then
          let (ok, p') := threadPoolAdd now p (.genaNotifyThread job.arg)
          if ok then
            let out := notifySubscriptions s make now rest total p' (nextEvent + 1)
            { out with
              subscriptions :=
                { sub with outgoing := [{ job with stale := true }] } :: out.subscriptions }
          else
            ⟨UPNP_E_OUTOF_MEMORY, { sub with outgoing := outgoing } :: rest, total, p', nextEvent + 1⟩
        else
          let out := notifySubscriptions s make now rest total p (nextEvent + 1)
          { out with subscriptions := { sub with outgoing := outgoing } :: out.subscriptions }
      else
        let out := notifySubscriptions s make now rest total p nextEvent
        { out with subscriptions := sub :: out.subscriptions }

def genaNotifyAll (deviceHandle : Int) (udn servId propertySet : List UInt8) (now : Int)
    (s : State) : Int × State :=
  match s.findServiceId deviceHandle servId udn with
  | none => (if deviceHandle ∈ s.handles then GENA_E_BAD_SERVICE else GENA_E_BAD_HANDLE, s)
  | some i =>
      match s.services[i]? with
      | none => (GENA_E_BAD_SERVICE, s)
      | some service =>
          let out := notifySubscriptions s
            (fun event sid => ⟨event, propertySet, servId, udn, sid, now, deviceHandle⟩) now
            service.subscriptionList service.totalSubscriptions s.gSendThreadPool s.nextEvent
          (out.ret,
            { s.setService i { service with
                subscriptionList := out.subscriptions
                totalSubscriptions := out.totalSubscriptions } with
              gSendThreadPool := out.pool, nextEvent := out.nextEvent })

/-- A SUBSCRIBE request for a service, all its headers accepted and answered. -/
def subscribe (i : Nat) (expireTime : Int) (s : State) : State :=
  match s.services[i]? with
  | none => s
  | some service =>
      if !service.active ||
          (s.maxSubscriptions ≠ -1 && s.maxSubscriptions ≤ service.totalSubscriptions) then s
      else
        { s.setService i { service with
            subscriptionList := ⟨s.nextSid, 0, expireTime, false, []⟩ :: service.subscriptionList
            totalSubscriptions := service.totalSubscriptions + 1 } with
          nextSid := s.nextSid + 1 }

def renew (i sid : Nat) (now expireTime : Int) (responds : Bool) (s : State) : State :=
  match s.services[i]? with
  | none => s
  | some service =>
      if service.active then
        let found := getSubscriptionSID sid now service
        match found.1 with
        | none => s.setService i found.2
        | some _ =>
            if s.maxSubscriptions ≠ -1 && s.maxSubscriptions < service.totalSubscriptions then
              s.setService i (removeSubscriptionSID sid service)
            else
              let renewed := updateSubscription sid ({ · with expireTime := expireTime }) service
              s.setService i (if responds then renewed else removeSubscriptionSID sid renewed)
      else s

def unsubscribe (i sid : Nat) (now : Int) (s : State) : State :=
  match s.services[i]? with
  | none => s
  | some service =>
      if service.active then
        let found := getSubscriptionSID sid now service
        match found.1 with
        | none => s.setService i found.2
        | some _ => s.setService i (removeSubscriptionSID sid service)
      else s

def takeJob (c : Choice) (s : State) : State :=
  let move := checkForJob c s.gSendThreadPool false
  match move.pc with
  | .workerRun job _ =>
      match job.func with
      | .genaNotifyThread input =>
          { s with gSendThreadPool := move.pool, workers := s.workers ++ [⟨input, .called⟩] }
      | .other => { s with gSendThreadPool := move.pool }
  | _ => { s with gSendThreadPool := move.pool }

inductive Label where
  | subscribe (service : Nat) (expireTime : Int)
  | renew (service sid : Nat) (now expireTime : Int) (responds : Bool)
  | unsubscribe (service sid : Nat) (now : Int)
  | initNotify (deviceHandle : Int) (udn servId propertySet : List UInt8) (sid : Nat) (now : Int)
  | notifyAll (deviceHandle : Int) (udn servId propertySet : List UInt8) (now : Int)
  /-- Some other user of the pool adds a job of its own. -/
  | addOther (now : Int)
  | takeJob (choice : Choice)
  /-- The worker at this position takes its next lock. -/
  | advance (k : Nat) (now : Int) (remove : Bool)
  deriving DecidableEq, Repr

def step : Label → State → Option State
  | .subscribe i expireTime, s => some (subscribe i expireTime s)
  | .renew i sid now expireTime responds, s => some (renew i sid now expireTime responds s)
  | .unsubscribe i sid now, s => some (unsubscribe i sid now s)
  | .initNotify deviceHandle udn servId propertySet sid now, s =>
      some (genaInitNotify deviceHandle udn servId propertySet sid now s).2
  | .notifyAll deviceHandle udn servId propertySet now, s =>
      some (genaNotifyAll deviceHandle udn servId propertySet now s).2
  | .addOther now, s =>
      some { s with gSendThreadPool := (threadPoolAdd now s.gSendThreadPool .other).2 }
  | .takeJob c, s => some (takeJob c s)
  | .advance k now remove, s =>
      s.workers[k]?.map fun worker =>
        match worker.stage with
        | .called => notifyBegin now k worker.input s
        | .sending _ => notifyFinish now remove k worker.input s

/-- A device with these services and nobody subscribed yet. -/
structure Setup where
  handles : List Int
  services : List ServiceInfo
  unsubscribed : ∀ service ∈ services, service.subscriptionList = []
  maxSubscriptions : Int
  eqMaxLen : Int
  eqMaxAge : Int
  attr : ThreadPoolAttr

def initial (setup : Setup) : State :=
  { handles := setup.handles, services := setup.services
    maxSubscriptions := setup.maxSubscriptions, eqMaxLen := setup.eqMaxLen
    eqMaxAge := setup.eqMaxAge
    gSendThreadPool := (ThreadPool.initial setup.attr).pool.unlock
    workers := [], nextSid := 0, nextEvent := 0 }

end Pupnp.Gena
