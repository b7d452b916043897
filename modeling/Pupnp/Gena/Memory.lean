import Pupnp.Gena.Device
import Pupnp.Library.RefCount

/-!
The memory of events. The `notify_thread_struct`s that one call makes share its headers, property set and id
strings, and a count of them. A struct is freed by the worker that has sent it, by the pruning of a queue, with
its subscription or with the thread pool. Any allocation may fail, and `ThreadPoolAdd` may refuse a job.
-/

namespace Pupnp.Gena.Memory
open Pupnp.RefCount

/-- A node of a queue of outgoing events. `refused` where `ThreadPoolAdd` has not taken its job, which no
code remembers. -/
structure Node where
  job : OutgoingJob
  refused : Bool
  deriving DecidableEq, Repr

/-- A subscription; `service` tells to which service it belongs. -/
structure Sub where
  service : Nat
  sid : Nat
  expireTime : Int
  active : Bool
  outgoing : List Node
  deriving DecidableEq, Repr

/-- The structs that are allocated, and what the structs of each call share: the `event` of a struct is the
number of its call. -/
structure Heap where
  live : List NotifyThreadStruct
  calls : List (Block (List UInt8))
  deriving DecidableEq, Repr

structure Worker where
  input : NotifyThreadStruct
  sending : Bool
  deriving DecidableEq, Repr

structure State where
  eqMaxLen : Int
  eqMaxAge : Int
  subs : List Sub
  /-- The jobs that wait in `gSendThreadPool`. -/
  pool : List NotifyThreadStruct
  workers : List Worker
  heap : Heap
  nextSid : Nat
  /-- `ThreadPoolShutdown` has returned. -/
  ended : Bool
  deriving DecidableEq, Repr

def freeNotifyStruct (input : NotifyThreadStruct) (heap : Heap) : Heap :=
  { live := heap.live.erase input
    calls := heap.calls.modify input.event fun call =>
      { call with ct := call.ct - 1, frees := if call.ct - 1 = 0 then call.frees + 1 else call.frees } }

def freeStructs (inputs : List NotifyThreadStruct) (heap : Heap) : Heap :=
  inputs.foldl (fun heap input => freeNotifyStruct input heap) heap

def freeSubscriptionQueuedEvents (queue : List Node) (heap : Heap) : Heap :=
  freeStructs (queue.tail.map (·.job.arg)) heap

def Sub.expired (sub : Sub) (now : Int) : Bool := sub.expireTime ≠ 0 && sub.expireTime < now

def State.drop (i : Nat) (sub : Sub) (s : State) : State :=
  { s with subs := s.subs.eraseIdx i, heap := freeSubscriptionQueuedEvents sub.outgoing s.heap }

def State.lookUp (sid : Nat) (s : State) : Option (Nat × Sub) :=
  (s.subs.findIdx? (·.sid = sid)).bind fun i => s.subs[i]?.map (i, ·)

def getSubscriptionSID (sid : Nat) (now : Int) (s : State) : Option (Nat × Sub) × State :=
  match s.lookUp sid with
  | none => (none, s)
  | some (i, sub) => if sub.expired now then (none, s.drop i sub) else (some (i, sub), s)

def removeSubscriptionSID (sid : Nat) (s : State) : State :=
  match s.lookUp sid with
  | none => s
  | some (i, sub) => s.drop i sub

def maybeDiscardEvents (eqMaxLen eqMaxAge now : Int) : List Node → Heap → List Node × Heap
  | head :: second :: rest, heap =>
      if eqMaxLen < (head :: second :: rest).length || eqMaxAge < now - second.job.arg.ctime then
        maybeDiscardEvents eqMaxLen eqMaxAge now (head :: rest) (freeNotifyStruct second.job.arg heap)
      else (head :: second :: rest, heap)
  | queue, heap => (queue, heap)
termination_by queue => queue.length

/-- What becomes of the allocations for one subscription, and whether `ThreadPoolAdd` takes the job. -/
structure Round where
  threadStruct : Bool
  job : Bool
  node : Bool
  accepted : Bool
  deriving DecidableEq, Repr

/-- What the loop of `genaNotifyAllCommon` has changed so far. -/
structure Fanout where
  subs : List Sub
  pool : List NotifyThreadStruct
  heap : Heap
  deriving DecidableEq, Repr

def makeStruct (input : NotifyThreadStruct) (heap : Heap) : Heap :=
  { live := heap.live ++ [input]
    calls := heap.calls.modify input.event fun call => { call with ct := call.ct + 1 } }

/-- The loop of `genaNotifyAllCommon` over the subscriptions of a service. -/
def notifySubscriptions (s : State) (service : Nat) (make : Nat → NotifyThreadStruct) (now : Int)
    (outcome : Nat → Round) : List Sub → List NotifyThreadStruct → Heap → Fanout
  | [], pool, heap => ⟨[], pool, heap⟩
  | sub :: rest, pool, heap =>
      let goOn (kept : List Sub) (pool : List NotifyThreadStruct) (heap : Heap) : Fanout :=
        let out := notifySubscriptions s service make now outcome rest pool heap
        { out with subs := kept ++ out.subs }
      if sub.service ≠ service then goOn [sub] pool heap
      else if sub.expired now then goOn [] pool (freeSubscriptionQueuedEvents sub.outgoing heap)
      else if !sub.active then goOn [sub] pool heap
      else if !(outcome sub.sid).threadStruct then ⟨sub :: rest, pool, heap⟩
      else
        let input := make sub.sid
        let (kept, heap) :=
          maybeDiscardEvents s.eqMaxLen s.eqMaxAge now sub.outgoing (makeStruct input heap)
        -- the struct goes, its reference stays
        if !(outcome sub.sid).job then
          ⟨{ sub with outgoing := kept } :: rest, pool, { heap with live := heap.live.erase input }⟩
        else
          let outgoing (stale refused : Bool) : List Node :=
            if (outcome sub.sid).node then kept ++ [⟨⟨input, stale⟩, refused⟩] else kept
          if (outgoing false false).length = 1 then
            if (outcome sub.sid).accepted then
              goOn [{ sub with outgoing := outgoing true false }] (pool ++ [input]) heap
            else ⟨{ sub with outgoing := outgoing false true } :: rest, pool, heap⟩
          else goOn [{ sub with outgoing := outgoing false false }] pool heap

/-- Which allocations of a call succeed before its loop: the count, and the other buffers. -/
structure CallAllocations where
  referenceCount : Bool
  buffers : Bool
  deriving DecidableEq, Repr

def openCall (propertySet : List UInt8) (heap : Heap) : Heap :=
  { heap with calls := heap.calls ++ [⟨propertySet, 0, 0⟩] }

/-- The exit of `genaNotifyAllCommon`: a call that has made no struct frees its buffers. -/
def closeCall (call : Nat) (heap : Heap) : Heap :=
  { heap with calls := heap.calls.modify call fun block =>
      { block with frees := if block.ct = 0 then block.frees + 1 else block.frees } }

/-- `genaNotifyAllCommon`; no service where the handle or the ids are unknown. -/
def genaNotifyAll (alloc : CallAllocations) (service : Option Nat) (deviceHandle : Int)
    (udn servId propertySet : List UInt8) (now : Int) (outcome : Nat → Round) (s : State) : State :=
  let call := s.heap.calls.length
  let heap := openCall propertySet s.heap
  -- without a count nothing frees the property set
  if !alloc.referenceCount then { s with heap := heap }
  else
    let out : Fanout :=
      match service with
      | none => ⟨s.subs, s.pool, heap⟩
      | some service =>
          if alloc.buffers then
            notifySubscriptions s service (fun sid => ⟨call, propertySet, servId, udn, sid, now, deviceHandle⟩)
              now outcome s.subs s.pool heap
          else ⟨s.subs, s.pool, heap⟩
    { s with subs := out.subs, pool := out.pool, heap := closeCall call out.heap }

/-- Which allocations of `genaInitNotifyCommon` succeed, and whether `ThreadPoolAdd` takes the job. -/
structure InitAllocations where
  early : Bool
  headers : Bool
  threadStruct : Bool
  accepted : Bool
  node : Bool
  deriving DecidableEq, Repr

/-- The exit of `genaInitNotifyCommon` frees what an unsuccessful call has allocated. -/
def freeCall (propertySet : List UInt8) (s : State) : State :=
  { s with heap := { s.heap with calls := s.heap.calls ++ [⟨propertySet, 0, 1⟩] } }

def genaInitNotify (alloc : InitAllocations) (deviceHandle : Int) (udn servId propertySet : List UInt8)
    (sid : Nat) (now : Int) (s : State) : State :=
  if !alloc.early then freeCall propertySet s
  else
    let found := getSubscriptionSID sid now s
    match found.1 with
    | none => freeCall propertySet found.2
    | some (i, sub) =>
        if sub.active then freeCall propertySet s
        else
          let activated := { s with subs := s.subs.set i { sub with active := true } }
          if !alloc.headers || (!alloc.threadStruct || !alloc.accepted) then freeCall propertySet activated
          else
            let input : NotifyThreadStruct :=
              ⟨s.heap.calls.length, propertySet, servId, udn, sid, now, deviceHandle⟩
            if alloc.node then
              { s with
                subs := s.subs.set i { sub with
                  active := true, outgoing := sub.outgoing ++ [⟨⟨input, true⟩, false⟩] }
                pool := s.pool ++ [input]
                heap := ⟨s.heap.live ++ [input], s.heap.calls ++ [⟨propertySet, 1, 0⟩]⟩ }
            else
              -- all is freed while the pool holds the struct
              { activated with
                pool := s.pool ++ [input]
                heap := { s.heap with calls := s.heap.calls ++ [⟨propertySet, 1, 1⟩] } }

/-- `genaNotifyThread` up to the sending of the message; `copied` where `copy_subscription` finds memory. -/
def notifyBegin (now : Int) (copied : Bool) (k : Nat) (input : NotifyThreadStruct) (s : State) : State :=
  let (found, s) := getSubscriptionSID input.sid now s
  if found.isSome && copied then { s with workers := s.workers.set k ⟨input, true⟩ }
  else { s with workers := s.workers.eraseIdx k, heap := freeNotifyStruct input s.heap }

def advanceQueue (accepted : Bool) (outgoing : List Node) : List Node × List NotifyThreadStruct :=
  match outgoing.tail with
  | [] => ([], [])
  | next :: rest =>
      (⟨{ next.job with stale := true }, !accepted⟩ :: rest, if accepted then [next.job.arg] else [])

/-- `genaNotifyThread` behind the sending; `remove` where the control point did not know the id. -/
def notifyFinish (now : Int) (remove accepted : Bool) (k : Nat) (input : NotifyThreadStruct) (s : State) : State :=
  let (found, s) := getSubscriptionSID input.sid now s
  let s := { s with workers := s.workers.eraseIdx k }
  let s :=
    match found with
    | none => s
    | some (i, sub) =>
        let (outgoing, started) := advanceQueue accepted sub.outgoing
        let sent := { s with subs := s.subs.set i { sub with outgoing := outgoing }, pool := s.pool ++ started }
        if remove then sent.drop i { sub with outgoing := outgoing } else sent
  { s with heap := freeNotifyStruct input s.heap }

inductive Label where
  | subscribe (service : Nat) (expireTime : Int)
  /-- An UNSUBSCRIBE request, a renewal that fails, or the end of the service. -/
  | removeSubscription (sid : Nat)
  | initNotify (alloc : InitAllocations) (deviceHandle : Int) (udn servId propertySet : List UInt8) (sid : Nat)
      (now : Int)
  | notifyAll (alloc : CallAllocations) (service : Option Nat) (deviceHandle : Int)
      (udn servId propertySet : List UInt8) (now : Int) (outcome : Nat → Round)
  /-- A worker takes the job at this place. -/
  | takeJob (k : Nat)
  /-- The worker at this place takes its next lock. -/
  | advance (k : Nat) (now : Int) (copied remove accepted : Bool)
  /-- `ThreadPoolShutdown` up to its wait for the workers, as one step. It frees the structs under the mutex of the
  pool and not under `HandleLock`: that a worker drops a reference of the same message in the middle of one of these
  frees, a data race on the count, is left out. -/
  | shutdown
  | shutdownEnds

/-- A step; `none` where it cannot be taken. -/
def step : Label → State → Option State
  | .subscribe service expireTime, s =>
      some { s with subs := ⟨service, s.nextSid, expireTime, false, []⟩ :: s.subs, nextSid := s.nextSid + 1 }
  | .removeSubscription sid, s => some (removeSubscriptionSID sid s)
  | .initNotify alloc deviceHandle udn servId propertySet sid now, s =>
      if s.ended then none else some (genaInitNotify alloc deviceHandle udn servId propertySet sid now s)
  | .notifyAll alloc service deviceHandle udn servId propertySet now outcome, s =>
      if s.ended then none
      else some (genaNotifyAll alloc service deviceHandle udn servId propertySet now outcome s)
  | .takeJob k, s =>
      s.pool[k]?.map fun input =>
        { s with pool := s.pool.eraseIdx k, workers := s.workers ++ [⟨input, false⟩] }
  | .advance k now copied remove accepted, s =>
      s.workers[k]?.map fun worker =>
        if worker.sending then notifyFinish now remove accepted k worker.input s
        else notifyBegin now copied k worker.input s
  | .shutdown, s => some { s with pool := [], heap := freeStructs s.pool s.heap }
  | .shutdownEnds, s => if s.workers.isEmpty then some { s with pool := [], ended := true } else none

def initial (eqMaxLen eqMaxAge : Int) : State := ⟨eqMaxLen, eqMaxAge, [], [], [], ⟨[], []⟩, 0, false⟩

/-- The structs that a queue has to free: those behind the head, and a head the pool has not taken. -/
def owned : List Node → List NotifyThreadStruct
  | [] => []
  | head :: rest => (if head.refused then [head.job.arg] else []) ++ rest.map (·.job.arg)

/-- The structs that some job, worker or queue will free. -/
def State.held (s : State) : List NotifyThreadStruct :=
  s.pool ++ (s.workers.map (·.input) ++ s.subs.flatMap fun sub => owned sub.outgoing)

/-- The count of each call is the number of its structs that are allocated; what they share has been freed once
if there are none, and not yet otherwise; and every struct has one owner that will free it. -/
structure Balanced (s : State) : Prop where
  counted : Counted (s.heap.live.map (·.event)) s.heap.calls
  owners : s.heap.live.Perm s.held

theorem maybeDiscardEvents_jobs (eqMaxLen eqMaxAge now : Int) (queue : List Node) (heap : Heap) :
    (maybeDiscardEvents eqMaxLen eqMaxAge now queue heap).1.map (·.job) =
      Gena.maybeDiscardEvents eqMaxLen eqMaxAge now (queue.map (·.job)) := by
  induction queue, heap using maybeDiscardEvents.induct eqMaxLen eqMaxAge now with
  | case1 head second rest heap discard ih =>
    rw [maybeDiscardEvents, if_pos discard, ih]
    simp only [List.map_cons]
    rw [Gena.maybeDiscardEvents, if_pos (by simpa using discard)]
  | case2 head second rest heap keep =>
    rw [maybeDiscardEvents, if_neg keep]
    simp only [List.map_cons]
    rw [Gena.maybeDiscardEvents, if_neg (by simpa using keep)]
  | case3 queue heap short =>
    rw [maybeDiscardEvents.eq_2 _ _ _ _ _ short]
    rw [Gena.maybeDiscardEvents.eq_2]
    intro head second rest shape
    obtain ⟨first, others, rfl, -, later⟩ := List.map_eq_cons_iff.mp shape
    obtain ⟨next, more, rfl, -, -⟩ := List.map_eq_cons_iff.mp later
    exact short first next more rfl

end Pupnp.Gena.Memory
