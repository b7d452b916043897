import Mathlib.Data.List.Sort
import Pupnp.Library.CString
import Pupnp.ThreadPool.Pool

/-!
The timer thread: jobs that wait in a queue for their time. A step of a thread is what it does between
taking the timer's mutex and giving it back; the worker keeps the mutex from one round of its loop to
the next.
-/

namespace Pupnp.TimerThread
open Pupnp.CString Pupnp.Run Pupnp.ThreadPool

variable {α : Type}

inductive TimeoutType where
  | absSec
  | relSec
  deriving DecidableEq, Repr

inductive Duration where
  | shortTerm
  | persistent
  deriving DecidableEq, Repr

def INVALID_EVENT_ID : Int := 2 ^ 29

/-- A `ThreadPoolJob`: what the pool is given of it, and what the timer looks at before it frees it. -/
structure TimerJob (α : Type) where
  request : JobRequest α
  arg : Bool
  freeFunc : Bool
  deriving DecidableEq, Repr

/-- `serial` counts the events that have been created; the code does not have it. -/
structure TimerEvent (α : Type) where
  job : TimerJob α
  eventTime : Int
  persistent : Duration
  id : Int
  serial : Nat
  deriving DecidableEq, Repr

structure Timer (α : Type) where
  shutdown : Bool
  lastEventId : Int
  eventQ : List (TimerEvent α)
  created : Nat
  deriving DecidableEq, Repr

def calculateEventTime (now timeout : Int) : TimeoutType → Int
  | .absSec => timeout
  | .relSec => timeout + now

def addEvent (newEvent : TimerEvent α) : List (TimerEvent α) → List (TimerEvent α)
  | [] => [newEvent]
  | temp :: others =>
      if newEvent.eventTime ≤ temp.eventTime then newEvent :: temp :: others
      else temp :: addEvent newEvent others

/-- A call of `TimerThreadSchedule` that has worked out its event time. -/
structure ScheduleCall (α : Type) where
  job : TimerJob α
  duration : Duration
  eventTime : Int
  deriving DecidableEq, Repr

/-- What `TimerThreadSchedule` returns, the id it stores, and the event if it is in the queue. -/
structure Scheduled (α : Type) where
  rc : Int
  id : Int
  event : Option (TimerEvent α)
  deriving DecidableEq, Repr

/-- `TimerThreadSchedule` under the mutex; it may get no memory for the event or for the list node. -/
def timerThreadSchedule (allocates links : Bool) (timer : Timer α) (call : ScheduleCall α) :
    Scheduled α × Timer α :=
  if allocates then
    let newEvent : TimerEvent α :=
      { job := call.job, eventTime := call.eventTime, persistent := call.duration, id := timer.lastEventId,
        serial := timer.created }
    let after := { timer with lastEventId := toInt32 (timer.lastEventId + 1), created := timer.created + 1 }
    if links then
      (⟨0, timer.lastEventId, some newEvent⟩, { after with eventQ := addEvent newEvent timer.eventQ })
    else (⟨EOUTOFMEM, timer.lastEventId, none⟩, after)
  else (⟨EOUTOFMEM, INVALID_EVENT_ID, none⟩, timer)

def timerThreadRemove (timer : Timer α) (id : Int) : Int × Option (TimerEvent α) × Timer α :=
  match timer.eventQ.find? (·.id = id) with
  | none => (INVALID_EVENT_ID, none, timer)
  | some temp => (0, some temp, { timer with eventQ := timer.eventQ.eraseP (·.id = id) })

/-- The calls of `TimerThreadSchedule` and `TimerThreadRemove` with what they return, and what becomes of an
event otherwise. -/
inductive Happening (α : Type) where
  | scheduled (returned : Scheduled α)
  | handed (event : TimerEvent α) (time : Int)
  | removed (id rc : Int) (out : Option (TimerEvent α))
  | dropped (event : TimerEvent α) (freed : Bool)
  deriving DecidableEq, Repr

def timerThreadShutdown (timer : Timer α) : List (Happening α) × Timer α :=
  (timer.eventQ.map fun temp => .dropped temp temp.job.freeFunc, { timer with shutdown := true, eventQ := [] })

inductive Worker where
  | unlocked
  | locked
  | returned
  deriving DecidableEq, Repr

/-- One round of `TimerThreadWorker`: the worker afterwards, and what happens to the next event.
`accepted` is whether the pool takes the job. -/
def timerThreadWorker (currentTime : Int) (accepted : Bool) (timer : Timer α) :
    Worker × List (Happening α) × Timer α :=
  if timer.shutdown then (.returned, [], { timer with shutdown := false })
  else
    match timer.eventQ with
    | [] => (.unlocked, [], timer)
    | nextEvent :: others =>
        if nextEvent.eventTime ≤ currentTime then
          (.locked,
            [if accepted then .handed nextEvent currentTime
              else .dropped nextEvent (nextEvent.job.arg && nextEvent.job.freeFunc)],
            { timer with eventQ := others })
        else (.unlocked, [], timer)

/-- `clock` is the last reading of `time`; `shutdowns` counts the calls that wait for the worker. -/
structure State (α : Type) where
  timer : Timer α
  worker : Worker
  calls : List (ScheduleCall α)
  shutdowns : Nat
  destroyed : Bool
  clock : Int
  log : List (Happening α)
  deriving DecidableEq, Repr

inductive Label (α : Type) where
  | call (now timeout : Int) (type : TimeoutType) (job : TimerJob α) (duration : Duration)
  | schedule (i : Nat) (allocates links : Bool)
  | remove (id : Int)
  | wake
  | work (now : Int) (accepted : Bool)
  | shutdown
  | shutdownEnd
  deriving DecidableEq, Repr

def State.free (s : State α) : Bool := !s.destroyed && s.worker ≠ .locked

/-- One step; a clock is never read before an earlier reading, and no thread takes a held mutex. -/
def step : Label α → State α → Option (State α)
  | .call now timeout type job duration, s =>
      if s.clock ≤ now then
        some { s with clock := now, calls := s.calls ++ [⟨job, duration, calculateEventTime now timeout type⟩] }
      else none
  | .schedule i allocates links, s =>
      if s.free then
        (s.calls[i]?).map fun call =>
          let r := timerThreadSchedule allocates links s.timer call
          { s with timer := r.2, calls := s.calls.eraseIdx i, log := s.log ++ [.scheduled r.1] }
      else none
  | .remove id, s =>
      if s.free then
        let r := timerThreadRemove s.timer id
        some { s with timer := r.2.2, log := s.log ++ [.removed id r.1 r.2.1] }
      else none
  | .wake, s => if s.free && s.worker = .unlocked then some { s with worker := .locked } else none
  | .work now accepted, s =>
      if s.worker = .locked && s.clock ≤ now then
        let r := timerThreadWorker now accepted s.timer
        some { s with worker := r.1, timer := r.2.2, clock := now, log := s.log ++ r.2.1 }
      else none
  | .shutdown, s =>
      if s.free then
        let r := timerThreadShutdown s.timer
        some { s with timer := r.2, shutdowns := s.shutdowns + 1, log := s.log ++ r.1 }
      else none
  | .shutdownEnd, s =>
      if s.free && 0 < s.shutdowns && !s.timer.shutdown then some { s with shutdowns := s.shutdowns - 1, destroyed := true }
      else none

/-- The timer as `TimerThreadInit` leaves it, with its worker about to start. -/
def initial (clock : Int) : State α :=
  { timer := { shutdown := false, lastEventId := 0, eventQ := [], created := 0 }
    worker := .unlocked, calls := [], shutdowns := 0, destroyed := false, clock := clock, log := [] }

end Pupnp.TimerThread
