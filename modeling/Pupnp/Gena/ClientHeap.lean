import Pupnp.Gena.AutoRenew
import Pupnp.Library.LinkedHeap

/-!
`ClientSubList` in memory. The subscriptions of a control point are linked objects, which `genaSubscribe`
allocates before its exchange with the device and puts in front of the list behind it; any allocation may
fail. What a call does between taking `HandleLock` and giving it back is one step.
-/

namespace Pupnp.Gena.ClientHeap
open Pupnp.CString Pupnp.Run Pupnp.LinkedHeap Pupnp.TimerThread
open Pupnp.Gena.AutoRenew (Job AUTO_RENEW_TIME UPNP_INFINITE freeClientSubscription)

def UPNP_E_SUCCESS : Int := 0
def UPNP_E_INVALID_HANDLE : Int := -100
def UPNP_E_OUTOF_MEMORY : Int := -104
def GENA_E_BAD_HANDLE : Int := UPNP_E_INVALID_HANDLE

def SID_SIZE : Nat := 44

inductive Thread where
  /-- `genaSubscribe` during the exchange with the device, with its `newSubscription`. -/
  | subscribing (newSubscription : Option Nat)
  | done
  deriving DecidableEq, Repr

structure State where
  /-- `GetHandleInfo(client_handle) == HND_CLIENT` -/
  registered : Bool
  clientSubList : Option Nat
  heap : Heap ClientSubscription
  timer : Timer Job
  threads : List Thread

def State.initial : State := ⟨false, none, ∅, ⟨false, 0, [], 0⟩, []⟩

def genlibClientSubscriptionNew (p : Option Nat) (s : State) : State :=
  match p with
  | none => s
  | some a => { s with heap := s.heap.insert a ⟨⟨0, [], [], []⟩, none⟩ }

def genlibClientSubscriptionDelete (q : Option Nat) (s : State) : State :=
  match q with
  | none => s
  | some a => { s with heap := s.heap.erase a }

/-! ### `genaSubscribe` -/

/-- Which allocations of `ScheduleGenaAutoRenew` succeed; `event` and `node` are those of
`TimerThreadSchedule`. -/
structure ScheduleAllocations where
  renewEvent : Bool
  arg : Bool
  event : Bool
  node : Bool
  deriving DecidableEq, Repr

def ScheduleAllocations.all (alloc : ScheduleAllocations) : Bool :=
  alloc.renewEvent && (alloc.arg && (alloc.event && alloc.node))

def scheduleGenaAutoRenew (alloc : ScheduleAllocations) (now timeOut : Int) (sub : ClientSubscription)
    (timer : Timer Job) : Int × ClientSubscription × Timer Job :=
  if timeOut = UPNP_INFINITE then (UPNP_E_SUCCESS, sub, timer)
  else if !alloc.renewEvent then (UPNP_E_OUTOF_MEMORY, sub, timer)
  else if !alloc.arg then (UPNP_E_OUTOF_MEMORY, sub, timer)
  else
    let job : TimerJob Job := ⟨⟨.autoRenew sub.sid, .med⟩, true, true⟩
    let call : ScheduleCall Job := ⟨job, .shortTerm, calculateEventTime now (timeOut - AUTO_RENEW_TIME) .relSec⟩
    let (scheduled, timer) := timerThreadSchedule alloc.event alloc.node timer call
    if scheduled.rc ≠ UPNP_E_SUCCESS then (scheduled.rc, sub, timer)
    else (UPNP_E_SUCCESS, { sub with renewEventId := scheduled.id }, timer)

structure Exchange where
  rc : Int
  actualSID : List UInt8
  timeOut : Int
  deriving DecidableEq, Repr

/-- The first part of `genaSubscribe`: the return value where it ends here, and the state. -/
def genaSubscribeBegin (newSubscription : Option Nat) (s : State) : Option Int × State :=
  let s := genlibClientSubscriptionNew newSubscription s
  if !s.registered then (some GENA_E_BAD_HANDLE, genlibClientSubscriptionDelete newSubscription s)
  else (none, { s with threads := s.threads ++ [.subscribing newSubscription] })

def errorHandler (returnCode : Int) (newSubscription : Option Nat) (s : State) : Int × State :=
  (returnCode, if returnCode ≠ UPNP_E_SUCCESS then genlibClientSubscriptionDelete newSubscription s else s)

/-- Its second part, behind the exchange; `uuid` is the text of the UUID that it creates. -/
def genaSubscribeEnd (newSubscription : Option Nat) (exchange : Exchange) (uuid publisherURL : List UInt8)
    (alloc : ScheduleAllocations) (now : Int) (s : State) : Int × State :=
  if exchange.rc ≠ UPNP_E_SUCCESS then errorHandler exchange.rc newSubscription s
  else if !s.registered then errorHandler GENA_E_BAD_HANDLE newSubscription s
  else
    let tempSid2 := bytes "uuid:" ++ uuid
    if SID_SIZE ≤ tempSid2.length then errorHandler UPNP_E_OUTOF_MEMORY newSubscription s
    else
      match newSubscription with
      | none => errorHandler UPNP_E_OUTOF_MEMORY newSubscription s
      | some a =>
          let (returnCode, sub, timer) :=
            scheduleGenaAutoRenew alloc now exchange.timeOut ⟨-1, tempSid2, exchange.actualSID, publisherURL⟩ s.timer
          errorHandler returnCode newSubscription
            { s with
              clientSubList := some a
              heap := s.heap.insert a ⟨sub, s.clientSubList⟩
              timer := timer }

/-! ### The other calls -/

/-- The loop of `RemoveClientSubClientSID`: the subscription that it frees, the head and the heap. `none`
where it reads an object that is not allocated; the number bounds its rounds. -/
def removeLoop (sid : List UInt8) (head : Option Nat) (heap : Heap ClientSubscription) :
    Nat → Option Nat → Option Nat → Option (Option ClientSubscription × Option Nat × Heap ClientSubscription)
  | _, _, none => some (none, head, heap)
  | 0, _, some _ => none
  | rounds + 1, previous, some finger =>
      (heap.lookup finger).bind fun object =>
        if sid = object.value.sid then
          (relink previous object.next head heap).map fun linked =>
            (some object.value, linked.1, linked.2.erase finger)
        else removeLoop sid head heap rounds (some finger) object.next

def removeClientSubClientSID (sid : List UInt8) (s : State) : Option State :=
  (removeLoop sid s.clientSubList s.heap s.heap.entries.length none s.clientSubList).map fun removed =>
    { s with
      clientSubList := removed.2.1
      heap := removed.2.2
      timer := match removed.1 with
        | none => s.timer
        | some sub => freeClientSubscription sub s.timer }

def getClientSubClientSID (sid : List UInt8) (heap : Heap ClientSubscription) : Nat → Option Nat → Option (Option Nat)
  | _, none => some none
  | 0, some _ => none
  | rounds + 1, some next =>
      (heap.lookup next).bind fun object =>
        if object.value.sid = sid then some (some next) else getClientSubClientSID sid heap rounds object.next

def State.find (sid : List UInt8) (s : State) : Option (Option Nat) :=
  getClientSubClientSID sid s.heap s.heap.entries.length s.clientSubList

def State.store (a : Nat) (f : ClientSubscription → ClientSubscription) (s : State) : Option State :=
  (s.heap.lookup a).map fun object => { s with heap := s.heap.insert a { object with value := f object.value } }

def renewBegin (inSid : List UInt8) (s : State) : Option State :=
  if !s.registered then some s
  else (s.find inSid).bind fun
    | none => some s
    | some a => (s.heap.lookup a).bind fun object =>
        { s with timer := (timerThreadRemove s.timer object.value.renewEventId).2.2 }.store a
          fun sub => { sub with renewEventId := -1 }

def renewEnd (inSid : List UInt8) (exchange : Exchange) (alloc : ScheduleAllocations) (now : Int) (s : State) :
    Option State :=
  if !s.registered then some s
  else if exchange.rc ≠ UPNP_E_SUCCESS then removeClientSubClientSID inSid s
  else (s.find inSid).bind fun
    | none => some s
    | some a => (s.heap.lookup a).bind fun object =>
        let (returnCode, sub, timer) :=
          scheduleGenaAutoRenew alloc now exchange.timeOut { object.value with actualSID := exchange.actualSID } s.timer
        ({ s with timer := timer }.store a fun _ => sub).bind fun s =>
          if returnCode ≠ UPNP_E_SUCCESS then removeClientSubClientSID sub.sid s else some s

inductive Label where
  /-- `UpnpRegisterClient` -/
  | register
  /-- `GenlibClientSubscription_new` gives `genaSubscribe` this object. -/
  | subscribe (newSubscription : Option Nat)
  | subscribeEnd (i : Nat) (exchange : Exchange) (uuid publisherURL : List UInt8) (alloc : ScheduleAllocations) (now : Int)
  | renewBegin (inSid : List UInt8)
  | renewEnd (inSid : List UInt8) (exchange : Exchange) (alloc : ScheduleAllocations) (now : Int)
  /-- `genaUnSubscribe` and `genaUnregisterClient` give up a subscription. -/
  | remove (sid : List UInt8)
  /-- The second part of `UpnpUnRegisterClient`. -/
  | freeHandle
  /-- The worker of the timer, or another part of the library that uses it. -/
  | elsewhere (timer : Timer Job)

/-- One step. A call of which more than one part is modelled by itself may come to any of them at any time. -/
def step : Label → State → Option State
  | .register, s => if s.registered then none else some { s with registered := true, clientSubList := none }
  | .subscribe newSubscription, s =>
      if newSubscription.any fun a => (s.heap.lookup a).isSome then none else some (genaSubscribeBegin newSubscription s).2
  | .subscribeEnd i exchange uuid publisherURL alloc now, s =>
      match s.threads[i]? with
      | some (.subscribing newSubscription) =>
          let s := { s with threads := s.threads.set i .done }
          some (genaSubscribeEnd newSubscription exchange uuid publisherURL alloc now s).2
      | _ => none
  | .renewBegin inSid, s => ClientHeap.renewBegin inSid s
  | .renewEnd inSid exchange alloc now, s => ClientHeap.renewEnd inSid exchange alloc now s
  | .remove sid, s => if s.registered then removeClientSubClientSID sid s else some s
  | .freeHandle, s => some { s with registered := false, clientSubList := if s.registered then none else s.clientSubList }
  | .elsewhere timer, s => some { s with timer := timer }

end Pupnp.Gena.ClientHeap
