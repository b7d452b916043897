import Pupnp.Api.HandleTable
import Pupnp.Gena.ClientTable
import Pupnp.Http.Parser
import Pupnp.Ixml.Document

/-!
`gena_process_notification_event`: which subscriptions an event message is taken for. Between two of its
locked parts other threads may change the handle table in any way.
-/

namespace Pupnp.Gena.Notification
open Pupnp.Api Pupnp.CString Pupnp.Http

def HTTP_OK : Nat := 200
def HTTP_PRECONDITION_FAILED : Nat := 412

structure Client where
  callback : Nat
  cookie : Nat
  clientSubList : List ClientSubscription
  deriving DecidableEq, Repr

inductive HandleInfo where
  | device
  | client (info : Client)
  deriving DecidableEq, Repr

/-- What a thread finds under the lock: the table and the memory behind its strings. -/
structure Locked where
  handleTable : HandleTable HandleInfo
  behind : ClientSubscription → Nat → UInt8

/-- The finds of one call: for `GetClientHandleInfo`, and for each handle at the first lookup and at the
one behind the lock for subscriptions. -/
structure Finds where
  start : Locked
  first : Int → Locked
  again : Int → Locked

structure Delivery where
  client : Client
  eventKey : Int
  changedVariables : Ixml.Document
  subscription : ClientSubscription

def matchstr (str : List UInt8) (fmt : String) : MatchResult := matchFormat ⟨str, 0, true⟩ fmt

def hasXmlContentType (hmsg : HttpMessage) : Bool :=
  (httpmsgFindHdr hmsg .contentType).any fun h => (matchstr h.value "%itext%w/%wxml").1 = .ok

def readEventKey (value : List UInt8) : Option Int :=
  match matchstr value "%d%0" with
  | (.ok, _, .int key :: _) => some key
  | _ => none

structure Propchange where
  sid : List UInt8
  eventKey : Int
  changedVariables : Ixml.Document

def entityText (event : HttpMessage) (msg : List UInt8) : List UInt8 :=
  match event.entity.buf with
  | none => []
  | some offset => cstr (msg.drop offset)

def readPropchange (errorChar : Int) (event : HttpMessage) (msg : List UInt8) : Except Nat Propchange :=
  match httpmsgFindHdr event .sid with
  | none => .error HTTP_PRECONDITION_FAILED
  | some sid =>
      match (httpmsgFindHdr event .seq).bind fun seq => readEventKey seq.value with
      | none => .error HTTP_BAD_REQUEST
      | some eventKey =>
          match httpmsgFindHdr event .nt, httpmsgFindHdr event .nts with
          | some nt, some nts =>
              if memptrCmp nt.value (bytes "upnp:event") ≠ 0 || memptrCmp nts.value (bytes "upnp:propchange") ≠ 0 then
                .error HTTP_PRECONDITION_FAILED
              else if !hasXmlContentType event || msg.length = 0 then .error HTTP_BAD_REQUEST
              else
                match Ixml.ixmlParseBufferEx errorChar (entityText event msg) with
                | .error _ => .error HTTP_BAD_REQUEST
                | .ok changedVariables => .ok ⟨sid.value, eventKey, changedVariables⟩
          | _, _ => .error HTTP_BAD_REQUEST

def Locked.client (locked : Locked) (hnd : Int) : Option Client :=
  match locked.handleTable.get hnd with
  | some (.client info) => some info
  | _ => none

def getClientHandleInfo (locked : Locked) : Option Int :=
  ((List.range' 1 (NUM_HANDLE - 1)).map Int.ofNat).find? fun hnd => (locked.client hnd).isSome

/-- One round of the loop over the handles; a first event waits for the end of a subscription. -/
def lookUp (finds : Finds) (sid : List UInt8) (eventKey : Int) (hnd : Int) :
    Option (Client × ClientSubscription) :=
  (finds.first hnd).client hnd |>.bind fun info =>
    match getClientSubActualSID (finds.first hnd).behind info.clientSubList sid with
    | some subscription => some (info, subscription)
    | none =>
        if eventKey = 0 then
          (finds.again hnd).client hnd |>.bind fun info =>
            (getClientSubActualSID (finds.again hnd).behind info.clientSubList sid).map fun subscription =>
              (info, subscription)
        else none

def handlesFrom (start : Int) : List Int := (List.range (NUM_HANDLE - start.toNat)).map fun i => start + i

/-- `gena_process_notification_event`: the status that it responds with and its callbacks. -/
def genaProcessNotificationEvent (errorChar : Int) (event : HttpMessage) (msg : List UInt8) (finds : Finds) :
    Nat × List Delivery :=
  match readPropchange errorChar event msg with
  | .error status => (status, [])
  | .ok p =>
      match getClientHandleInfo finds.start with
      | none => (HTTP_PRECONDITION_FAILED, [])
      | some start =>
          let deliveries := (handlesFrom start).filterMap fun hnd =>
            (lookUp finds p.sid p.eventKey hnd).map fun found => ⟨found.1, p.eventKey, p.changedVariables, found.2⟩
          (if deliveries.isEmpty then HTTP_PRECONDITION_FAILED else HTTP_OK, deliveries)

/-! ### Which clients get an event -/

/-- The subscriptions of a client that the message is compared with, with the memory behind them. -/
structure Search where
  behind : ClientSubscription → Nat → UInt8
  clientSubList : List ClientSubscription

/-- No actual SID of the list starts with the value without being the value, unless the value is the
actual SID of another subscription of the list. -/
def Search.Apart (search : Search) (sid : List UInt8) : Prop :=
  (∃ sub ∈ search.clientSubList, sub.actualSID = sid) ∨
    ∀ sub ∈ search.clientSubList, startsMemory sub.actualSID (search.behind sub) sid = false

def searches (finds : Finds) (sid : List UInt8) (eventKey : Int) (hnd : Int) : List Search :=
  match (finds.first hnd).client hnd with
  | none => []
  | some info =>
      ⟨(finds.first hnd).behind, info.clientSubList⟩ ::
        if eventKey = 0 ∧ getClientSubActualSID (finds.first hnd).behind info.clientSubList sid = none then
          (((finds.again hnd).client hnd).map fun info => ⟨(finds.again hnd).behind, info.clientSubList⟩).toList
        else []

/-- The lists that the message is compared with in a call. -/
def searched (errorChar : Int) (event : HttpMessage) (msg : List UInt8) (finds : Finds) :
    List (List UInt8 × Search) :=
  match readPropchange errorChar event msg, getClientHandleInfo finds.start with
  | .ok p, some start =>
      ((handlesFrom start).flatMap (searches finds p.sid p.eventKey)).map fun search => (p.sid, search)
  | _, _ => []

/-- The event goes to the client for one of its own subscriptions. -/
def Delivery.Own (event : HttpMessage) (delivery : Delivery) : Prop :=
  ∃ sid, httpmsgFindHdr event .sid = some sid ∧ ∃ sub ∈ delivery.client.clientSubList, sub.actualSID = sid.value

theorem getClientSubActualSID_none {behind : ClientSubscription → Nat → UInt8} {head : List ClientSubscription}
    {sid : List UInt8} : getClientSubActualSID behind head sid = none ↔
      ∀ sub ∈ head, startsMemory sub.actualSID (behind sub) sid = false := by
  rw [getClientSubActualSID, List.find?_eq_none]
  simp only [Bool.not_eq_true]

theorem Search.apart_iff {search : Search} {sid : List UInt8} : search.Apart sid ↔
    (getClientSubActualSID search.behind search.clientSubList sid ≠ none →
      ∃ sub ∈ search.clientSubList, sub.actualSID = sid) := by
  rw [Search.Apart, ← getClientSubActualSID_none, Ne, ← or_iff_not_imp_left, or_comm]

/-- A round finds a subscription in one of its searches, and only where that has found one. -/
theorem lookUp_iff {finds : Finds} {sid : List UInt8} {eventKey hnd : Int} {P : List ClientSubscription → Prop} :
    (∀ info sub, lookUp finds sid eventKey hnd = some (info, sub) → P info.clientSubList) ↔
      ∀ search ∈ searches finds sid eventKey hnd,
        getClientSubActualSID search.behind search.clientSubList sid ≠ none → P search.clientSubList := by
  unfold lookUp searches
  cases (finds.first hnd).client hnd with
  | none => simp
  | some info =>
    dsimp only [Option.bind_some]
    cases found : getClientSubActualSID (finds.first hnd).behind info.clientSubList sid with
    | some sub => simp [found]
    | none =>
      by_cases firstEvent : eventKey = 0
      · rw [if_pos firstEvent, if_pos ⟨firstEvent, rfl⟩]
        cases (finds.again hnd).client hnd with
        | none => simp [found]
        | some later =>
          cases again : getClientSubActualSID (finds.again hnd).behind later.clientSubList sid <;>
            simp [found, again]
      · rw [if_neg firstEvent, if_neg (fun both => firstEvent both.1)]
        simp [found]

theorem readPropchange_sid {errorChar : Int} {event : HttpMessage} {msg : List UInt8} {p : Propchange}
    (good : readPropchange errorChar event msg = .ok p) :
    ∃ sid, httpmsgFindHdr event .sid = some sid ∧ p.sid = sid.value := by
  rw [readPropchange] at good
  split at good
  next => cases good
  next sid found =>
    refine ⟨sid, found, ?_⟩
    split at good
    next => cases good
    next =>
      split at good
      next =>
        split_ifs at good
        split at good
        · cases good
        · rw [← Except.ok.inj good]
      next => cases good

/-- An event reaches the right subscriptions if and only if no list that it is looked for in holds an
actual SID that merely starts with the value of the header. -/
theorem deliveries_own_iff (errorChar : Int) (event : HttpMessage) (msg : List UInt8) (finds : Finds) :
    (∀ delivery ∈ (genaProcessNotificationEvent errorChar event msg finds).2, delivery.Own event) ↔
      ∀ pair ∈ searched errorChar event msg finds, pair.2.Apart pair.1 := by
  unfold genaProcessNotificationEvent searched
  cases read : readPropchange errorChar event msg with
  | error status => simp
  | ok p =>
      obtain ⟨header, found, value⟩ := readPropchange_sid read
      cases getClientHandleInfo finds.start with
      | none => simp
      | some start =>
          have round (hnd : Int) := @lookUp_iff finds p.sid p.eventKey hnd
            fun list => ∃ sub ∈ list, sub.actualSID = p.sid
          dsimp only
          simp only [List.mem_filterMap, Option.map_eq_some_iff, List.mem_map, List.mem_flatMap,
            Search.apart_iff]
          constructor
          · rintro own pair ⟨search, ⟨hnd, inside, member⟩, rfl⟩
            refine (round hnd).mp ?_ search member
            intro info sub looked
            obtain ⟨sid, same, rest⟩ := own _ ⟨hnd, inside, (info, sub), looked, rfl⟩
            rw [found] at same
            rw [value, Option.some.inj same]
            exact rest
          · rintro apart delivery ⟨hnd, inside, ⟨info, sub⟩, looked, rfl⟩
            refine ⟨header, found, ?_⟩
            rw [← value]
            exact (round hnd).mpr (fun search member => apart _ ⟨search, ⟨hnd, inside, member⟩, rfl⟩) info sub looked

/-! ### The beginning of a SID -/

/-- A NOTIFY request whose SID header has no more than the beginning of a SID. -/
def bareSid : HttpMessage where
  method := .notify
  uri := none
  urlbuf := []
  requestMethod := .notify
  statusCode := 0
  statusMsg := []
  amountDiscarded := 0
  isRequest := true
  majorVersion := 1
  minorVersion := 1
  headers := [⟨bytes "SID", .sid, bytes "uuid:"⟩, ⟨bytes "SEQ", .seq, bytes "1"⟩, ⟨bytes "NT", .nt, bytes "upnp:event"⟩,
    ⟨bytes "NTS", .nts, bytes "upnp:propchange"⟩, ⟨bytes "CONTENT-TYPE", .contentType, bytes "text/xml"⟩]
  entity := ⟨some 0, 4⟩

def oneSubscription : Locked where
  handleTable := {
    entries := none :: some (.client ⟨7, 0, [⟨-1, bytes "uuid:1", bytes "uuid:a", []⟩]⟩) :: List.replicate 198 none
    size := by rw [List.length_cons, List.length_cons, List.length_replicate, NUM_HANDLE] }
  behind := fun _ _ => 0

theorem bareSid_delivered : ∃ delivery ∈ (genaProcessNotificationEvent 0 bareSid (bytes "<a/>")
    ⟨oneSubscription, fun _ => oneSubscription, fun _ => oneSubscription⟩).2, ¬delivery.Own bareSid := by
  have sent : (genaProcessNotificationEvent 0 bareSid (bytes "<a/>")
      ⟨oneSubscription, fun _ => oneSubscription, fun _ => oneSubscription⟩).2.map (·.client.clientSubList) =
        [[⟨-1, bytes "uuid:1", bytes "uuid:a", []⟩]] := by decide +kernel
  have member : [⟨-1, bytes "uuid:1", bytes "uuid:a", []⟩] ∈ (genaProcessNotificationEvent 0 bareSid
      (bytes "<a/>") ⟨oneSubscription, fun _ => oneSubscription, fun _ => oneSubscription⟩).2.map
        (·.client.clientSubList) := sent ▸ List.mem_singleton_self _
  obtain ⟨delivery, made, list⟩ := List.mem_map.mp member
  refine ⟨delivery, made, ?_⟩
  rintro ⟨sid, found, sub, listed, same⟩
  rw [list, List.mem_singleton] at listed
  have value : sid.value = bytes "uuid:" := by
    rw [show httpmsgFindHdr bareSid .sid = some ⟨bytes "SID", .sid, bytes "uuid:"⟩ from rfl] at found
    rw [← Option.some.inj found]
  rw [listed, value] at same
  exact absurd same (by decide)

end Pupnp.Gena.Notification
