import Pupnp.Http.Message
import Pupnp.Ssdp.AutoAdvertise

/-!
`ssdp_handle_device_request`: the loop over the devices that answer a search. It releases the lock of
the handle table between its rounds, so each round finds the table as it is then.
-/

namespace Pupnp.Ssdp.DeviceRequest
open Pupnp.Api Pupnp.CString Pupnp.Http Pupnp.Ssdp.AutoAdvertise Pupnp.Uri

structure Moment where
  handleTable : HandleTable Entry
  upnpSdkDeviceRegisteredV4 : Int
  upnpSdkDeviceregisteredV6 : Int
  /-- Whether `malloc` has memory. -/
  allocates : Bool
  /-- What `rand` gives. -/
  rand : Nat

/-- The loop of `GetDeviceHandleInfo`, from a handle on, over the handles that are left. -/
def searchDevice (table : HandleTable Entry) (family : AddrFamily) : Nat → Int → Option (Int × HandleInfo)
  | 0, _ => none
  | left + 1, hnd =>
      match table.get hnd with
      | some (.device info) =>
          if info.deviceAf = family then some (hnd, info) else searchDevice table family left (hnd + 1)
      | _ => searchDevice table family left (hnd + 1)

def getDeviceHandleInfo (now : Moment) (start : Int) (family : AddrFamily) : Option (Int × HandleInfo) :=
  if family = .inet && now.upnpSdkDeviceRegisteredV4 = 0 ||
      family = .inet6 && now.upnpSdkDeviceregisteredV6 = 0 then none
  else if start < 0 || (NUM_HANDLE : Int) - 1 ≤ start then none
  else searchDevice now.handleTable family (NUM_HANDLE - (start + 1)).toNat (start + 1)

structure SsdpSearchReply where
  maxAge : Int
  handle : Int
  destAddr : SockAddr
  requestType : SsdpSearchType
  event : SsdpEvent
  deriving DecidableEq, Repr

/-- A job that was given to the timer, with its delay in seconds. -/
structure ReplyJob where
  threadArg : SsdpSearchReply
  replyTime : Int
  deriving DecidableEq, Repr

/-- The call of `AdvertiseAndReply` that `advertiseAndReplyThread` makes. -/
def advertiseAndReplyThread (arg : SsdpSearchReply) : Call :=
  ⟨0, arg.requestType, arg.destAddr.family, arg.event.deviceType, arg.event.udn, arg.event.serviceType, arg.maxAge⟩

def MX_FUDGE_FACTOR : Int := 10

def shrinkMx (mx : Int) : Int :=
  let mx := if 2 ≤ mx then mx - max 1 (mx / MX_FUDGE_FACTOR) else mx
  if mx < 1 then 1 else mx

inductive Loop where
  | running (start mx : Int) (jobs : List ReplyJob)
  | returned (jobs : List ReplyJob)
  deriving DecidableEq, Repr

def round (destAddr : SockAddr) (st : List UInt8) (now : Moment) : Loop → Loop
  | .returned jobs => .returned jobs
  | .running start mx jobs =>
      match getDeviceHandleInfo now start destAddr.family with
      | none => .returned jobs
      | some (handle, devInfo) =>
          if now.allocates then
            let threadArg : SsdpSearchReply :=
              ⟨devInfo.maxAge, handle, destAddr, (ssdpRequestType st).2.1, (ssdpRequestType st).2.2⟩
            let mx := shrinkMx mx
            .running handle mx (jobs ++ [⟨threadArg, now.rand % mx⟩])
          else .returned jobs

def loopAfter (destAddr : SockAddr) (st : List UInt8) (mx : Int) (moments : Nat → Moment) : Nat → Loop
  | 0 => .running 0 mx []
  | n + 1 => round destAddr st (moments n) (loopAfter destAddr st mx moments n)

/-- The ST and the MX of a request that is answered. -/
def readRequest (msg : HttpMessage) : Option (List UInt8 × Int) :=
  match httpmsgFindHdr msg .man with
  | none => none
  | some man =>
      if memptrCmp man.value (bytes "\"ssdp:discover\"") ≠ 0 then none
      else
        match httpmsgFindHdr msg .mx with
        | none => none
        | some mx =>
            if rawToInt mx.value 10 < 0 then none
            else
              match httpmsgFindHdr msg .st with
              | none => none
              | some st =>
                  if (ssdpRequestType (cstr st.value)).1 = -1 then none
                  else some (cstr st.value, rawToInt mx.value 10)

/-- `ssdp_handle_device_request` after so many rounds of its loop. -/
def ssdpHandleDeviceRequest (msg : HttpMessage) (destAddr : SockAddr) (moments : Nat → Moment) (n : Nat) : Loop :=
  match readRequest msg with
  | none => .returned []
  | some (st, mx) => loopAfter destAddr st mx moments n

/-- The value of the MX header, where it has one. -/
def mxValue (msg : HttpMessage) : Option Int := (httpmsgFindHdr msg .mx).map fun mx => rawToInt mx.value 10

/-! ### One round -/

theorem searchDevice_some {table : HandleTable Entry} {family : AddrFamily} {left : Nat} {hnd handle : Int}
    {info : HandleInfo} (found : searchDevice table family left hnd = some (handle, info)) :
    hnd ≤ handle ∧ table.get handle = some (.device info) ∧ info.deviceAf = family := by
  induction left generalizing hnd with
  | zero => cases found
  | succ left ih =>
    have later (rest : searchDevice table family left (hnd + 1) = some (handle, info)) :
        hnd ≤ handle ∧ table.get handle = some (.device info) ∧ info.deviceAf = family := by
      obtain ⟨above, device⟩ := ih rest
      exact ⟨by omega, device⟩
    simp only [searchDevice] at found
    split at found
    next here device =>
      split at found
      next same =>
        cases found
        exact ⟨le_rfl, device, same⟩
      next => exact later found
    next => exact later found

/-- A device that is found has a later handle, and the address family that is asked for. -/
theorem getDeviceHandleInfo_some {now : Moment} {start handle : Int} {family : AddrFamily} {info : HandleInfo}
    (found : getDeviceHandleInfo now start family = some (handle, info)) :
    start < handle ∧ handle < NUM_HANDLE ∧ now.handleTable.get handle = some (.device info) ∧
      info.deviceAf = family := by
  simp only [getDeviceHandleInfo] at found
  split at found
  · cases found
  split at found
  · cases found
  obtain ⟨above, device, same⟩ := searchDevice_some found
  have valid := HandleTable.get_valid device
  exact ⟨by omega, valid.2, device, same⟩

theorem shrinkMx_bounds {mx : Int} (positive : 0 ≤ mx) : 1 ≤ shrinkMx mx ∧ shrinkMx mx ≤ max 1 mx := by
  simp only [shrinkMx, MX_FUDGE_FACTOR]
  split <;> split <;> omega

theorem readRequest_some {msg : HttpMessage} {st : List UInt8} {mx : Int}
    (read : readRequest msg = some (st, mx)) : mxValue msg = some mx ∧ 0 ≤ mx := by
  simp only [readRequest] at read
  cases manFound : httpmsgFindHdr msg .man with
  | none => simp [manFound] at read
  | some man =>
    cases mxFound : httpmsgFindHdr msg .mx with
    | none => simp [manFound, mxFound] at read
    | some mxHdr =>
      cases stFound : httpmsgFindHdr msg .st with
      | none => simp [manFound, mxFound, stFound] at read
      | some stHdr =>
        simp only [manFound, mxFound, stFound] at read
        split_ifs at read with discover negative bad
        cases read
        exact ⟨by rw [mxValue, mxFound, Option.map_some], by omega⟩

/-- A reply that a round has scheduled: to a device of the table of that time and of the family of the
sender, within the time that the request allows. -/
structure ReplyJob.Right (job : ReplyJob) (destAddr : SockAddr) (st : List UInt8) (mx : Int) (now : Moment) :
    Prop where
  device : ∃ info, now.handleTable.get job.threadArg.handle = some (.device info) ∧
    info.deviceAf = destAddr.family ∧
    advertiseAndReplyThread job.threadArg = searchCall info destAddr.family st
  dest : job.threadArg.destAddr = destAddr
  delay : 0 ≤ job.replyTime ∧ job.replyTime < max 1 mx

structure JobsRight (destAddr : SockAddr) (st : List UInt8) (mx : Int) (moments : Nat → Moment)
    (jobs : List ReplyJob) : Prop where
  ascend : (jobs.map (·.threadArg.handle)).Pairwise (· < ·)
  right : ∀ i (job : ReplyJob), jobs[i]? = some job → job.Right destAddr st mx (moments i)

inductive Inv (destAddr : SockAddr) (st : List UInt8) (mx : Int) (moments : Nat → Moment) (n : Nat) : Loop → Prop where
  | running {start left : Int} {jobs : List ReplyJob} (passed : n ≤ start) (inside : start < NUM_HANDLE)
      (positive : 0 ≤ left) (least : left ≤ max 1 mx) (length : jobs.length = n)
      (before : ∀ job ∈ jobs, job.threadArg.handle ≤ start) (right : JobsRight destAddr st mx moments jobs) :
      Inv destAddr st mx moments n (.running start left jobs)
  | returned {jobs : List ReplyJob} (right : JobsRight destAddr st mx moments jobs) :
      Inv destAddr st mx moments n (.returned jobs)

section
variable {destAddr : SockAddr} {st : List UInt8} {mx : Int} {moments : Nat → Moment}

theorem JobsRight.add {jobs : List ReplyJob} (right : JobsRight destAddr st mx moments jobs) {job : ReplyJob}
    (later : ∀ earlier ∈ jobs, earlier.threadArg.handle < job.threadArg.handle)
    (here : job.Right destAddr st mx (moments jobs.length)) :
    JobsRight destAddr st mx moments (jobs ++ [job]) := by
  constructor
  · rw [List.map_append, List.pairwise_append]
    refine ⟨right.ascend, List.pairwise_singleton _ _, ?_⟩
    intro a isEarlier b isLast
    obtain ⟨earlier, member, rfl⟩ := List.mem_map.mp isEarlier
    obtain rfl : b = job.threadArg.handle := by simpa using isLast
    exact later earlier member
  · intro i found at_i
    by_cases last : i = jobs.length
    · subst last
      obtain rfl : job = found := by simpa using at_i
      exact here
    · have room := (List.getElem?_eq_some_iff.mp at_i).1
      rw [List.length_append, List.length_singleton] at room
      rw [List.getElem?_append_left (by omega)] at at_i
      exact right.right i found at_i

/-- A round schedules nothing and returns, or schedules the reply of one more device. -/
theorem Inv.round {n : Nat} {loop : Loop} (inv : Inv destAddr st mx moments n loop) :
    Inv destAddr st mx moments (n + 1) (round destAddr st (moments n) loop) := by
  cases inv with
  | returned right => exact .returned right
  | @running start left jobs passed inside positive least length before right =>
    simp only [DeviceRequest.round]
    split
    next => exact .returned right
    next handle devInfo found =>
      split
      next =>
        obtain ⟨above, valid, device, family⟩ := getDeviceHandleInfo_some found
        obtain ⟨one, most⟩ := shrinkMx_bounds positive
        have delayed : 0 ≤ ((moments n).rand : Int) % shrinkMx left := Int.emod_nonneg _ (by omega)
        have bounded : ((moments n).rand : Int) % shrinkMx left < shrinkMx left := Int.emod_lt_of_pos _ (by omega)
        apply Inv.running
        · omega
        · exact valid
        · omega
        · omega
        · rw [List.length_append, List.length_singleton, length]
        · intro job member
          obtain old | new := List.mem_append.mp member
          · exact (before job old).trans above.le
          · rw [List.mem_singleton.mp new]
        · apply right.add
          · intro earlier member
            exact (before earlier member).trans_lt above
          · rw [length]
            exact ⟨⟨devInfo, device, family, rfl⟩, rfl, delayed, bounded.trans_le (by omega)⟩
      next => exact .returned right

end

theorem loopAfter_inv (destAddr : SockAddr) (st : List UInt8) {mx : Int} (positive : 0 ≤ mx)
    (moments : Nat → Moment) (n : Nat) : Inv destAddr st mx moments n (loopAfter destAddr st mx moments n) := by
  induction n with
  | zero =>
    have none : JobsRight destAddr st mx moments [] := ⟨List.Pairwise.nil, by simp⟩
    exact .running le_rfl (by decide) positive (by omega) rfl (by simp) none
  | succ n ih => exact ih.round

/-- A loop that has gone through as many rounds as there are handles has returned for good. -/
theorem loopAfter_returned (destAddr : SockAddr) (st : List UInt8) {mx : Int} (positive : 0 ≤ mx)
    (moments : Nat → Moment) : ∃ jobs, JobsRight destAddr st mx moments jobs ∧
      ∀ n, NUM_HANDLE ≤ n → loopAfter destAddr st mx moments n = .returned jobs := by
  have inv := loopAfter_inv destAddr st positive moments NUM_HANDLE
  generalize reached : loopAfter destAddr st mx moments NUM_HANDLE = loop at inv
  cases inv with
  | running passed inside => omega
  | @returned jobs right =>
    refine ⟨jobs, right, fun n enough => ?_⟩
    induction n, enough using Nat.le_induction with
    | base => exact reached
    | succ n _ ih => rw [loopAfter, ih, round]

/-- A request, whatever its MX is and whatever becomes of the handle table: the loop returns, with at most
one reply for each device handle. -/
theorem ssdpHandleDeviceRequest_returns (msg : HttpMessage) (destAddr : SockAddr) (moments : Nat → Moment) :
    ∃ jobs, (∀ n, NUM_HANDLE ≤ n → ssdpHandleDeviceRequest msg destAddr moments n = .returned jobs) ∧
      (jobs.map (·.threadArg.handle)).Pairwise (· < ·) ∧
      ∀ i (job : ReplyJob), jobs[i]? = some job → ∃ st mx, readRequest msg = some (st, mx) ∧ mxValue msg = some mx ∧ 0 ≤ mx ∧
        job.Right destAddr st mx (moments i) := by
  simp only [ssdpHandleDeviceRequest]
  cases read : readRequest msg with
  | none => exact ⟨[], fun _ _ => rfl, List.Pairwise.nil, by simp⟩
  | some request =>
      obtain ⟨st, mx⟩ := request
      obtain ⟨value, positive⟩ := readRequest_some read
      obtain ⟨jobs, right, returned⟩ := loopAfter_returned destAddr st positive moments
      refine ⟨jobs, returned, right.ascend, fun i job found => ?_⟩
      exact ⟨st, mx, rfl, value, positive, right.right i job found⟩

end Pupnp.Ssdp.DeviceRequest
