import Pupnp.Http.RecvMessage

/-!
The time-out of `http_RecvMessage`: `sock_read_write` takes from it the seconds that each
call took, by two readings of the clock.
-/

namespace Pupnp.Http
open Pupnp.CString Pupnp.Uri

def UPNP_E_TIMEDOUT : Int := -207
def UPNP_E_SOCKET_ERROR : Int := -208

/-- The last result of `select` in a call; one that a signal interrupts is called again. -/
inductive SelectResult where
  | timedOut
  | failed
  | ready
  deriving DecidableEq, Repr

/-- What the system does in one call of `sock_read_write`. -/
structure SockCall where
  /-- `time(NULL)` when the call begins -/
  startTime : Int
  selected : SelectResult
  /-- the bytes of `recv`, none for -1 -/
  received : Option (List UInt8)
  /-- `time(NULL)` behind the read -/
  endTime : Int
  deriving DecidableEq, Repr

def sockResult (buf : List UInt8) : SockRead := if some : buf ≠ [] then .data buf some else .closed

/-- `sock_read_write` for a read, with `*timeoutSecs` when it returns. -/
def sockReadWrite (timeoutSecs : Int) (call : SockCall) : SockRead × Int :=
  match call.selected with
  | .timedOut => (.error UPNP_E_TIMEDOUT (by decide), timeoutSecs)
  | .failed => (.error UPNP_E_SOCKET_ERROR (by decide), timeoutSecs)
  | .ready =>
      match call.received with
      | none => (.error UPNP_E_SOCKET_ERROR (by decide), timeoutSecs)
      | some buf =>
          (sockResult buf,
            if timeoutSecs ≠ 0 then toInt32 (timeoutSecs - toInt32 (call.endTime - call.startTime))
            else timeoutSecs)

/-- What a call reads does not depend on its time-out. -/
def SockCall.read (call : SockCall) : SockRead := (sockReadWrite 0 call).1

def timeoutAfter (timeoutSecs : Int) (calls : List SockCall) : Int :=
  calls.foldl (fun left call => (sockReadWrite left call).2) timeoutSecs

theorem sockReadWrite_data {timeoutSecs : Int} {call : SockCall} (data : call.read.isData = true) :
    (sockReadWrite timeoutSecs call).2 =
      if timeoutSecs = 0 then 0 else toInt32 (timeoutSecs - toInt32 (call.endTime - call.startTime)) := by
  unfold SockCall.read sockReadWrite at data
  unfold sockReadWrite
  split at data
  · cases data
  · cases data
  · split at data
    · cases data
    · split_ifs <;> simp_all

/-! ### The seconds of the calls -/

def elapsed (calls : List SockCall) : Int := (calls.map fun call => call.endTime - call.startTime).sum

def remaining (timeoutSecs : Int) (calls : List SockCall) : Int := toInt32 (timeoutSecs - elapsed calls)

def UsedUp (timeoutSecs : Int) (calls : List SockCall) : Prop :=
  ∃ first ∈ calls.inits, remaining timeoutSecs first = 0

instance (timeoutSecs : Int) (calls : List SockCall) : Decidable (UsedUp timeoutSecs calls) :=
  inferInstanceAs (Decidable (∃ _ ∈ _, _))

theorem remaining_append (timeoutSecs : Int) (calls : List SockCall) (call : SockCall) :
    remaining timeoutSecs (calls ++ [call]) =
      toInt32 (remaining timeoutSecs calls - toInt32 (call.endTime - call.startTime)) := by
  have total : elapsed (calls ++ [call]) = elapsed calls + (call.endTime - call.startTime) := by
    simp [elapsed]
  rw [remaining, remaining, total, toInt32, toInt32, toInt32, toInt32, Int.sub_bmod_bmod, Int.bmod_sub_bmod]
  congr 1
  omega

theorem remaining_nil {timeoutSecs : Int} (nonneg : 0 ≤ timeoutSecs) (int : timeoutSecs < 2 ^ 31) :
    remaining timeoutSecs [] = timeoutSecs := by
  have none : elapsed [] = 0 := rfl
  rw [remaining, none, Int.sub_zero, toInt32]
  apply Int.bmod_eq_of_le <;> omega

theorem usedUp_append (timeoutSecs : Int) (calls : List SockCall) (call : SockCall) :
    UsedUp timeoutSecs (calls ++ [call]) ↔
      UsedUp timeoutSecs calls ∨ remaining timeoutSecs (calls ++ [call]) = 0 := by
  simp only [UsedUp, List.mem_inits, List.prefix_concat_iff]
  constructor
  · rintro ⟨first, rfl | earlier, zero⟩
    · exact .inr zero
    · exact .inl ⟨first, earlier, zero⟩
  · rintro (⟨first, earlier, zero⟩ | zero)
    · exact ⟨first, .inr earlier, zero⟩
    · exact ⟨_, .inl rfl, zero⟩

theorem timeoutAfter_eq {timeoutSecs : Int} (nonneg : 0 ≤ timeoutSecs) (int : timeoutSecs < 2 ^ 31)
    {calls : List SockCall} (data : ∀ call ∈ calls, call.read.isData = true) :
    timeoutAfter timeoutSecs calls = if UsedUp timeoutSecs calls then 0 else remaining timeoutSecs calls := by
  induction calls using List.reverseRecOn with
  | nil =>
    rw [remaining_nil nonneg int]
    split_ifs with zero
    · obtain ⟨first, member, zero⟩ := zero
      rw [List.mem_inits, List.prefix_nil] at member
      rw [member, remaining_nil nonneg int] at zero
      exact zero
    · rfl
  | append_singleton calls call ih =>
    have before := ih fun other member => data other (List.mem_append_left _ member)
    have here := data call (List.mem_append_right _ List.mem_cons_self)
    have step : timeoutAfter timeoutSecs (calls ++ [call]) =
        (sockReadWrite (timeoutAfter timeoutSecs calls) call).2 := by
      rw [timeoutAfter, List.foldl_append]
      rfl
    rw [step, sockReadWrite_data here, before]
    by_cases zero : UsedUp timeoutSecs calls
    · rw [if_pos zero, if_pos rfl, if_pos ((usedUp_append _ _ _).mpr (.inl zero))]
    · have other : remaining timeoutSecs calls ≠ 0 := fun none =>
        zero ⟨calls, (List.mem_inits _ _).mpr (List.prefix_refl calls), none⟩
      rw [if_neg zero, if_neg other, ← remaining_append]
      split_ifs with now
      · obtain earlier | last := (usedUp_append _ _ _).mp now
        · exact absurd earlier zero
        · exact last
      · rfl

/-! ### The loop -/

theorem httpRecvLoop_data {res : Resolver} {maxContentLength : Nat} {okOnClose : Bool} {p : HttpParser}
    {reads : List SockRead} (waits : httpRecvLoop res maxContentLength okOnClose p reads = none) :
    ∀ r ∈ reads, r.isData = true := by
  induction reads generalizing okOnClose p with
  | nil => exact List.forall_mem_nil _
  | cons r reads ih =>
    cases r with
    | data buf some =>
      rw [List.forall_mem_cons]
      refine ⟨rfl, ?_⟩
      rw [httpRecvLoop] at waits
      split at waits
      · split_ifs at waits
      · cases waits
      · cases waits
      · exact ih waits
      · cases waits
      · exact ih waits
      · exact ih waits
    | closed =>
      rw [httpRecvLoop] at waits
      split_ifs at waits
    | error code negative => cases waits

/-- No call of `sock_read` in the loop gets a negative time-out. -/
def NeverNegative (res : Resolver) (maxContentLength : Nat) (requestMethod : HttpMethod) (timeoutSecs : Int)
    (calls : List SockCall) : Prop :=
  ∀ earlier ∈ calls.inits,
    httpRecvMessage res maxContentLength requestMethod (earlier.map SockCall.read) = none →
      0 ≤ timeoutAfter timeoutSecs earlier

/-- The calls take no longer than the time-out, or some first ones exactly as long. -/
def InTime (timeoutSecs : Int) (calls : List SockCall) : Prop :=
  UsedUp timeoutSecs calls ∨ 0 ≤ remaining timeoutSecs calls

instance (timeoutSecs : Int) (calls : List SockCall) : Decidable (InTime timeoutSecs calls) :=
  inferInstanceAs (Decidable (_ ∨ _))

/-- A finite time-out stays finite as long as no read passes it. -/
theorem httpRecvMessage_timeout_iff {res : Resolver} {maxContentLength : Nat} {requestMethod : HttpMethod}
    {timeoutSecs : Int} (nonneg : 0 ≤ timeoutSecs) (int : timeoutSecs < 2 ^ 31) {calls : List SockCall} :
    NeverNegative res maxContentLength requestMethod timeoutSecs calls ↔
      ∀ earlier ∈ calls.inits,
        httpRecvMessage res maxContentLength requestMethod (earlier.map SockCall.read) = none →
          InTime timeoutSecs earlier := by
  apply forall₂_congr
  intro earlier _
  apply imp_congr_right
  intro waits
  have data := httpRecvLoop_data waits
  rw [List.forall_mem_map] at data
  rw [timeoutAfter_eq nonneg int data, InTime]
  by_cases zero : UsedUp timeoutSecs earlier
  · rw [if_pos zero]
    exact iff_of_true le_rfl (.inl zero)
  · rw [if_neg zero, or_iff_right zero]

def dataCall (startTime endTime : Int) (buf : List UInt8) : SockCall := ⟨startTime, .ready, some buf, endTime⟩

theorem httpRecvMessage_timeout_kept :
    (0 : Int) ≤ 30 ∧ (30 : Int) < 2 ^ 31 ∧
      NeverNegative noHosts 0 .unknown 30
        [dataCall 100 110 (bytes "GET / HTTP/1.1\r\n"), dataCall 111 131 (bytes "HOST: a\r\n")] := by
  refine ⟨by decide, by decide, (httpRecvMessage_timeout_iff (by decide) (by decide)).mpr ?_⟩
  have inTime : ∀ earlier ∈
      [dataCall 100 110 (bytes "GET / HTTP/1.1\r\n"), dataCall 111 131 (bytes "HOST: a\r\n")].inits,
      InTime 30 earlier := by
    decide +kernel
  exact fun earlier member _ => inTime earlier member

def ClockRuns (calls : List SockCall) : Prop :=
  (calls.flatMap fun call => [call.startTime, call.endTime]).Pairwise (· ≤ ·)

/-- With a second left, a call for whose data the clock goes on by two leaves a negative time-out. -/
theorem httpRecvMessage_timeout_negative :
    ¬∀ (res : Resolver) (maxContentLength : Nat) (requestMethod : HttpMethod) (timeoutSecs : Int)
      (calls : List SockCall), 0 ≤ timeoutSecs → timeoutSecs < 2 ^ 31 → ClockRuns calls →
        NeverNegative res maxContentLength requestMethod timeoutSecs calls := by
  intro claim
  have left := claim noHosts 0 .unknown 1 [dataCall 0 2 (bytes "GET ")] (by decide) (by decide)
    (by simp [ClockRuns, dataCall]) [dataCall 0 2 (bytes "GET ")] (by decide) (by decide +kernel)
  revert left
  decide +kernel

end Pupnp.Http
