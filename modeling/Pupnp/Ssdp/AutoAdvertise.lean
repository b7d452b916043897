import Pupnp.Api.HandleTable
import Pupnp.Library.Run
import Pupnp.Ssdp.Advertise

/-!
Advertisements that an application asks for and those that the timer repeats. A call goes through two
locked parts with `AdvertiseAndReply` between them, so calls of the application and of the timer may
overlap.
-/

namespace Pupnp.Ssdp.AutoAdvertise
open Pupnp.Api Pupnp.Run

def DEFAULT_MAXAGE : Int := 1800

def AUTO_ADVERTISEMENT_TIME : Int := 30

structure LowPower where
  powerState : Int
  sleepPeriod : Int
  registrationState : Int
  deriving DecidableEq, Repr

def LowPower.stored (given : LowPower) : LowPower :=
  { given with sleepPeriod := if given.sleepPeriod < 0 then -1 else given.sleepPeriod }

def LowPower.unspecified : LowPower := ⟨-1, -1, -1⟩

inductive Entry where
  | client
  | device (info : HandleInfo)
  deriving DecidableEq, Repr

def kept (info : HandleInfo) : LowPower :=
  ⟨info.powerState, info.sleepPeriod, info.registrationState⟩

def carried (packet : ServicePacket) : LowPower :=
  ⟨packet.powerState, packet.sleepPeriod, packet.registrationState⟩

structure AdvertiseArg where
  handle : Int
  exp : Int
  deriving DecidableEq, Repr

/-- A call of `UpnpSendAdvertisementLowPower` that has left its first locked part. -/
structure Sending where
  automatic : Bool
  hnd : Int
  exp : Int
  advertised : Bool
  deriving DecidableEq, Repr

structure State where
  handleTable : HandleTable Entry
  sending : List Sending
  /-- The jobs with `AutoAdvertise` that the timer has not run yet. -/
  timer : List AdvertiseArg
  /-- What the application gave in its last call for a device. -/
  given : Int → Option LowPower

def State.device (s : State) (hnd : Int) : Option HandleInfo :=
  match s.handleTable.get hnd with
  | some (.device info) => some info
  | _ => none

def expOf (exp : Int) : Int :=
  let exp := if exp < 1 then DEFAULT_MAXAGE else exp
  if exp ≤ AUTO_ADVERTISEMENT_TIME * 2 then (AUTO_ADVERTISEMENT_TIME + 1) * 2 else exp

def upnpSendAdvertisementLowPower (automatic : Bool) (hnd exp : Int) (power : LowPower) (s : State) : State :=
  match s.device hnd with
  | none => s
  | some info =>
      { s with
        handleTable := s.handleTable.set hnd (some (.device { info with
          maxAge := expOf exp
          powerState := power.stored.powerState
          sleepPeriod := power.stored.sleepPeriod
          registrationState := power.stored.registrationState }))
        sending := s.sending ++ [⟨automatic, hnd, expOf exp, false⟩]
        given := if automatic then s.given else Function.update s.given hnd (some power) }

def upnpSendAdvertisement (automatic : Bool) (hnd exp : Int) (s : State) : State :=
  upnpSendAdvertisementLowPower automatic hnd exp .unspecified s

def State.packets (s : State) (call : Sending) : List ServicePacket :=
  match s.device call.hnd with
  | none => []
  | some info => advertiseAndReply info ⟨1, .serror, .inet, [], [], [], call.exp⟩

/-- The end of the call: `AutoAdvertise` is scheduled, unless memory or the timer's queue is out. -/
def schedule (i : Nat) (call : Sending) (scheduled : Bool) (s : State) : State :=
  match s.device call.hnd with
  | none => { s with sending := s.sending.eraseIdx i }
  | some _ =>
      { s with
        sending := s.sending.eraseIdx i
        timer := if scheduled then s.timer ++ [⟨call.hnd, call.exp⟩] else s.timer }

inductive Label where
  | sendAdvertisement (hnd exp : Int)
  | sendAdvertisementLowPower (hnd exp : Int) (power : LowPower)
  | autoAdvertise (i : Nat)
  | advertise (i : Nat)
  | schedule (i : Nat) (scheduled : Bool)
  deriving DecidableEq, Repr

def step : Label → State → Option State
  | .sendAdvertisement hnd exp, s => some (upnpSendAdvertisement false hnd exp s)
  | .sendAdvertisementLowPower hnd exp power, s => some (upnpSendAdvertisementLowPower false hnd exp power s)
  | .autoAdvertise i, s =>
      s.timer[i]?.map fun arg =>
        upnpSendAdvertisement true arg.handle arg.exp { s with timer := s.timer.eraseIdx i }
  | .advertise i, s =>
      match s.sending[i]? with
      | some call =>
          if call.advertised then none
          else if (s.device call.hnd).isNone then some { s with sending := s.sending.eraseIdx i }
          else some { s with sending := s.sending.set i { call with advertised := true } }
      | none => none
  | .schedule i scheduled, s =>
      match s.sending[i]? with
      | some call => if call.advertised then some (schedule i call scheduled s) else none
      | none => none

/-- Before any advertisement; which handles are devices stays as it is. -/
def initial (handleTable : HandleTable Entry) : State where
  handleTable := handleTable
  sending := []
  timer := []
  given := fun _ => none

/-! ### What a step does -/

def State.lowPower (s : State) (hnd : Int) : Option LowPower := (s.device hnd).map kept

theorem device_some {s : State} {hnd : Int} {info : HandleInfo} :
    s.device hnd = some info ↔ s.handleTable.get hnd = some (.device info) := by
  rw [State.device]
  split
  next found => rw [found, Option.some.injEq, Option.some.injEq, Entry.device.injEq]
  next other => exact ⟨nofun, fun found => absurd found (other info)⟩

theorem lowPower_after (automatic : Bool) (hnd exp : Int) (power : LowPower) (s : State) :
    (upnpSendAdvertisementLowPower automatic hnd exp power s).lowPower =
      if (s.device hnd).isSome then Function.update s.lowPower hnd (some power.stored) else s.lowPower := by
  rw [upnpSendAdvertisementLowPower]
  cases found : s.device hnd with
  | none => rfl
  | some info =>
    have valid := HandleTable.get_valid (device_some.mp found)
    rw [Option.isSome_some, if_pos rfl]
    funext other
    unfold State.lowPower State.device
    dsimp only
    rw [HandleTable.get_set _ valid, Function.update_apply]
    by_cases here : other = hnd
    · rw [if_pos here, if_pos here]
      rfl
    · rw [if_neg here, if_neg here]

theorem given_after (automatic : Bool) (hnd exp : Int) (power : LowPower) (s : State) :
    (upnpSendAdvertisementLowPower automatic hnd exp power s).given =
      if (s.device hnd).isSome ∧ automatic = false then Function.update s.given hnd (some power) else s.given := by
  rw [upnpSendAdvertisementLowPower]
  cases s.device hnd <;> cases automatic <;> rfl

def Label.automatic : Label → Bool
  | .autoAdvertise _ => true
  | _ => false

inductive Effect (automatic : Bool) (s t : State) : Prop where
  | begins (hnd exp : Int) (power : LowPower) (begun : State)
      (table : begun.handleTable = s.handleTable) (given : begun.given = s.given)
      (sending : begun.sending = s.sending) (timer : ∀ arg ∈ begun.timer, arg ∈ s.timer)
      (own : automatic = true → ∃ arg ∈ s.timer, arg.handle = hnd)
      (after : t = upnpSendAdvertisementLowPower automatic hnd exp power begun)
  | moves (table : t.handleTable = s.handleTable) (given : t.given = s.given)
      (sending : ∀ call ∈ t.sending, ∃ before ∈ s.sending, before.hnd = call.hnd)
      (timer : ∀ arg ∈ t.timer, arg ∈ s.timer ∨ ∃ call ∈ s.sending, call.hnd = arg.handle)

theorem step_effect {label : Label} {s t : State} (taken : step label s = some t) :
    Effect label.automatic s t := by
  cases label with
  | sendAdvertisement hnd exp =>
    obtain rfl := Option.some.inj taken
    exact .begins hnd exp .unspecified s rfl rfl rfl (fun _ member => member) nofun rfl
  | sendAdvertisementLowPower hnd exp power =>
    obtain rfl := Option.some.inj taken
    exact .begins hnd exp power s rfl rfl rfl (fun _ member => member) nofun rfl
  | autoAdvertise i =>
    obtain ⟨arg, found, rfl⟩ := Option.map_eq_some_iff.mp taken
    exact .begins arg.handle arg.exp .unspecified { s with timer := s.timer.eraseIdx i } rfl rfl rfl
      (fun _ member => List.mem_of_mem_eraseIdx member)
      (fun _ => ⟨arg, List.mem_of_getElem? found, rfl⟩) rfl
  | advertise i =>
    simp only [step] at taken
    split at taken
    next call found =>
      split_ifs at taken
      · obtain rfl := Option.some.inj taken
        exact .moves rfl rfl (fun call member => ⟨call, List.mem_of_mem_eraseIdx member, rfl⟩)
          (fun arg member => .inl member)
      · obtain rfl := Option.some.inj taken
        refine .moves rfl rfl ?_ (fun arg member => .inl member)
        intro other member
        obtain old | rfl := List.mem_or_eq_of_mem_set member
        · exact ⟨other, old, rfl⟩
        · exact ⟨call, List.mem_of_getElem? found, rfl⟩
    next => cases taken
  | schedule i scheduled =>
    simp only [step] at taken
    split at taken
    next call found =>
      split_ifs at taken
      obtain rfl := Option.some.inj taken
      have left (other : Sending) (member : other ∈ s.sending.eraseIdx i) :
          ∃ before ∈ s.sending, before.hnd = other.hnd := ⟨other, List.mem_of_mem_eraseIdx member, rfl⟩
      rw [schedule]
      split
      · exact .moves rfl rfl left (fun arg member => .inl member)
      · refine .moves rfl rfl left ?_
        intro arg member
        dsimp only at member
        split at member
        next =>
          obtain old | new := List.mem_append.mp member
          · exact .inl old
          · rw [List.mem_singleton.mp new]
            exact .inr ⟨call, List.mem_of_getElem? found, rfl⟩
        next => exact .inl member
    next => cases taken

theorem Effect.device {automatic : Bool} {s t : State} (effect : Effect automatic s t) (hnd : Int) :
    (t.device hnd).isSome = (s.device hnd).isSome := by
  have shown (u : State) : (u.device hnd).isSome = (u.lowPower hnd).isSome := by
    rw [State.lowPower, Option.isSome_map]
  cases effect with
  | begins h exp power begun table given sending timer own after =>
    have same : begun.device hnd = s.device hnd := by rw [State.device, table, State.device]
    rw [← same, after, shown, shown, lowPower_after]
    split
    next isDevice =>
      rw [Function.update_apply]
      split
      next here =>
        rw [State.lowPower, Option.isSome_map, here, isDevice, Option.isSome_some]
      next => rfl
    next => rfl
  | moves table given sending timer => rw [State.device, table, State.device]

/-! ### The application's values along a run -/

/-- The step keeps what the claim promises: an automatic advertisement leaves the values of the handle
alone, and its packets carry what the application gave last. -/
def Faithful : Label → State → Prop
  | .autoAdvertise i, s => ∀ t, step (.autoAdvertise i) s = some t → t.lowPower = s.lowPower
  | .advertise i, s => ∀ call, s.sending[i]? = some call → call.automatic = true →
      ∀ packet ∈ s.packets call, some (carried packet) = (s.given call.hnd).map LowPower.stored
  | _, _ => True

/-- The timer advertises a device only where the application's last call for it gave the values that
`UpnpSendAdvertisement` gives. -/
def LastCallUnspecified : Label → State → Prop
  | .autoAdvertise i, s => ∀ arg, s.timer[i]? = some arg → (s.device arg.handle).isSome →
      ∃ given, s.given arg.handle = some given ∧ given.stored = .unspecified
  | _, _ => True

/-- The handle has what the application gave last, wherever a call has been made. -/
structure Recorded (s : State) : Prop where
  values : ∀ hnd given, s.given hnd = some given → (s.device hnd).isSome →
    s.lowPower hnd = some given.stored
  timer : ∀ arg ∈ s.timer, (s.device arg.handle).isSome → (s.given arg.handle).isSome
  sending : ∀ call ∈ s.sending, (s.device call.hnd).isSome → (s.given call.hnd).isSome

theorem Recorded.after {automatic : Bool} {s t : State} (recorded : Recorded s)
    (effect : Effect automatic s t) (same : automatic = true → t.lowPower = s.lowPower) : Recorded t := by
  have isDevice := effect.device
  cases effect with
  | begins h exp power begun table given sending timer own after =>
    have here : begun.device = s.device := by
      funext hnd
      rw [State.device, table, State.device]
    have lowPower : begun.lowPower = s.lowPower := by
      funext hnd
      rw [State.lowPower, here, State.lowPower]
    have values := lowPower_after automatic h exp power begun
    have entries := given_after automatic h exp power begun
    rw [← after] at values entries
    rw [here, lowPower] at values
    rw [here, given] at entries
    have more (hnd : Int) (known : (s.given hnd).isSome) : (t.given hnd).isSome := by
      rw [entries]
      split
      · rw [Function.update_apply]
        split
        · exact Option.isSome_some
        · exact known
      · exact known
    have calls : ∀ call ∈ t.sending, call ∈ s.sending ∨
        (call.hnd = h ∧ ((s.device h).isSome → (t.given h).isSome)) := by
      intro call member
      rw [after, upnpSendAdvertisementLowPower] at member
      split at member
      next => exact .inl (sending ▸ member)
      next info found =>
        obtain old | new := List.mem_append.mp member
        · exact .inl (sending ▸ old)
        · refine .inr ⟨by rw [List.mem_singleton.mp new], ?_⟩
          intro isDev
          cases automatic with
          | false =>
            rw [entries, if_pos ⟨isDev, rfl⟩, Function.update_self]
            exact Option.isSome_some
          | true =>
            obtain ⟨arg, waiting, rfl⟩ := own rfl
            exact more _ (recorded.timer arg waiting isDev)
    refine ⟨?_, ?_, ?_⟩
    · intro hnd g known isDev
      rw [isDevice] at isDev
      cases automatic with
      | true =>
        rw [entries, if_neg (by simp)] at known
        rw [same rfl]
        exact recorded.values hnd g known isDev
      | false =>
        rw [values]
        split
        next isDev' =>
          rw [entries, if_pos ⟨isDev', rfl⟩, Function.update_apply] at known
          rw [Function.update_apply]
          split
          next at_h =>
            rw [if_pos at_h] at known
            rw [Option.some.inj known]
          next elsewhere =>
            rw [if_neg elsewhere] at known
            exact recorded.values hnd g known isDev
        next notDev =>
          rw [entries, if_neg (fun both => notDev both.1)] at known
          exact recorded.values hnd g known isDev
    · intro arg waiting isDev
      rw [isDevice] at isDev
      have old : arg ∈ begun.timer := by
        rw [after, upnpSendAdvertisementLowPower] at waiting
        split at waiting <;> exact waiting
      exact more _ (recorded.timer arg (timer arg old) isDev)
    · intro call member isDev
      rw [isDevice] at isDev
      obtain old | ⟨rfl, begins⟩ := calls call member
      · exact more _ (recorded.sending call old isDev)
      · exact begins isDev
  | moves table given sending timer =>
    refine ⟨?_, ?_, ?_⟩
    · intro hnd g known isDev
      rw [isDevice] at isDev
      have values := recorded.values hnd g (given ▸ known) isDev
      rw [← values, State.lowPower, State.device, table, State.lowPower, State.device]
    · intro arg waiting isDev
      rw [isDevice] at isDev
      rw [given]
      obtain old | ⟨call, member, handle⟩ := timer arg waiting
      · exact recorded.timer arg old isDev
      · exact handle ▸ recorded.sending call member (handle ▸ isDev)
    · intro call member isDev
      rw [isDevice] at isDev
      rw [given]
      obtain ⟨before, old, handle⟩ := sending call member
      exact handle ▸ recorded.sending before old (handle ▸ isDev)

theorem Recorded.next {label : Label} {s t : State} (recorded : Recorded s) (faithful : Faithful label s)
    (taken : step label s = some t) : Recorded t := by
  refine recorded.after (step_effect taken) ?_
  cases label with
  | autoAdvertise i => exact fun _ => faithful t taken
  | _ => nofun

/-! ### What the packets carry -/

theorem announceDevice_packet {packet : List UInt8 → List UInt8 → ServicePacket} {devType udn : List UInt8}
    {root : Bool} {p : ServicePacket} (sent : p ∈ announceDevice packet devType root udn) :
    ∃ nt usn, p = packet nt usn := by
  rw [announceDevice_eq] at sent
  split at sent
  next =>
    obtain first | rest := List.mem_append.mp sent
    · split at first
      next => exact ⟨_, _, List.mem_singleton.mp first⟩
      next => cases first
    · simp only [List.mem_cons, List.not_mem_nil, or_false] at rest
      obtain rfl | rfl := rest <;> exact ⟨_, _, rfl⟩
  next => cases sent

theorem announceService_packet {packet : List UInt8 → List UInt8 → ServicePacket} {udn servType : List UInt8}
    {p : ServicePacket} (sent : p ∈ announceService packet udn servType) : ∃ nt usn, p = packet nt usn := by
  rw [announceService_eq] at sent
  split at sent
  next => exact ⟨_, _, List.mem_singleton.mp sent⟩
  next => cases sent

theorem advertiseAndReply_carries {info : HandleInfo} {call : Ssdp.Call} (advertises : call.adFlag = 1)
    {p : ServicePacket} (sent : p ∈ advertiseAndReply info call) : carried p = kept info := by
  have flag : call.adFlag ≠ 0 := by omega
  obtain ⟨pass, copy, member⟩ := List.mem_flatten.mp sent
  obtain rfl := List.eq_of_mem_replicate copy
  obtain ⟨⟨device, i⟩, -, about⟩ := List.mem_flatMap.mp member
  obtain first | rest := List.mem_append.mp about
  · rw [aboutDevice] at first
    split at first
    next => cases first
    next =>
      rw [deviceMessages, if_pos flag] at first
      obtain ⟨nt, usn, rfl⟩ := announceDevice_packet first
      rfl
  · obtain ⟨service, -, own⟩ := List.mem_flatMap.mp rest
    rw [aboutService] at own
    split at own
    next => cases own
    next =>
      split at own
      next => cases own
      next =>
        rw [serviceMessages, if_pos flag] at own
        obtain ⟨nt, usn, rfl⟩ := announceService_packet own
        rfl

theorem packets_carry {s : State} {call : Sending} {p : ServicePacket} (sent : p ∈ s.packets call) :
    (s.device call.hnd).isSome ∧ s.lowPower call.hnd = some (carried p) := by
  rw [State.packets] at sent
  rw [State.lowPower]
  cases found : s.device call.hnd with
  | none =>
    rw [found] at sent
    cases sent
  | some info =>
    rw [found] at sent
    exact ⟨rfl, by rw [advertiseAndReply_carries rfl sent, Option.map_some]⟩

/-! ### When the values survive -/

theorem Recorded.faithful_iff {s : State} (recorded : Recorded s) (label : Label) :
    Faithful label s ↔ LastCallUnspecified label s := by
  cases label with
  | autoAdvertise i =>
    have afterwards (arg : AdvertiseArg) :
        (upnpSendAdvertisement true arg.handle arg.exp { s with timer := s.timer.eraseIdx i }).lowPower =
          if (s.device arg.handle).isSome then
            Function.update s.lowPower arg.handle (some LowPower.unspecified) else s.lowPower :=
      lowPower_after true arg.handle arg.exp .unspecified _
    have value (arg : AdvertiseArg) (found : s.timer[i]? = some arg) (isDev : (s.device arg.handle).isSome) :
        ∃ g, s.given arg.handle = some g ∧ s.lowPower arg.handle = some g.stored := by
      obtain ⟨g, known⟩ := Option.isSome_iff_exists.mp (recorded.timer arg (List.mem_of_getElem? found) isDev)
      exact ⟨g, known, recorded.values arg.handle g known isDev⟩
    constructor
    · intro faithful arg found isDev
      obtain ⟨g, known, values⟩ := value arg found isDev
      have same := faithful _ (by rw [step, found, Option.map_some])
      rw [afterwards arg, if_pos isDev, Function.update_eq_self_iff, values] at same
      exact ⟨g, known, (Option.some.inj same).symm⟩
    · intro unspecified t taken
      obtain ⟨arg, found, rfl⟩ := Option.map_eq_some_iff.mp taken
      rw [afterwards arg]
      split
      next isDev =>
        obtain ⟨g, known, values⟩ := value arg found isDev
        obtain ⟨g', known', stored⟩ := unspecified arg found isDev
        obtain rfl : g = g' := Option.some.inj (known.symm.trans known')
        rw [Function.update_eq_self_iff, values, stored]
      next => rfl
  | advertise i =>
    refine iff_of_true ?_ trivial
    intro call found _ packet sent
    obtain ⟨isDev, carries⟩ := packets_carry sent
    obtain ⟨g, known⟩ :=
      Option.isSome_iff_exists.mp (recorded.sending call (List.mem_of_getElem? found) isDev)
    rw [← carries, known, Option.map_some, recorded.values call.hnd g known isDev]
  | sendAdvertisement => exact Iff.rfl
  | sendAdvertisementLowPower => exact Iff.rfl
  | schedule => exact Iff.rfl

theorem along_faithful_iff (labels : List Label) {s : State} (recorded : Recorded s) :
    Along step Faithful labels s ↔ Along step LastCallUnspecified labels s := by
  induction labels generalizing s with
  | nil => exact Iff.rfl
  | cons label labels ih =>
    have here := recorded.faithful_iff label
    constructor
    · rintro ⟨faithful, later⟩
      refine ⟨here.mp faithful, fun t taken => (ih ?_).mp (later t taken)⟩
      exact recorded.next faithful taken
    · rintro ⟨unspecified, later⟩
      refine ⟨here.mpr unspecified, fun t taken => (ih ?_).mpr (later t taken)⟩
      exact recorded.next (here.mpr unspecified) taken

theorem initial_recorded (handleTable : HandleTable Entry) : Recorded (initial handleTable) :=
  ⟨nofun, nofun, nofun⟩

/-- In a run of calls of the application and of the timer, all automatic advertisements carry and keep the
application's values if and only if the timer only advertises where these are unspecified. -/
theorem autoAdvertise_faithful_iff (handleTable : HandleTable Entry) (labels : List Label) :
    Along step Faithful labels (initial handleTable) ↔
      Along step LastCallUnspecified labels (initial handleTable) :=
  along_faithful_iff labels (initial_recorded handleTable)

def oneDevice : HandleTable Entry where
  entries := none :: some (.device ⟨[], [], DEFAULT_MAXAGE, 0, 0, 0, .inet, []⟩) :: List.replicate 198 none
  size := by rw [List.length_cons, List.length_cons, List.length_replicate, NUM_HANDLE]

/-- The application says that the device sleeps, and the timer advertises the device again. -/
def asleep : List Label :=
  [.sendAdvertisementLowPower 1 100 ⟨1, 5, 0⟩, .advertise 0, .schedule 0 true, .autoAdvertise 0]

theorem asleep_overwritten : ¬Along step Faithful asleep (initial oneDevice) ∧
    (run step asleep (initial oneDevice)).map (fun s => (s.given 1, s.lowPower 1)) =
      some (some ⟨1, 5, 0⟩, some ⟨-1, -1, -1⟩) := by
  refine ⟨?_, by decide⟩
  intro faithful
  obtain ⟨-, sent⟩ := faithful
  obtain ⟨-, advertised⟩ := sent _ rfl
  obtain ⟨-, scheduled⟩ := advertised _ rfl
  obtain ⟨kept, -⟩ := scheduled _ rfl
  have value := congrFun (kept _ rfl) 1
  exact absurd value (by decide)

end Pupnp.Ssdp.AutoAdvertise
