import Mathlib.Data.List.Pairwise
import Pupnp.ThreadPool.TimerThread

/-!
What holds in every run of the timer thread: the order of its queue, the ids, and what becomes of an
event.
-/

namespace Pupnp.TimerThread
open Pupnp.CString Pupnp.Run Pupnp.ThreadPool

variable {α : Type}

/-! ### Sorted insertion -/

def NotLater (a b : TimerEvent α) : Prop := a.eventTime ≤ b.eventTime

instance : DecidableRel (NotLater (α := α)) := fun a b => inferInstanceAs (Decidable (a.eventTime ≤ b.eventTime))
instance : IsTrans (TimerEvent α) NotLater := ⟨fun _ _ _ => Int.le_trans⟩
instance : Std.Total (NotLater (α := α)) := ⟨fun a b => Int.le_total a.eventTime b.eventTime⟩

theorem addEvent_orderedInsert (newEvent : TimerEvent α) (eventQ : List (TimerEvent α)) :
    addEvent newEvent eventQ = eventQ.orderedInsert NotLater newEvent := by
  induction eventQ with
  | nil => rfl
  | cons temp others ih => rw [addEvent, List.orderedInsert_cons, ih]; rfl

/-! ### What a step does to the events -/

def Happening.scheduled? : Happening α → Option (TimerEvent α)
  | .scheduled returned => returned.event
  | _ => none

def Happening.handed? : Happening α → Option (TimerEvent α)
  | .handed event _ => some event
  | _ => none

def Happening.gone? : Happening α → Option (TimerEvent α)
  | .scheduled _ => none
  | .removed _ _ out => out
  | .handed event _ | .dropped event _ => some event

/-- Ids and codes are about the events that come with them, and no event is handed over before its time. -/
def Happening.Sound : Happening α → Prop
  | .scheduled returned => ∀ event, returned.event = some event → returned.rc = 0 ∧ returned.id = event.id
  | .handed event time => event.eventTime ≤ time
  | .removed id rc out => rc = 0 → ∃ event, out = some event ∧ event.id = id
  | .dropped _ _ => True

inductive Effect (schedules : Bool) (before after : Timer α) (news : List (Happening α)) : Prop
  | leaves (eventQ : before.eventQ.Perm (news.filterMap Happening.gone? ++ after.eventQ))
      (order : after.eventQ.Sublist before.eventQ) (none_new : news.filterMap Happening.scheduled? = [])
      (sound : ∀ happening ∈ news, happening.Sound) (lastEventId : after.lastEventId = before.lastEventId)
      (created : after.created = before.created)
  | creates (scheduling : schedules = true) (event : TimerEvent α) (id : event.id = before.lastEventId) (serial : event.serial = before.created)
      (put : after.eventQ = addEvent event before.eventQ ∧ news = [.scheduled ⟨0, event.id, some event⟩] ∨
        after.eventQ = before.eventQ ∧ news = [.scheduled ⟨EOUTOFMEM, event.id, none⟩])
      (lastEventId : after.lastEventId = toInt32 (before.lastEventId + 1))
      (created : after.created = before.created + 1)

theorem Effect.nothing {schedules : Bool} {before after : Timer α} (eventQ : after.eventQ = before.eventQ)
    (lastEventId : after.lastEventId = before.lastEventId) (created : after.created = before.created) :
    Effect schedules before after [] :=
  .leaves (by simp [eventQ]) (by rw [eventQ]) rfl nofun lastEventId created

section Functions
variable (timer : Timer α)

theorem timerThreadSchedule_effect (allocates links : Bool) (call : ScheduleCall α) :
    Effect true timer (timerThreadSchedule allocates links timer call).2
      [.scheduled (timerThreadSchedule allocates links timer call).1] := by
  unfold timerThreadSchedule
  cases allocates with
  | false => exact .leaves (List.Perm.refl _) (List.Sublist.refl _) rfl (by simp [Happening.Sound]) rfl rfl
  | true =>
    let newEvent : TimerEvent α := ⟨call.job, call.eventTime, call.duration, timer.lastEventId, timer.created⟩
    cases links with
    | false => exact .creates rfl newEvent rfl rfl (.inr ⟨rfl, rfl⟩) rfl rfl
    | true => exact .creates rfl newEvent rfl rfl (.inl ⟨rfl, rfl⟩) rfl rfl

theorem timerThreadRemove_effect (id : Int) :
    Effect false timer (timerThreadRemove timer id).2.2
      [.removed id (timerThreadRemove timer id).1 (timerThreadRemove timer id).2.1] := by
  unfold timerThreadRemove
  split
  next => exact .leaves (List.Perm.refl _) (List.Sublist.refl _) rfl (by simp [Happening.Sound, INVALID_EVENT_ID]) rfl rfl
  next temp found =>
    obtain ⟨first, before, after, split, earlier⟩ := List.find?_eq_some_iff_append.mp found
    have without : timer.eventQ.eraseP (fun event => decide (event.id = id)) = before ++ after := by
      rw [split, List.eraseP_append_right _ (by simpa using earlier)]
      exact congrArg (before ++ ·) (List.eraseP_cons_of_pos first)
    refine .leaves ?_ List.eraseP_sublist rfl ?_ rfl rfl
    · change timer.eventQ.Perm ([temp] ++ timer.eventQ.eraseP fun event => decide (event.id = id))
      rw [without, split]
      exact List.perm_middle
    · simpa [Happening.Sound] using first

theorem timerThreadShutdown_effect :
    Effect false timer (timerThreadShutdown timer).2 (timerThreadShutdown timer).1 := by
  unfold timerThreadShutdown
  have all : ((timer.eventQ.map fun temp => Happening.dropped temp temp.job.freeFunc).filterMap Happening.gone?) =
      timer.eventQ := by
    rw [List.filterMap_map]
    exact List.filterMap_some
  refine .leaves ?_ (List.nil_sublist _) ?_ ?_ rfl rfl
  · rw [all]
    simp
  · rw [List.filterMap_map, List.filterMap_eq_nil_iff]
    intro temp _
    rfl
  · simp [Happening.Sound]

theorem timerThreadWorker_effect (currentTime : Int) (accepted : Bool) :
    Effect false timer (timerThreadWorker currentTime accepted timer).2.2
      (timerThreadWorker currentTime accepted timer).2.1 := by
  unfold timerThreadWorker
  split
  next => exact .nothing rfl rfl rfl
  next =>
    split
    next => exact .nothing rfl rfl rfl
    next nextEvent others head =>
      split
      next due =>
        refine .leaves ?_ ?_ ?_ ?_ rfl rfl
        · rw [head]
          cases accepted <;> exact .rfl
        · rw [head]
          exact List.sublist_cons_self nextEvent others
        · cases accepted <;> rfl
        · cases accepted with
          | false => simp [Happening.Sound]
          | true => simpa [Happening.Sound] using due
      next => exact .nothing rfl rfl rfl

end Functions

def Label.isSchedule : Label α → Bool
  | .schedule _ _ _ => true
  | _ => false

theorem step_effect {label : Label α} {s t : State α} (taken : step label s = some t) :
    ∃ news, t.log = s.log ++ news ∧ Effect label.isSchedule s.timer t.timer news := by
  cases label with
  | call now timeout type job duration =>
    simp only [step] at taken
    split_ifs at taken
    obtain rfl := Option.some.inj taken
    exact ⟨[], (List.append_nil _).symm, .nothing rfl rfl rfl⟩
  | schedule i allocates links =>
    simp only [step] at taken
    split_ifs at taken
    obtain ⟨call, -, rfl⟩ := Option.map_eq_some_iff.mp taken
    exact ⟨_, rfl, timerThreadSchedule_effect s.timer allocates links call⟩
  | remove id =>
    simp only [step] at taken
    split_ifs at taken
    obtain rfl := Option.some.inj taken
    exact ⟨_, rfl, timerThreadRemove_effect s.timer id⟩
  | wake =>
    simp only [step] at taken
    split_ifs at taken
    obtain rfl := Option.some.inj taken
    exact ⟨[], (List.append_nil _).symm, .nothing rfl rfl rfl⟩
  | work now accepted =>
    simp only [step] at taken
    split_ifs at taken
    obtain rfl := Option.some.inj taken
    exact ⟨_, rfl, timerThreadWorker_effect s.timer now accepted⟩
  | shutdown =>
    simp only [step] at taken
    split_ifs at taken
    obtain rfl := Option.some.inj taken
    exact ⟨_, rfl, timerThreadShutdown_effect s.timer⟩
  | shutdownEnd =>
    simp only [step] at taken
    split_ifs at taken
    obtain rfl := Option.some.inj taken
    exact ⟨[], (List.append_nil _).symm, .nothing rfl rfl rfl⟩

/-! ### The invariant -/

/-- The events that were put in the queue are those in it and those that have left it. -/
structure Kept (timer : Timer α) (log : List (Happening α)) : Prop where
  sorted : timer.eventQ.Pairwise NotLater
  places : (log.filterMap Happening.scheduled?).Perm (log.filterMap Happening.gone? ++ timer.eventQ)
  serials : ((log.filterMap Happening.scheduled?).map (·.serial)).Nodup
  named : ∀ event ∈ log.filterMap Happening.scheduled?,
    event.serial < timer.created ∧ event.id = toInt32 event.serial
  lastEventId : timer.lastEventId = toInt32 timer.created
  sound : ∀ happening ∈ log, happening.Sound

theorem toInt32_succ (n : Nat) : toInt32 (toInt32 n + 1) = toInt32 ((n + 1 : Nat) : Int) := by
  unfold toInt32
  rw [Int.bmod_add_bmod, Int.natCast_add, Int.natCast_one]

theorem Kept.after {schedules : Bool} {before after : Timer α} {log news : List (Happening α)} (kept : Kept before log)
    (effect : Effect schedules before after news) : Kept after (log ++ news) := by
  cases effect with
  | leaves eventQ order none_new sound lastEventId created =>
    have same : (log ++ news).filterMap Happening.scheduled? = log.filterMap Happening.scheduled? := by
      rw [List.filterMap_append, none_new, List.append_nil]
    refine ⟨kept.sorted.sublist order, ?_, ?_, ?_, ?_, ?_⟩
    · rw [same, List.filterMap_append, List.append_assoc]
      exact kept.places.trans (eventQ.append_left _)
    · rw [same]
      exact kept.serials
    · rw [same, created]
      exact kept.named
    · rw [lastEventId, created]
      exact kept.lastEventId
    · exact List.forall_mem_append.mpr ⟨kept.sound, sound⟩
  | creates _ event id serial put lastEventId created =>
    have next : after.lastEventId = toInt32 after.created := by
      rw [lastEventId, kept.lastEventId, created]
      exact toInt32_succ before.created
    have older (e : TimerEvent α) (member : e ∈ log.filterMap Happening.scheduled?) :
        e.serial < after.created ∧ e.id = toInt32 e.serial := by
      obtain ⟨earlier, name⟩ := kept.named e member
      exact ⟨by omega, name⟩
    obtain ⟨eventQ, rfl⟩ | ⟨eventQ, rfl⟩ := put
    · have more : (log ++ [Happening.scheduled ⟨0, event.id, some event⟩]).filterMap Happening.scheduled? =
          log.filterMap Happening.scheduled? ++ [event] := by
        rw [List.filterMap_append]
        rfl
      have left : (log ++ [Happening.scheduled ⟨0, event.id, some event⟩]).filterMap Happening.gone? =
          log.filterMap Happening.gone? := by
        rw [List.filterMap_append]
        exact List.append_nil _
      refine ⟨?_, ?_, ?_, ?_, next, ?_⟩
      · rw [eventQ, addEvent_orderedInsert]
        exact kept.sorted.orderedInsert event _
      · rw [more, left, eventQ, addEvent_orderedInsert]
        have inserted : (before.eventQ ++ [event]).Perm (before.eventQ.orderedInsert NotLater event) :=
          (List.perm_append_singleton event _).trans (List.perm_orderedInsert NotLater event _).symm
        have moved := kept.places.append_right [event]
        rw [List.append_assoc] at moved
        exact moved.trans (inserted.append_left _)
      · rw [more, List.map_append, List.nodup_append]
        refine ⟨kept.serials, List.nodup_singleton _, ?_⟩
        intro n old m new same
        obtain ⟨e, member, rfl⟩ := List.mem_map.mp old
        obtain rfl : m = event.serial := by simpa using new
        have earlier := (kept.named e member).1
        omega
      · rw [more, List.forall_mem_append]
        refine ⟨older, ?_⟩
        intro e member
        obtain rfl := List.mem_singleton.mp member
        exact ⟨by omega, by rw [id, serial, kept.lastEventId]⟩
      · exact List.forall_mem_append.mpr ⟨kept.sound, by simp [Happening.Sound]⟩
    · have same : (log ++ [Happening.scheduled ⟨EOUTOFMEM, event.id, none⟩]).filterMap Happening.scheduled? =
          log.filterMap Happening.scheduled? := by
        rw [List.filterMap_append]
        exact List.append_nil _
      have left : (log ++ [Happening.scheduled ⟨EOUTOFMEM, event.id, none⟩]).filterMap Happening.gone? =
          log.filterMap Happening.gone? := by
        rw [List.filterMap_append]
        exact List.append_nil _
      refine ⟨?_, ?_, ?_, ?_, next, ?_⟩
      · rw [eventQ]
        exact kept.sorted
      · rw [same, left, eventQ]
        exact kept.places
      · rw [same]
        exact kept.serials
      · rw [same]
        exact older
      · exact List.forall_mem_append.mpr ⟨kept.sound, by simp [Happening.Sound]⟩

theorem run_kept (labels : List (Label α)) (clock : Int) {t : State α}
    (ran : run step labels (initial clock) = some t) : Kept t.timer t.log := by
  have start : Kept (initial (α := α) clock).timer (initial clock).log := by
    have zero : (0 : Int) = toInt32 ((0 : Nat) : Int) := by decide
    exact ⟨List.Pairwise.nil, List.Perm.nil, List.nodup_nil, nofun, zero, nofun⟩
  have keeps (label : Label α) (s u : State α) (taken : step label s = some u) (kept : Kept s.timer s.log) :
      Kept u.timer u.log := by
    obtain ⟨news, log, effect⟩ := step_effect taken
    rw [log]
    exact kept.after effect
  exact run_invariant keeps start ran

/-! ### What follows of the ids -/

theorem run_created (labels : List (Label α)) {s t : State α} (ran : run step labels s = some t) :
    t.timer.created ≤ s.timer.created + labels.countP Label.isSchedule := by
  induction labels generalizing s with
  | nil =>
    obtain rfl := Option.some.inj ran
    exact Nat.le_add_right _ _
  | cons label labels ih =>
    simp only [run, Option.bind_eq_some_iff] at ran
    obtain ⟨u, taken, rest⟩ := ran
    have later := ih rest
    have here : u.timer.created ≤ s.timer.created + label.isSchedule.toNat := by
      obtain ⟨_, -, effect⟩ := step_effect taken
      cases effect with
      | leaves _ _ _ _ _ created => exact created.le.trans (Nat.le_add_right _ _)
      | creates scheduling _ _ _ _ _ created => rw [scheduling]; exact created.le
    rw [List.countP_cons]
    cases scheduling : label.isSchedule <;> simp [scheduling] at here ⊢ <;> omega

structure Timely (s : State α) : Prop where
  sorted : s.timer.eventQ.Pairwise fun a b => a.eventTime ≤ b.eventTime
  ids : (s.timer.eventQ.map (·.id)).Nodup
  known : ∀ event time, .handed event time ∈ s.log → .scheduled ⟨0, event.id, some event⟩ ∈ s.log
  once : ((s.log.filterMap Happening.handed?).map (·.id)).Nodup
  onTime : ∀ event time, .handed event time ∈ s.log → event.eventTime ≤ time
  notRemoved : ∀ event time, .handed event time ∈ s.log → ∀ out, .removed event.id 0 out ∉ s.log

theorem toInt32_small {n : Nat} (small : n < 2 ^ 31) : toInt32 n = n := by
  unfold toInt32 Int.bmod
  dsimp only
  split <;> omega

theorem Kept.ids {timer : Timer α} {log : List (Happening α)} (kept : Kept timer log)
    (few : timer.created ≤ 2 ^ 31) : ((log.filterMap Happening.scheduled?).map (·.id)).Nodup := by
  have id (event : TimerEvent α) (member : event ∈ log.filterMap Happening.scheduled?) :
      event.id = (event.serial : Int) := by
    obtain ⟨earlier, name⟩ := kept.named event member
    rw [name, toInt32_small (by omega)]
  have same : (log.filterMap Happening.scheduled?).map (·.id) =
      ((log.filterMap Happening.scheduled?).map (·.serial)).map Int.ofNat := by
    rw [List.map_map]
    exact List.map_congr_left id
  rw [same]
  exact kept.serials.map fun _ _ => Int.ofNat.inj

theorem Happening.gone?_of_handed? {happening : Happening α} {event : TimerEvent α}
    (handed : happening.handed? = some event) : happening.gone? = some event := by
  cases happening with
  | handed => exact handed
  | scheduled => cases handed
  | removed => cases handed
  | dropped => cases handed

theorem Kept.timely {s : State α} (kept : Kept s.timer s.log) (few : s.timer.created ≤ 2 ^ 31) : Timely s := by
  have ids := (kept.places.map (·.id)).nodup_iff.mp (kept.ids few)
  rw [List.map_append, List.nodup_append] at ids
  obtain ⟨gone, queued, -⟩ := ids
  rw [List.map_filterMap, List.nodup_iff_pairwise_ne, List.pairwise_filterMap] at gone
  refine ⟨kept.sorted, queued, ?_, ?_, ?_, ?_⟩
  · intro event time handed
    have left : event ∈ s.log.filterMap Happening.gone? := List.mem_filterMap.mpr ⟨_, handed, rfl⟩
    have put := kept.places.mem_iff.mpr (List.mem_append_left _ left)
    obtain ⟨happening, member, made⟩ := List.mem_filterMap.mp put
    cases happening with
    | scheduled returned =>
      obtain ⟨rc, id, entered⟩ := returned
      obtain rfl : entered = some event := made
      obtain ⟨rfl, rfl⟩ := kept.sound _ member event rfl
      exact member
    | handed => cases made
    | removed => cases made
    | dropped => cases made
  · rw [List.map_filterMap, List.nodup_iff_pairwise_ne, List.pairwise_filterMap]
    refine gone.imp fun differ id first id' second => differ id ?_ id' ?_
    · obtain ⟨event, handed, name⟩ := Option.map_eq_some_iff.mp first
      rw [Happening.gone?_of_handed? handed, Option.map_some, name]
    · obtain ⟨event, handed, name⟩ := Option.map_eq_some_iff.mp second
      rw [Happening.gone?_of_handed? handed, Option.map_some, name]
  · intro event time handed
    exact kept.sound _ handed
  · intro event time handed out removed
    obtain ⟨found, rfl, same⟩ := kept.sound _ removed rfl
    have symmetric : Std.Symm fun a b : Happening α => ∀ id, a.gone?.map (·.id) = some id →
        ∀ id', b.gone?.map (·.id) = some id' → id ≠ id' :=
      ⟨fun _ _ differ id first id' second => (differ id' second id first).symm⟩
    exact gone.forall removed handed nofun found.id rfl event.id rfl same

/-- In every run with fewer than 2^31 events, whatever the order of the steps, the queue is sorted, its
ids are different, and an event is handed over once at most, not before its time and not after it was
removed with success. -/
theorem run_timely (labels : List (Label α)) (clock : Int) (few : labels.countP Label.isSchedule < 2 ^ 31)
    (t : State α) (ran : run step labels (initial clock) = some t) : Timely t := by
  have created := run_created labels ran
  exact (run_kept labels clock ran).timely (created.trans (by simpa [initial] using few.le))

/-- The worker waits for an event at 160; one at 110 goes in front of it and is handed over at 111, the
other is removed, and a third is dropped at the shutdown. -/
def exampleRun : List (Label Unit) :=
  [.call 100 60 .relSec ⟨⟨(), .med⟩, true, true⟩ .shortTerm, .schedule 0 true true, .wake, .work 100 true,
    .call 105 110 .absSec ⟨⟨(), .med⟩, true, true⟩ .shortTerm, .schedule 0 true true, .wake, .work 111 true,
    .work 111 true, .remove 0, .call 112 60 .relSec ⟨⟨(), .low⟩, true, true⟩ .persistent, .schedule 0 true true,
    .shutdown, .wake, .work 112 true, .shutdownEnd]

theorem run_timely_overtaken :
    ∃ t, run step exampleRun (initial 100) = some t ∧ (t.log.filterMap Happening.handed?).map (·.id) = [1] ∧
      Timely t := by
  have ends : (run step exampleRun (initial 100)).map (fun t =>
      (t.log.filterMap Happening.handed?).map (·.id)) = some [1] := by
    decide
  obtain ⟨t, ran, handed⟩ := Option.map_eq_some_iff.mp ends
  exact ⟨t, ran, handed, run_timely exampleRun 100 (by decide) t ran⟩

end Pupnp.TimerThread
