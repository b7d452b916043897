import Pupnp.ThreadPool.Traced

/-!
The hand-over of persistent jobs through the one slot, with any number of `ThreadPoolAddPersistent` calls
and workers at a time.
-/

namespace Pupnp.ThreadPool
open Pupnp.Run

variable {α : Type}

/-- The threads of `ThreadPoolInit`, of `ThreadPoolAddPersistent` and of the workers. -/
def Caller.handsOver : Caller α → Bool
  | .add _ => false
  | _ => true

def Pc.handsOver : Pc α → Bool
  | .threadPoolAdd _ | .addLocked _ | .addWorker _ | .addDone _ | .threadPoolRemove _ | .threadPoolShutdown
  | .shutdownDrained | .shutdownWait => false
  | .createWorker caller | .createWait caller | .startWait caller | .created caller _ => caller.handsOver
  | _ => true

/-- No call but `ThreadPoolAddPersistent`, and `ThreadPoolInit` does not fail. -/
def handOverOnly : Label α → State α → Bool
  | .call (.addPersistent _), _ => true
  | .call _, _ => false
  | .step thread _, s => (s.threads[thread]?).all fun pc =>
      match pc with
      | .created (.init _) false => false
      | _ => true

def isHanding (pc : Pc α) : Bool := pc.stage = .handing

/-- A call stores its job only when no other call waits for its job to be picked up out of the slot. -/
def storesAlone : Label α → State α → Bool
  | .call _, _ => true
  | .step thread c, s => (s.threads[thread]?).all fun pc =>
      match pc with
      | .persistentStore _ => !c.allocates || s.pool.persistentJob.isNone ||
          !(s.threads.eraseIdx thread).any isHanding
      | _ => true

/-- Each job handed in is in the slot, or has been picked up by one worker; that of a call that has
returned has been picked up. -/
structure HandedOver (t : Traced α) : Prop where
  kept : ∀ serial < t.state.pool.history.accepted,
    t.state.pool.persistentJob.map (·.serial) = some serial ∧ t.state.pool.history.started.count serial = 0 ∨
      t.state.pool.persistentJob.map (·.serial) ≠ some serial ∧
        t.state.pool.history.started.count serial = 1
  picked : ∀ thread id, stageAt t.state thread = .issued id →
    ∃ serial, t.jobs thread = some serial ∧ t.state.pool.history.started.count serial = 1

structure SlotOnly (p : Pool α) : Prop where
  running : p.shutdown = false
  queues : p.highJobQ = [] ∧ p.medJobQ = [] ∧ p.lowJobQ = []
  removed : p.history.removed = []
  freed : p.history.freed = []

theorem SlotOnly.of_same {p q : Pool α} (only : SlotOnly p)
    (same : (q.shutdown, q.highJobQ, q.medJobQ, q.lowJobQ, q.history.removed, q.history.freed) =
      (p.shutdown, p.highJobQ, p.medJobQ, p.lowJobQ, p.history.removed, p.history.freed)) : SlotOnly q := by
  simp only [Prod.mk.injEq] at same
  obtain ⟨running, high, med, low, removed, freed⟩ := same
  obtain ⟨high', med', low'⟩ := only.queues
  exact ⟨running.trans only.running, ⟨high.trans high', med.trans med', low.trans low'⟩,
    removed.trans only.removed, freed.trans only.freed⟩

theorem bumpPriority_slotOnly (now : Timeval) {p : Pool α} (only : SlotOnly p) : bumpPriority now p = p := by
  obtain ⟨-, med, low⟩ := only.queues
  rw [bumpPriority]
  split
  case h_1 found =>
    rw [med] at found
    contradiction
  case h_2 =>
    split
    case h_1 found =>
      rw [low] at found
      contradiction
    case h_2 => rfl

theorem checkForJob_slotOnly (c : Choice) {p : Pool α} (timedOut : Bool) (only : SlotOnly p) :
    SlotOnly (checkForJob c p timedOut).pool ∧ (checkForJob c p timedOut).pc.handsOver = true := by
  unfold checkForJob
  dsimp only
  split
  · split
    · exact ⟨only.of_same rfl, rfl⟩
    · exact ⟨only.of_same rfl, rfl⟩
  · have less : SlotOnly { p with idleThreads := p.idleThreads - 1 } := only.of_same rfl
    rw [bumpPriority_slotOnly c.now less]
    split
    · exact ⟨only.of_same rfl, rfl⟩
    · obtain ⟨high, med, low⟩ := only.queues
      unfold pickJob
      split
      · exact ⟨only.of_same rfl, rfl⟩
      · simp only [high, med, low]
        refine ⟨only.of_same ?_, rfl⟩
        simp [leave, release, Pool.unlock, high, med, low]

theorem step_slotOnly {c : Choice} {p : Pool α} {pc : Pc α} {move : Move α} (only : SlotOnly p)
    (hands : pc.handsOver = true) (ready : ∀ left, pc ≠ .created (.init left) false)
    (taken : threadStep c p pc = some move) : SlotOnly move.pool ∧ move.pc.handsOver = true := by
  have locks (next : Pc α) (locked : acquire p next = some move) (still : next.handsOver = true) :
      SlotOnly move.pool ∧ move.pc.handsOver = true := by
    rw [acquire_some locked]
    exact ⟨only.of_same rfl, still⟩
  cases pc with
  | threadPoolAdd job => contradiction
  | addLocked job => contradiction
  | addWorker frame => contradiction
  | addDone frame => contradiction
  | threadPoolRemove jobId => contradiction
  | threadPoolShutdown => contradiction
  | shutdownDrained => contradiction
  | shutdownWait => contradiction
  | threadPoolAddPersistent job => exact locks _ taken rfl
  | persistentWait => exact locks _ taken rfl
  | createWait caller => exact locks _ taken hands
  | workerWait => exact locks _ taken rfl
  | startWait caller =>
    simp only [threadStep, Option.ite_none_left_eq_some] at taken
    exact locks _ taken.2 hands
  | persistentLocked job =>
    obtain rfl := Option.some.inj taken
    unfold addPersistent
    split_ifs <;> exact ⟨only.of_same rfl, rfl⟩
  | persistentStore job =>
    obtain rfl := Option.some.inj taken
    unfold storePersistent
    split <;> exact ⟨only.of_same rfl, rfl⟩
  | persistentPicked =>
    obtain rfl := Option.some.inj taken
    unfold awaitPickUp
    split_ifs <;> exact ⟨only.of_same rfl, rfl⟩
  | initLoop left =>
    cases left <;>
      (obtain rfl := Option.some.inj taken
       exact ⟨only.of_same rfl, rfl⟩)
  | createWorker caller =>
    obtain rfl := Option.some.inj taken
    unfold createWorker
    split_ifs <;> exact ⟨only.of_same rfl, hands⟩
  | created caller ok =>
    obtain rfl := Option.some.inj taken
    cases caller with
    | init left =>
      cases ok with
      | true => exact ⟨only, rfl⟩
      | false => exact absurd rfl (ready left)
    | add frame => contradiction
    | persistent job => exact ⟨only, rfl⟩
  | workerThread =>
    simp only [threadStep, Option.ite_none_left_eq_some, Option.some.injEq] at taken
    rw [← taken.2]
    exact ⟨only.of_same rfl, rfl⟩
  | workerTop job =>
    simp only [threadStep, Option.ite_none_left_eq_some, Option.some.injEq] at taken
    rw [← taken.2]
    cases job <;> exact ⟨only.of_same rfl, rfl⟩
  | workerCheck timedOut =>
    obtain rfl := Option.some.inj taken
    exact checkForJob_slotOnly c timedOut only
  | workerRun job persistent =>
    obtain rfl := Option.some.inj taken
    exact ⟨only.of_same rfl, rfl⟩
  | workerExit => contradiction
  | returned result => contradiction

structure Handing (t : Traced α) : Prop where
  settled : Settled t.state
  traceable : Traceable t
  only : SlotOnly t.state.pool
  threads : ∀ pc ∈ t.state.threads, pc.handsOver = true

theorem initial_handing (attr : ThreadPoolAttr) : Handing (Traced.initial (α := α) attr) := by
  refine ⟨initial_settled attr, initial_traceable attr, ⟨rfl, ⟨rfl, rfl, rfl⟩, rfl, rfl⟩, ?_⟩
  intro pc member
  rw [List.mem_singleton.mp member]
  rfl

theorem Handing.slot_empty {t : Traced α} (handing : Handing t) {thread : Nat} {job : JobRequest α}
    (found : t.state.threads[thread]? = some (.persistentStore job))
    (alone : ∀ pc ∈ t.state.threads.eraseIdx thread, isHanding pc = false) :
    t.state.pool.persistentJob = none := by
  cases slot : t.state.pool.persistentJob with
  | none => rfl
  | some stored =>
    obtain ⟨owner, -, there⟩ := handing.traceable.slot stored slot
    have elsewhere : owner ≠ thread := by
      rintro rfl
      rw [stageAt_found found] at there
      contradiction
    cases found' : t.state.threads[owner]? with
    | none =>
      rw [stageAt, found'] at there
      contradiction
    | some pc =>
      have waits := alone pc (List.mem_eraseIdx_iff_getElem?.mpr ⟨owner, elsewhere, found'⟩)
      rw [stageAt_found found'] at there
      rw [isHanding, there] at waits
      contradiction

theorem Handing.orderly {t : Traced α} (handing : Handing t) {label : Label α}
    (alone : storesAlone label t.state = true) : ThreadPool.orderly label t.state = true := by
  cases label with
  | call call => rfl
  | step thread c =>
    rw [ThreadPool.orderly]
    cases found : t.state.threads[thread]? with
    | none => rfl
    | some pc =>
      have hands := handing.threads pc (List.mem_of_getElem? found)
      have running := handing.only.running
      rw [storesAlone, found] at alone
      cases pc with
      | addLocked job => contradiction
      | persistentStore job =>
        simp only [Option.all_some, Bool.or_eq_true, Bool.not_eq_true', Option.isNone_iff_eq_none,
          List.any_eq_false] at alone
        simp only [Option.all_some, orderlyStep, running, Bool.not_false, Bool.true_and, Bool.or_eq_true,
          Bool.not_eq_true', Option.isNone_iff_eq_none]
        obtain (nothing | empty) | others := alone
        · exact .inr nothing
        · exact .inl empty
        · exact .inl (handing.slot_empty found fun pc member => by simpa using others pc member)
      | _ => rfl

theorem step_handing (label : Label α) (t u : Traced α)
    (allowed : handOverOnly label t.state = true ∧ storesAlone label t.state = true)
    (taken : Traced.step label t = some u) (handing : Handing t) : Handing u := by
  obtain ⟨only, alone⟩ := allowed
  have traceable := step_traceable label t u taken handing.traceable
  have settled : Settled u.state := by
    obtain ⟨s, stepped, rfl⟩ := Option.map_eq_some_iff.mp taken
    exact step_settled label t.state s (handing.orderly alone) stepped handing.settled
  obtain ⟨call, rfl, rfl⟩ | ⟨thread, c, pc, move, rfl, found, moved, rfl⟩ := Traced.step_some taken
  · refine ⟨settled, traceable, handing.only, ?_⟩
    intro pc member
    obtain old | new := List.mem_append.mp member
    · exact handing.threads pc old
    · rw [List.mem_singleton.mp new]
      cases call with
      | addPersistent job => rfl
      | _ => contradiction
  · have ready (left : Nat) : pc ≠ .created (.init left) false := by
      rintro rfl
      rw [handOverOnly, found] at only
      contradiction
    obtain ⟨slotOnly, hands⟩ :=
      step_slotOnly handing.only (handing.threads pc (List.mem_of_getElem? found)) ready moved
    refine ⟨settled, traceable, slotOnly, ?_⟩
    intro pc' member
    obtain old | new := List.mem_append.mp member
    · exact forall_mem_set handing.threads hands pc' old
    · rw [mem_spawned new]
      rfl

theorem Handing.handedOver {t : Traced α} (handing : Handing t) : HandedOver t := by
  obtain ⟨⟨places, ran, -, -⟩, traceable, ⟨-, ⟨high, med, low⟩, removed, freed⟩, -⟩ := handing
  have queued_eq : queued t.state.pool = (t.state.pool.persistentJob.map (·.serial)).toList := by
    rw [queued, Pool.waiting, high, med, low]
    cases t.state.pool.persistentJob <;> rfl
  have started (serial : Nat) (accepted : serial < t.state.pool.history.accepted) :
      (queued t.state.pool).count serial + t.state.pool.history.started.count serial = 1 := by
    have place := places serial
    rw [if_pos accepted, stored, removed, freed] at place
    have begun := ran serial
    simp only [List.count_append, List.count_nil] at place
    omega
  have kept (serial : Nat) (accepted : serial < t.state.pool.history.accepted) :
      t.state.pool.persistentJob.map (·.serial) = some serial ∧ t.state.pool.history.started.count serial = 0 ∨
        t.state.pool.persistentJob.map (·.serial) ≠ some serial ∧
          t.state.pool.history.started.count serial = 1 := by
    have total := started serial accepted
    rw [queued_eq] at total
    by_cases inSlot : t.state.pool.persistentJob.map (·.serial) = some serial
    · rw [inSlot] at total
      simp only [Option.toList_some, List.count_singleton_self] at total
      exact .inl ⟨inSlot, by omega⟩
    · refine .inr ⟨inSlot, ?_⟩
      have absent : (t.state.pool.persistentJob.map (·.serial)).toList.count serial = 0 := by
        rw [List.count_eq_zero]
        intro member
        exact inSlot (Option.mem_toList.mp member)
      omega
  refine ⟨kept, fun thread id issued => ?_⟩
  have fits := traceable.fits thread
  rw [issued] at fits
  obtain ⟨serial, owns⟩ := Option.isSome_iff_exists.mp fits
  refine ⟨serial, owns, ?_⟩
  obtain ⟨inSlot, -⟩ | ⟨-, once⟩ := kept serial (traceable.fresh thread serial owns)
  · obtain ⟨job, slot, rfl⟩ := Option.map_eq_some_iff.mp inSlot
    obtain ⟨owner, owns', waits⟩ := traceable.slot job slot
    rw [traceable.unshared owner thread _ owns' owns, issued] at waits
    contradiction
  · exact once

/-- In a run of `ThreadPoolAddPersistent` calls and workers in which a call stores its job only when no
other call waits for its job to be picked up, no job is lost and each call that returns 0 has had its
job picked up by one worker. -/
theorem run_handedOver (attr : ThreadPoolAttr) (labels : List (Label α)) (t : Traced α)
    (allowed : Along Traced.step (fun label t => handOverOnly label t.state = true ∧
      storesAlone label t.state = true) labels (Traced.initial attr))
    (ran : run Traced.step labels (Traced.initial attr) = some t) : HandedOver t :=
  (run_keeps step_handing (initial_handing attr) allowed ran).handedOver

/-- One worker is idle; a second one is created for a persistent job, and the first one takes it. -/
def handOverRun : List (Label Unit) :=
  steps 0 2 ++ steps 1 1 ++ steps 0 3 ++ [.call (.addPersistent ⟨(), .med⟩)] ++ steps 2 3 ++ steps 3 1 ++
    steps 2 4 ++ steps 1 2 ++ steps 2 2

theorem run_handedOver_idleWorker :
    ∃ t, run Traced.step handOverRun (Traced.initial (smallPool 1 2).pool.attr) = some t ∧
      stageAt t.state 2 = .issued 0 ∧ HandedOver t := by
  have ends : (run Traced.step handOverRun (Traced.initial (smallPool 1 2).pool.attr)).map (stageAt ·.state 2) =
      some (.issued 0) := by
    decide +kernel
  obtain ⟨t, ran, issued⟩ := Option.map_eq_some_iff.mp ends
  exact ⟨t, ran, issued, run_handedOver _ handOverRun t (by decide +kernel) ran⟩

/-- A second call stores its job over that of the first, which no worker picks up. -/
theorem run_overwrites_slot :
    ¬∀ (attr : ThreadPoolAttr) (labels : List (Label Unit)) (t : Traced Unit),
      Along Traced.step (fun label t => handOverOnly label t.state = true) labels (Traced.initial attr) →
        run Traced.step labels (Traced.initial attr) = some t → HandedOver t := by
  intro claim
  have ends : (run Traced.step overwritingRun (Traced.initial (smallPool 2 2).pool.attr)).map (fun t =>
      (t.state.pool.history.accepted, t.state.pool.persistentJob.map (·.serial),
        t.state.pool.history.started)) = some (2, some 1, []) := by
    decide
  obtain ⟨t, ran, found⟩ := Option.map_eq_some_iff.mp ends
  simp only [Prod.mk.injEq] at found
  obtain ⟨accepted, slot, started⟩ := found
  have handed := claim _ overwritingRun t (by decide) ran
  obtain ⟨inSlot, -⟩ | ⟨-, once⟩ := handed.kept 0 (by omega)
  · rw [slot] at inSlot
    exact absurd (Option.some.inj inSlot) (by decide)
  · rw [started] at once
    exact absurd once (by decide)

end Pupnp.ThreadPool
