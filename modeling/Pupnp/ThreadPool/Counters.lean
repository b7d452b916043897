import Pupnp.ThreadPool.Accounting

/-!
What the counters of the pool count. Each of them changes in a step by what the moving thread counted
for before and counts for behind it.
-/

namespace Pupnp.ThreadPool
open Pupnp.Run

variable {α : Type}

def isAlive : Pc α → Bool
  | .workerTop _ | .workerCheck _ | .workerWait | .workerRun _ _ => true
  | _ => false

def isBusy : Pc α → Bool
  | .workerRun _ _ | .workerTop (some _) => true
  | _ => false

def isBusyPersistent : Pc α → Bool
  | .workerRun _ persistent | .workerTop (some (_, persistent)) => persistent
  | _ => false

def isIdle : Pc α → Bool
  | .workerCheck _ | .workerWait => true
  | _ => false

/-- A thread that has been created and has not counted itself yet. -/
def isStarting : Pc α → Bool
  | .workerThread => true
  | _ => false

def Pool.pending (p : Pool α) : Nat := p.pendingWorkerThreadStart.toNat

/-- The counters of a pool are those of the threads. -/
structure Counted (s : State α) : Prop where
  totalThreads : s.pool.totalThreads = s.threads.countP isAlive
  busyThreads : s.pool.busyThreads = s.threads.countP isBusy
  persistentThreads : s.pool.persistentThreads = s.threads.countP isBusyPersistent
  idleThreads : s.pool.idleThreads = s.threads.countP isIdle
  pending : s.pool.pending = s.threads.countP isStarting

structure Tally (p : Pool α) (pc : Pc α) (move : Move α) : Prop where
  total : move.pool.totalThreads + (isAlive pc).toNat = p.totalThreads + (isAlive move.pc).toNat
  busy : move.pool.busyThreads + (isBusy pc).toNat = p.busyThreads + (isBusy move.pc).toNat
  persistent : move.pool.persistentThreads + (isBusyPersistent pc).toNat =
    p.persistentThreads + (isBusyPersistent move.pc).toNat
  idle : move.pool.idleThreads + (isIdle pc).toNat = p.idleThreads + (isIdle move.pc).toNat
  pending : move.pool.pending + (isStarting pc).toNat =
    p.pending + (isStarting move.pc).toNat + move.creates.toNat
  lives : (isAlive move.pc).toNat + (isStarting move.pc).toNat ≤ (isAlive pc).toNat + (isStarting pc).toNat
  attr : move.pool.attr = p.attr
  fits : move.creates = true → p.pending = 0 ∧
    (p.attr.maxThreads ≠ INFINITE_THREADS → p.totalThreads + 1 ≤ p.attr.maxThreads)

theorem Tally.of_same {p : Pool α} {pc : Pc α} {move : Move α}
    (counters : (move.pool.totalThreads, move.pool.busyThreads, move.pool.persistentThreads,
      move.pool.idleThreads, move.pool.pendingWorkerThreadStart, move.pool.attr) =
        (p.totalThreads, p.busyThreads, p.persistentThreads, p.idleThreads, p.pendingWorkerThreadStart, p.attr))
    (marks : (isAlive move.pc, isBusy move.pc, isBusyPersistent move.pc, isIdle move.pc, isStarting move.pc) =
      (isAlive pc, isBusy pc, isBusyPersistent pc, isIdle pc, isStarting pc))
    (old : move.creates = false) : Tally p pc move := by
  simp only [Prod.mk.injEq] at counters marks
  obtain ⟨total, busy, persistent, idle, pending, attr⟩ := counters
  obtain ⟨markAlive, markBusy, markPersistent, markIdle, markStarting⟩ := marks
  refine ⟨by rw [total, markAlive], by rw [busy, markBusy], by rw [persistent, markPersistent],
    by rw [idle, markIdle], ?_, by simp [markAlive, markStarting], attr, ?_⟩
  · rw [Pool.pending, Pool.pending, pending, markStarting, old]
    rfl
  · rw [old]
    nofun

section Functions
variable (c : Choice) (p : Pool α)

theorem addJob_tally (job : JobRequest α) : Tally p (.addLocked job) (addJob c p job) := by
  have enqueued (temp : ThreadPoolJob α) : Tally p (.addLocked job) ⟨(p.enqueue temp).accept,
      .addWorker ⟨temp, 0, (p.enqueue temp).accept.totalJobs,
        (p.enqueue temp).accept.totalThreads - (p.enqueue temp).accept.persistentThreads⟩, false⟩ := by
    apply Tally.of_same
    · unfold Pool.enqueue
      split <;> rfl
    · rfl
    · rfl
  unfold addJob
  split
  · exact .of_same rfl rfl rfl
  · split
    · exact .of_same rfl rfl rfl
    next temp _ =>
      cases linked : c.links with
      | true => exact enqueued temp
      | false => exact .of_same rfl rfl rfl

theorem storePersistent_tally (job : JobRequest α) :
    Tally p (.persistentStore job) (storePersistent c p job) := by
  unfold storePersistent
  split <;> exact .of_same rfl rfl rfl

theorem createWorker_tally (caller : Caller α) : Tally p (.createWorker caller) (createWorker c p caller) := by
  unfold createWorker
  split_ifs with pending full created
  · exact .of_same rfl rfl rfl
  · exact .of_same rfl rfl rfl
  · have none : p.pending = 0 := by simp [Pool.pending, pending]
    refine ⟨rfl, rfl, rfl, rfl, ?_, Nat.le_refl _, rfl, fun _ => ⟨none, fun bounded => ?_⟩⟩
    · rw [none]
      rfl
    · by_contra more
      exact full (by simp [bounded]; omega)
  · exact .of_same rfl rfl rfl

theorem resume_tally (ok : Bool) (caller : Caller α) : Tally p (.created caller ok) (resume p ok caller) := by
  cases caller with
  | init left => cases ok <;> exact .of_same rfl rfl rfl
  | add frame => cases ok <;> exact .of_same rfl rfl rfl
  | persistent job => exact .of_same rfl rfl rfl

theorem removeJob_tally (jobId : Int) : Tally p (.threadPoolRemove jobId)
    ⟨(removeJob p jobId).1, .returned (removeJob p jobId).2, false⟩ := by
  apply Tally.of_same
  · unfold removeJob
    dsimp only
    split
    · rfl
    · split
      · rfl
      · split
        · rfl
        · split
          · split <;> rfl
          · rfl
  · rfl
  · rfl

theorem finishJob_tally (job : Option (ThreadPoolJob α × Bool)) :
    Tally p (.workerTop job) ⟨(finishJob p job).lock, .workerCheck false, false⟩ := by
  cases job with
  | none => exact ⟨rfl, rfl, rfl, by simp [finishJob, Pool.lock, isIdle], rfl, Nat.le_refl _, rfl, nofun⟩
  | some done =>
    obtain ⟨job, persistent⟩ := done
    refine ⟨rfl, ?_, ?_, ?_, rfl, Nat.le_refl _, rfl, nofun⟩
    · simp [finishJob, Pool.lock, isBusy]
    · cases persistent <;> simp [finishJob, Pool.lock, isBusyPersistent]
    · simp [finishJob, Pool.lock, isIdle]

theorem startJob_tally {p' : Pool α} (job : ThreadPoolJob α) (persistent timedOut : Bool)
    (counters : (p'.totalThreads, p'.busyThreads, p'.pendingWorkerThreadStart, p'.attr) =
      (p.totalThreads, p.busyThreads, p.pendingWorkerThreadStart, p.attr))
    (idleLess : p'.idleThreads = p.idleThreads - 1)
    (persistentMore : p'.persistentThreads = p.persistentThreads + persistent.toNat) :
    Tally p (.workerCheck timedOut) (startJob p' job persistent) := by
  simp only [Prod.mk.injEq] at counters
  obtain ⟨total, busyCount, pending, attr⟩ := counters
  refine ⟨?_, ?_, ?_, ?_, ?_, Nat.le_refl _, attr, nofun⟩
  · simp [startJob, release, Pool.unlock, total, isAlive]
  · simp [startJob, release, Pool.unlock, busyCount, isBusy]
  · simp [startJob, release, Pool.unlock, persistentMore, isBusyPersistent]
  · simp [startJob, release, Pool.unlock, idleLess, isIdle]
  · simp [startJob, release, Pool.unlock, Pool.pending, pending, isStarting]

theorem leave_tally {p' : Pool α} (timedOut : Bool)
    (counters : (p'.totalThreads, p'.busyThreads, p'.persistentThreads, p'.pendingWorkerThreadStart, p'.attr) =
      (p.totalThreads, p.busyThreads, p.persistentThreads, p.pendingWorkerThreadStart, p.attr))
    (idleLess : p'.idleThreads = p.idleThreads - 1) : Tally p (.workerCheck timedOut) (leave p') := by
  simp only [Prod.mk.injEq] at counters
  obtain ⟨total, busyCount, persistent, pending, attr⟩ := counters
  refine ⟨?_, ?_, ?_, ?_, ?_, Nat.zero_le _, attr, nofun⟩
  · simp [leave, release, Pool.unlock, total, isAlive]
  · simp [leave, release, Pool.unlock, busyCount, isBusy]
  · simp [leave, release, Pool.unlock, persistent, isBusyPersistent]
  · simp [leave, release, Pool.unlock, idleLess, isIdle]
  · simp [leave, release, Pool.unlock, Pool.pending, pending, isStarting]

theorem checkForJob_tally (timedOut : Bool) :
    Tally p (.workerCheck timedOut) (checkForJob c p timedOut) := by
  unfold checkForJob
  dsimp only
  split
  · split
    · exact leave_tally p timedOut rfl rfl
    · exact .of_same rfl rfl rfl
  · obtain ⟨high, med, low, same, -⟩ :=
      bumpPriority_queues c.now { p with idleThreads := p.idleThreads - 1 }
    rw [same]
    split
    · exact leave_tally p timedOut rfl rfl
    · unfold pickJob
      split
      · exact startJob_tally p _ true timedOut rfl rfl rfl
      · dsimp only
        split
        · exact startJob_tally p _ false timedOut rfl rfl (Int.add_zero _).symm
        · exact startJob_tally p _ false timedOut rfl rfl (Int.add_zero _).symm
        · exact startJob_tally p _ false timedOut rfl rfl (Int.add_zero _).symm
        · exact leave_tally p timedOut rfl rfl

end Functions

theorem threadStep_tally {c : Choice} {p : Pool α} {pc : Pc α} {move : Move α}
    (waits : isStarting pc = true → p.pending = 1) (taken : threadStep c p pc = some move) : Tally p pc move := by
  have locks (next : Pc α) (locked : acquire p next = some move)
      (marks : (isAlive next, isBusy next, isBusyPersistent next, isIdle next, isStarting next) =
        (isAlive pc, isBusy pc, isBusyPersistent pc, isIdle pc, isStarting pc)) : Tally p pc move := by
    rw [acquire_some locked]
    exact .of_same rfl marks rfl
  cases pc with
  | threadPoolAdd job => exact locks _ taken rfl
  | threadPoolAddPersistent job => exact locks _ taken rfl
  | persistentWait => exact locks _ taken rfl
  | shutdownWait => exact locks _ taken rfl
  | createWait caller => exact locks _ taken rfl
  | workerWait => exact locks _ taken rfl
  | startWait caller =>
    simp only [threadStep, Option.ite_none_left_eq_some] at taken
    exact locks _ taken.2 rfl
  | addLocked job =>
    obtain rfl := Option.some.inj taken
    exact addJob_tally c p job
  | addWorker frame =>
    simp only [threadStep] at taken
    split at taken
    all_goals
      obtain rfl := Option.some.inj taken
      exact .of_same rfl rfl rfl
  | addDone frame =>
    obtain rfl := Option.some.inj taken
    exact .of_same rfl rfl rfl
  | persistentLocked job =>
    obtain rfl := Option.some.inj taken
    unfold addPersistent
    split_ifs <;> exact .of_same rfl rfl rfl
  | persistentStore job =>
    obtain rfl := Option.some.inj taken
    exact storePersistent_tally c p job
  | persistentPicked =>
    obtain rfl := Option.some.inj taken
    unfold awaitPickUp
    split_ifs <;> exact .of_same rfl rfl rfl
  | threadPoolRemove jobId =>
    simp only [threadStep, Option.ite_none_left_eq_some, Option.some.injEq] at taken
    rw [← taken.2]
    exact removeJob_tally p jobId
  | threadPoolShutdown =>
    simp only [threadStep, Option.ite_none_left_eq_some, Option.some.injEq] at taken
    rw [← taken.2]
    exact .of_same rfl rfl rfl
  | shutdownDrained =>
    simp only [threadStep] at taken
    split at taken
    all_goals
      obtain rfl := Option.some.inj taken
      exact .of_same rfl rfl rfl
  | initLoop left =>
    cases left <;>
      (obtain rfl := Option.some.inj taken
       exact .of_same rfl rfl rfl)
  | createWorker caller =>
    obtain rfl := Option.some.inj taken
    exact createWorker_tally c p caller
  | created caller ok =>
    obtain rfl := Option.some.inj taken
    exact resume_tally p ok caller
  | workerThread =>
    simp only [threadStep, Option.ite_none_left_eq_some, Option.some.injEq] at taken
    rw [← taken.2]
    refine ⟨by simp [isAlive], rfl, rfl, rfl, ?_, Nat.le_refl _, rfl, by simp⟩
    rw [waits rfl]
    rfl
  | workerTop job =>
    simp only [threadStep, Option.ite_none_left_eq_some, Option.some.injEq] at taken
    rw [← taken.2]
    exact finishJob_tally p job
  | workerCheck timedOut =>
    obtain rfl := Option.some.inj taken
    exact checkForJob_tally c p timedOut
  | workerRun job persistent =>
    obtain rfl := Option.some.inj taken
    exact .of_same rfl rfl rfl
  | workerExit => contradiction
  | returned result => contradiction

/-! ### Runs -/

/-- The counters are right and the threads stay within the bound, those that are starting included. -/
structure Bounded (attr : ThreadPoolAttr) (s : State α) : Prop where
  counted : Counted s
  fixed : s.pool.attr = attr
  bound : s.pool.totalThreads + s.pool.pending ≤ attr.maxThreads

theorem initial_bounded {attr : ThreadPoolAttr} (positive : 0 < attr.maxThreads) :
    Bounded attr (initial (α := α) attr) :=
  ⟨⟨rfl, rfl, rfl, rfl, rfl⟩, rfl, by simp [initial, Pool.pending]; omega⟩

/-- A count over the threads behind a step; the new thread counts where it is starting. -/
theorem countP_after {s : State α} {thread : Nat} {pc : Pc α} (move : Move α)
    (found : s.threads[thread]? = some pc) (mark : Pc α → Bool) :
    (s.after thread move).threads.countP mark + (mark pc).toNat =
      s.threads.countP mark + (mark move.pc).toNat + (move.creates && mark .workerThread).toNat := by
  have moved := countP_set found move.pc mark
  have new : move.spawned.countP mark = (move.creates && mark .workerThread).toNat := by
    unfold Move.spawned
    cases move.creates with
    | true => cases here : mark .workerThread <;> simp [here]
    | false => rfl
  rw [State.after, List.countP_append, new]
  omega

theorem Counted.after {s : State α} {thread : Nat} {pc : Pc α} {move : Move α} (counted : Counted s)
    (found : s.threads[thread]? = some pc) (tally : Tally s.pool pc move) : Counted (s.after thread move) := by
  obtain ⟨total, busyCount, persistent, idleCount, pending⟩ := counted
  have aliveAfter := countP_after move found isAlive
  have busyAfter := countP_after move found isBusy
  have persistentAfter := countP_after move found isBusyPersistent
  have idleAfter := countP_after move found isIdle
  have startingAfter := countP_after move found isStarting
  rw [show isAlive (.workerThread : Pc α) = false from rfl, Bool.and_false] at aliveAfter
  rw [show isBusy (.workerThread : Pc α) = false from rfl, Bool.and_false] at busyAfter
  rw [show isBusyPersistent (.workerThread : Pc α) = false from rfl, Bool.and_false] at persistentAfter
  rw [show isIdle (.workerThread : Pc α) = false from rfl, Bool.and_false] at idleAfter
  rw [show isStarting (.workerThread : Pc α) = true from rfl, Bool.and_true] at startingAfter
  rw [Bool.toNat_false] at aliveAfter busyAfter persistentAfter idleAfter
  have totalStep := tally.total
  have busyStep := tally.busy
  have persistentStep := tally.persistent
  have idleStep := tally.idle
  have pendingStep := tally.pending
  refine ⟨?_, ?_, ?_, ?_, ?_⟩
  · change move.pool.totalThreads = _
    omega
  · change move.pool.busyThreads = _
    omega
  · change move.pool.persistentThreads = _
    omega
  · change move.pool.idleThreads = _
    omega
  · change move.pool.pending = _
    omega

/-- A bound on the threads, those that are starting included, is kept where a new thread fits in it. -/
theorem Tally.bound {p : Pool α} {pc : Pc α} {move : Move α} {limit : Int} (tally : Tally p pc move)
    (bound : p.totalThreads + p.pending ≤ limit)
    (room : p.attr.maxThreads ≠ INFINITE_THREADS ∧ p.attr.maxThreads ≤ limit) :
    move.pool.totalThreads + move.pool.pending ≤ limit := by
  have lives := tally.lives
  have totalStep := tally.total
  have pendingStep := tally.pending
  cases new : move.creates with
  | false =>
    rw [new] at pendingStep
    simp only [Bool.toNat_false] at pendingStep
    omega
  | true =>
    obtain ⟨none, fits⟩ := tally.fits new
    have fits := fits room.1
    rw [new] at pendingStep
    simp only [Bool.toNat_true] at pendingStep
    omega

theorem Bounded.after {attr : ThreadPoolAttr} {s : State α} {thread : Nat} {pc : Pc α} {move : Move α}
    (positive : 0 < attr.maxThreads) (bounded : Bounded attr s) (found : s.threads[thread]? = some pc)
    (tally : Tally s.pool pc move) : Bounded attr (s.after thread move) := by
  refine ⟨bounded.counted.after found tally, tally.attr.trans bounded.fixed, ?_⟩
  apply tally.bound bounded.bound
  rw [bounded.fixed, INFINITE_THREADS]
  omega

theorem Counted.waits {s : State α} {thread : Nat} {pc : Pc α} (counted : Counted s)
    (found : s.threads[thread]? = some pc) (starting : isStarting pc = true) : s.pool.pending = 1 := by
  have here : 0 < s.threads.countP isStarting :=
    List.countP_pos_iff.mpr ⟨pc, List.mem_of_getElem? found, starting⟩
  have atMost : s.pool.pending ≤ 1 := Bool.toNat_le _
  have pending := counted.pending
  omega

theorem Counted.call {s : State α} (counted : Counted s) (call : Call α) :
    Counted { s with threads := s.threads ++ [call.pc] } := by
  obtain ⟨total, busyCount, persistent, idleCount, pending⟩ := counted
  have nothing (mark : Pc α → Bool) (unmarked : mark call.pc = false) :
      (s.threads ++ [call.pc]).countP mark = s.threads.countP mark := by
    simp [unmarked]
  refine ⟨?_, ?_, ?_, ?_, ?_⟩
  · exact total.trans (congrArg Nat.cast (nothing isAlive (by cases call <;> rfl)).symm)
  · exact busyCount.trans (congrArg Nat.cast (nothing isBusy (by cases call <;> rfl)).symm)
  · exact persistent.trans (congrArg Nat.cast (nothing isBusyPersistent (by cases call <;> rfl)).symm)
  · exact idleCount.trans (congrArg Nat.cast (nothing isIdle (by cases call <;> rfl)).symm)
  · exact pending.trans (nothing isStarting (by cases call <;> rfl)).symm

theorem step_bounded {attr : ThreadPoolAttr} (positive : 0 < attr.maxThreads) (label : Label α)
    (s t : State α) (taken : step label s = some t) (bounded : Bounded attr s) : Bounded attr t := by
  cases label with
  | call call =>
    obtain rfl := Option.some.inj taken
    exact ⟨bounded.counted.call call, bounded.fixed, bounded.bound⟩
  | step thread c =>
    simp only [step, Option.bind_eq_some_iff, Option.map_eq_some_iff] at taken
    obtain ⟨pc, found, move, moved, rfl⟩ := taken
    exact bounded.after positive found (threadStep_tally (bounded.counted.waits found) moved)

/-- In every reachable state of a pool with a bound, the threads that are starting included stay
within it, at most one of them is starting, and the counters are those of the threads. -/
theorem run_bounded {attr : ThreadPoolAttr} (positive : 0 < attr.maxThreads) (labels : List (Label α))
    (s : State α) (ran : run step labels (initial attr) = some s) :
    s.pool.totalThreads + s.threads.countP isStarting ≤ attr.maxThreads ∧
      s.threads.countP isStarting ≤ 1 ∧ Counted s := by
  have bounded : Bounded attr s :=
    run_invariant (step_bounded positive) (initial_bounded positive) ran
  have pending := bounded.counted.pending
  have atMost : s.pool.pending ≤ 1 := Bool.toNat_le _
  have bound := bounded.bound
  refine ⟨?_, ?_, bounded.counted⟩
  · omega
  · omega

theorem run_bounded_plain :
    ∃ s, run step plainRun (smallPool 0 1) = some s ∧ s.threads.length = 4 ∧
      s.pool.totalThreads + s.threads.countP isStarting ≤ 1 ∧
      s.threads.countP isStarting ≤ 1 ∧ Counted s := by
  have ends : (run step plainRun (smallPool 0 1)).map (·.threads.length) = some 4 := by
    decide +kernel
  obtain ⟨s, ran, length⟩ := Option.map_eq_some_iff.mp ends
  exact ⟨s, ran, length, run_bounded (by decide) plainRun s ran⟩

end Pupnp.ThreadPool
