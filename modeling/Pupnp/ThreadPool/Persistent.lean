import Pupnp.ThreadPool.Counters

/-!
Workers for ordinary jobs. `ThreadPoolAddPersistent` looks at the bound workers only where the pool is full;
where it creates a worker, nothing keeps that worker, or the last of the others, from being bound as well.
-/

namespace Pupnp.ThreadPool
open Pupnp.Run

variable {α : Type}

/-- A worker that is not bound to a persistent job is alive, or one more may be created. -/
def Servable (attr : ThreadPoolAttr) (s : State α) : Prop :=
  (∃ pc ∈ s.threads, isAlive pc = true ∧ isBusyPersistent pc = false) ∨ s.pool.totalThreads < attr.maxThreads

/-- A persistent job is stored only while two workers or more may be without one. -/
def leavesWorker : Label α → State α → Bool
  | .step thread c, s =>
      match s.threads[thread]? with
      | some (.persistentStore _) => !c.allocates || s.pool.persistentThreads + 1 < s.pool.attr.maxThreads
      | _ => true
  | .call _, _ => true

/-- The workers that are bound, and the one that the job in the slot will bind. -/
def Pool.bound (p : Pool α) : Int := p.persistentThreads + (p.persistentJob.isSome.toNat : Int)

section Functions
variable (c : Choice) (p : Pool α)

theorem bound_of_same {p q : Pool α} (same : (q.persistentThreads, q.persistentJob) = (p.persistentThreads, p.persistentJob)) :
    q.bound ≤ p.bound := by
  obtain ⟨threads, slot⟩ := Prod.mk.inj same
  have equal : q.bound = p.bound := by rw [Pool.bound, Pool.bound, threads, slot]
  exact Int.le_of_eq equal

theorem addJob_bound (job : JobRequest α) : (addJob c p job).pool.bound ≤ p.bound := by
  unfold addJob
  split
  · exact bound_of_same rfl
  · split
    · exact bound_of_same rfl
    next temp _ =>
      cases c.links with
      | false => exact bound_of_same rfl
      | true =>
        apply bound_of_same
        unfold Pool.enqueue
        cases temp.priority <;> rfl

theorem removeJob_bound (jobId : Int) : (removeJob p jobId).1.bound ≤ p.bound := by
  unfold removeJob
  dsimp only
  split
  · exact bound_of_same rfl
  split
  · exact bound_of_same rfl
  split
  · exact bound_of_same rfl
  split
  next job full =>
    split
    · simp only [Pool.bound, full, Option.isSome_some, Option.isSome_none, Bool.toNat_true, Bool.toNat_false]
      omega
    · exact bound_of_same rfl
  next => exact bound_of_same rfl

theorem finishJob_bound (job : Option (ThreadPoolJob α × Bool)) : (finishJob p job).lock.bound ≤ p.bound := by
  cases job with
  | none => exact bound_of_same rfl
  | some done =>
    obtain ⟨job, persistent⟩ := done
    cases persistent with
    | false => exact bound_of_same rfl
    | true =>
      simp only [Pool.bound, Pool.lock, finishJob, if_true]
      omega

theorem pickJob_bound : (pickJob p).pool.bound ≤ p.bound := by
  unfold pickJob
  split
  next job full =>
    simp [Pool.bound, startJob, release, Pool.unlock, full]
  next =>
    dsimp only
    split <;> exact bound_of_same rfl

theorem checkForJob_bound (timedOut : Bool) : (checkForJob c p timedOut).pool.bound ≤ p.bound := by
  unfold checkForJob
  dsimp only
  split
  · split <;> exact bound_of_same rfl
  · obtain ⟨high, med, low, same, -⟩ := bumpPriority_queues c.now { p with idleThreads := p.idleThreads - 1 }
    rw [same]
    split
    · exact bound_of_same rfl
    · exact Int.le_trans (pickJob_bound _) (bound_of_same rfl)

end Functions

theorem threadStep_bound {c : Choice} {p : Pool α} {pc : Pc α} {move : Move α} (taken : threadStep c p pc = some move) :
    move.pool.bound ≤ p.bound ∨
      ∃ job, pc = .persistentStore job ∧ c.allocates = true ∧ move.pool.bound ≤ p.persistentThreads + 1 := by
  have locks (next : Pc α) (locked : acquire p next = some move) : move.pool.bound ≤ p.bound := by
    rw [acquire_some locked]
    exact bound_of_same rfl
  cases pc with
  | threadPoolAdd job => exact .inl (locks _ taken)
  | threadPoolAddPersistent job => exact .inl (locks _ taken)
  | persistentWait => exact .inl (locks _ taken)
  | shutdownWait => exact .inl (locks _ taken)
  | createWait caller => exact .inl (locks _ taken)
  | workerWait => exact .inl (locks _ taken)
  | startWait caller =>
    simp only [threadStep, Option.ite_none_left_eq_some] at taken
    exact .inl (locks _ taken.2)
  | addLocked job =>
    obtain rfl := Option.some.inj taken
    exact .inl (addJob_bound c p job)
  | addWorker frame =>
    simp only [threadStep] at taken
    split at taken
    all_goals
      obtain rfl := Option.some.inj taken
      exact .inl (bound_of_same rfl)
  | addDone frame =>
    obtain rfl := Option.some.inj taken
    exact .inl (bound_of_same rfl)
  | persistentLocked job =>
    obtain rfl := Option.some.inj taken
    left
    unfold addPersistent
    split_ifs <;> exact bound_of_same rfl
  | persistentStore job =>
    obtain rfl := Option.some.inj taken
    unfold storePersistent createThreadPoolJob
    cases allocated : c.allocates with
    | false => exact .inl (bound_of_same rfl)
    | true =>
      right
      refine ⟨job, rfl, rfl, ?_⟩
      simp [Pool.bound, Pool.accept]
  | persistentPicked =>
    obtain rfl := Option.some.inj taken
    left
    unfold awaitPickUp
    split_ifs <;> exact bound_of_same rfl
  | threadPoolRemove jobId =>
    simp only [threadStep, Option.ite_none_left_eq_some, Option.some.injEq] at taken
    rw [← taken.2]
    exact .inl (removeJob_bound p jobId)
  | threadPoolShutdown =>
    simp only [threadStep, Option.ite_none_left_eq_some, Option.some.injEq] at taken
    rw [← taken.2]
    left
    simp only [Pool.bound, drain, Pool.lock, Option.isSome_none, Bool.toNat_false]
    omega
  | shutdownDrained =>
    simp only [threadStep] at taken
    split at taken
    all_goals
      obtain rfl := Option.some.inj taken
      exact .inl (bound_of_same rfl)
  | initLoop left =>
    cases left <;>
      (obtain rfl := Option.some.inj taken
       exact .inl (bound_of_same rfl))
  | createWorker caller =>
    obtain rfl := Option.some.inj taken
    left
    unfold createWorker
    split_ifs <;> exact bound_of_same rfl
  | created caller ok =>
    obtain rfl := Option.some.inj taken
    left
    cases caller with
    | init left => cases ok <;> exact bound_of_same rfl
    | add frame => cases ok <;> exact bound_of_same rfl
    | persistent job => exact bound_of_same rfl
  | workerThread =>
    simp only [threadStep, Option.ite_none_left_eq_some, Option.some.injEq] at taken
    rw [← taken.2]
    exact .inl (bound_of_same rfl)
  | workerTop job =>
    simp only [threadStep, Option.ite_none_left_eq_some, Option.some.injEq] at taken
    rw [← taken.2]
    exact .inl (finishJob_bound p job)
  | workerCheck timedOut =>
    obtain rfl := Option.some.inj taken
    exact .inl (checkForJob_bound c p timedOut)
  | workerRun job persistent =>
    obtain rfl := Option.some.inj taken
    exact .inl (bound_of_same rfl)
  | workerExit => contradiction
  | returned result => contradiction

structure Roomy (attr : ThreadPoolAttr) (s : State α) : Prop where
  bounded : Bounded attr s
  room : s.pool.bound < attr.maxThreads

theorem step_roomy {attr : ThreadPoolAttr} (positive : 0 < attr.maxThreads) (label : Label α) (s t : State α)
    (leaves : leavesWorker label s = true) (taken : step label s = some t) (roomy : Roomy attr s) : Roomy attr t := by
  refine ⟨step_bounded positive label s t taken roomy.bounded, ?_⟩
  have room := roomy.room
  cases label with
  | call call =>
    obtain rfl := Option.some.inj taken
    exact room
  | step thread c =>
    simp only [step, Option.bind_eq_some_iff, Option.map_eq_some_iff] at taken
    obtain ⟨pc, found, move, moved, rfl⟩ := taken
    rcases threadStep_bound moved with less | ⟨job, rfl, allocated, one⟩
    · exact Int.lt_of_le_of_lt less room
    · have free : s.pool.persistentThreads + 1 < s.pool.attr.maxThreads := by
        simpa [leavesWorker, found, allocated] using leaves
      rw [roomy.bounded.fixed] at free
      exact Int.lt_of_le_of_lt one free

theorem Roomy.servable {attr : ThreadPoolAttr} {s : State α} (roomy : Roomy attr s) : Servable attr s := by
  by_cases full : s.pool.totalThreads < attr.maxThreads
  · exact .inr full
  · left
    by_contra none
    have marked (pc : Pc α) (member : pc ∈ s.threads) (alive : isAlive pc = true) : isBusyPersistent pc = true := by
      by_contra free
      exact none ⟨pc, member, alive, Bool.not_eq_true _ ▸ free⟩
    have atMost := List.countP_mono_left marked
    have counted := roomy.bounded.counted
    have total := counted.totalThreads
    have persistent := counted.persistentThreads
    have room : s.pool.persistentThreads + (s.pool.persistentJob.isSome.toNat : Int) < attr.maxThreads := roomy.room
    omega

/-- In every run in which a persistent job is stored only while fewer than `maxThreads - 1` workers are bound,
ordinary jobs can always be served, when `ThreadPoolAddPersistent` returns and at any other time. -/
theorem run_servable {attr : ThreadPoolAttr} (many : 1 < attr.maxThreads) (labels : List (Label α)) (s : State α)
    (ran : run step labels (initial attr) = some s)
    (leaves : Along step (fun label s => leavesWorker label s = true) labels (initial attr)) : Servable attr s := by
  have positive : 0 < attr.maxThreads := by omega
  have start : Roomy attr (initial (α := α) attr) := by
    refine ⟨initial_bounded positive, ?_⟩
    change (0 : Int) + 0 < attr.maxThreads
    omega
  exact (run_keeps (step_roomy positive) start leaves ran).servable

/-- A persistent job is added to a pool with one idle worker, which picks it up; the worker that the call
has created waits. -/
def boundOnce : List (Label Unit) :=
  steps 0 2 ++ steps 1 1 ++ steps 0 3 ++ steps 1 2 ++ [.call (.addPersistent ⟨(), .med⟩)] ++ steps 2 3 ++ steps 3 1 ++
    steps 2 4 ++ steps 1 2 ++ steps 2 2 ++ steps 3 2

theorem run_servable_once :
    ∃ s, run step boundOnce (smallPool 1 2) = some s ∧ s.threads[2]? = some (.returned (.persistent 0 0)) ∧
      Servable (smallPool 1 2).pool.attr s := by
  have ends : (run step boundOnce (smallPool 1 2)).map (·.threads[2]?) = some (some (.returned (.persistent 0 0))) := by
    decide +kernel
  obtain ⟨s, ran, returned⟩ := Option.map_eq_some_iff.mp ends
  exact ⟨s, ran, returned, run_servable (by decide) boundOnce s ran (by decide +kernel)⟩

/-- The other worker is idle for too long and leaves; the next persistent job is given to the worker that is
created for it. -/
def boundTwice : List (Label Unit) :=
  boundOnce ++ [.step 3 { granted with timedOut := true }, .step 3 granted, .call (.addPersistent ⟨(), .med⟩)] ++
    steps 4 3 ++ steps 5 1 ++ steps 4 4 ++ steps 5 2 ++ steps 4 2

/-- `ThreadPoolAddPersistent` has returned 0 both times, and nobody is left for an ordinary job. -/
theorem run_bindsAll :
    ∃ s, run step boundTwice (smallPool 1 2) = some s ∧ s.threads[4]? = some (.returned (.persistent 0 1)) ∧
      ¬Servable (smallPool 1 2).pool.attr s := by
  have ends : (run step boundTwice (smallPool 1 2)).map (fun s =>
      (s.threads[4]?, s.threads.all fun pc => !isAlive pc || isBusyPersistent pc, s.pool.totalThreads)) =
        some (some (.returned (.persistent 0 1)), true, 2) := by decide +kernel
  obtain ⟨s, ran, same⟩ := Option.map_eq_some_iff.mp ends
  obtain ⟨returned, same⟩ := Prod.mk.inj same
  obtain ⟨bound, total⟩ := Prod.mk.inj same
  refine ⟨s, ran, returned, ?_⟩
  rintro (⟨pc, member, alive, free⟩ | room)
  · have marked := List.all_eq_true.mp bound pc member
    rw [alive, free] at marked
    exact Bool.false_ne_true marked
  · rw [total] at room
    exact absurd room (by decide)

end Pupnp.ThreadPool
