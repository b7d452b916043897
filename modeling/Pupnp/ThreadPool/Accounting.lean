import Pupnp.ThreadPool.Pool

/-!
Where the accepted jobs are. Every step moves a job from one place to the next or
leaves all of them where they are, except that a persistent job stored over
another one drops it, and that a job stored after `ThreadPoolShutdown` has emptied
the queues stays behind.
-/

namespace Pupnp.ThreadPool
open Pupnp.Run

variable {α : Type}

def running : Pc α → List Nat
  | .workerRun job _ => [job.serial]
  | _ => []

def queued (p : Pool α) : List Nat := p.waiting.map (·.serial)

def executing (s : State α) : List Nat := s.threads.flatMap running

def stored (p : Pool α) : List Nat :=
  queued p ++ p.history.finished ++ p.history.removed ++ p.history.freed

/-- Every accepted job is in one place, none has been executed twice, and nothing is queued
once `ThreadPoolShutdown` has returned. -/
structure Accounted (s : State α) : Prop where
  onePlace : ∀ job < s.pool.history.accepted,
    (queued s.pool ++ executing s ++ s.pool.history.finished ++ s.pool.history.removed ++
      s.pool.history.freed).count job = 1
  executedOnce : ∀ job, s.pool.history.started.count job ≤ 1
  shutdownEmpty : .returned .shutdown ∈ s.threads → queued s.pool = []

def orderlyStep (c : Choice) (p : Pool α) : Pc α → Bool
  | .addLocked _ => !p.shutdown || !c.links || !c.allocates || p.attr.maxJobsTotal ≤ p.totalJobs
  | .persistentStore _ => (!p.shutdown && p.persistentJob.isNone) || !c.allocates
  | _ => true

def orderly : Label α → State α → Bool
  | .call _, _ => true
  | .step thread c, s => s.threads[thread]?.all (orderlyStep c s.pool)

/-- The thread is in `ThreadPoolShutdown`, past the emptying of the queues. -/
def pastDrain : Pc α → Bool
  | .shutdownDrained => true
  | .shutdownWait => true
  | .returned .shutdown => true
  | _ => false

structure Quiet (p : Pool α) (pc : Pc α) (move : Move α) : Prop where
  shutdown : move.pool.shutdown = p.shutdown
  waiting : p.waiting = [] → move.pool.waiting = []
  late : pastDrain move.pc = true → pastDrain pc = true

structure SameCounts (h h' : History) : Prop where
  accepted : h'.accepted = h.accepted
  started : h'.started = h.started
  finished : h'.finished = h.finished

inductive Effect (p : Pool α) (pc : Pc α) (move : Move α) : Prop
  | keeps (stays : (stored move.pool).Perm (stored p))
      (same : SameCounts p.history move.pool.history) (runs : running move.pc = running pc)
      (quiet : Quiet p pc move)
  | drains (stays : (stored move.pool).Perm (stored p))
      (same : SameCounts p.history move.pool.history) (runs : running move.pc = running pc)
      (shutdown : move.pool.shutdown = true) (empty : move.pool.waiting = [])
  | accepts (stays : (stored move.pool).Perm (p.history.accepted :: stored p))
      (accepted : move.pool.history.accepted = p.history.accepted + 1)
      (started : move.pool.history.started = p.history.started)
      (finished : move.pool.history.finished = p.history.finished)
      (idle : running pc = []) (runs : running move.pc = [])
      (accepting : p.shutdown = false) (shutdown : move.pool.shutdown = false)
      (late : pastDrain move.pc = false)
  | starts (job : Nat) (leaves : (stored p).Perm (job :: stored move.pool))
      (accepted : move.pool.history.accepted = p.history.accepted)
      (started : move.pool.history.started = job :: p.history.started)
      (finished : move.pool.history.finished = p.history.finished)
      (idle : running pc = []) (runs : running move.pc = [job]) (quiet : Quiet p pc move)
  | finishes (job : Nat) (stays : (stored move.pool).Perm (job :: stored p))
      (accepted : move.pool.history.accepted = p.history.accepted)
      (started : move.pool.history.started = p.history.started)
      (finished : move.pool.history.finished = job :: p.history.finished)
      (busy : running pc = [job]) (runs : running move.pc = []) (quiet : Quiet p pc move)

theorem bumpPriority_queues (now : Timeval) (p : Pool α) :
    ∃ high med low,
      bumpPriority now p = { p with highJobQ := high, medJobQ := med, lowJobQ := low } ∧
        (high ++ med ++ low).Perm (p.highJobQ ++ p.medJobQ ++ p.lowJobQ) := by
  induction p using bumpPriority.induct now with
  | case1 p job rest medium step =>
    obtain ⟨high, med, low, same, moved⟩ := step
    refine ⟨high, med, low, ?_, moved.trans ?_⟩
    · rw [bumpPriority]
      split
      case h_1 other others found =>
        rw [medium] at found
        cases found
        exact same
      case h_2 absent =>
        rw [medium] at absent
        contradiction
    · simp [overdue_some medium]
  | case2 p medium job rest due step =>
    obtain ⟨high, med, low, same, moved⟩ := step
    refine ⟨high, med, low, ?_, moved.trans ?_⟩
    · rw [bumpPriority]
      split
      case h_1 found =>
        rw [medium] at found
        contradiction
      case h_2 =>
        split
        case h_1 other others found =>
          rw [due] at found
          cases found
          exact same
        case h_2 absent =>
          rw [due] at absent
          contradiction
    · simp [overdue_some due]
  | case3 p medium due =>
    refine ⟨_, _, _, ?_, List.Perm.refl _⟩
    rw [bumpPriority]
    split
    case h_1 found =>
      rw [medium] at found
      contradiction
    case h_2 =>
      split
      case h_1 found =>
        rw [due] at found
        contradiction
      case h_2 => rfl

theorem Effect.of_same {p : Pool α} {pc : Pc α} {move : Move α}
    (waiting : move.pool.waiting = p.waiting) (history : move.pool.history = p.history)
    (shutdown : move.pool.shutdown = p.shutdown) (runs : running move.pc = running pc)
    (late : pastDrain move.pc = true → pastDrain pc = true) : Effect p pc move := by
  refine .keeps ?_ (by rw [history]; exact ⟨rfl, rfl, rfl⟩) runs
    ⟨shutdown, fun empty => waiting.trans empty, late⟩
  rw [stored, stored, queued, queued, waiting, history]

/-! One lemma for each function that touches the jobs. -/

section Functions
variable (c : Choice) (p : Pool α)

theorem enqueue_stored (job : ThreadPoolJob α) :
    (stored (p.enqueue job)).Perm (job.serial :: stored p) := by
  rw [List.perm_iff_count]
  intro n
  unfold Pool.enqueue
  split <;> simp [stored, queued, Pool.waiting, List.count_cons] <;> omega

theorem enqueue_frame (job : ThreadPoolJob α) :
    (p.enqueue job).history = p.history ∧ (p.enqueue job).shutdown = p.shutdown := by
  unfold Pool.enqueue
  split <;> exact ⟨rfl, rfl⟩

theorem addJob_effect (job : JobRequest α) (accepting : orderlyStep c p (.addLocked job) = true) :
    Effect p (.addLocked job) (addJob c p job) := by
  unfold addJob createThreadPoolJob
  split
  next => exact .of_same rfl rfl rfl rfl nofun
  next room =>
    cases memory : c.allocates with
    | false => exact .of_same rfl rfl rfl rfl nofun
    | true =>
      cases linked : c.links with
      | false => exact .of_same rfl rfl rfl rfl nofun
      | true =>
        have running : p.shutdown = false := by
          simpa [orderlyStep, memory, linked, room] using accepting
        obtain ⟨history, shutdown⟩ := enqueue_frame p
          ⟨job.func, job.priority, p.lastJobId, c.now, p.history.accepted⟩
        refine .accepts (enqueue_stored p _) ?_ ?_ ?_ rfl rfl running ?_ rfl
        · exact congrArg (·.accepted + 1) history
        · exact congrArg (·.started) history
        · exact congrArg (·.finished) history
        · exact shutdown.trans running

theorem storePersistent_effect (job : JobRequest α)
    (free : orderlyStep c p (.persistentStore job) = true) :
    Effect p (.persistentStore job) (storePersistent c p job) := by
  unfold storePersistent createThreadPoolJob
  cases memory : c.allocates with
  | false => exact .of_same rfl rfl rfl rfl nofun
  | true =>
    simp only [orderlyStep, memory, Bool.not_true, Bool.or_false, Bool.and_eq_true,
      Bool.not_eq_true', Option.isNone_iff_eq_none] at free
    obtain ⟨running, empty⟩ := free
    refine .accepts ?_ rfl rfl rfl rfl rfl running running rfl
    rw [List.perm_iff_count]
    intro n
    simp [stored, queued, Pool.waiting, Pool.accept, empty, List.count_cons]
    omega

theorem eraseP_serials {queue : List (ThreadPoolJob α)} {sameId : ThreadPoolJob α → Bool}
    {job : ThreadPoolJob α} (found : queue.find? sameId = some job) :
    (queue.map (·.serial)).Perm (job.serial :: (queue.eraseP sameId).map (·.serial)) := by
  obtain ⟨same, before, after, rfl, first⟩ := List.find?_eq_some_iff_append.mp found
  rw [List.eraseP_append_right _ (by simpa using first), List.eraseP_cons_of_pos same]
  simp

theorem waiting_of_taken {q : Pool α} {job : Nat} (taken : (queued p).Perm (job :: queued q))
    (empty : p.waiting = []) : q.waiting = [] := by
  rw [queued, empty] at taken
  exact absurd taken.symm (List.cons_ne_nil _ _ ∘ List.Perm.eq_nil)

theorem removeJob_effect (jobId : Int) :
    Effect p (.threadPoolRemove jobId)
      ⟨(removeJob p jobId).1, .returned (removeJob p jobId).2, false⟩ := by
  have moved : ∀ (p' : Pool α) (job : ThreadPoolJob α) (out : Option (ThreadPoolJob α)),
      p'.history = p.history.remove job → p'.shutdown = p.shutdown →
      (queued p).Perm (job.serial :: queued p') →
      Effect p (.threadPoolRemove jobId) ⟨p', .returned (.remove 0 out), false⟩ := by
    intro p' job out history shutdown taken
    refine .keeps ?_ (by rw [history]; exact ⟨rfl, rfl, rfl⟩) rfl
      ⟨shutdown, waiting_of_taken p taken, nofun⟩
    rw [List.perm_iff_count] at taken ⊢
    intro n
    have := taken n
    simp only [stored, history, History.remove, List.count_append, List.count_cons] at this ⊢
    omega
  unfold removeJob
  simp only
  split
  next job found =>
    refine moved _ job _ rfl rfl ?_
    have taken := eraseP_serials found
    simp only [queued, Pool.waiting, List.map_append, List.append_assoc]
    exact taken.append_right _
  next =>
    split
    next job found =>
      refine moved _ job _ rfl rfl ?_
      have taken := eraseP_serials found
      rw [List.perm_iff_count] at taken ⊢
      intro n
      have := taken n
      simp only [queued, Pool.waiting, List.map_append, List.count_append, List.count_cons] at this ⊢
      omega
    next =>
      split
      next job found =>
        refine moved _ job _ rfl rfl ?_
        have taken := eraseP_serials found
        rw [List.perm_iff_count] at taken ⊢
        intro n
        have := taken n
        simp only [queued, Pool.waiting, List.map_append, List.count_append, List.count_cons] at this ⊢
        omega
      next =>
        split
        next job slot =>
          split
          · refine moved _ job _ rfl rfl ?_
            rw [List.perm_iff_count]
            intro n
            simp [queued, Pool.waiting, slot, List.count_cons]
            omega
          · exact .of_same rfl rfl rfl rfl nofun
        next => exact .of_same rfl rfl rfl rfl nofun

theorem drain_stored : (stored (drain p)).Perm (stored p) := by
  rw [List.perm_iff_count]
  intro n
  simp [stored, queued, drain, Pool.waiting]
  omega

theorem startJob_effect (timedOut : Bool) (job : ThreadPoolJob α) (persistent : Bool) {p' : Pool α}
    (history : p'.history = p.history) (shutdown : p'.shutdown = p.shutdown)
    (taken : (queued p).Perm (job.serial :: queued p')) :
    Effect p (.workerCheck timedOut) (startJob p' job persistent) := by
  refine .starts job.serial ?_ ?_ ?_ ?_ rfl rfl ⟨shutdown, waiting_of_taken p taken, nofun⟩
  · rw [List.perm_iff_count] at taken ⊢
    intro n
    have := taken n
    simp only [stored, startJob, release, Pool.unlock, queued, Pool.waiting, history,
      List.count_append, List.count_cons] at this ⊢
    omega
  all_goals simp [startJob, release, Pool.unlock, history]

theorem pickJob_effect (timedOut : Bool) : Effect p (.workerCheck timedOut) (pickJob p) := by
  unfold pickJob
  split
  next job slot =>
    refine startJob_effect p timedOut job true rfl rfl ?_
    rw [List.perm_iff_count]
    intro n
    simp [queued, Pool.waiting, slot, List.count_cons]
    omega
  next slot =>
    simp only
    split
    next job rest high =>
      refine startJob_effect p timedOut job false rfl rfl ?_
      simp [queued, Pool.waiting, high]
    next job rest high med =>
      refine startJob_effect p timedOut job false rfl rfl ?_
      simp [queued, Pool.waiting, high, med]
    next job rest high med low =>
      refine startJob_effect p timedOut job false rfl rfl ?_
      simp [queued, Pool.waiting, high, med, low]
    next => exact .of_same rfl rfl rfl rfl nofun

theorem Effect.reordered {p q : Pool α} {pc : Pc α} {move : Move α}
    (waiting : q.waiting.Perm p.waiting) (history : q.history = p.history)
    (shutdown : q.shutdown = p.shutdown) (effect : Effect q pc move) : Effect p pc move := by
  have same : (stored q).Perm (stored p) := by
    rw [stored, stored, history]
    exact (((waiting.map _).append_right _).append_right _).append_right _
  have quieter : Quiet q pc move → Quiet p pc move := by
    rintro ⟨kept, drained, late⟩
    refine ⟨kept.trans shutdown, fun empty => drained ?_, late⟩
    rw [empty] at waiting
    exact waiting.eq_nil
  cases effect with
  | keeps stays counts runs quiet =>
    rw [history] at counts
    exact .keeps (stays.trans same) counts runs (quieter quiet)
  | drains stays counts runs shut empty =>
    rw [history] at counts
    exact .drains (stays.trans same) counts runs shut empty
  | accepts stays accepted started finished idle runs accepting shut late =>
    rw [history] at stays accepted started finished
    exact .accepts (stays.trans (same.cons _)) accepted started finished idle runs
      (shutdown.symm.trans accepting) shut late
  | starts job leaves accepted started finished idle runs quiet =>
    rw [history] at accepted started finished
    exact .starts job (same.symm.trans leaves) accepted started finished idle runs (quieter quiet)
  | finishes job stays accepted started finished busy runs quiet =>
    rw [history] at accepted started finished
    exact .finishes job (stays.trans (same.cons _)) accepted started finished busy runs
      (quieter quiet)

theorem checkForJob_effect (timedOut : Bool) :
    Effect p (.workerCheck timedOut) (checkForJob c p timedOut) := by
  unfold checkForJob
  simp only
  split
  · split
    · exact .of_same rfl rfl rfl rfl nofun
    · exact .of_same rfl rfl rfl rfl nofun
  · obtain ⟨high, med, low, same, moved⟩ :=
      bumpPriority_queues c.now { p with idleThreads := p.idleThreads - 1 }
    rw [same]
    apply Effect.reordered (q := { p with
      idleThreads := p.idleThreads - 1, highJobQ := high, medJobQ := med, lowJobQ := low })
    · exact moved.append_right _
    · rfl
    · rfl
    · split
      · exact .of_same rfl rfl rfl rfl nofun
      · exact pickJob_effect _ _

theorem createWorker_effect (caller : Caller α) :
    Effect p (.createWorker caller) (createWorker c p caller) := by
  unfold createWorker
  split_ifs <;> exact .of_same rfl rfl rfl rfl nofun

theorem resume_effect (ok : Bool) (caller : Caller α) :
    Effect p (.created caller ok) (resume p ok caller) := by
  cases caller with
  | init left => cases ok <;> exact .of_same rfl rfl rfl rfl nofun
  | add frame => cases ok <;> exact .of_same rfl rfl rfl rfl nofun
  | persistent job => exact .of_same rfl rfl rfl rfl nofun

theorem finishJob_frame (job : Option (ThreadPoolJob α × Bool)) :
    (finishJob p job).waiting = p.waiting ∧ (finishJob p job).history = p.history ∧
      (finishJob p job).shutdown = p.shutdown := by
  cases job <;> exact ⟨rfl, rfl, rfl⟩

end Functions

theorem acquire_some {p : Pool α} {next : Pc α} {move : Move α}
    (taken : acquire p next = some move) : move = ⟨p.lock, next, false⟩ := by
  unfold acquire at taken
  split at taken
  · contradiction
  · exact (Option.some.inj taken).symm

theorem threadStep_effect {c : Choice} {p : Pool α} {pc : Pc α} {move : Move α}
    (orderly : orderlyStep c p pc = true) (taken : threadStep c p pc = some move) :
    Effect p pc move := by
  have locks : ∀ next, acquire p next = some move → running next = running pc →
      (pastDrain next = true → pastDrain pc = true) → Effect p pc move := by
    intro next locked runs late
    rw [acquire_some locked]
    exact .of_same rfl rfl rfl runs late
  cases pc with
  | threadPoolAdd job => exact locks _ taken rfl nofun
  | threadPoolAddPersistent job => exact locks _ taken rfl nofun
  | persistentWait => exact locks _ taken rfl nofun
  | shutdownWait => exact locks _ taken rfl fun _ => rfl
  | createWait caller => exact locks _ taken rfl nofun
  | workerWait => exact locks _ taken rfl nofun
  | startWait caller =>
    simp only [threadStep, Option.ite_none_left_eq_some] at taken
    exact locks _ taken.2 rfl nofun
  | addLocked job =>
    obtain rfl := Option.some.inj taken
    exact addJob_effect c p job orderly
  | addWorker frame =>
    simp only [threadStep] at taken
    split at taken
    all_goals
      obtain rfl := Option.some.inj taken
      exact .of_same rfl rfl rfl rfl nofun
  | addDone frame =>
    obtain rfl := Option.some.inj taken
    exact .of_same rfl rfl rfl rfl nofun
  | persistentLocked job =>
    obtain rfl := Option.some.inj taken
    unfold addPersistent
    split_ifs <;> exact .of_same rfl rfl rfl rfl nofun
  | persistentStore job =>
    obtain rfl := Option.some.inj taken
    exact storePersistent_effect c p job orderly
  | persistentPicked =>
    obtain rfl := Option.some.inj taken
    unfold awaitPickUp
    split_ifs <;> exact .of_same rfl rfl rfl rfl nofun
  | threadPoolRemove jobId =>
    simp only [threadStep, Option.ite_none_left_eq_some, Option.some.injEq] at taken
    rw [← taken.2]
    exact removeJob_effect p jobId
  | threadPoolShutdown =>
    simp only [threadStep, Option.ite_none_left_eq_some, Option.some.injEq] at taken
    rw [← taken.2]
    exact .drains (drain_stored p) ⟨rfl, rfl, rfl⟩ rfl rfl rfl
  | shutdownDrained =>
    simp only [threadStep] at taken
    split at taken
    all_goals
      obtain rfl := Option.some.inj taken
      exact .of_same rfl rfl rfl rfl fun _ => rfl
  | initLoop left =>
    cases left <;>
      (obtain rfl := Option.some.inj taken
       exact .of_same rfl rfl rfl rfl nofun)
  | createWorker caller =>
    obtain rfl := Option.some.inj taken
    exact createWorker_effect c p caller
  | created caller ok =>
    obtain rfl := Option.some.inj taken
    exact resume_effect p ok caller
  | workerThread =>
    simp only [threadStep, Option.ite_none_left_eq_some, Option.some.injEq] at taken
    rw [← taken.2]
    exact .of_same rfl rfl rfl rfl nofun
  | workerTop job =>
    simp only [threadStep, Option.ite_none_left_eq_some, Option.some.injEq] at taken
    rw [← taken.2]
    obtain ⟨waiting, history, shutdown⟩ := finishJob_frame p job
    exact .of_same waiting history shutdown rfl nofun
  | workerCheck timedOut =>
    obtain rfl := Option.some.inj taken
    exact checkForJob_effect c p timedOut
  | workerRun job persistent =>
    obtain rfl := Option.some.inj taken
    refine .finishes job.serial ?_ rfl rfl rfl rfl rfl ⟨rfl, fun empty => empty, nofun⟩
    rw [List.perm_iff_count]
    intro n
    simp [stored, queued, Pool.remember, Pool.waiting, List.count_cons]
    omega
  | workerExit => contradiction
  | returned result => contradiction

/-- The invariant: each accepted job once among all places, each start still running or finished,
and an empty pool behind the shutdown. -/
structure Settled (s : State α) : Prop where
  places : ∀ job, (stored s.pool).count job + (executing s).count job =
    if job < s.pool.history.accepted then 1 else 0
  ran : ∀ job, s.pool.history.started.count job =
    (executing s).count job + s.pool.history.finished.count job
  late : ∀ pc ∈ s.threads, pastDrain pc = true → s.pool.shutdown = true
  drained : s.pool.shutdown = true → s.pool.waiting = []

theorem initial_settled (attr : ThreadPoolAttr) : Settled (initial (α := α) attr) := by
  refine ⟨fun job => ?_, fun job => rfl, ?_, nofun⟩
  · simp [initial, stored, queued, Pool.waiting, executing, running]
  · intro pc member
    rw [List.mem_singleton.mp member]
    nofun

theorem mem_spawned {move : Move α} {pc : Pc α} (new : pc ∈ move.spawned) : pc = .workerThread := by
  unfold Move.spawned at new
  split at new
  · exact List.mem_singleton.mp new
  · contradiction

theorem spawned_running (move : Move α) : move.spawned.flatMap running = [] := by
  rw [List.flatMap_eq_nil_iff]
  intro pc new
  rw [mem_spawned new]
  rfl

def State.after (s : State α) (thread : Nat) (move : Move α) : State α :=
  ⟨move.pool, s.threads.set thread move.pc ++ move.spawned⟩

theorem executing_after {s : State α} {thread : Nat} {pc : Pc α} (move : Move α)
    (found : s.threads[thread]? = some pc) (job : Nat) :
    (executing (s.after thread move)).count job + (running pc).count job =
      (executing s).count job + (running move.pc).count job := by
  simp only [executing, State.after, List.flatMap_append, spawned_running, List.append_nil]
  exact count_flatMap_set found move.pc running job

theorem late_after {s : State α} {thread : Nat} {pc : Pc α} {move : Move α}
    (found : s.threads[thread]? = some pc)
    (late : ∀ t ∈ s.threads, pastDrain t = true → s.pool.shutdown = true)
    (quiet : Quiet s.pool pc move) :
    ∀ t ∈ (s.after thread move).threads, pastDrain t = true → move.pool.shutdown = true := by
  intro t member past
  rw [quiet.shutdown]
  obtain old | new := List.mem_append.mp member
  · exact forall_mem_set (P := fun t => pastDrain t = true → s.pool.shutdown = true) late
      (fun moved => late pc (List.mem_of_getElem? found) (quiet.late moved)) t old past
  · rw [mem_spawned new] at past
    contradiction

theorem Settled.after {s : State α} {thread : Nat} {pc : Pc α} {move : Move α} (settled : Settled s)
    (found : s.threads[thread]? = some pc) (effect : Effect s.pool pc move) :
    Settled (s.after thread move) := by
  obtain ⟨places, ran, late, drained⟩ := settled
  have exchange := executing_after move found
  have pool : (s.after thread move).pool = move.pool := rfl
  cases effect with
  | keeps stays same runs quiet =>
    rw [runs] at exchange
    refine ⟨fun job => ?_, fun job => ?_, late_after found late quiet, ?_⟩
    · rw [pool, stays.count_eq, same.accepted, ← places job]
      have := exchange job
      omega
    · rw [pool, same.started, same.finished, ran job]
      have := exchange job
      omega
    · intro down
      exact quiet.waiting (drained (quiet.shutdown.symm.trans down))
  | drains stays same runs shutdown empty =>
    rw [runs] at exchange
    refine ⟨fun job => ?_, fun job => ?_, fun _ _ _ => shutdown, fun _ => empty⟩
    · rw [pool, stays.count_eq, same.accepted, ← places job]
      have := exchange job
      omega
    · rw [pool, same.started, same.finished, ran job]
      have := exchange job
      omega
  | accepts stays accepted started finished idle runs accepting shutdown kept =>
    rw [idle, runs] at exchange
    refine ⟨fun job => ?_, fun job => ?_, ?_, ?_⟩
    · rw [pool, stays.count_eq, accepted, List.count_cons]
      have now := exchange job
      have before := places job
      simp only [beq_iff_eq, List.count_nil] at now ⊢
      split_ifs at before ⊢ <;> omega
    · rw [pool, started, finished, ran job]
      have := exchange job
      simp only [List.count_nil] at this
      omega
    · intro t member past
      obtain old | new := List.mem_append.mp member
      · obtain same | rfl := List.mem_or_eq_of_mem_set old
        · rw [late t same past] at accepting
          contradiction
        · rw [kept] at past
          contradiction
      · rw [mem_spawned new] at past
        contradiction
    · intro down
      rw [pool, shutdown] at down
      contradiction
  | starts started leaves accepted begun finished idle runs quiet =>
    rw [idle, runs] at exchange
    refine ⟨fun job => ?_, fun job => ?_, late_after found late quiet, ?_⟩
    · have before := places job
      rw [leaves.count_eq, List.count_cons] at before
      have now := exchange job
      rw [pool, accepted, ← before]
      simp only [List.count_nil, List.count_singleton] at now
      omega
    · rw [pool, begun, finished, List.count_cons, ran job]
      have now := exchange job
      simp only [List.count_nil, List.count_singleton] at now
      omega
    · intro down
      exact quiet.waiting (drained (quiet.shutdown.symm.trans down))
  | finishes ended stays accepted begun finished busy runs quiet =>
    rw [busy, runs] at exchange
    refine ⟨fun job => ?_, fun job => ?_, late_after found late quiet, ?_⟩
    · rw [pool, stays.count_eq, accepted, List.count_cons, ← places job]
      have now := exchange job
      simp only [List.count_nil, List.count_singleton] at now
      omega
    · rw [pool, begun, finished, List.count_cons, ran job]
      have now := exchange job
      simp only [List.count_nil, List.count_singleton] at now
      omega
    · intro down
      exact quiet.waiting (drained (quiet.shutdown.symm.trans down))

theorem step_settled (label : Label α) (s t : State α) (allowed : orderly label s = true)
    (taken : step label s = some t) (settled : Settled s) : Settled t := by
  cases label with
  | call call =>
    obtain rfl := Option.some.inj taken
    obtain ⟨places, ran, late, drained⟩ := settled
    have idle : running call.pc = [] := by cases call <;> rfl
    have same : executing { s with threads := s.threads ++ [call.pc] } = executing s := by
      simp [executing, idle]
    refine ⟨fun job => ?_, fun job => ?_, ?_, drained⟩
    · rw [same]
      exact places job
    · rw [same]
      exact ran job
    · intro pc member past
      obtain old | new := List.mem_append.mp member
      · exact late pc old past
      · rw [List.mem_singleton.mp new] at past
        cases call <;> contradiction
  | step thread c =>
    simp only [step, Option.bind_eq_some_iff, Option.map_eq_some_iff] at taken
    obtain ⟨pc, found, move, moved, rfl⟩ := taken
    rw [orderly, found] at allowed
    exact settled.after found (threadStep_effect allowed moved)

theorem Settled.accounted {s : State α} (settled : Settled s) : Accounted s := by
  obtain ⟨places, ran, late, drained⟩ := settled
  refine ⟨fun job accepted => ?_, fun job => ?_, fun returned => ?_⟩
  · have here := places job
    rw [if_pos accepted] at here
    simp only [stored, List.count_append] at here ⊢
    omega
  · have here := places job
    have started := ran job
    have atMost : (if job < s.pool.history.accepted then 1 else 0) ≤ 1 := by split <;> omega
    simp only [stored, List.count_append] at here
    omega
  · rw [queued, drained (late _ returned rfl)]
    rfl

/-- In a run that stores no job over another one and none behind a shutdown, every state accounts
for all accepted jobs. -/
theorem run_accounted (attr : ThreadPoolAttr) (labels : List (Label α)) (s : State α)
    (allowed : Along step (orderly · ·) labels (initial attr))
    (ran : run step labels (initial attr) = some s) : Accounted s :=
  (run_keeps step_settled (initial_settled attr) allowed ran).accounted


/-- Everything the threads ask of the system succeeds, at the same instant. -/
def granted : Choice := ⟨true, true, true, false, ⟨0, 0⟩⟩

def steps (thread count : Nat) : List (Label Unit) := List.replicate count (.step thread granted)

/-- A pool for one worker: a job is added and run, then the pool is shut down. -/
def plainRun : List (Label Unit) :=
  steps 0 1 ++ [.call (.add ⟨(), .med⟩)] ++ steps 1 4 ++ steps 2 1 ++ steps 1 4 ++ steps 2 5 ++
    [.call .shutdown] ++ steps 3 2 ++ steps 2 2 ++ steps 3 2

/-- Two workers are idle; the second `ThreadPoolAddPersistent` stores its job before one of them
has picked the first one up. -/
def overwritingRun : List (Label Unit) :=
  steps 0 2 ++ steps 1 1 ++ steps 0 4 ++ steps 2 1 ++ steps 0 3 ++
    [.call (.addPersistent ⟨(), .med⟩), .call (.addPersistent ⟨(), .med⟩)] ++ steps 3 4 ++ steps 4 4

/-- A job is added while `ThreadPoolShutdown` waits for the one worker to leave. -/
def lateRun : List (Label Unit) :=
  steps 0 2 ++ steps 1 1 ++ steps 0 3 ++ [.call .shutdown] ++ steps 2 2 ++
    [.call (.add ⟨(), .med⟩)] ++ steps 3 4 ++ steps 1 2 ++ steps 2 2

def smallPool (minThreads maxThreads : Int) : State Unit :=
  initial { minThreads := minThreads, maxThreads := maxThreads, maxIdleTime := 10000,
            jobsPerThread := 10, maxJobsTotal := 100, starvationTime := 500 }

theorem run_accounted_plain :
    ∃ s, run step plainRun (smallPool 0 1) = some s ∧ s.pool.history.finished = [0] ∧ Accounted s := by
  have ends : (run step plainRun (smallPool 0 1)).map (·.pool.history.finished) = some [0] := by
    decide +kernel
  obtain ⟨s, ran, finished⟩ := Option.map_eq_some_iff.mp ends
  exact ⟨s, ran, finished, run_accounted _ plainRun s (by decide +kernel) ran⟩

/-- Of two persistent jobs stored one after the other, the first is nowhere. -/
theorem run_loses_job :
    ¬∀ (attr : ThreadPoolAttr) (labels : List (Label Unit)) (s : State Unit),
      run step labels (initial attr) = some s → Accounted s := by
  intro claim
  have ends : (run step overwritingRun (smallPool 2 2)).map (fun s =>
      (s.pool.history.accepted, (queued s.pool ++ executing s ++ s.pool.history.finished ++
        s.pool.history.removed ++ s.pool.history.freed).count 0)) = some (2, 0) := by
    decide
  obtain ⟨s, ran, counts⟩ := Option.map_eq_some_iff.mp ends
  obtain ⟨accepted, lost⟩ := Prod.mk.inj counts
  have place := (claim _ overwritingRun s ran).onePlace 0 (by rw [accepted]; decide)
  exact absurd (lost.symm.trans place) (by decide)

/-- A job added during the shutdown is still queued when `ThreadPoolShutdown` returns. -/
example : (run step lateRun (smallPool 1 1)).map (fun s =>
    (s.threads[2]?, queued s.pool)) = some (some (.returned .shutdown), [0]) := by
  decide +kernel

end Pupnp.ThreadPool
