import Pupnp.Gena.Device
import Pupnp.ThreadPool.Accounting

/-! The events on their way: queued in `gSendThreadPool` or held by a worker. -/

namespace Pupnp.Gena
open Pupnp.ThreadPool

def SendJob.input? : SendJob → Option NotifyThreadStruct
  | .genaNotifyThread input => some input
  | .other => none

def poolInputs (p : Pool SendJob) : List NotifyThreadStruct :=
  p.waiting.filterMap fun job => job.func.input?

def inFlight (s : State) : List NotifyThreadStruct :=
  poolInputs s.gSendThreadPool ++ s.workers.map (·.input)

def mirrors (sid : Nat) (flight : List NotifyThreadStruct) : List NotifyThreadStruct :=
  flight.filter (·.sid = sid)

theorem enqueue_waiting {α : Type} (p : Pool α) (job : ThreadPoolJob α) :
    (p.enqueue job).waiting.Perm (job :: p.waiting) := by
  have insert : ∀ before after : List (ThreadPoolJob α), before ++ after = p.waiting →
      (before ++ job :: after).Perm (job :: p.waiting) := by
    intro before after split
    rw [← split]
    exact List.perm_middle
  unfold Pool.enqueue
  split
  · simp [Pool.waiting]
  · have inserted := insert (p.highJobQ ++ p.medJobQ) (p.lowJobQ ++ p.persistentJob.toList)
      (by simp [Pool.waiting])
    simpa [Pool.waiting] using inserted
  · have inserted := insert (p.highJobQ ++ p.medJobQ ++ p.lowJobQ) p.persistentJob.toList
      (by simp [Pool.waiting])
    simpa [Pool.waiting] using inserted

theorem enqueue_totalJobs {α : Type} (p : Pool α) (job : ThreadPoolJob α) :
    (p.enqueue job).totalJobs = p.totalJobs + 1 ∧ (p.enqueue job).attr = p.attr := by
  unfold Pool.enqueue
  split <;> simp [Pool.totalJobs] <;> omega

theorem poolInputs_congr {p q : Pool SendJob} (same : q.waiting.Perm p.waiting) :
    (poolInputs q).Perm (poolInputs p) := same.filterMap _

theorem threadPoolAdd_room (now : Int) {p : Pool SendJob} (job : SendJob)
    (room : p.totalJobs < p.attr.maxJobsTotal) :
    (threadPoolAdd now p job).1 = true ∧
      (poolInputs (threadPoolAdd now p job).2).Perm (job.input?.toList ++ poolInputs p) ∧
      (threadPoolAdd now p job).2.attr = p.attr ∧
      (threadPoolAdd now p job).2.totalJobs = p.totalJobs + 1 := by
  have open_ : ¬p.attr.maxJobsTotal ≤ p.totalJobs := by omega
  let temp : ThreadPoolJob SendJob := ⟨job, .med, p.lastJobId, ⟨now, 0⟩, p.history.accepted⟩
  obtain ⟨total, attr⟩ := enqueue_totalJobs p temp
  simp only [threadPoolAdd, addJob, if_neg open_, createThreadPoolJob, if_true, decide_true, true_and]
  refine ⟨?_, attr, total⟩
  have moved : (poolInputs (p.enqueue temp)).Perm
      ((temp :: p.waiting).filterMap fun job => job.func.input?) :=
    (enqueue_waiting p temp).filterMap _
  refine List.Perm.trans moved ?_
  cases job <;> exact List.Perm.refl _

theorem threadPoolAdd_full (now : Int) {p : Pool SendJob} (job : SendJob)
    (full : p.attr.maxJobsTotal ≤ p.totalJobs) : threadPoolAdd now p job = (false, p) := by
  simp [threadPoolAdd, addJob, full, release]

/-- What a worker finds in the pool: it takes one of the waiting jobs, or leaves all of them. -/
theorem pickJob_waiting {α : Type} (p : Pool α) :
    (∃ job persistent, (pickJob p).pc = .workerRun job persistent ∧
        p.waiting.Perm (job :: (pickJob p).pool.waiting)) ∨
      (pickJob p).pc = .workerExit ∧ (pickJob p).pool.waiting.Perm p.waiting := by
  unfold pickJob
  split
  next job slot =>
    refine Or.inl ⟨job, true, rfl, ?_⟩
    simpa [Pool.waiting, slot, startJob, release, Pool.unlock] using
      @List.perm_middle _ job (p.highJobQ ++ p.medJobQ ++ p.lowJobQ) []
  next slot =>
    simp only
    split
    next job rest high =>
      refine Or.inl ⟨job, false, rfl, ?_⟩
      simp [Pool.waiting, high, startJob, release, Pool.unlock]
    next job rest high med =>
      refine Or.inl ⟨job, false, rfl, ?_⟩
      simp [Pool.waiting, high, med, startJob, release, Pool.unlock]
    next job rest high med low =>
      refine Or.inl ⟨job, false, rfl, ?_⟩
      simp [Pool.waiting, high, med, low, startJob, release, Pool.unlock]
    next high med low => exact Or.inr ⟨rfl, List.Perm.refl _⟩

theorem checkForJob_waiting {α : Type} (c : Choice) (p : Pool α) (timedOut : Bool) :
    (∃ job persistent, (checkForJob c p timedOut).pc = .workerRun job persistent ∧
        p.waiting.Perm (job :: (checkForJob c p timedOut).pool.waiting)) ∨
      (∀ job persistent, (checkForJob c p timedOut).pc ≠ .workerRun job persistent) ∧
        (checkForJob c p timedOut).pool.waiting.Perm p.waiting := by
  unfold checkForJob
  simp only
  split
  · split
    · exact Or.inr ⟨nofun, List.Perm.refl _⟩
    · exact Or.inr ⟨nofun, List.Perm.refl _⟩
  · obtain ⟨high, med, low, same, moved⟩ :=
      bumpPriority_queues c.now { p with idleThreads := p.idleThreads - 1 }
    rw [same]
    have reordered := moved.append_right p.persistentJob.toList
    split
    · exact Or.inr ⟨nofun, reordered⟩
    · obtain ⟨job, persistent, runs, taken⟩ | ⟨exits, left⟩ := pickJob_waiting
        { p with idleThreads := p.idleThreads - 1, highJobQ := high, medJobQ := med, lowJobQ := low }
      · exact Or.inl ⟨job, persistent, runs, reordered.symm.trans taken⟩
      · refine Or.inr ⟨?_, left.trans reordered⟩
        intro job persistent runs
        rw [exits] at runs
        contradiction

theorem takeJob_cases (c : Choice) (s : State) :
    (∃ input, (poolInputs s.gSendThreadPool).Perm (input :: poolInputs (takeJob c s).gSendThreadPool) ∧
        (takeJob c s).workers = s.workers ++ [⟨input, .called⟩]) ∨
      (poolInputs (takeJob c s).gSendThreadPool).Perm (poolInputs s.gSendThreadPool) ∧
        (takeJob c s).workers = s.workers := by
  simp only [takeJob]
  obtain ⟨job, persistent, runs, taken⟩ | ⟨waits, left⟩ :=
    checkForJob_waiting c s.gSendThreadPool false
  · have moved := taken.filterMap fun job => job.func.input?
    simp only [runs]
    split
    next input func =>
      rw [List.filterMap_cons_some (by rw [func]; rfl)] at moved
      exact Or.inl ⟨input, moved, rfl⟩
    next func =>
      rw [List.filterMap_cons_none (by rw [func]; rfl)] at moved
      exact Or.inr ⟨moved.symm, rfl⟩
  · split
    next job persistent runs => exact absurd runs (waits job persistent)
    next => exact Or.inr ⟨poolInputs_congr left, rfl⟩

theorem takeJob_inFlight (c : Choice) (s : State) : (inFlight (takeJob c s)).Perm (inFlight s) := by
  obtain ⟨input, moved, workers⟩ | ⟨same, workers⟩ := takeJob_cases c s
  · rw [inFlight, workers, List.map_append, ← List.append_assoc]
    refine (List.perm_append_singleton _ _).trans ?_
    exact moved.symm.append_right _
  · rw [inFlight, workers]
    exact same.append_right _

theorem takeJob_frame (c : Choice) (s : State) :
    (takeJob c s).handles = s.handles ∧ (takeJob c s).services = s.services ∧
      (takeJob c s).nextSid = s.nextSid ∧ (takeJob c s).nextEvent = s.nextEvent := by
  simp only [takeJob]
  split
  · split <;> exact ⟨rfl, rfl, rfl, rfl⟩
  · exact ⟨rfl, rfl, rfl, rfl⟩

end Pupnp.Gena
