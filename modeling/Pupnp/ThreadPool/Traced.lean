import Mathlib.Data.List.Perm.Subperm
import Pupnp.ThreadPool.Accounting

/-!
The ids of the jobs. A job gets the id that is next when it is created, and its call returns the id
that is next when the call ends; the mutex may have been free in between.
-/

namespace Pupnp.ThreadPool
open Pupnp.Run

variable {α : Type}

/-- A run with a record of the job each thread has handed in, by serial number. -/
structure Traced (α : Type) where
  state : State α
  jobs : Nat → Option Nat

def handedIn (label : Label α) (s t : State α) (jobs : Nat → Option Nat) : Nat → Option Nat :=
  match label with
  | .call _ => jobs
  | .step thread _ =>
      if s.pool.history.accepted < t.pool.history.accepted then
        fun i => if i = thread then some s.pool.history.accepted else jobs i
      else jobs

def Traced.step (label : Label α) (t : Traced α) : Option (Traced α) :=
  (ThreadPool.step label t.state).map fun s => ⟨s, handedIn label t.state s t.jobs⟩

def Traced.initial (attr : ThreadPoolAttr) : Traced α := ⟨ThreadPool.initial attr, fun _ => none⟩

theorem Traced.run_state (labels : List (Label α)) (t : Traced α) :
    (run Traced.step labels t).map (·.state) = run ThreadPool.step labels t.state := by
  apply run_map
  intro label t
  simp [Traced.step, Function.comp_def]

inductive Stage where
  | without
  | added (serial : Nat)
  | handing
  | issued (id : Int)
  deriving DecidableEq, Repr

def AddFrame.stage (frame : AddFrame α) : Stage :=
  if frame.rc = 0 then .added frame.temp.serial else .without

def Caller.stage : Caller α → Stage
  | .add frame => frame.stage
  | _ => .without

def Result.stage : Result α → Stage
  | .add rc (some jobId) => if rc = 0 then .issued jobId else .without
  | .persistent rc jobId => if rc = 0 then .issued jobId else .without
  | _ => .without

def Pc.stage : Pc α → Stage
  | .addWorker frame | .addDone frame => frame.stage
  | .createWorker caller | .createWait caller | .startWait caller | .created caller _ => caller.stage
  | .persistentPicked | .persistentWait => .handing
  | .returned result => result.stage
  | _ => .without

def stageAt (s : State α) (thread : Nat) : Stage := (s.threads[thread]?).elim .without Pc.stage

def Pool.queues (p : Pool α) : List (ThreadPoolJob α) := p.highJobQ ++ p.medJobQ ++ p.lowJobQ

def issues (p : Pool α) : Pc α → Bool
  | .addDone _ => true
  | .persistentPicked => p.persistentJob.isNone
  | _ => false

inductive Naming (p : Pool α) (pc : Pc α) (move : Move α) : Prop
  | keeps (queues : move.pool.queues.Subperm p.queues)
      (slot : move.pool.persistentJob = p.persistentJob ∨ move.pool.persistentJob = none)
      (lastJobId : move.pool.lastJobId = p.lastJobId)
      (accepted : move.pool.history.accepted = p.history.accepted) (stage : move.pc.stage = pc.stage)
  | queues (job : ThreadPoolJob α) (jobId : job.jobId = p.lastJobId) (serial : job.serial = p.history.accepted)
      (queues : move.pool.queues.Subperm (job :: p.queues))
      (slot : move.pool.persistentJob = p.persistentJob) (lastJobId : move.pool.lastJobId = p.lastJobId)
      (accepted : move.pool.history.accepted = p.history.accepted + 1)
      (before : pc.stage = .without) (stage : move.pc.stage = .added job.serial)
  | stores (job : ThreadPoolJob α) (jobId : job.jobId = p.lastJobId) (serial : job.serial = p.history.accepted)
      (queues : move.pool.queues = p.queues) (slot : move.pool.persistentJob = some job)
      (lastJobId : move.pool.lastJobId = p.lastJobId)
      (accepted : move.pool.history.accepted = p.history.accepted + 1)
      (before : pc.stage = .without) (stage : move.pc.stage = .handing)
  | issues (issuing : issues p pc = true) (pool : move.pool = { p with lastJobId := p.lastJobId + 1 }.unlock)
      (stage : move.pc.stage = if pc.stage = .without then .without else .issued p.lastJobId)

theorem Naming.of_same {p : Pool α} {pc : Pc α} {move : Move α} (queues : move.pool.queues = p.queues)
    (slot : move.pool.persistentJob = p.persistentJob)
    (counters : (move.pool.lastJobId, move.pool.history.accepted) = (p.lastJobId, p.history.accepted))
    (stage : move.pc.stage = pc.stage) : Naming p pc move := by
  obtain ⟨lastJobId, accepted⟩ := Prod.mk.inj counters
  exact .keeps (by rw [queues]) (.inl slot) lastJobId accepted stage

section Functions
variable (c : Choice) (p : Pool α)

theorem enqueue_queues (job : ThreadPoolJob α) :
    (p.enqueue job).queues.Perm (job :: p.queues) ∧ (p.enqueue job).persistentJob = p.persistentJob ∧
      (p.enqueue job).lastJobId = p.lastJobId := by
  unfold Pool.enqueue
  split
  · refine ⟨?_, rfl, rfl⟩
    simp only [Pool.queues, List.append_assoc]
    exact List.perm_middle
  · refine ⟨?_, rfl, rfl⟩
    have moved : (p.medJobQ ++ [job] ++ p.lowJobQ).Perm (job :: (p.medJobQ ++ p.lowJobQ)) := by
      rw [List.append_assoc]
      exact List.perm_middle
    change (p.highJobQ ++ (p.medJobQ ++ [job]) ++ p.lowJobQ).Perm (job :: (p.highJobQ ++ p.medJobQ ++ p.lowJobQ))
    rw [List.append_assoc p.highJobQ, List.append_assoc p.highJobQ]
    exact (moved.append_left p.highJobQ).trans List.perm_middle
  · refine ⟨?_, rfl, rfl⟩
    simp only [Pool.queues, ← List.append_assoc]
    exact List.perm_append_singleton _ _

theorem addJob_naming (job : JobRequest α) : Naming p (.addLocked job) (addJob c p job) := by
  unfold addJob createThreadPoolJob
  split
  · exact .of_same rfl rfl rfl rfl
  · cases c.allocates with
    | false => exact .of_same rfl rfl rfl rfl
    | true =>
      cases linked : c.links with
      | false => exact .of_same rfl rfl rfl rfl
      | true =>
        obtain ⟨queues, slot, lastJobId⟩ := enqueue_queues p
          ⟨job.func, job.priority, p.lastJobId, c.now, p.history.accepted⟩
        obtain ⟨history, -⟩ := enqueue_frame p
          ⟨job.func, job.priority, p.lastJobId, c.now, p.history.accepted⟩
        exact .queues _ rfl rfl queues.subperm slot lastJobId (congrArg (·.accepted + 1) history) rfl rfl

theorem storePersistent_naming (job : JobRequest α) :
    Naming p (.persistentStore job) (storePersistent c p job) := by
  unfold storePersistent createThreadPoolJob
  cases c.allocates with
  | false => exact .of_same rfl rfl rfl rfl
  | true => exact .stores _ rfl rfl rfl rfl rfl rfl rfl rfl

theorem removeJob_naming (jobId : Int) : Naming p (.threadPoolRemove jobId)
    ⟨(removeJob p jobId).1, .returned (removeJob p jobId).2, false⟩ := by
  have erased (queue : List (ThreadPoolJob α)) (sameId : ThreadPoolJob α → Bool) :
      (queue.eraseP sameId).Subperm queue := List.eraseP_sublist.subperm
  unfold removeJob
  dsimp only
  split
  · refine .keeps ?_ (.inl rfl) rfl rfl rfl
    exact ((erased _ _).append (List.Subperm.refl _)).append (List.Subperm.refl _)
  · split
    · refine .keeps ?_ (.inl rfl) rfl rfl rfl
      exact ((List.Subperm.refl _).append (erased _ _)).append (List.Subperm.refl _)
    · split
      · refine .keeps ?_ (.inl rfl) rfl rfl rfl
        exact (List.Subperm.refl _).append (erased _ _)
      · split
        · split
          · exact .keeps (List.Subperm.refl _) (.inr rfl) rfl rfl rfl
          · exact .of_same rfl rfl rfl rfl
        · exact .of_same rfl rfl rfl rfl

theorem pickJob_naming {q : Pool α} (timedOut : Bool) (moved : q.queues.Subperm p.queues)
    (same : (q.persistentJob, q.lastJobId, q.history) = (p.persistentJob, p.lastJobId, p.history)) :
    Naming p (.workerCheck timedOut) (pickJob q) := by
  simp only [Prod.mk.injEq] at same
  obtain ⟨slot, lastJobId, history⟩ := same
  have accepted := congrArg (·.accepted) history
  have taken (q' : Pool α) (job : ThreadPoolJob α) (fewer : q'.queues.Subperm q.queues)
      (kept : (q'.persistentJob, q'.lastJobId, q'.history) = (q.persistentJob, q.lastJobId, q.history)) :
      Naming p (.workerCheck timedOut) (startJob q' job false) := by
    simp only [Prod.mk.injEq] at kept
    exact .keeps (fewer.trans moved) (.inl (kept.1.trans slot)) (kept.2.1.trans lastJobId)
      ((congrArg (·.accepted) kept.2.2).trans accepted) rfl
  unfold pickJob
  split
  · exact .keeps moved (.inr rfl) lastJobId accepted rfl
  · dsimp only
    split
    next job rest high =>
      refine taken _ job ?_ rfl
      simp only [Pool.queues, high, List.cons_append]
      exact (List.sublist_cons_self _ _).subperm
    next job rest high med =>
      refine taken _ job ?_ rfl
      simp only [Pool.queues, high, med, List.nil_append, List.cons_append]
      exact (List.sublist_cons_self _ _).subperm
    next job rest high med low =>
      refine taken _ job ?_ rfl
      simp only [Pool.queues, high, med, low, List.nil_append]
      exact (List.sublist_cons_self _ _).subperm
    next => exact .keeps moved (.inl slot) lastJobId accepted rfl

theorem checkForJob_naming (timedOut : Bool) :
    Naming p (.workerCheck timedOut) (checkForJob c p timedOut) := by
  unfold checkForJob
  dsimp only
  split
  · split
    · exact .of_same rfl rfl rfl rfl
    · exact .of_same rfl rfl rfl rfl
  · obtain ⟨high, med, low, same, moved⟩ :=
      bumpPriority_queues c.now { p with idleThreads := p.idleThreads - 1 }
    rw [same]
    split
    · exact .keeps moved.subperm (.inl rfl) rfl rfl rfl
    · exact pickJob_naming p timedOut moved.subperm rfl

theorem createWorker_naming (caller : Caller α) : Naming p (.createWorker caller) (createWorker c p caller) := by
  unfold createWorker
  split_ifs <;> exact .of_same rfl rfl rfl rfl

theorem resume_naming (ok : Bool) (caller : Caller α) : Naming p (.created caller ok) (resume p ok caller) := by
  cases caller with
  | init left => cases ok <;> exact .of_same rfl rfl rfl rfl
  | add frame => cases ok <;> exact .of_same rfl rfl rfl rfl
  | persistent job => exact .of_same rfl rfl rfl rfl

theorem awaitPickUp_naming : Naming p .persistentPicked (awaitPickUp p) := by
  unfold awaitPickUp
  split
  next full => exact .of_same rfl rfl rfl rfl
  next empty =>
    refine .issues ?_ rfl rfl
    simpa [issues] using empty

theorem addDone_naming (frame : AddFrame α) : Naming p (.addDone frame)
    (release { p with lastJobId := p.lastJobId + 1 } (.returned (.add frame.rc (some p.lastJobId)))) := by
  refine .issues rfl rfl ?_
  simp only [release, Pc.stage, Result.stage, AddFrame.stage]
  split_ifs
  · contradiction
  · rfl
  · rfl
  · contradiction

end Functions

theorem threadStep_naming {c : Choice} {p : Pool α} {pc : Pc α} {move : Move α}
    (taken : threadStep c p pc = some move) : Naming p pc move := by
  have locks (next : Pc α) (locked : acquire p next = some move) (stage : next.stage = pc.stage) :
      Naming p pc move := by
    rw [acquire_some locked]
    exact .of_same rfl rfl rfl stage
  cases pc with
  | threadPoolAdd job => exact locks _ taken rfl
  | threadPoolAddPersistent job => exact locks _ taken rfl
  | persistentWait => exact locks _ taken rfl
  | shutdownWait => exact locks _ taken rfl
  | createWait caller => exact locks _ taken rfl
  | workerWait => exact locks _ taken rfl
  | startWait caller =>
    simp only [threadStep, Option.ite_none_left_eq_some] at taken
    exact locks _ taken.2 rfl
  | addLocked job =>
    obtain rfl := Option.some.inj taken
    exact addJob_naming c p job
  | addWorker frame =>
    simp only [threadStep] at taken
    split at taken
    all_goals
      obtain rfl := Option.some.inj taken
      exact .of_same rfl rfl rfl rfl
  | addDone frame =>
    obtain rfl := Option.some.inj taken
    exact addDone_naming p frame
  | persistentLocked job =>
    obtain rfl := Option.some.inj taken
    unfold addPersistent
    split_ifs <;> exact .of_same rfl rfl rfl rfl
  | persistentStore job =>
    obtain rfl := Option.some.inj taken
    exact storePersistent_naming c p job
  | persistentPicked =>
    obtain rfl := Option.some.inj taken
    exact awaitPickUp_naming p
  | threadPoolRemove jobId =>
    simp only [threadStep, Option.ite_none_left_eq_some, Option.some.injEq] at taken
    rw [← taken.2]
    exact removeJob_naming p jobId
  | threadPoolShutdown =>
    simp only [threadStep, Option.ite_none_left_eq_some, Option.some.injEq] at taken
    rw [← taken.2]
    exact .keeps List.nil_subperm (.inr rfl) rfl rfl rfl
  | shutdownDrained =>
    simp only [threadStep] at taken
    split at taken
    all_goals
      obtain rfl := Option.some.inj taken
      exact .of_same rfl rfl rfl rfl
  | initLoop left =>
    cases left <;>
      (obtain rfl := Option.some.inj taken
       exact .of_same rfl rfl rfl rfl)
  | createWorker caller =>
    obtain rfl := Option.some.inj taken
    exact createWorker_naming c p caller
  | created caller ok =>
    obtain rfl := Option.some.inj taken
    exact resume_naming p ok caller
  | workerThread =>
    simp only [threadStep, Option.ite_none_left_eq_some, Option.some.injEq] at taken
    rw [← taken.2]
    exact .of_same rfl rfl rfl rfl
  | workerTop job =>
    simp only [threadStep, Option.ite_none_left_eq_some, Option.some.injEq] at taken
    rw [← taken.2]
    cases job <;> exact .of_same rfl rfl rfl rfl
  | workerCheck timedOut =>
    obtain rfl := Option.some.inj taken
    exact checkForJob_naming c p timedOut
  | workerRun job persistent =>
    obtain rfl := Option.some.inj taken
    exact .of_same rfl rfl rfl rfl
  | workerExit => contradiction
  | returned result => contradiction

/-! ### The calls and their jobs -/

theorem stageAt_after {s : State α} {thread : Nat} {pc : Pc α} (move : Move α)
    (found : s.threads[thread]? = some pc) (i : Nat) :
    stageAt (s.after thread move) i = if i = thread then move.pc.stage else stageAt s i := by
  have inside : thread < s.threads.length := by
    by_contra outside
    rw [List.getElem?_eq_none (by omega)] at found
    contradiction
  have fresh : (move.spawned[i - s.threads.length]?).elim .without Pc.stage = .without := by
    unfold Move.spawned
    cases move.creates with
    | false => rfl
    | true => cases here : i - s.threads.length <;> rfl
  simp only [stageAt, State.after]
  by_cases first : i < s.threads.length
  · rw [List.getElem?_append_left (by simpa using first), List.getElem?_set]
    by_cases same : thread = i
    · rw [if_pos same, if_pos same.symm, if_pos (same ▸ inside)]
      rfl
    · rw [if_neg same, if_neg (Ne.symm same)]
  · rw [List.getElem?_append_right (by simpa using first), List.length_set, if_neg (by omega), fresh,
      List.getElem?_eq_none (by omega)]
    rfl

/-- The call of the thread knows its job exactly if it has handed one in. -/
def Fits : Stage → Option Nat → Prop
  | .without, job => job = none
  | .added serial, job => job = some serial
  | .handing, job => job.isSome
  | .issued _, job => job.isSome

structure Traceable (t : Traced α) : Prop where
  fits : ∀ thread, Fits (stageAt t.state thread) (t.jobs thread)
  fresh : ∀ thread serial, t.jobs thread = some serial → serial < t.state.pool.history.accepted
  unshared : ∀ first second serial, t.jobs first = some serial → t.jobs second = some serial → first = second
  waiting : (queued t.state.pool).Nodup
  queues : ∀ job ∈ t.state.pool.queues, ∃ thread, t.jobs thread = some job.serial ∧
    (stageAt t.state thread = .added job.serial ∨ ∃ id, stageAt t.state thread = .issued id)
  slot : ∀ job ∈ t.state.pool.persistentJob, ∃ thread, t.jobs thread = some job.serial ∧
    stageAt t.state thread = .handing
  positive : 0 ≤ t.state.pool.lastJobId
  below : ∀ thread id, stageAt t.state thread = .issued id → 0 ≤ id ∧ id < t.state.pool.lastJobId
  distinct : ∀ first second id, stageAt t.state first = .issued id → stageAt t.state second = .issued id →
    first = second

theorem stageAt_found {s : State α} {thread : Nat} {pc : Pc α} (found : s.threads[thread]? = some pc) :
    stageAt s thread = pc.stage := by
  rw [stageAt, found]
  rfl

theorem nodup_of_subperm {A B : Type*} {f : A → B} {fewer all : List A} (part : fewer.Subperm all)
    (nodup : (all.map f).Nodup) : (fewer.map f).Nodup := by
  obtain ⟨chosen, same, inside⟩ := part
  exact (same.map f).nodup_iff.mp (nodup.sublist (inside.map f))

/-- A call that has handed over a persistent job issues its id when the slot is empty. -/
theorem issues_handing {p : Pool α} {pc : Pc α} (issuing : issues p pc = true)
    (handing : pc.stage = .handing) : p.persistentJob = none := by
  unfold issues at issuing
  split at issuing
  next frame =>
    simp only [Pc.stage, AddFrame.stage] at handing
    split at handing <;> contradiction
  next => exact Option.isNone_iff_eq_none.mp issuing
  next => contradiction

theorem issues_unissued {p : Pool α} {pc : Pc α} (issuing : issues p pc = true) (id : Int) :
    pc.stage ≠ .issued id := by
  unfold issues at issuing
  split at issuing
  next frame =>
    simp only [Pc.stage, AddFrame.stage]
    split <;> nofun
  next => nofun
  next => contradiction

theorem stageAt_added {s : State α} {thread serial : Nat} (added : stageAt s thread = .added serial) :
    ∃ pc, s.threads[thread]? = some pc ∧ pc.stage = .added serial := by
  unfold stageAt at added
  cases found : s.threads[thread]? with
  | none =>
    rw [found] at added
    contradiction
  | some pc =>
    rw [found] at added
    exact ⟨pc, rfl, added⟩

def Traced.after (t : Traced α) (thread : Nat) (move : Move α) : Traced α :=
  ⟨t.state.after thread move, if t.state.pool.history.accepted < move.pool.history.accepted then
    fun i => if i = thread then some t.state.pool.history.accepted else t.jobs i else t.jobs⟩

theorem initial_traceable (attr : ThreadPoolAttr) : Traceable (Traced.initial (α := α) attr) := by
  have none (thread : Nat) : stageAt (initial (α := α) attr) thread = .without := by
    cases thread <;> rfl
  refine ⟨fun thread => ?_, nofun, nofun, List.nodup_nil, nofun, nofun, Int.le_refl 0, ?_, ?_⟩
  · rw [Traced.initial, none]
    rfl
  · intro thread id issued
    rw [Traced.initial, none] at issued
    contradiction
  · intro first second id issued
    rw [Traced.initial, none] at issued
    contradiction

section After
variable {t : Traced α} {thread : Nat} {pc : Pc α} {move : Move α}

theorem Traced.after_jobs_same (thread : Nat) (accepted : move.pool.history.accepted = t.state.pool.history.accepted) :
    (t.after thread move).jobs = t.jobs := by
  rw [Traced.after, accepted, if_neg (Nat.lt_irrefl _)]

theorem Traced.after_jobs_new (thread : Nat)
    (accepted : move.pool.history.accepted = t.state.pool.history.accepted + 1) (i : Nat) : (t.after thread move).jobs i =
      if i = thread then some t.state.pool.history.accepted else t.jobs i := by
  rw [Traced.after, accepted, if_pos (Nat.lt_succ_self _)]

theorem Traceable.keeps (traceable : Traceable t) (found : t.state.threads[thread]? = some pc)
    (queues : move.pool.queues.Subperm t.state.pool.queues)
    (slot : move.pool.persistentJob = t.state.pool.persistentJob ∨ move.pool.persistentJob = none)
    (lastJobId : move.pool.lastJobId = t.state.pool.lastJobId)
    (accepted : move.pool.history.accepted = t.state.pool.history.accepted)
    (stage : move.pc.stage = pc.stage) : Traceable (t.after thread move) := by
  have jobs := Traced.after_jobs_same thread accepted
  have stages (i : Nat) : stageAt (t.after thread move).state i = stageAt t.state i := by
    rw [Traced.after, stageAt_after move found]
    split_ifs with here
    · rw [here, stageAt_found found, stage]
    · rfl
  have pool : (t.after thread move).state.pool = move.pool := rfl
  have held (job : ThreadPoolJob α) (inSlot : job ∈ move.pool.persistentJob) :
      job ∈ t.state.pool.persistentJob := by
    obtain same | none := slot
    · rwa [same] at inSlot
    · rw [none] at inSlot
      contradiction
  refine ⟨?_, ?_, ?_, ?_, ?_, ?_, ?_, ?_, ?_⟩
  · intro i
    rw [stages, jobs]
    exact traceable.fits i
  · rw [jobs, pool, accepted]
    exact traceable.fresh
  · rw [jobs]
    exact traceable.unshared
  · have fewer : (move.pool.persistentJob.toList).Subperm t.state.pool.persistentJob.toList := by
      obtain same | none := slot
      · rw [same]
      · rw [none]
        exact List.nil_subperm
    exact nodup_of_subperm (queues.append fewer) traceable.waiting
  · intro job member
    obtain ⟨owner, owns, there⟩ := traceable.queues job (queues.subset member)
    refine ⟨owner, by rw [jobs, owns], ?_⟩
    rw [stages]
    exact there
  · intro job member
    obtain ⟨owner, owns, there⟩ := traceable.slot job (held job member)
    exact ⟨owner, by rw [jobs, owns], by rw [stages, there]⟩
  · rw [pool, lastJobId]
    exact traceable.positive
  · intro i id issued
    rw [stages] at issued
    rw [pool, lastJobId]
    exact traceable.below i id issued
  · intro first second id one other
    rw [stages] at one other
    exact traceable.distinct first second id one other

theorem Traceable.hands (traceable : Traceable t) (found : t.state.threads[thread]? = some pc)
    {job : ThreadPoolJob α} (serial : job.serial = t.state.pool.history.accepted)
    (accepted : move.pool.history.accepted = t.state.pool.history.accepted + 1)
    (lastJobId : move.pool.lastJobId = t.state.pool.lastJobId) (before : pc.stage = .without)
    (stage : move.pc.stage = .added job.serial ∨ move.pc.stage = .handing)
    (waiting : (queued move.pool).Nodup)
    (queues : ∀ other ∈ move.pool.queues,
      other = job ∧ move.pc.stage = .added job.serial ∨ other ∈ t.state.pool.queues)
    (slot : ∀ other ∈ move.pool.persistentJob,
      other = job ∧ move.pc.stage = .handing ∨ other ∈ t.state.pool.persistentJob) :
    Traceable (t.after thread move) := by
  have jobs := Traced.after_jobs_new (t := t) thread accepted
  have stages (i : Nat) : stageAt (t.after thread move).state i =
      if i = thread then move.pc.stage else stageAt t.state i := stageAt_after move found i
  have pool : (t.after thread move).state.pool = move.pool := rfl
  have ownsNone : t.jobs thread = none := by
    have fits := traceable.fits thread
    rw [stageAt_found found, before] at fits
    exact fits
  -- a thread that owned a job before is another one, and stands where it stood
  have others {i n : Nat} (owns : t.jobs i = some n) : i ≠ thread := by
    rintro rfl
    rw [ownsNone] at owns
    contradiction
  have notIssued (id : Int) : move.pc.stage ≠ .issued id := by
    intro issued
    obtain there | there := stage <;> rw [there] at issued <;> contradiction
  refine ⟨?_, ?_, ?_, waiting, ?_, ?_, ?_, ?_, ?_⟩
  · intro i
    rw [stages, jobs]
    split_ifs with here
    · obtain there | there := stage
      · rw [there, ← serial]
        rfl
      · rw [there]
        rfl
    · exact traceable.fits i
  · intro i n owns
    rw [pool, accepted]
    rw [jobs] at owns
    split_ifs at owns
    · have same := Option.some.inj owns
      omega
    · have := traceable.fresh i n owns
      omega
  · intro first second n one other
    rw [jobs] at one other
    split_ifs at one other with here there
    · rw [here, there]
    · have := traceable.fresh second n other
      have same := Option.some.inj one
      omega
    · have := traceable.fresh first n one
      have same := Option.some.inj other
      omega
    · exact traceable.unshared first second n one other
  · intro other member
    obtain ⟨rfl, there⟩ | old := queues other member
    · refine ⟨thread, ?_, .inl ?_⟩
      · rw [jobs, if_pos rfl, serial]
      · rw [stages, if_pos rfl, there]
    · obtain ⟨owner, owns, there⟩ := traceable.queues other old
      refine ⟨owner, ?_, ?_⟩
      · rw [jobs, if_neg (others owns), owns]
      · rw [stages, if_neg (others owns)]
        exact there
  · intro other member
    obtain ⟨rfl, there⟩ | old := slot other member
    · refine ⟨thread, ?_, ?_⟩
      · rw [jobs, if_pos rfl, serial]
      · rw [stages, if_pos rfl, there]
    · obtain ⟨owner, owns, there⟩ := traceable.slot other old
      refine ⟨owner, ?_, ?_⟩
      · rw [jobs, if_neg (others owns), owns]
      · rw [stages, if_neg (others owns), there]
  · rw [pool, lastJobId]
    exact traceable.positive
  · intro i id issued
    rw [stages] at issued
    split_ifs at issued
    · exact absurd issued (notIssued id)
    · rw [pool, lastJobId]
      exact traceable.below i id issued
  · intro first second id one other
    rw [stages] at one other
    split_ifs at one other
    · exact absurd one (notIssued id)
    · exact absurd one (notIssued id)
    · exact absurd other (notIssued id)
    · exact traceable.distinct first second id one other

theorem Traceable.issues (traceable : Traceable t) (found : t.state.threads[thread]? = some pc)
    (issuing : ThreadPool.issues t.state.pool pc = true)
    (same : move.pool = { t.state.pool with lastJobId := t.state.pool.lastJobId + 1 }.unlock)
    (stage : move.pc.stage = if pc.stage = .without then .without else .issued t.state.pool.lastJobId) :
    Traceable (t.after thread move) := by
  have jobs : (t.after thread move).jobs = t.jobs := Traced.after_jobs_same thread (by rw [same]; rfl)
  have stages (i : Nat) : stageAt (t.after thread move).state i =
      if i = thread then move.pc.stage else stageAt t.state i := stageAt_after move found i
  have pool : (t.after thread move).state.pool = move.pool := rfl
  have lastJobId : move.pool.lastJobId = t.state.pool.lastJobId + 1 := by rw [same]; rfl
  have here := stageAt_found found
  refine ⟨?_, ?_, ?_, ?_, ?_, ?_, ?_, ?_, ?_⟩
  · intro i
    rw [stages, jobs]
    split_ifs with i_thread
    · have fits := traceable.fits thread
      rw [i_thread, stage]
      rw [here] at fits
      revert fits
      cases pc.stage with
      | without => exact fun fits => fits
      | added serial => exact fun fits => by rw [fits]; rfl
      | handing => exact fun fits => fits
      | issued id => exact fun fits => fits
    · exact traceable.fits i
  · rw [jobs, pool, same]
    exact traceable.fresh
  · rw [jobs]
    exact traceable.unshared
  · rw [pool, same]
    exact traceable.waiting
  · intro job member
    rw [pool, same] at member
    obtain ⟨owner, owns, there⟩ := traceable.queues job member
    refine ⟨owner, by rw [jobs, owns], ?_⟩
    rw [stages]
    split_ifs with owner_thread
    · refine .inr ⟨t.state.pool.lastJobId, ?_⟩
      rw [stage, if_neg]
      intro without
      rw [owner_thread, here, without] at there
      obtain there | ⟨id, there⟩ := there <;> contradiction
    · exact there
  · intro job member
    rw [pool, same] at member
    obtain ⟨owner, owns, there⟩ := traceable.slot job member
    refine ⟨owner, by rw [jobs, owns], ?_⟩
    rw [stages, if_neg]
    · exact there
    · -- a call that waits for the slot to be emptied does not return while it is full
      rintro rfl
      rw [here] at there
      change job ∈ t.state.pool.persistentJob at member
      rw [issues_handing issuing there] at member
      contradiction
  · rw [pool, lastJobId]
    have := traceable.positive
    omega
  · intro i id issued
    rw [stages] at issued
    rw [pool, lastJobId]
    split_ifs at issued
    · rw [stage] at issued
      split_ifs at issued
      obtain rfl := Stage.issued.inj issued
      have := traceable.positive
      omega
    · have := traceable.below i id issued
      omega
  · intro first second id one other
    rw [stages] at one other
    have isNext : move.pc.stage = .issued id → id = t.state.pool.lastJobId := by
      intro issued
      rw [stage] at issued
      split_ifs at issued
      exact (Stage.issued.inj issued).symm
    split_ifs at one other with isFirst isSecond
    · rw [isFirst, isSecond]
    · have := (traceable.below second id other).2
      have := isNext one
      omega
    · have := (traceable.below first id one).2
      have := isNext other
      omega
    · exact traceable.distinct first second id one other

theorem Traceable.waiting_owned (traceable : Traceable t) {job : ThreadPoolJob α}
    (member : job ∈ t.state.pool.waiting) : ∃ owner, t.jobs owner = some job.serial := by
  obtain inQueue | inSlot := List.mem_append.mp member
  · obtain ⟨owner, owns, -⟩ := traceable.queues job inQueue
    exact ⟨owner, owns⟩
  · obtain ⟨owner, owns, -⟩ := traceable.slot job (Option.mem_toList.mp inSlot)
    exact ⟨owner, owns⟩

theorem Traceable.waiting_older (traceable : Traceable t) {job : ThreadPoolJob α}
    (member : job ∈ t.state.pool.waiting) : job.serial < t.state.pool.history.accepted := by
  obtain ⟨owner, owns⟩ := traceable.waiting_owned member
  exact traceable.fresh owner _ owns

theorem Traceable.after (traceable : Traceable t) (found : t.state.threads[thread]? = some pc)
    (naming : Naming t.state.pool pc move) : Traceable (t.after thread move) := by
  have nodup {job : ThreadPoolJob α} (serial : job.serial = t.state.pool.history.accepted)
      (waiting : move.pool.waiting.Subperm (job :: t.state.pool.waiting)) : (queued move.pool).Nodup := by
    refine nodup_of_subperm waiting ?_
    rw [List.map_cons, List.nodup_cons]
    refine ⟨?_, traceable.waiting⟩
    intro member
    obtain ⟨other, inside, same⟩ := List.mem_map.mp member
    have older := traceable.waiting_older inside
    omega
  cases naming with
  | keeps queues slot lastJobId accepted stage =>
    exact traceable.keeps found queues slot lastJobId accepted stage
  | queues job jobId serial queues slot lastJobId accepted before stage =>
    apply traceable.hands found serial accepted lastJobId before (.inl stage)
    · apply nodup serial
      rw [Pool.waiting, Pool.waiting, slot]
      exact queues.append (List.Subperm.refl _)
    · intro other member
      obtain rfl | old := List.mem_cons.mp (queues.subset member)
      · exact .inl ⟨rfl, stage⟩
      · exact .inr old
    · intro other member
      rw [slot] at member
      exact .inr member
  | stores job jobId serial queues slot lastJobId accepted before stage =>
    apply traceable.hands found serial accepted lastJobId before (.inr stage)
    · apply nodup serial
      have waiting : move.pool.waiting = t.state.pool.queues ++ [job] := by
        rw [← queues, Pool.waiting, slot]
        rfl
      rw [waiting]
      refine (List.perm_append_singleton _ _).subperm.trans ?_
      exact (List.subperm_cons job).mpr (List.sublist_append_left _ _).subperm
    · intro other member
      rw [queues] at member
      exact .inr member
    · intro other member
      rw [slot] at member
      obtain rfl := Option.mem_some_iff.mp member
      exact .inl ⟨rfl, stage⟩
  | issues issuing pool stage => exact traceable.issues found issuing pool stage

end After

theorem Traced.step_some {label : Label α} {t u : Traced α} (taken : Traced.step label t = some u) :
    (∃ call, label = .call call ∧ u = ⟨{ t.state with threads := t.state.threads ++ [call.pc] }, t.jobs⟩) ∨
      ∃ thread c pc move, label = .step thread c ∧ t.state.threads[thread]? = some pc ∧
        threadStep c t.state.pool pc = some move ∧ u = t.after thread move := by
  unfold Traced.step at taken
  obtain ⟨s, stepped, rfl⟩ := Option.map_eq_some_iff.mp taken
  cases label with
  | call call =>
    obtain rfl := Option.some.inj stepped
    exact .inl ⟨call, rfl, rfl⟩
  | step thread c =>
    simp only [ThreadPool.step, Option.bind_eq_some_iff, Option.map_eq_some_iff] at stepped
    obtain ⟨pc, found, move, moved, rfl⟩ := stepped
    exact .inr ⟨thread, c, pc, move, rfl, found, moved, rfl⟩

theorem stageAt_call (s : State α) (call : Call α) (i : Nat) :
    stageAt { s with threads := s.threads ++ [call.pc] } i = stageAt s i := by
  have none (k : Nat) : (([call.pc][k]?).elim .without Pc.stage : Stage) = .without := by
    cases k <;> cases call <;> rfl
  simp only [stageAt]
  by_cases inside : i < s.threads.length
  · rw [List.getElem?_append_left inside]
  · rw [List.getElem?_append_right (by omega), none, List.getElem?_eq_none (by omega)]
    rfl

theorem Traceable.call {t : Traced α} (traceable : Traceable t) (call : Call α) :
    Traceable ⟨{ t.state with threads := t.state.threads ++ [call.pc] }, t.jobs⟩ := by
  obtain ⟨fits, fresh, unshared, waiting, queues, slot, positive, below, distinct⟩ := traceable
  refine ⟨?_, fresh, unshared, waiting, ?_, ?_, positive, ?_, ?_⟩
  all_goals simp only [stageAt_call]
  · exact fits
  · exact queues
  · exact slot
  · exact below
  · exact distinct

theorem step_traceable (label : Label α) (t u : Traced α) (taken : Traced.step label t = some u)
    (traceable : Traceable t) : Traceable u := by
  obtain ⟨call, -, rfl⟩ | ⟨thread, c, pc, move, -, found, moved, rfl⟩ := Traced.step_some taken
  · exact traceable.call call
  · exact traceable.after found (threadStep_naming moved)

/-! ### Names -/

end Pupnp.ThreadPool
