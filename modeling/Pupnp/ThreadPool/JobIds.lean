import Pupnp.ThreadPool.Counters
import Pupnp.ThreadPool.Traced

/-!
What the ids of the jobs stand for. A call whose id is read while another job waits without one takes
the id of that job.
-/

namespace Pupnp.ThreadPool
open Pupnp.Run

variable {α : Type}

/-- What `ThreadPoolRemove` does with an id: it takes out the one job, or there is no such job. -/
def RemovesExactly (p : Pool α) (jobId : Int) (serial : Nat) : Prop :=
  (∃ job, job.serial = serial ∧ (removeJob p jobId).2 = .remove 0 (some job) ∧
    p.waiting.Perm (job :: (removeJob p jobId).1.waiting) ∧ serial ∉ queued (removeJob p jobId).1) ∨
  (serial ∉ queued p ∧ removeJob p jobId = (p, .remove INVALID_JOB_ID none))

/-- The ids returned so far are distinct, and each of them stands for the job it was returned for. -/
structure IdsName (t : Traced α) : Prop where
  distinct : ∀ first second id, stageAt t.state first = .issued id →
    stageAt t.state second = .issued id → first = second
  removes : ∀ thread id, stageAt t.state thread = .issued id →
    ∃ serial, t.jobs thread = some serial ∧ RemovesExactly t.state.pool id serial

def unnamed (p : Pool α) (pc : Pc α) : Bool :=
  match pc.stage with
  | .added serial => (p.queues.map (·.serial)).contains serial
  | _ => false

/-- A call takes its id only when no job of another call waits without one. -/
def issuesAlone : Label α → State α → Bool
  | .call _, _ => true
  | .step thread _, s => (s.threads[thread]?).all fun pc =>
      !issues s.pool pc ||
        (s.pool.persistentJob.isNone && !(s.threads.eraseIdx thread).any (unnamed s.pool))

/-- Each waiting job has the id of its call, or the one that is next. -/
structure Named (t : Traced α) : Prop where
  traceable : Traceable t
  named : ∀ job ∈ t.state.pool.waiting, ∀ thread, t.jobs thread = some job.serial →
    ∀ id, stageAt t.state thread = .issued id → job.jobId = id
  next : ∀ job ∈ t.state.pool.waiting, ∀ thread, t.jobs thread = some job.serial →
    (∀ id, stageAt t.state thread ≠ .issued id) → job.jobId = t.state.pool.lastJobId

theorem initial_named (attr : ThreadPoolAttr) : Named (Traced.initial (α := α) attr) :=
  ⟨initial_traceable attr, nofun, nofun⟩

section Names
variable {t : Traced α} {thread : Nat} {pc : Pc α} {move : Move α}

theorem Named.keeps (named : Named t) (found : t.state.threads[thread]? = some pc)
    (waiting : ∀ job ∈ move.pool.waiting, job ∈ t.state.pool.waiting)
    (lastJobId : move.pool.lastJobId = t.state.pool.lastJobId)
    (accepted : move.pool.history.accepted = t.state.pool.history.accepted)
    (stage : move.pc.stage = pc.stage) (traceable : Traceable (t.after thread move)) :
    Named (t.after thread move) := by
  have jobs := Traced.after_jobs_same thread accepted
  have stages (i : Nat) : stageAt (t.after thread move).state i = stageAt t.state i := by
    rw [Traced.after, stageAt_after move found]
    split_ifs with here
    · rw [here, stageAt_found found, stage]
    · rfl
  refine ⟨traceable, ?_, ?_⟩
  · intro job member owner owns id issued
    rw [jobs] at owns
    rw [stages] at issued
    exact named.named job (waiting job member) owner owns id issued
  · intro job member owner owns open_
    rw [jobs] at owns
    refine (named.next job (waiting job member) owner owns fun id => ?_).trans lastJobId.symm
    rw [← stages]
    exact open_ id

theorem Named.hands (named : Named t) (found : t.state.threads[thread]? = some pc) {new : ThreadPoolJob α}
    (jobId : new.jobId = t.state.pool.lastJobId) (serial : new.serial = t.state.pool.history.accepted)
    (waiting : ∀ job ∈ move.pool.waiting, job = new ∨ job ∈ t.state.pool.waiting)
    (lastJobId : move.pool.lastJobId = t.state.pool.lastJobId)
    (accepted : move.pool.history.accepted = t.state.pool.history.accepted + 1)
    (stage : ∀ id, move.pc.stage ≠ .issued id) (traceable : Traceable (t.after thread move)) :
    Named (t.after thread move) := by
  have jobs := Traced.after_jobs_new (t := t) thread accepted
  have stages (i : Nat) : stageAt (t.after thread move).state i =
      if i = thread then move.pc.stage else stageAt t.state i := stageAt_after move found i
  refine ⟨traceable, ?_, ?_⟩
  · intro job member owner owns id issued
    rw [stages] at issued
    rw [jobs] at owns
    split_ifs at issued owns
    · exact absurd issued (stage id)
    · obtain rfl | old := waiting job member
      · have := named.traceable.fresh owner _ owns
        omega
      · exact named.named job old owner owns id issued
  · intro job member owner owns open_
    refine Eq.trans ?_ lastJobId.symm
    rw [jobs] at owns
    obtain rfl | old := waiting job member
    · exact jobId
    · have older := named.traceable.waiting_older old
      split_ifs at owns with here
      · have same := Option.some.inj owns
        omega
      · apply named.next job old owner owns
        intro id
        have still := open_ id
        rw [stages, if_neg here] at still
        exact still

theorem Named.issues (named : Named t) (found : t.state.threads[thread]? = some pc)
    (issuing : ThreadPool.issues t.state.pool pc = true) (slot : t.state.pool.persistentJob = none)
    (alone : ∀ other ∈ t.state.threads.eraseIdx thread, unnamed t.state.pool other = false)
    (same : move.pool = { t.state.pool with lastJobId := t.state.pool.lastJobId + 1 }.unlock)
    (stage : move.pc.stage = if pc.stage = .without then .without else .issued t.state.pool.lastJobId)
    (traceable : Traceable (t.after thread move)) : Named (t.after thread move) := by
  have jobs : (t.after thread move).jobs = t.jobs := Traced.after_jobs_same thread (by rw [same]; rfl)
  have stages (i : Nat) : stageAt (t.after thread move).state i =
      if i = thread then move.pc.stage else stageAt t.state i := stageAt_after move found i
  have here := stageAt_found found
  have waiting : (t.after thread move).state.pool.waiting = t.state.pool.waiting := by
    change move.pool.waiting = _
    rw [same]
    rfl
  have unissued (id : Int) : stageAt t.state thread ≠ .issued id := by
    rw [here]
    exact issues_unissued issuing id
  have owns_not_without {job : Nat} (owns : t.jobs thread = some job) : pc.stage ≠ .without := by
    intro without
    have fits := named.traceable.fits thread
    rw [here, without] at fits
    rw [show t.jobs thread = none from fits] at owns
    contradiction
  refine ⟨traceable, ?_, ?_⟩
  · intro job member owner owns id issued
    rw [waiting] at member
    rw [jobs] at owns
    rw [stages] at issued
    split_ifs at issued with owner_thread
    · rw [owner_thread] at owns
      rw [stage, if_neg (owns_not_without owns)] at issued
      obtain rfl := Stage.issued.inj issued
      exact named.next job member thread owns unissued
    · exact named.named job member owner owns id issued
  · intro job member owner owns open_
    rw [waiting] at member
    rw [jobs] at owns
    exfalso
    have inQueue : job ∈ t.state.pool.queues := by
      obtain inQueue | inSlot := List.mem_append.mp member
      · exact inQueue
      · rw [slot] at inSlot
        contradiction
    obtain ⟨owner', owns', there⟩ := named.traceable.queues job inQueue
    obtain rfl := named.traceable.unshared owner owner' _ owns owns'
    by_cases owner_thread : owner = thread
    · rw [owner_thread] at owns
      apply open_ t.state.pool.lastJobId
      rw [stages, if_pos owner_thread, stage, if_neg (owns_not_without owns)]
    · obtain there | ⟨id, there⟩ := there
      · obtain ⟨pc', found', there⟩ := stageAt_added there
        have quiet := alone pc' (List.mem_eraseIdx_iff_getElem?.mpr ⟨owner, owner_thread, found'⟩)
        rw [unnamed, there] at quiet
        have listed := List.mem_map_of_mem (f := fun job : ThreadPoolJob α => job.serial) inQueue
        simp only [List.contains_eq_mem, decide_eq_false_iff_not] at quiet
        exact quiet listed
      · apply open_ id
        rw [stages, if_neg owner_thread, there]

theorem Named.after (named : Named t) (found : t.state.threads[thread]? = some pc)
    (alone : ThreadPool.issues t.state.pool pc = true → t.state.pool.persistentJob = none ∧
      ∀ other ∈ t.state.threads.eraseIdx thread, unnamed t.state.pool other = false)
    (naming : Naming t.state.pool pc move) : Named (t.after thread move) := by
  have traceable := named.traceable.after found naming
  cases naming with
  | keeps queues slot lastJobId accepted stage =>
    refine named.keeps found (fun job member => ?_) lastJobId accepted stage traceable
    obtain inQueue | inSlot := List.mem_append.mp member
    · exact List.mem_append_left _ (queues.subset inQueue)
    · obtain same | none := slot
      · rw [same] at inSlot
        exact List.mem_append_right _ inSlot
      · rw [none] at inSlot
        contradiction
  | queues new jobId serial queues slot lastJobId accepted before stage =>
    refine named.hands found jobId serial (fun job member => ?_) lastJobId accepted ?_ traceable
    · obtain inQueue | inSlot := List.mem_append.mp member
      · obtain rfl | old := List.mem_cons.mp (queues.subset inQueue)
        · exact .inl rfl
        · exact .inr (List.mem_append_left _ old)
      · rw [slot] at inSlot
        exact .inr (List.mem_append_right _ inSlot)
    · rw [stage]
      nofun
  | stores new jobId serial queues slot lastJobId accepted before stage =>
    refine named.hands found jobId serial (fun job member => ?_) lastJobId accepted ?_ traceable
    · obtain inQueue | inSlot := List.mem_append.mp member
      · change job ∈ move.pool.queues at inQueue
        rw [queues] at inQueue
        exact .inr (List.mem_append_left _ inQueue)
      · rw [slot] at inSlot
        exact .inl (List.mem_singleton.mp inSlot)
    · rw [stage]
      nofun
  | issues issuing pool stage =>
    obtain ⟨slot, others⟩ := alone issuing
    exact named.issues found issuing slot others pool stage traceable

end Names

theorem step_named (label : Label α) (t u : Traced α) (allowed : issuesAlone label t.state = true)
    (taken : Traced.step label t = some u) (named : Named t) : Named u := by
  obtain ⟨call, -, rfl⟩ | ⟨thread, c, pc, move, rfl, found, moved, rfl⟩ := Traced.step_some taken
  · obtain ⟨traceable, names, next⟩ := named
    refine ⟨traceable.call call, ?_, ?_⟩
    all_goals simp only [stageAt_call]
    · exact names
    · exact next
  · refine named.after found (fun issuing => ?_) (threadStep_naming moved)
    rw [issuesAlone, found] at allowed
    simpa [issuing] using allowed

theorem removeJob_cases (p : Pool α) (jobId : Int) :
    (∃ job ∈ p.waiting, job.jobId = jobId ∧ (removeJob p jobId).2 = .remove 0 (some job) ∧
      p.waiting.Perm (job :: (removeJob p jobId).1.waiting)) ∨
    ((∀ job ∈ p.waiting, job.jobId ≠ jobId) ∧ removeJob p jobId = (p, .remove INVALID_JOB_ID none)) := by
  let sameId (job : ThreadPoolJob α) : Bool := job.jobId = jobId
  have erased {queue : List (ThreadPoolJob α)} {job : ThreadPoolJob α} (found : queue.find? sameId = some job) :
      queue.Perm (job :: queue.eraseP sameId) := by
    obtain ⟨same, before, after, rfl, first⟩ := List.find?_eq_some_iff_append.mp found
    rw [List.eraseP_append_right _ (by simpa using first), List.eraseP_cons_of_pos same]
    exact List.perm_middle
  have named {queue : List (ThreadPoolJob α)} {job : ThreadPoolJob α} (found : queue.find? sameId = some job) :
      job.jobId = jobId := by
    have same : sameId job = true := List.find?_some found
    exact of_decide_eq_true same
  have absent {queue : List (ThreadPoolJob α)} (none : queue.find? sameId = none) :
      ∀ job ∈ queue, job.jobId ≠ jobId := by
    intro job member same
    exact List.find?_eq_none.mp none job member (decide_eq_true same)
  cases high : p.highJobQ.find? sameId with
  | some job =>
    have result : removeJob p jobId =
        ({ p with highJobQ := p.highJobQ.eraseP sameId, history := p.history.remove job },
          .remove 0 (some job)) := by
      simp only [removeJob]
      rw [high]
    refine .inl ⟨job, ?_, named high, by rw [result], ?_⟩
    · simp [Pool.waiting, List.mem_of_find?_eq_some high]
    · rw [result]
      exact (((erased high).append_right _).append_right _).append_right _
  | none =>
    cases med : p.medJobQ.find? sameId with
    | some job =>
      have result : removeJob p jobId =
          ({ p with medJobQ := p.medJobQ.eraseP sameId, history := p.history.remove job },
            .remove 0 (some job)) := by
        simp only [removeJob]
        rw [high, med]
      refine .inl ⟨job, ?_, named med, by rw [result], ?_⟩
      · simp [Pool.waiting, List.mem_of_find?_eq_some med]
      · rw [result]
        exact ((((erased med).append_left _).trans List.perm_middle).append_right _).append_right _
    | none =>
      cases low : p.lowJobQ.find? sameId with
      | some job =>
        have result : removeJob p jobId =
            ({ p with lowJobQ := p.lowJobQ.eraseP sameId, history := p.history.remove job },
              .remove 0 (some job)) := by
          simp only [removeJob]
          rw [high, med, low]
        refine .inl ⟨job, ?_, named low, by rw [result], ?_⟩
        · simp [Pool.waiting, List.mem_of_find?_eq_some low]
        · rw [result]
          exact (((erased low).append_left _).trans List.perm_middle).append_right _
      | none =>
        have inSlot (job : ThreadPoolJob α) (member : job ∈ p.waiting) (same : job.jobId = jobId) :
            job ∈ p.persistentJob := by
          obtain inQueue | inSlot := List.mem_append.mp member
          · obtain inQueue | inLow := List.mem_append.mp inQueue
            · obtain inHigh | inMed := List.mem_append.mp inQueue
              · exact absurd same (absent high job inHigh)
              · exact absurd same (absent med job inMed)
            · exact absurd same (absent low job inLow)
          · exact Option.mem_toList.mp inSlot
        cases slot : p.persistentJob with
        | none =>
          right
          constructor
          · intro job member same
            have there := inSlot job member same
            rw [slot] at there
            contradiction
          · simp only [removeJob]
            rw [high, med, low, slot]
        | some job =>
          by_cases same : job.jobId = jobId
          · have result : removeJob p jobId =
                ({ p with persistentJob := none, history := p.history.remove job },
                  .remove 0 (some job)) := by
              simp only [removeJob]
              rw [high, med, low, slot]
              exact if_pos (decide_eq_true same)
            refine .inl ⟨job, ?_, same, by rw [result], ?_⟩
            · simp [Pool.waiting, slot]
            · rw [result]
              simp only [Pool.waiting, slot, Option.toList, List.append_nil]
              exact List.perm_append_singleton _ _
          · right
            constructor
            · intro other member same'
              have there := inSlot other member same'
              rw [slot] at there
              obtain rfl := Option.mem_some_iff.mp there
              exact same same'
            · simp only [removeJob]
              rw [high, med, low, slot]
              exact if_neg (by simpa using same)

/-- A job that waits under an issued id is the job of the call that returned the id. -/
theorem Named.serial_of_id {t : Traced α} (named : Named t) {job : ThreadPoolJob α}
    (member : job ∈ t.state.pool.waiting) {thread serial : Nat} (owns : t.jobs thread = some serial) {id : Int}
    (issued : stageAt t.state thread = .issued id) (same : job.jobId = id) : job.serial = serial := by
  have traceable := named.traceable
  obtain ⟨owner, owns'⟩ := traceable.waiting_owned member
  by_cases other : ∃ id', stageAt t.state owner = .issued id'
  · obtain ⟨id', issued'⟩ := other
    have named' := named.named job member owner owns' id' issued'
    rw [← named', same] at issued'
    obtain rfl := traceable.distinct owner thread id issued' issued
    exact Option.some.inj (owns'.symm.trans owns)
  · have later := named.next job member owner owns' fun id' issued' => other ⟨id', issued'⟩
    have := (traceable.below thread id issued).2
    omega

/-- In a state in which each waiting job has the id of its call, the ids name the jobs. -/
theorem Named.idsName {t : Traced α} (named : Named t) : IdsName t := by
  have traceable := named.traceable
  refine ⟨traceable.distinct, ?_⟩
  intro thread id issued
  have fits := traceable.fits thread
  rw [issued] at fits
  obtain ⟨serial, owns⟩ := Option.isSome_iff_exists.mp fits
  refine ⟨serial, owns, ?_⟩
  obtain ⟨job, member, same, result, taken⟩ | ⟨absent, result⟩ := removeJob_cases t.state.pool id
  · have serials := taken.map (·.serial)
    have nodup := serials.nodup_iff.mp traceable.waiting
    rw [List.map_cons, List.nodup_cons] at nodup
    have isJob := named.serial_of_id member owns issued same
    exact .inl ⟨job, isJob, result, taken, isJob ▸ nodup.1⟩
  · refine .inr ⟨fun member => ?_, result⟩
    obtain ⟨job, inside, rfl⟩ := List.mem_map.mp member
    exact absent job inside (named.named job inside thread owns id issued)

/-- A call that has come to its end with a job or without. -/
def hasAdded : Pc α → Bool
  | .returned (.add _ _) | .returned (.persistent _ _) => true
  | _ => false

theorem issues_hasAdded {c : Choice} {p : Pool α} {pc : Pc α} {move : Move α} (issuing : issues p pc = true)
    (taken : threadStep c p pc = some move) : hasAdded move.pc = true := by
  unfold issues at issuing
  split at issuing
  next frame =>
    obtain rfl := Option.some.inj taken
    rfl
  next =>
    obtain rfl := Option.some.inj taken
    rw [awaitPickUp, Option.isNone_iff_eq_none.mp issuing]
    rfl
  next => contradiction

theorem step_lastJobId (label : Label α) (s u : State α) (taken : step label s = some u)
    (few : s.pool.lastJobId ≤ s.threads.countP hasAdded) :
    u.pool.lastJobId ≤ u.threads.countP hasAdded := by
  cases label with
  | call call =>
    obtain rfl := Option.some.inj taken
    have none : hasAdded call.pc = false := by cases call <;> rfl
    simpa [none] using few
  | step thread c =>
    simp only [step, Option.bind_eq_some_iff, Option.map_eq_some_iff] at taken
    obtain ⟨pc, found, move, moved, rfl⟩ := taken
    have counts := countP_after move found hasAdded
    have still : hasAdded pc = false := by
      cases pc with
      | returned result => contradiction
      | _ => rfl
    rw [still, show hasAdded (.workerThread : Pc α) = false from rfl, Bool.and_false, Bool.toNat_false] at counts
    change move.pool.lastJobId ≤ ((s.after thread move).threads.countP hasAdded : Int)
    cases threadStep_naming moved with
    | keeps queues slot lastJobId accepted stage => omega
    | queues job jobId serial queues slot lastJobId accepted before stage => omega
    | stores job jobId serial queues slot lastJobId accepted before stage => omega
    | issues issuing pool stage =>
      rw [issues_hasAdded issuing moved, Bool.toNat_true] at counts
      have next : move.pool.lastJobId = s.pool.lastJobId + 1 := by
        rw [pool]
        rfl
      omega

/-- In a run in which a call takes its id only when no job of another call waits without one, the ids
returned are distinct, count the calls, and name the jobs they were returned for. -/
theorem run_idsName (attr : ThreadPoolAttr) (labels : List (Label α)) (t : Traced α)
    (alone : Along Traced.step (fun label t => issuesAlone label t.state) labels (Traced.initial attr))
    (ran : run Traced.step labels (Traced.initial attr) = some t) :
    IdsName t ∧ ∀ thread id, stageAt t.state thread = .issued id →
      0 ≤ id ∧ id < t.state.threads.countP hasAdded := by
  have named : Named t := run_keeps step_named (initial_named attr) alone ran
  have state : run step labels (initial attr) = some t.state := by
    have same := Traced.run_state labels (Traced.initial (α := α) attr)
    rw [ran] at same
    exact same.symm
  have few := run_invariant step_lastJobId (Int.le_refl 0) state
  refine ⟨named.idsName, fun thread id issued => ?_⟩
  have bounds := named.traceable.below thread id issued
  omega

/-- Two jobs are added while the first worker starts; the call that was first ends last. -/
def swappedRun : List (Label Unit) :=
  steps 0 1 ++ [.call (.add ⟨(), .med⟩)] ++ steps 1 4 ++ [.call (.add ⟨(), .med⟩)] ++ steps 3 4 ++ steps 2 1 ++
    steps 3 4 ++ steps 1 4

theorem run_idsName_plain :
    ∃ t, run Traced.step plainRun (Traced.initial (smallPool 0 1).pool.attr) = some t ∧
      stageAt t.state 1 = .issued 0 ∧ IdsName t := by
  have ends : (run Traced.step plainRun (Traced.initial (smallPool 0 1).pool.attr)).map (stageAt ·.state 1) =
      some (.issued 0) := by
    decide +kernel
  obtain ⟨t, ran, issued⟩ := Option.map_eq_some_iff.mp ends
  exact ⟨t, ran, issued, (run_idsName _ plainRun t (by decide +kernel) ran).1⟩

/-- The id returned for the second job removes the first one. -/
theorem run_swaps_ids :
    ¬∀ (attr : ThreadPoolAttr) (labels : List (Label Unit)) (t : Traced Unit),
      run Traced.step labels (Traced.initial attr) = some t → IdsName t := by
  intro claim
  have ends : (run Traced.step swappedRun (Traced.initial (smallPool 0 1).pool.attr)).map (fun t =>
      (stageAt t.state 3, t.jobs 3, (removeJob t.state.pool 0).2)) =
        some (.issued 0, some 1, .remove 0 (some ⟨(), .med, 0, ⟨0, 0⟩, 0⟩)) := by
    decide
  obtain ⟨t, ran, found⟩ := Option.map_eq_some_iff.mp ends
  simp only [Prod.mk.injEq] at found
  obtain ⟨issued, owns, removed⟩ := found
  obtain ⟨serial, owns', exactly⟩ := (claim _ swappedRun t ran).removes 3 0 issued
  obtain rfl := Option.some.inj (owns.symm.trans owns')
  obtain ⟨job, isJob, result, -⟩ | ⟨-, result⟩ := exactly
  · rw [removed] at result
    simp only [Result.remove.injEq, Option.some.injEq] at result
    rw [← result.2] at isJob
    exact absurd isJob (by decide)
  · rw [result] at removed
    exact absurd (Result.remove.inj removed).2 nofun

end Pupnp.ThreadPool
