import Pupnp.ThreadPool.Counters
import Pupnp.ThreadPool.Starvation

/-!
The deadlines of idle workers. A run of the pool is taken together with the waits of its threads: a wait may
expire only once its deadline is over, and not at all where the deadline is no valid time.
-/

namespace Pupnp.ThreadPool
open Pupnp.Run

variable {α : Type}

structure Timespec where
  sec : Int
  nsec : Int
  deriving DecidableEq, Repr

def setRelTimeout (now : Timeval) (relMillis : Int) : Timespec :=
  ⟨now.sec + relMillis.tdiv 1000, (now.usec.tdiv 1000 + relMillis.tmod 1000) * 1000000⟩

def Timespec.isValid (time : Timespec) : Bool := 0 ≤ time.nsec && time.nsec < 1000000000

def Timespec.nanos (time : Timespec) : Int := time.sec * 1000000000 + time.nsec

def Timeval.nanos (time : Timeval) : Int := (time.sec * 1000000 + time.usec) * 1000

def Timeval.millis (time : Timeval) : Int := time.sec * 1000 + time.usec / 1000

def Timeval.isReading (time : Timeval) : Bool := 0 ≤ time.usec && time.usec < 1000000

/-- A wait of a worker: the clock reading that its deadline is made from, the deadline, and the clock reading
when it expired, if it did. -/
structure Wait where
  since : Timeval
  deadline : Timespec
  expired : Option Timeval
  deriving DecidableEq, Repr

/-- `ithread_cond_timedwait` may return `ETIMEDOUT`; for an invalid deadline it returns `EINVAL`. -/
def mayExpire (deadline : Timespec) (now : Timeval) : Bool :=
  deadline.isValid && deadline.nanos ≤ now.nanos

/-- A state with the last wait of each thread and all deadlines passed so far. -/
structure Timed (α : Type) where
  state : State α
  waits : Nat → Option Wait
  passed : List Wait

def Timed.initial (attr : ThreadPoolAttr) : Timed α := ⟨ThreadPool.initial attr, fun _ => none, []⟩

/-- What becomes of the last wait of a thread in a step; `none` where the wait cannot end that way. -/
def nextWait (c : Choice) (maxIdleTime : Int) (wait : Option Wait) : Pc α → Pc α → Option (Option Wait)
  | .workerCheck _, .workerWait => some (some ⟨c.now, setRelTimeout c.now maxIdleTime, none⟩)
  | .workerWait, _ =>
      if c.timedOut then
        wait.bind fun last =>
          if mayExpire last.deadline c.now then some (some { last with expired := some c.now }) else none
      else some (wait.map fun last => { last with expired := none })
  | _, _ => some wait

def startsWait : Pc α → Pc α → Bool
  | .workerCheck _, .workerWait => true
  | _, _ => false

def Timed.step (label : Label α) (t : Timed α) : Option (Timed α) :=
  match label with
  | .call call => (ThreadPool.step (.call call) t.state).map fun state => { t with state := state }
  | .step thread c =>
      if c.now.isReading then
        t.state.threads[thread]?.bind fun pc =>
          (threadStep c t.state.pool pc).bind fun move =>
            (nextWait c t.state.pool.attr.maxIdleTime (t.waits thread) pc move.pc).map fun wait =>
              { state := t.state.after thread move
                waits := Function.update t.waits thread wait
                passed := if startsWait pc move.pc then wait.toList ++ t.passed else t.passed }
      else none

/-- The deadline is a valid time, `maxIdleTime` behind the clock reading in whole milliseconds. -/
structure Wait.Right (maxIdleTime : Int) (wait : Wait) : Prop where
  valid : 0 ≤ wait.deadline.nsec ∧ wait.deadline.nsec < 1000000000
  later : wait.deadline.nanos = (wait.since.millis + maxIdleTime) * 1000000

def leaves (t u : Timed α) (thread : Nat) : Prop :=
  (∃ pc, t.state.threads[thread]? = some pc ∧ isAlive pc = true) ∧
    ∃ pc, u.state.threads[thread]? = some pc ∧ isAlive pc = false

/-- The last wait of the thread has expired behind a right deadline, there is nothing to do, and there are more
than `minThreads` workers. -/
structure IdleTooLong (attr : ThreadPoolAttr) (t : Timed α) (thread : Nat) : Prop where
  expired : ∃ wait now, t.waits thread = some wait ∧ wait.Right attr.maxIdleTime ∧ wait.expired = some now ∧
    wait.deadline.nanos ≤ now.nanos
  nothing : t.state.pool.waiting = []
  more : attr.minThreads < t.state.pool.totalThreads

/-- What the idle time is for: every deadline so far is right, and a worker that leaves without shutdown has been
idle for too long. -/
structure IdlesRight (attr : ThreadPoolAttr) (t : Timed α) : Prop where
  deadlines : ∀ wait ∈ t.passed, wait.Right attr.maxIdleTime
  leaving : ∀ thread c u, t.step (.step thread c) = some u → leaves t u thread →
    t.state.pool.shutdown = false → IdleTooLong attr t thread

/-! ### Deadlines -/

section Deadlines
variable {now : Timeval} {maxIdleTime : Int}

theorem setRelTimeout_eq (reading : now.isReading = true) (idle : 0 ≤ maxIdleTime) :
    setRelTimeout now maxIdleTime =
      ⟨now.sec + maxIdleTime / 1000, (now.usec / 1000 + maxIdleTime % 1000) * 1000000⟩ := by
  simp only [Timeval.isReading, Bool.and_eq_true, decide_eq_true_eq] at reading
  rw [setRelTimeout, Int.tdiv_eq_ediv_of_nonneg idle, Int.tdiv_eq_ediv_of_nonneg reading.1,
    Int.tmod_eq_emod_of_nonneg idle]

theorem setRelTimeout_nanos (reading : now.isReading = true) (idle : 0 ≤ maxIdleTime) :
    (setRelTimeout now maxIdleTime).nanos = (now.millis + maxIdleTime) * 1000000 := by
  rw [setRelTimeout_eq reading idle]
  simp only [Timespec.nanos, Timeval.millis]
  omega

theorem setRelTimeout_valid (reading : now.isReading = true) (idle : 0 ≤ maxIdleTime) :
    (0 ≤ (setRelTimeout now maxIdleTime).nsec ∧ (setRelTimeout now maxIdleTime).nsec < 1000000000) ↔
      now.usec / 1000 + maxIdleTime % 1000 < 1000 := by
  rw [setRelTimeout_eq reading idle]
  simp only [Timeval.isReading, Bool.and_eq_true, decide_eq_true_eq] at reading
  simp only
  omega

end Deadlines

/-! ### The steps of a worker -/

section Workers
variable {c : Choice} {p : Pool α}

theorem pickJob_runs (busy : p.waiting ≠ []) : ∃ job persistent, (pickJob p).pc = .workerRun job persistent := by
  unfold pickJob
  split
  next job _ => exact ⟨job, true, rfl⟩
  next slot =>
    dsimp only
    split
    next => exact ⟨_, false, rfl⟩
    next => exact ⟨_, false, rfl⟩
    next => exact ⟨_, false, rfl⟩
    next high med low => exact absurd (by simp [Pool.waiting, slot, high, med, low]) busy

/-- A worker at the check leaves, waits or runs a job. Without shutdown it leaves only where there is nothing to
do and its wait expired or there are more threads than there may be. -/
theorem checkForJob_cases (timedOut : Bool) :
    (checkForJob c p timedOut).pc = .workerWait ∨
      (∃ job persistent, (checkForJob c p timedOut).pc = .workerRun job persistent) ∨
      (checkForJob c p timedOut).pc = .workerExit ∧ (p.shutdown = false → p.waiting = [] ∧
        (timedOut = true ∧ p.attr.minThreads < p.totalThreads ∨
          p.attr.maxThreads ≠ INFINITE_THREADS ∧ p.attr.maxThreads < p.totalThreads)) := by
  unfold checkForJob
  dsimp only
  split
  next idle =>
    split
    next late =>
      right
      right
      refine ⟨rfl, fun _ => ⟨?_, ?_⟩⟩
      · rw [Bool.and_eq_true] at idle
        exact List.isEmpty_iff.mp idle.1
      · simpa [INFINITE_THREADS] using late
    next => exact .inl rfl
  next busy =>
    have bumped := bumpPriority_queues c.now { p with idleThreads := p.idleThreads - 1 }
    obtain ⟨high, med, low, same, moved⟩ := bumped
    rw [same]
    split
    next down =>
      right
      right
      refine ⟨rfl, fun up => ?_⟩
      change p.shutdown = true at down
      rw [up] at down
      cases down
    next up =>
      change ¬p.shutdown = true at up
      right
      left
      apply pickJob_runs
      intro none
      apply busy
      have empty : high ++ med ++ low = [] ∧ p.persistentJob.toList = [] := List.append_eq_nil_iff.mp none
      rw [empty.1] at moved
      have old : p.highJobQ ++ p.medJobQ ++ p.lowJobQ = [] := moved.symm.eq_nil
      simp [Pool.waiting, old, empty.2, up]

theorem threadStep_timedOut {pc : Pc α} {move : Move α} (waits : isStarting pc = true → p.pending = 1)
    (taken : threadStep c p pc = some move) (late : move.pc = .workerCheck true) :
    pc = .workerWait ∧ c.timedOut = true := by
  have lives := (threadStep_tally waits taken).lives
  have moving : isAlive pc = true ∨ isStarting pc = true := by
    rw [late] at lives
    cases alive : isAlive pc with
    | true => exact .inl rfl
    | false =>
      rw [alive] at lives
      cases starting : isStarting pc with
      | true => exact .inr rfl
      | false =>
        rw [starting] at lives
        cases lives
  cases pc with
  | workerThread =>
    simp only [threadStep, Option.ite_none_left_eq_some, Option.some.injEq] at taken
    rw [← taken.2] at late
    cases late
  | workerTop job =>
    simp only [threadStep, Option.ite_none_left_eq_some, Option.some.injEq] at taken
    rw [← taken.2] at late
    cases late
  | workerCheck timedOut =>
    obtain rfl := Option.some.inj taken
    obtain waiting | ⟨job, persistent, runs⟩ | gone := @checkForJob_cases _ c p timedOut
    · rw [waiting] at late
      cases late
    · rw [runs] at late
      cases late
    · rw [gone.1] at late
      cases late
  | workerWait =>
    rw [acquire_some taken] at late
    exact ⟨rfl, Pc.workerCheck.inj late⟩
  | workerRun job persistent =>
    obtain rfl := Option.some.inj taken
    cases late
  | _ => simp [isAlive, isStarting] at moving

theorem threadStep_leaves {pc : Pc α} {move : Move α} (taken : threadStep c p pc = some move)
    (alive : isAlive pc = true) (gone : isAlive move.pc = false) :
    ∃ timedOut, pc = .workerCheck timedOut ∧ move = checkForJob c p timedOut := by
  cases pc with
  | workerTop job =>
    simp only [threadStep, Option.ite_none_left_eq_some, Option.some.injEq] at taken
    rw [← taken.2] at gone
    cases gone
  | workerCheck timedOut => exact ⟨timedOut, rfl, (Option.some.inj taken).symm⟩
  | workerWait =>
    rw [acquire_some taken] at gone
    cases gone
  | workerRun job persistent =>
    obtain rfl := Option.some.inj taken
    cases gone
  | _ => cases alive

end Workers

/-! ### Runs -/

structure Waiting (attr : ThreadPoolAttr) (t : Timed α) : Prop where
  counted : Counted t.state
  fixed : t.state.pool.attr = attr
  bound : attr.maxThreads ≠ INFINITE_THREADS →
    t.state.pool.totalThreads + t.state.pool.pending ≤ max 0 attr.maxThreads
  passed : ∀ wait ∈ t.passed,
    wait.since.isReading = true ∧ wait.deadline = setRelTimeout wait.since attr.maxIdleTime
  last : ∀ thread wait, t.waits thread = some wait →
    wait.since.isReading = true ∧ wait.deadline = setRelTimeout wait.since attr.maxIdleTime
  expired : ∀ thread, t.state.threads[thread]? = some (.workerCheck true) →
    ∃ wait now, t.waits thread = some wait ∧ wait.expired = some now ∧ mayExpire wait.deadline now = true

theorem initial_waiting (attr : ThreadPoolAttr) : Waiting attr (Timed.initial (α := α) attr) := by
  refine ⟨⟨rfl, rfl, rfl, rfl, rfl⟩, rfl, fun _ => Int.le_max_left 0 _, ?_, ?_, ?_⟩
  · intro wait member
    cases member
  · intro thread wait found
    cases found
  · intro thread found
    cases thread with
    | zero => cases found
    | succ thread => cases found

theorem after_cases {s : State α} {thread i : Nat} {pc here : Pc α} {move : Move α}
    (found : s.threads[thread]? = some pc) (now : (s.after thread move).threads[i]? = some here) :
    i = thread ∧ here = move.pc ∨ i ≠ thread ∧ (s.threads[i]? = some here ∨ here = .workerThread) := by
  have inside := (List.getElem?_eq_some_iff.mp found).1
  by_cases same : i = thread
  · subst same
    rw [State.after, List.getElem?_append_left (by simpa using inside), List.getElem?_set_self inside] at now
    exact .inl ⟨rfl, (Option.some.inj now).symm⟩
  · right
    refine ⟨same, ?_⟩
    rw [State.after, List.getElem?_append] at now
    split at now
    · rw [List.getElem?_set_ne (Ne.symm same)] at now
      exact .inl now
    · exact .inr (mem_spawned (List.mem_of_getElem? now))

theorem nextWait_cases {c : Choice} {maxIdleTime : Int} {wait next : Option Wait} {pc here : Pc α}
    (becomes : nextWait c maxIdleTime wait pc here = some next) :
    (startsWait pc here = true ∧ next = some ⟨c.now, setRelTimeout c.now maxIdleTime, none⟩) ∨
    (pc = .workerWait ∧ startsWait pc here = false ∧ ∃ last, wait = some last ∧
      ((c.timedOut = true ∧ mayExpire last.deadline c.now = true ∧ next = some { last with expired := some c.now }) ∨
        c.timedOut = false ∧ next = some { last with expired := none })) ∨
    startsWait pc here = false ∧ (pc = .workerWait → c.timedOut = false) ∧ next = wait := by
  unfold nextWait at becomes
  split at becomes
  next => exact .inl ⟨rfl, (Option.some.inj becomes).symm⟩
  next =>
    right
    cases late : c.timedOut with
    | true =>
      rw [late, if_pos rfl, Option.bind_eq_some_iff] at becomes
      obtain ⟨last, held, allowed⟩ := becomes
      rw [Option.ite_none_right_eq_some] at allowed
      exact .inl ⟨rfl, rfl, last, held, .inl ⟨rfl, allowed.1, (Option.some.inj allowed.2).symm⟩⟩
    | false =>
      rw [late, if_neg Bool.false_ne_true] at becomes
      cases wait with
      | none => exact .inr ⟨rfl, fun _ => rfl, (Option.some.inj becomes).symm⟩
      | some last => exact .inl ⟨rfl, rfl, last, rfl, .inr ⟨rfl, (Option.some.inj becomes).symm⟩⟩
  next notWaiting waits =>
    right
    right
    refine ⟨?_, fun same => (notWaiting same).elim, (Option.some.inj becomes).symm⟩
    unfold startsWait
    split
    next => exact (waits _ rfl rfl).elim
    next => rfl

theorem timedStep_cases {t u : Timed α} {thread : Nat} {c : Choice} (taken : t.step (.step thread c) = some u) :
    c.now.isReading = true ∧ ∃ pc move wait, t.state.threads[thread]? = some pc ∧
      threadStep c t.state.pool pc = some move ∧
      nextWait c t.state.pool.attr.maxIdleTime (t.waits thread) pc move.pc = some wait ∧
      u = { state := t.state.after thread move
            waits := Function.update t.waits thread wait
            passed := if startsWait pc move.pc then wait.toList ++ t.passed else t.passed } := by
  simp only [Timed.step, Option.ite_none_right_eq_some, Option.bind_eq_some_iff, Option.map_eq_some_iff] at taken
  obtain ⟨reading, pc, found, move, moved, wait, becomes, same⟩ := taken
  exact ⟨reading, pc, move, wait, found, moved, becomes, same.symm⟩

theorem step_waiting {attr : ThreadPoolAttr} (label : Label α) (t u : Timed α) (taken : t.step label = some u)
    (waiting : Waiting attr t) : Waiting attr u := by
  cases label with
  | call call =>
    obtain rfl := Option.some.inj taken
    refine ⟨waiting.counted.call call, waiting.fixed, waiting.bound, waiting.passed, waiting.last, ?_⟩
    intro thread found
    change (t.state.threads ++ [call.pc])[thread]? = _ at found
    rw [List.getElem?_append] at found
    split at found
    · exact waiting.expired thread found
    · have same := List.mem_of_getElem? found
      rw [List.mem_singleton] at same
      cases call <;> cases same
  | step thread c =>
    obtain ⟨reading, pc, move, wait, found, moved, becomes, rfl⟩ := timedStep_cases taken
    have starts := waiting.counted.waits found
    have tally := threadStep_tally starts moved
    have cases_ := nextWait_cases becomes
    rw [waiting.fixed] at cases_
    have made (last : Wait) (held : wait = some last) :
        last.since.isReading = true ∧ last.deadline = setRelTimeout last.since attr.maxIdleTime := by
      subst held
      obtain ⟨-, new⟩ | ⟨-, -, old, held, ⟨-, -, new⟩ | ⟨-, new⟩⟩ | ⟨-, -, same⟩ := cases_
      · obtain rfl := Option.some.inj new
        exact ⟨reading, rfl⟩
      · obtain rfl := Option.some.inj new
        exact waiting.last thread old held
      · obtain rfl := Option.some.inj new
        exact waiting.last thread old held
      · exact waiting.last thread last same.symm
    refine ⟨waiting.counted.after found tally, tally.attr.trans waiting.fixed, ?_, ?_, ?_, ?_⟩
    · intro bounded
      apply tally.bound (waiting.bound bounded)
      rw [waiting.fixed]
      exact ⟨bounded, Int.le_max_right 0 _⟩
    · intro last member
      change last ∈ (if startsWait pc move.pc then wait.toList ++ t.passed else t.passed) at member
      split at member
      · rw [List.mem_append, Option.mem_toList] at member
        exact member.elim (made last) (waiting.passed last)
      · exact waiting.passed last member
    · intro i last held
      change Function.update t.waits thread wait i = some last at held
      by_cases same : i = thread
      · subst same
        rw [Function.update_self] at held
        exact made last held
      · rw [Function.update_of_ne same] at held
        exact waiting.last i last held
    · intro i now
      change ∃ last expired, Function.update t.waits thread wait i = some last ∧ _
      obtain ⟨rfl, late⟩ | ⟨other, old | new⟩ := after_cases found now
      · obtain ⟨rfl, timedOut⟩ := threadStep_timedOut starts moved late.symm
        rw [Function.update_self]
        obtain ⟨start, -⟩ | ⟨-, -, last, -, ⟨-, passed, new⟩ | ⟨early, -⟩⟩ | ⟨-, early, -⟩ := cases_
        · cases start
        · exact ⟨_, c.now, new, rfl, passed⟩
        · rw [early] at timedOut
          cases timedOut
        · rw [early rfl] at timedOut
          cases timedOut
      · rw [Function.update_of_ne other]
        exact waiting.expired i old
      · cases new

theorem Waiting.leaving {attr : ThreadPoolAttr} {t u : Timed α} {thread : Nat} {c : Choice} (waiting : Waiting attr t)
    (idle : 0 ≤ attr.maxIdleTime) (taken : t.step (.step thread c) = some u) (gone : leaves t u thread)
    (up : t.state.pool.shutdown = false) : IdleTooLong attr t thread := by
  obtain ⟨-, pc, move, wait, found, moved, -, rfl⟩ := timedStep_cases taken
  obtain ⟨⟨pc', found', alive⟩, here, after, dead⟩ := gone
  obtain rfl := Option.some.inj (found.symm.trans found')
  obtain ⟨-, rfl⟩ | ⟨other, -⟩ := after_cases found after
  case inr => exact absurd rfl other
  obtain ⟨timedOut, rfl, rfl⟩ := threadStep_leaves moved alive dead
  obtain stays | ⟨job, persistent, runs⟩ | ⟨-, reasons⟩ := @checkForJob_cases _ c t.state.pool timedOut
  · rw [stays] at dead
    cases dead
  · rw [runs] at dead
    cases dead
  obtain ⟨nothing, late | passed⟩ := reasons up
  · obtain ⟨rfl, more⟩ := late
    obtain ⟨last, now, held, expired, may⟩ := waiting.expired thread found
    obtain ⟨reading, deadline⟩ := waiting.last thread last held
    rw [waiting.fixed] at more
    simp only [mayExpire, Timespec.isValid, Bool.and_eq_true, decide_eq_true_eq] at may
    refine ⟨⟨last, now, held, ⟨may.1, ?_⟩, expired, may.2⟩, nothing, more⟩
    rw [deadline]
    exact setRelTimeout_nanos reading idle
  · rw [waiting.fixed] at passed
    have bound := waiting.bound passed.1
    have one : 0 < t.state.threads.countP isAlive :=
      List.countP_pos_iff.mpr ⟨_, List.mem_of_getElem? found, rfl⟩
    have total := waiting.counted.totalThreads
    omega

/-- In every run, the deadlines of the workers are right exactly where no clock reading they are made from
carries into the seconds; and a worker leaves without shutdown only behind an expired wait with a right deadline. -/
theorem run_idlesRight {attr : ThreadPoolAttr} (idle : 0 ≤ attr.maxIdleTime) (labels : List (Label α)) (t : Timed α)
    (ran : run Timed.step labels (Timed.initial attr) = some t) :
    IdlesRight attr t ↔ ∀ wait ∈ t.passed, wait.since.usec / 1000 + attr.maxIdleTime % 1000 < 1000 := by
  have waiting : Waiting attr t := run_invariant step_waiting (initial_waiting attr) ran
  constructor
  · intro right wait member
    obtain ⟨reading, deadline⟩ := waiting.passed wait member
    have valid := (right.deadlines wait member).valid
    rw [deadline] at valid
    exact (setRelTimeout_valid reading idle).mp valid
  · intro short
    refine ⟨?_, fun thread c u taken gone up => waiting.leaving idle taken gone up⟩
    intro wait member
    obtain ⟨reading, deadline⟩ := waiting.passed wait member
    constructor
    · rw [deadline]
      exact (setRelTimeout_valid reading idle).mpr (short wait member)
    · rw [deadline]
      exact setRelTimeout_nanos reading idle

/-- The first worker of a pool goes to wait when the clock is at `now`. -/
def waitingRun (now : Timeval) : List (Label Unit) :=
  steps 0 2 ++ steps 1 2 ++ [.step 1 { granted with now := now }]

theorem run_idlesRight_default :
    ∃ t, run Timed.step (waitingRun ⟨3, 600000⟩) (Timed.initial tpAttrInit) = some t ∧
      t.passed = [⟨⟨3, 600000⟩, ⟨13, 600000000⟩, none⟩] ∧ IdlesRight tpAttrInit t := by
  have ends : (run Timed.step (waitingRun ⟨3, 600000⟩) (Timed.initial tpAttrInit)).map (·.passed) =
      some [⟨⟨3, 600000⟩, ⟨13, 600000000⟩, none⟩] := by
    decide +kernel
  obtain ⟨t, ran, passed⟩ := Option.map_eq_some_iff.mp ends
  refine ⟨t, ran, passed, (run_idlesRight (by decide) _ t ran).mpr ?_⟩
  rw [passed]
  decide

/-- With an idle time of 1500 ms and a clock at 0.6 s the deadline has 1100 million nanoseconds, and the wait for
it never expires. -/
theorem run_invalidDeadline :
    ∃ t, run Timed.step (waitingRun ⟨3, 600000⟩) (Timed.initial { tpAttrInit with maxIdleTime := 1500 }) = some t ∧
      ¬IdlesRight { tpAttrInit with maxIdleTime := 1500 } t ∧
      ∀ wait ∈ t.passed, ∀ now, mayExpire wait.deadline now = false := by
  have ends : (run Timed.step (waitingRun ⟨3, 600000⟩)
      (Timed.initial { tpAttrInit with maxIdleTime := 1500 })).map (·.passed) =
        some [⟨⟨3, 600000⟩, ⟨4, 1100000000⟩, none⟩] := by
    decide +kernel
  obtain ⟨t, ran, passed⟩ := Option.map_eq_some_iff.mp ends
  refine ⟨t, ran, ?_, ?_⟩
  · intro right
    have valid := (right.deadlines ⟨⟨3, 600000⟩, ⟨4, 1100000000⟩, none⟩ (by simp [passed])).valid
    exact absurd valid.2 (by decide)
  · intro wait member now
    rw [passed, List.mem_singleton] at member
    rw [member]
    rfl

end Pupnp.ThreadPool
