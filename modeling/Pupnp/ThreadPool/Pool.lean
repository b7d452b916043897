import Pupnp.Library.Run

/-!
The thread pool: three job queues, the slot for a persistent job, and the threads
that call into the pool or work for it. A step of a thread is what it does
between two points where another thread could take the mutex, or a part of that.
-/

namespace Pupnp.ThreadPool

inductive ThreadPriority where
  | low
  | med
  | high
  deriving DecidableEq, Repr

structure Timeval where
  sec : Int
  usec : Int
  deriving DecidableEq, Repr

def diffMillis (time1 time2 : Timeval) : Int :=
  ((time1.sec - time2.sec) * 1000000 + (time1.usec - time2.usec)).tdiv 1000

/-- A job; `func` stands for the function, its argument and its free function. The serial
number tells accepted jobs apart and is read by no function of the pool. -/
structure ThreadPoolJob (α : Type) where
  func : α
  priority : ThreadPriority
  jobId : Int
  requestTime : Timeval
  serial : Nat
  deriving DecidableEq, Repr

structure ThreadPoolAttr where
  minThreads : Int
  maxThreads : Int
  maxIdleTime : Int
  jobsPerThread : Int
  maxJobsTotal : Int
  starvationTime : Int
  deriving DecidableEq, Repr

def INFINITE_THREADS : Int := -1

/-! The three codes are written `-2 & 1 << 29` and the like: one bit of a negative number. -/

def INVALID_JOB_ID : Int := 2 ^ 29
def EMAXTHREADS : Int := 2 ^ 29
def EOUTOFMEM : Int := 2 ^ 29

structure History where
  accepted : Nat
  started : List Nat
  finished : List Nat
  removed : List Nat
  freed : List Nat
  deriving DecidableEq, Repr

structure Pool (α : Type) where
  /-- Some thread holds `mutex`. -/
  locked : Bool
  attr : ThreadPoolAttr
  highJobQ : List (ThreadPoolJob α)
  medJobQ : List (ThreadPoolJob α)
  lowJobQ : List (ThreadPoolJob α)
  persistentJob : Option (ThreadPoolJob α)
  lastJobId : Int
  shutdown : Bool
  totalThreads : Int
  busyThreads : Int
  persistentThreads : Int
  pendingWorkerThreadStart : Bool
  idleThreads : Int
  workerThreads : Int
  history : History
  deriving DecidableEq, Repr

structure JobRequest (α : Type) where
  func : α
  priority : ThreadPriority
  deriving DecidableEq, Repr

/-- The locals of `ThreadPoolAdd` and of `AddWorker` under it. -/
structure AddFrame (α : Type) where
  temp : ThreadPoolJob α
  rc : Int
  jobs : Int
  threads : Int
  deriving DecidableEq, Repr

inductive Caller (α : Type) where
  | init (left : Nat)
  | add (frame : AddFrame α)
  | persistent (job : JobRequest α)
  deriving DecidableEq, Repr

/-- What a call returns; no job id where `ThreadPoolAdd` leaves `*jobId` alone. -/
inductive Result (α : Type) where
  | init
  | add (rc : Int) (jobId : Option Int)
  | persistent (rc : Int) (jobId : Int)
  | remove (rc : Int) (out : Option (ThreadPoolJob α))
  | shutdown
  deriving DecidableEq, Repr

inductive Pc (α : Type) where
  | threadPoolAdd (job : JobRequest α)
  /-- held -/
  | addLocked (job : JobRequest α)
  /-- held, at the loop of `AddWorker` -/
  | addWorker (frame : AddFrame α)
  /-- held -/
  | addDone (frame : AddFrame α)
  | threadPoolAddPersistent (job : JobRequest α)
  /-- held -/
  | persistentLocked (job : JobRequest α)
  /-- held -/
  | persistentStore (job : JobRequest α)
  /-- held, at the loop that waits for the pick-up -/
  | persistentPicked
  | persistentWait
  | threadPoolRemove (jobId : Int)
  | threadPoolShutdown
  /-- held, at the loop that waits for the threads -/
  | shutdownDrained
  | shutdownWait
  /-- held, at the loop of `ThreadPoolInit` -/
  | initLoop (left : Nat)
  /-- held, at the first loop of `CreateWorker` -/
  | createWorker (caller : Caller α)
  | createWait (caller : Caller α)
  /-- waiting for the new thread -/
  | startWait (caller : Caller α)
  /-- held, `CreateWorker` is through; `ok` where it returns 0 -/
  | created (caller : Caller α) (ok : Bool)
  | workerThread
  /-- at the top of the loop, with the job done before and whether it was persistent -/
  | workerTop (job : Option (ThreadPoolJob α × Bool))
  /-- held, at the check for a job or shutdown -/
  | workerCheck (timedOut : Bool)
  | workerWait
  | workerRun (job : ThreadPoolJob α) (persistent : Bool)
  | workerExit
  | returned (result : Result α)
  deriving DecidableEq, Repr

structure Choice where
  /-- `ithread_create` succeeds. -/
  creates : Bool
  /-- `CreateThreadPoolJob` finds memory. -/
  allocates : Bool
  /-- `ListAddTail` finds memory. -/
  links : Bool
  /-- `ithread_cond_timedwait` returns `ETIMEDOUT`. -/
  timedOut : Bool
  now : Timeval
  deriving DecidableEq, Repr

/-- The pool and the thread behind a step, and whether a new worker thread was created. -/
structure Move (α : Type) where
  pool : Pool α
  pc : Pc α
  creates : Bool
  deriving DecidableEq, Repr

variable {α : Type}

def Move.spawned (move : Move α) : List (Pc α) := if move.creates then [.workerThread] else []

def Pool.lock (p : Pool α) : Pool α := { p with locked := true }
def Pool.unlock (p : Pool α) : Pool α := { p with locked := false }

def acquire (p : Pool α) (pc : Pc α) : Option (Move α) :=
  if p.locked then none else some ⟨p.lock, pc, false⟩

def release (p : Pool α) (pc : Pc α) : Move α := ⟨p.unlock, pc, false⟩

def Pool.totalJobs (p : Pool α) : Int :=
  p.highJobQ.length + p.lowJobQ.length + p.medJobQ.length

def overdue (now : Timeval) (limit : Int) :
    List (ThreadPoolJob α) → Option (ThreadPoolJob α × List (ThreadPoolJob α))
  | [] => none
  | job :: rest => if limit ≤ diffMillis now job.requestTime then some (job, rest) else none

theorem overdue_some {now : Timeval} {limit : Int} {queue rest : List (ThreadPoolJob α)}
    {job : ThreadPoolJob α} (found : overdue now limit queue = some (job, rest)) :
    queue = job :: rest := by
  cases queue with
  | nil => simp [overdue] at found
  | cons first others =>
    simp only [overdue, Option.ite_none_right_eq_some, Option.some.injEq, Prod.mk.injEq] at found
    rw [found.2.1, found.2.2]

def bumpPriority (now : Timeval) (p : Pool α) : Pool α :=
  match _medium : overdue now p.attr.starvationTime p.medJobQ with
  | some (job, rest) => bumpPriority now { p with medJobQ := rest, highJobQ := p.highJobQ ++ [job] }
  | none =>
      match _low : overdue now p.attr.maxIdleTime p.lowJobQ with
      | some (job, rest) => bumpPriority now { p with lowJobQ := rest, medJobQ := p.medJobQ ++ [job] }
      | none => p
termination_by 2 * p.lowJobQ.length + p.medJobQ.length
decreasing_by
  · simp only [overdue_some _medium, List.length_cons]
    omega
  · simp only [overdue_some _low, List.length_cons, List.length_append, List.length_nil]
    omega

def createThreadPoolJob (c : Choice) (p : Pool α) (job : JobRequest α) : Option (ThreadPoolJob α) :=
  if c.allocates then
    some { func := job.func, priority := job.priority, jobId := p.lastJobId, requestTime := c.now,
           serial := p.history.accepted }
  else none

def Pool.accept (p : Pool α) : Pool α :=
  { p with history := { p.history with accepted := p.history.accepted + 1 } }

def Pool.enqueue (p : Pool α) (job : ThreadPoolJob α) : Pool α :=
  match job.priority with
  | .high => { p with highJobQ := p.highJobQ ++ [job] }
  | .med => { p with medJobQ := p.medJobQ ++ [job] }
  | .low => { p with lowJobQ := p.lowJobQ ++ [job] }

def addJob (c : Choice) (p : Pool α) (job : JobRequest α) : Move α :=
  if p.attr.maxJobsTotal ≤ p.totalJobs then release p (.returned (.add EOUTOFMEM none))
  else
    match createThreadPoolJob c p job with
    | none => release p (.returned (.add EOUTOFMEM (some INVALID_JOB_ID)))
    | some temp =>
        let p' := if c.links then (p.enqueue temp).accept else p
        ⟨p', .addWorker ⟨temp, if c.links then 0 else EOUTOFMEM, p'.totalJobs,
          p'.totalThreads - p'.persistentThreads⟩, false⟩

def wantsWorker (p : Pool α) (frame : AddFrame α) : Bool :=
  frame.threads = 0 || p.attr.jobsPerThread ≤ frame.jobs.tdiv frame.threads ||
    p.totalThreads = p.busyThreads

def createWorker (c : Choice) (p : Pool α) (caller : Caller α) : Move α :=
  if p.pendingWorkerThreadStart then release p (.createWait caller)
  else if p.attr.maxThreads ≠ INFINITE_THREADS && p.attr.maxThreads < p.totalThreads + 1 then
    ⟨p, .created caller false, false⟩
  else if c.creates then
    ⟨{ p with pendingWorkerThreadStart := true }.unlock, .startWait caller, true⟩
  else ⟨p, .created caller false, false⟩

def resume (p : Pool α) (ok : Bool) : Caller α → Move α
  | .init left => if ok then ⟨p, .initLoop left, false⟩ else release p .threadPoolShutdown
  | .add frame =>
      if ok then ⟨p, .addWorker { frame with threads := frame.threads + 1 }, false⟩
      else ⟨p, .addDone frame, false⟩
  | .persistent job => ⟨p, .persistentStore job, false⟩

def addPersistent (p : Pool α) (job : JobRequest α) : Move α :=
  if p.totalThreads < p.attr.maxThreads then ⟨p, .createWorker (.persistent job), false⟩
  else if p.totalThreads - p.persistentThreads - 1 = 0 then
    release p (.returned (.persistent EMAXTHREADS INVALID_JOB_ID))
  else ⟨p, .persistentStore job, false⟩

def storePersistent (c : Choice) (p : Pool α) (job : JobRequest α) : Move α :=
  match createThreadPoolJob c p job with
  | none => release p (.returned (.persistent EOUTOFMEM INVALID_JOB_ID))
  | some temp => ⟨{ p with persistentJob := some temp }.accept, .persistentPicked, false⟩

def awaitPickUp (p : Pool α) : Move α :=
  if p.persistentJob.isSome then release p .persistentWait
  else release { p with lastJobId := p.lastJobId + 1 } (.returned (.persistent 0 p.lastJobId))

def Pool.remember (p : Pool α) (history : History) : Pool α := { p with history := history }

def History.remove (h : History) (job : ThreadPoolJob α) : History :=
  { h with removed := job.serial :: h.removed }

def removeJob (p : Pool α) (jobId : Int) : Pool α × Result α :=
  let sameId (job : ThreadPoolJob α) : Bool := job.jobId = jobId
  match p.highJobQ.find? sameId with
  | some job =>
      ({ p with highJobQ := p.highJobQ.eraseP sameId, history := p.history.remove job },
        .remove 0 (some job))
  | none =>
      match p.medJobQ.find? sameId with
      | some job =>
          ({ p with medJobQ := p.medJobQ.eraseP sameId, history := p.history.remove job },
            .remove 0 (some job))
      | none =>
          match p.lowJobQ.find? sameId with
          | some job =>
              ({ p with lowJobQ := p.lowJobQ.eraseP sameId, history := p.history.remove job },
                .remove 0 (some job))
          | none =>
              match p.persistentJob with
              | some job =>
                  if sameId job then
                    ({ p with persistentJob := none, history := p.history.remove job },
                      .remove 0 (some job))
                  else (p, .remove INVALID_JOB_ID none)
              | none => (p, .remove INVALID_JOB_ID none)

def Pool.waiting (p : Pool α) : List (ThreadPoolJob α) :=
  p.highJobQ ++ p.medJobQ ++ p.lowJobQ ++ p.persistentJob.toList

def drain (p : Pool α) : Pool α :=
  { p with
    highJobQ := [], medJobQ := [], lowJobQ := [], persistentJob := none, shutdown := true
    history := { p.history with freed := p.waiting.map (·.serial) ++ p.history.freed } }

def leave (p : Pool α) : Move α :=
  release { p with totalThreads := p.totalThreads - 1 } .workerExit

def finishJob (p : Pool α) : Option (ThreadPoolJob α × Bool) → Pool α
  | none => { p with idleThreads := p.idleThreads + 1 }
  | some (_, persistent) =>
      { p with
        busyThreads := p.busyThreads - 1
        idleThreads := p.idleThreads + 1
        workerThreads := if persistent then p.workerThreads else p.workerThreads - 1
        persistentThreads := if persistent then p.persistentThreads - 1 else p.persistentThreads }

def startJob (p : Pool α) (job : ThreadPoolJob α) (persistent : Bool) : Move α :=
  release
    { p with
      busyThreads := p.busyThreads + 1
      history := { p.history with started := job.serial :: p.history.started } }
    (.workerRun job persistent)

def pickJob (p : Pool α) : Move α :=
  match p.persistentJob with
  | some job =>
      startJob { p with persistentJob := none, persistentThreads := p.persistentThreads + 1 } job true
  | none =>
      let worker := { p with workerThreads := p.workerThreads + 1 }
      match p.highJobQ, p.medJobQ, p.lowJobQ with
      | job :: rest, _, _ => startJob { worker with highJobQ := rest } job false
      | [], job :: rest, _ => startJob { worker with medJobQ := rest } job false
      | [], [], job :: rest => startJob { worker with lowJobQ := rest } job false
      | [], [], [] => leave p

def checkForJob (c : Choice) (p : Pool α) (timedOut : Bool) : Move α :=
  let idle := p.waiting.isEmpty && !p.shutdown
  if idle then
    if (timedOut && p.attr.minThreads < p.totalThreads) ||
        (p.attr.maxThreads ≠ -1 && p.attr.maxThreads < p.totalThreads) then
      leave { p with idleThreads := p.idleThreads - 1 }
    else release p .workerWait
  else
    let bumped := bumpPriority c.now { p with idleThreads := p.idleThreads - 1 }
    if bumped.shutdown then leave bumped else pickJob bumped

/-- The next step of a thread; `none` where it is blocked or has ended. -/
def threadStep (c : Choice) (p : Pool α) : Pc α → Option (Move α)
  | .threadPoolAdd job => acquire p (.addLocked job)
  | .addLocked job => some (addJob c p job)
  | .addWorker frame =>
      if wantsWorker p frame then some ⟨p, .createWorker (.add frame), false⟩
      else some ⟨p, .addDone frame, false⟩
  | .addDone frame =>
      some (release { p with lastJobId := p.lastJobId + 1 } (.returned (.add frame.rc (some p.lastJobId))))
  | .threadPoolAddPersistent job => acquire p (.persistentLocked job)
  | .persistentLocked job => some (addPersistent p job)
  | .persistentStore job => some (storePersistent c p job)
  | .persistentPicked => some (awaitPickUp p)
  | .persistentWait => acquire p .persistentPicked
  | .threadPoolRemove jobId =>
      if p.locked then none
      else some ⟨(removeJob p jobId).1, .returned (removeJob p jobId).2, false⟩
  | .threadPoolShutdown => if p.locked then none else some ⟨(drain p).lock, .shutdownDrained, false⟩
  | .shutdownDrained =>
      if 0 < p.totalThreads then some (release p .shutdownWait)
      else some (release p (.returned .shutdown))
  | .shutdownWait => acquire p .shutdownDrained
  | .initLoop 0 => some (release p (.returned .init))
  | .initLoop (left + 1) => some ⟨p, .createWorker (.init left), false⟩
  | .createWorker caller => some (createWorker c p caller)
  | .createWait caller => acquire p (.createWorker caller)
  | .startWait caller =>
      if p.pendingWorkerThreadStart then none else acquire p (.created caller true)
  | .created caller ok => some (resume p ok caller)
  | .workerThread =>
      if p.locked then none
      else some ⟨{ p with totalThreads := p.totalThreads + 1, pendingWorkerThreadStart := false },
        .workerTop none, false⟩
  | .workerTop job => if p.locked then none else some ⟨(finishJob p job).lock, .workerCheck false, false⟩
  | .workerCheck timedOut => some (checkForJob c p timedOut)
  | .workerWait => acquire p (.workerCheck c.timedOut)
  | .workerRun job persistent =>
      some ⟨p.remember { p.history with finished := job.serial :: p.history.finished },
        .workerTop (some (job, persistent)), false⟩
  | .workerExit => none
  | .returned _ => none

structure State (α : Type) where
  pool : Pool α
  threads : List (Pc α)
  deriving DecidableEq, Repr

inductive Call (α : Type) where
  | add (job : JobRequest α)
  | addPersistent (job : JobRequest α)
  | remove (jobId : Int)
  | shutdown
  deriving DecidableEq, Repr

def Call.pc : Call α → Pc α
  | .add job => .threadPoolAdd job
  | .addPersistent job => .threadPoolAddPersistent job
  | .remove jobId => .threadPoolRemove jobId
  | .shutdown => .threadPoolShutdown

inductive Label (α : Type) where
  | call (call : Call α)
  | step (thread : Nat) (choice : Choice)
  deriving DecidableEq, Repr

def step : Label α → State α → Option (State α)
  | .call call, s => some { s with threads := s.threads ++ [call.pc] }
  | .step thread c, s =>
      s.threads[thread]?.bind fun pc => (threadStep c s.pool pc).map fun move =>
        ⟨move.pool, s.threads.set thread move.pc ++ move.spawned⟩

/-- The pool as `ThreadPoolInit` has set it up, about to create its first workers. -/
def initial (attr : ThreadPoolAttr) : State α :=
  { pool :=
      { locked := true, attr := attr, highJobQ := [], medJobQ := [], lowJobQ := [],
        persistentJob := none, lastJobId := 0, shutdown := false, totalThreads := 0,
        busyThreads := 0, persistentThreads := 0, pendingWorkerThreadStart := false,
        idleThreads := 0, workerThreads := 0, history := ⟨0, [], [], [], []⟩ }
    threads := [.initLoop attr.minThreads.toNat] }

end Pupnp.ThreadPool
