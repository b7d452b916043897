import Mathlib.Data.List.TakeWhile
import Pupnp.ThreadPool.Traced

/-!
What `BumpPriority` makes of the three queues, and when it leaves no starved job outside the high one. It
looks at the heads of two queues, and at the idle time of a thread for one of them.
-/

namespace Pupnp.ThreadPool

variable {α : Type}

def bumpRound (now : Timeval) (p : Pool α) : Option (Pool α) :=
  match overdue now p.attr.starvationTime p.medJobQ with
  | some (job, rest) => some { p with medJobQ := rest, highJobQ := p.highJobQ ++ [job] }
  | none =>
      match overdue now p.attr.maxIdleTime p.lowJobQ with
      | some (job, rest) => some { p with lowJobQ := rest, medJobQ := p.medJobQ ++ [job] }
      | none => none

/-- The loop with a bound on its rounds; `none` where it has not ended by then. -/
def bumpLoop (now : Timeval) : Nat → Pool α → Option (Pool α)
  | 0, _ => none
  | rounds + 1, p =>
      match bumpRound now p with
      | none => some p
      | some bumped => bumpLoop now rounds bumped

def Pool.queue (p : Pool α) : ThreadPriority → List (ThreadPoolJob α)
  | .high => p.highJobQ
  | .med => p.medJobQ
  | .low => p.lowJobQ

def waited (now : Timeval) (limit : Int) (job : ThreadPoolJob α) : Bool :=
  limit ≤ diffMillis now job.requestTime

/-- Each job of one pool is in one queue of the other. Those that go from `source` to `target` stand in both
queues in the same order. -/
def KeepsJobs (p q : Pool α) : Prop :=
  ∃ moved : ThreadPriority → ThreadPriority → List (ThreadPoolJob α),
    (∀ source, (moved source .high ++ moved source .med ++ moved source .low).Perm (p.queue source)) ∧
    (∀ target, (moved .high target ++ moved .med target ++ moved .low target).Perm (q.queue target)) ∧
    ∀ source target, (moved source target).Sublist (p.queue source) ∧
      (moved source target).Sublist (q.queue target)

structure BumpsStarved (now : Timeval) (p : Pool α) : Prop where
  ends : ∃ rounds, bumpLoop now rounds p = some (bumpPriority now p)
  keeps : KeepsJobs p (bumpPriority now p)
  fresh : ∀ job ∈ (bumpPriority now p).medJobQ ++ (bumpPriority now p).lowJobQ,
    diffMillis now job.requestTime < p.attr.starvationTime

/-- The jobs of the low queue that are bumped: those in front of the first that has waited less than
`maxIdleTime`. -/
def Pool.leadingLow (now : Timeval) (p : Pool α) : List (ThreadPoolJob α) :=
  p.lowJobQ.takeWhile (waited now p.attr.maxIdleTime)

/-- No starved job stands behind another one in the medium queue, with the bumped jobs of the low queue at its
end, and no starved job of the low queue is, or stands behind, one that has waited less than `maxIdleTime`. -/
structure StarvedInFront (now : Timeval) (p : Pool α) : Prop where
  med : (p.medJobQ ++ p.leadingLow now).Pairwise fun ahead behind =>
    waited now p.attr.starvationTime ahead = true ∨ waited now p.attr.starvationTime behind = false
  low : p.lowJobQ.Pairwise fun ahead behind =>
    waited now p.attr.maxIdleTime ahead = true ∨ waited now p.attr.starvationTime behind = false
  each : ∀ job ∈ p.lowJobQ,
    waited now p.attr.maxIdleTime job = true ∨ waited now p.attr.starvationTime job = false

/-! ### The queues behind the loop -/

theorem bumpPriority_round (now : Timeval) (p : Pool α) :
    bumpPriority now p = (bumpRound now p).elim p (bumpPriority now) := by
  rw [bumpPriority]
  unfold bumpRound
  split
  next job rest medium => simp only [medium, Option.elim_some]
  next medium =>
    simp only [medium]
    split
    next job rest low => simp only [low, Option.elim_some]
    next low => simp only [low, Option.elim_none]

theorem overdue_waited {now : Timeval} {limit : Int} {queue rest : List (ThreadPoolJob α)} {job : ThreadPoolJob α}
    (found : overdue now limit queue = some (job, rest)) : queue = job :: rest ∧ waited now limit job = true := by
  have shape := overdue_some found
  rw [shape, overdue, Option.ite_none_right_eq_some] at found
  exact ⟨shape, decide_eq_true found.1⟩

theorem overdue_none {now : Timeval} {limit : Int} {queue : List (ThreadPoolJob α)}
    (absent : overdue now limit queue = none) (more : List (ThreadPoolJob α)) :
    queue.takeWhile (waited now limit) = [] ∧ queue.dropWhile (waited now limit) = queue ∧
      (queue ≠ [] → (queue ++ more).takeWhile (waited now limit) = []) := by
  cases queue with
  | nil => simp
  | cons job rest =>
    have recent : waited now limit job = false := by
      apply decide_eq_false
      intro long
      rw [overdue, if_pos long] at absent
      cases absent
    simp [recent]

/-- A round takes a job from the medium queue or one from the low queue to the medium one. -/
theorem bumpRound_cases {now : Timeval} {p q : Pool α} (bumped : bumpRound now p = some q) :
    (∃ job rest, p.medJobQ = job :: rest ∧ waited now p.attr.starvationTime job = true ∧
      q = { p with medJobQ := rest, highJobQ := p.highJobQ ++ [job] }) ∨
    ∃ job rest, p.lowJobQ = job :: rest ∧ waited now p.attr.maxIdleTime job = true ∧
      q = { p with lowJobQ := rest, medJobQ := p.medJobQ ++ [job] } := by
  unfold bumpRound at bumped
  split at bumped
  next job rest medium =>
    obtain ⟨shape, long⟩ := overdue_waited medium
    exact .inl ⟨job, rest, shape, long, (Option.some.inj bumped).symm⟩
  next medium =>
    split at bumped
    next job rest low =>
      obtain ⟨shape, long⟩ := overdue_waited low
      exact .inr ⟨job, rest, shape, long, (Option.some.inj bumped).symm⟩
    next low => cases bumped

theorem bumpRound_none {now : Timeval} {p : Pool α} (done : bumpRound now p = none) :
    overdue now p.attr.starvationTime p.medJobQ = none ∧ overdue now p.attr.maxIdleTime p.lowJobQ = none := by
  unfold bumpRound at done
  split at done
  next => cases done
  next medium =>
    split at done
    next => cases done
    next low => exact ⟨medium, low⟩

/-- The queues behind the loop: the low one loses its leading jobs to the end of the medium one, and that loses
its leading starved jobs to the high one. -/
def Pool.bumped (now : Timeval) (p : Pool α) : Pool α :=
  { p with
    highJobQ := p.highJobQ ++ (p.medJobQ ++ p.leadingLow now).takeWhile (waited now p.attr.starvationTime)
    medJobQ := (p.medJobQ ++ p.leadingLow now).dropWhile (waited now p.attr.starvationTime)
    lowJobQ := p.lowJobQ.dropWhile (waited now p.attr.maxIdleTime) }

theorem bumpRound_bumped {now : Timeval} {p q : Pool α} (round : bumpRound now p = some q) :
    q.bumped now = p.bumped now := by
  obtain ⟨job, rest, shape, long, rfl⟩ | ⟨job, rest, shape, long, rfl⟩ := bumpRound_cases round
  · simp [Pool.bumped, Pool.leadingLow, shape, long]
  · simp [Pool.bumped, Pool.leadingLow, shape, long]

theorem bumped_self {now : Timeval} {p : Pool α} (done : bumpRound now p = none) : p.bumped now = p := by
  obtain ⟨medium, low⟩ := bumpRound_none done
  obtain ⟨none, stays, -⟩ := overdue_none low []
  obtain ⟨noneStarved, staysMed, -⟩ := overdue_none medium []
  simp only [Pool.bumped, Pool.leadingLow, none, stays, List.append_nil, noneStarved, staysMed]

/-- The loop ends, in no more rounds than it takes to move each low job twice and each medium job once. -/
theorem bumpLoop_ends (now : Timeval) {rounds : Nat} (p : Pool α)
    (enough : 2 * p.lowJobQ.length + p.medJobQ.length < rounds) :
    bumpLoop now rounds p = some (p.bumped now) ∧ bumpPriority now p = p.bumped now := by
  induction rounds generalizing p with
  | zero => omega
  | succ rounds ih =>
    rw [bumpLoop, bumpPriority_round]
    cases round : bumpRound now p with
    | none =>
      rw [bumped_self round]
      exact ⟨rfl, rfl⟩
    | some q =>
      have fewer : 2 * q.lowJobQ.length + q.medJobQ.length < rounds := by
        obtain ⟨job, rest, shape, -, rfl⟩ | ⟨job, rest, shape, -, rfl⟩ := bumpRound_cases round
        · rw [shape, List.length_cons] at enough
          change 2 * p.lowJobQ.length + rest.length < rounds
          omega
        · rw [shape, List.length_cons] at enough
          change 2 * rest.length + (p.medJobQ ++ [job]).length < rounds
          rw [List.length_append, List.length_singleton]
          omega
      rw [← bumpRound_bumped round]
      exact ih q fewer

theorem bumpPriority_bumped (now : Timeval) (p : Pool α) : bumpPriority now p = p.bumped now :=
  (bumpLoop_ends now p (Nat.lt_succ_self _)).2

/-! ### What the loop does for the jobs -/

def Pool.bumpedJobs (now : Timeval) (p : Pool α) : ThreadPriority → ThreadPriority → List (ThreadPoolJob α)
  | .high, .high => p.highJobQ
  | .med, .high => p.medJobQ.takeWhile (waited now p.attr.starvationTime)
  | .med, .med => p.medJobQ.dropWhile (waited now p.attr.starvationTime)
  | .low, .high =>
      if p.medJobQ.all (waited now p.attr.starvationTime) then
        (p.leadingLow now).takeWhile (waited now p.attr.starvationTime)
      else []
  | .low, .med =>
      if p.medJobQ.all (waited now p.attr.starvationTime) then
        (p.leadingLow now).dropWhile (waited now p.attr.starvationTime)
      else p.leadingLow now
  | .low, .low => p.lowJobQ.dropWhile (waited now p.attr.maxIdleTime)
  | _, _ => []

/-- The leading entries of a list that another one follows, where some entry of the first ends them. -/
theorem span_append {A : Type} {leads : A → Bool} {front : List A} (ends : front.all leads = false) (back : List A) :
    (front ++ back).takeWhile leads = front.takeWhile leads ∧
      (front ++ back).dropWhile leads = front.dropWhile leads ++ back := by
  induction front with
  | nil => simp at ends
  | cons a front ih =>
    cases head : leads a with
    | false => simp [head]
    | true =>
      rw [List.all_cons, head, Bool.true_and] at ends
      obtain ⟨taken, left⟩ := ih ends
      simp only [List.cons_append, List.takeWhile_cons, List.dropWhile_cons, head, if_true, taken, left]
      exact ⟨trivial, trivial⟩

section Jobs
variable (now : Timeval) (p : Pool α)

theorem bumpedJobs_leave (source : ThreadPriority) :
    p.bumpedJobs now source .high ++ p.bumpedJobs now source .med ++ p.bumpedJobs now source .low =
      p.queue source := by
  cases source with
  | high => simp [Pool.bumpedJobs, Pool.queue]
  | med => simp [Pool.bumpedJobs, Pool.queue, List.takeWhile_append_dropWhile]
  | low =>
    have leading : p.bumpedJobs now .low .high ++ p.bumpedJobs now .low .med = p.leadingLow now := by
      simp only [Pool.bumpedJobs]
      split
      next => exact List.takeWhile_append_dropWhile
      next => rfl
    rw [leading]
    exact List.takeWhile_append_dropWhile

theorem bumpedJobs_arrive (target : ThreadPriority) :
    p.bumpedJobs now .high target ++ p.bumpedJobs now .med target ++ p.bumpedJobs now .low target =
      (p.bumped now).queue target := by
  cases all : p.medJobQ.all (waited now p.attr.starvationTime) with
  | true =>
    have each := List.all_eq_true.mp all
    cases target with
    | high =>
      simp only [Pool.bumpedJobs, all, if_true, Pool.queue, Pool.bumped]
      rw [List.takeWhile_append_of_pos each, List.takeWhile_eq_self_iff.mpr each, List.append_assoc]
    | med =>
      simp only [Pool.bumpedJobs, all, if_true, Pool.queue, Pool.bumped]
      rw [List.dropWhile_append_of_pos each, List.dropWhile_eq_nil_iff.mpr each]
      rfl
    | low => rfl
  | false =>
    obtain ⟨taken, left⟩ := span_append all (p.leadingLow now)
    cases target with
    | high =>
      simp only [Pool.bumpedJobs, all, Bool.false_eq_true, if_false, Pool.queue, Pool.bumped, taken,
        List.append_nil]
    | med =>
      simp only [Pool.bumpedJobs, all, Bool.false_eq_true, if_false, Pool.queue, Pool.bumped, left,
        List.nil_append]
    | low => rfl

theorem bumped_keeps : KeepsJobs p (p.bumped now) := by
  have part {first second third whole : List (ThreadPoolJob α)} (together : first ++ second ++ third = whole) :
      first.Sublist whole ∧ second.Sublist whole ∧ third.Sublist whole := by
    subst together
    have both := List.sublist_append_left (first ++ second) third
    exact ⟨(List.sublist_append_left _ _).trans both, (List.sublist_append_right _ _).trans both,
      List.sublist_append_right _ _⟩
  refine ⟨p.bumpedJobs now, ?_, ?_, ?_⟩
  · intro source
    rw [bumpedJobs_leave]
  · intro target
    rw [bumpedJobs_arrive]
  · intro source target
    have leaves := part (bumpedJobs_leave now p source)
    have arrives := part (bumpedJobs_arrive now p target)
    constructor
    · cases target with
      | high => exact leaves.1
      | med => exact leaves.2.1
      | low => exact leaves.2.2
    · cases source with
      | high => exact arrives.1
      | med => exact arrives.2.1
      | low => exact arrives.2.2

end Jobs

theorem dropWhile_free {A : Type} (leads bad : A → Bool) (list : List A) :
    (∀ a ∈ list.dropWhile leads, bad a = false) ↔
      (list.Pairwise fun ahead behind => leads ahead = true ∨ bad behind = false) ∧
        ∀ a ∈ list, leads a = true ∨ bad a = false := by
  induction list with
  | nil => simp
  | cons a list ih =>
    rw [List.pairwise_cons, List.forall_mem_cons]
    cases head : leads a with
    | true => simpa [List.dropWhile_cons, head] using ih
    | false =>
      simp only [List.dropWhile_cons, head, Bool.false_eq_true, if_false, List.forall_mem_cons, false_or]
      constructor
      · intro free
        refine ⟨⟨free.2, ?_⟩, free.1, fun b member => .inr (free.2 b member)⟩
        exact List.Pairwise.imp_of_mem (fun _ later _ => .inr (free.2 _ later)) (List.pairwise_of_forall fun _ _ => trivial)
      · intro free
        exact ⟨free.2.1, free.1.1⟩

theorem pairwise_self {A : Type} {bad : A → Bool} {list : List A} :
    (∀ a ∈ list.dropWhile bad, bad a = false) ↔
      list.Pairwise fun ahead behind => bad ahead = true ∨ bad behind = false := by
  rw [dropWhile_free]
  constructor
  · intro both
    exact both.1
  · intro apart
    refine ⟨apart, fun a _ => ?_⟩
    cases bad a with
    | true => exact .inl rfl
    | false => exact .inr rfl

/-- `BumpPriority` ends, keeps the jobs and their order, and it leaves no starved job outside the high queue
exactly where starved jobs stand in front. -/
theorem bumpPriority_starved (now : Timeval) (p : Pool α) : BumpsStarved now p ↔ StarvedInFront now p := by
  have med := @pairwise_self _ (waited now p.attr.starvationTime) (p.medJobQ ++ p.leadingLow now)
  have low := dropWhile_free (waited now p.attr.maxIdleTime) (waited now p.attr.starvationTime) p.lowJobQ
  have recent (job : ThreadPoolJob α) : waited now p.attr.starvationTime job = false ↔
      diffMillis now job.requestTime < p.attr.starvationTime := by
    rw [waited, decide_eq_false_iff_not, Int.not_le]
  constructor
  · intro good
    have fresh := good.fresh
    rw [bumpPriority_bumped, List.forall_mem_append] at fresh
    have lowFree := low.mp fun job left => (recent job).mpr (fresh.2 job left)
    exact ⟨med.mp fun job left => (recent job).mpr (fresh.1 job left), lowFree.1, lowFree.2⟩
  · intro front
    refine ⟨⟨_, (bumpLoop_ends now p (Nat.lt_succ_self _)).1.trans ?_⟩, ?_, ?_⟩
    · rw [bumpPriority_bumped]
    · rw [bumpPriority_bumped]
      exact bumped_keeps now p
    · rw [bumpPriority_bumped, List.forall_mem_append]
      constructor
      · intro job left
        exact (recent job).mp (med.mpr front.med job left)
      · intro job left
        exact (recent job).mp (low.mpr ⟨front.low, front.each⟩ job left)

def tpAttrInit : ThreadPoolAttr :=
  { minThreads := 1, maxThreads := 10, maxIdleTime := 10 * 1000, jobsPerThread := 10, maxJobsTotal := 100,
    starvationTime := 500 }

/-- A pool with the default attributes and one job of low priority, requested at time 0. -/
def lowJobPool : Pool Unit :=
  { (initial tpAttrInit).pool with lowJobQ := [⟨(), .low, 0, ⟨0, 0⟩, 0⟩] }

/-- A job of low priority that has waited for nine seconds stays where it is. -/
theorem bumpPriority_starves : ¬BumpsStarved ⟨9, 0⟩ lowJobPool := by
  intro good
  have fresh := good.fresh
  rw [bumpPriority_bumped] at fresh
  have short := fresh ⟨(), .low, 0, ⟨0, 0⟩, 0⟩ (by decide)
  revert short
  decide

end Pupnp.ThreadPool
