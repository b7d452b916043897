import Mathlib.Algebra.Group.Int.Defs
import Mathlib.Algebra.Group.Nat.Defs
import Mathlib.Data.List.Basic
import Mathlib.Data.List.Count

/-!
Runs of a labelled step function, invariants along them under a condition on the
steps taken, and interleaved threads kept as a list of program counters.
-/

namespace Pupnp.Run

section Runs
variable {S L : Type*} (step : L → S → Option S)

/-- The state after the steps in order; `none` where one of them cannot be taken. -/
def run : List L → S → Option S
  | [], s => some s
  | label :: labels, s => (step label s).bind (run labels)

/-- Every step of the run meets the condition in the state it is taken from. -/
def Along (ok : L → S → Prop) : List L → S → Prop
  | [], _ => True
  | label :: labels, s => ok label s ∧ ∀ t ∈ step label s, Along ok labels t

instance decidableAlong (ok : L → S → Prop) [∀ label s, Decidable (ok label s)] :
    ∀ labels s, Decidable (Along step ok labels s)
  | [], _ => isTrue trivial
  | label :: labels, s =>
      have : ∀ t, Decidable (Along step ok labels t) := decidableAlong ok labels
      inferInstanceAs (Decidable (ok label s ∧ ∀ t ∈ step label s, Along step ok labels t))

variable {step}

/-- A property that every step meeting the condition keeps holds at the end of such a run. -/
theorem run_keeps {ok : L → S → Prop} {Inv : S → Prop}
    (keeps : ∀ label s t, ok label s → step label s = some t → Inv s → Inv t) {labels : List L}
    {s t : S} (start : Inv s) (good : Along step ok labels s)
    (ran : run step labels s = some t) : Inv t := by
  induction labels generalizing s with
  | nil =>
    obtain rfl := Option.some.inj ran
    exact start
  | cons label labels ih =>
    simp only [run, Option.bind_eq_some_iff] at ran
    obtain ⟨u, taken, rest⟩ := ran
    obtain ⟨allowed, later⟩ := good
    exact ih (keeps label s u allowed taken start) (later u taken) rest

theorem along_trivial (labels : List L) (s : S) : Along step (fun _ _ => True) labels s := by
  induction labels generalizing s with
  | nil => trivial
  | cons label labels ih => exact ⟨trivial, fun t _ => ih t⟩

theorem run_invariant {Inv : S → Prop} (keeps : ∀ label s t, step label s = some t → Inv s → Inv t)
    {labels : List L} {s t : S} (start : Inv s) (ran : run step labels s = some t) : Inv t :=
  run_keeps (fun label s t _ => keeps label s t) start (along_trivial labels s) ran

theorem run_map {S' : Type*} {step' : L → S' → Option S'} {f : S → S'}
    (tracks : ∀ label s, (step label s).map f = step' label (f s)) (labels : List L) (s : S) :
    (run step labels s).map f = run step' labels (f s) := by
  induction labels generalizing s with
  | nil => rfl
  | cons label labels ih =>
    simp only [run]
    rw [← tracks label s, Option.map_bind, Option.bind_map]
    congr 1
    funext t
    exact ih t

end Runs

section Threads
variable {T : Type*} {threads : List T} {i : Nat} {here : T}

theorem count_flatMap_set {A : Type*} [DecidableEq A] (found : threads[i]? = some here) (next : T)
    (holds : T → List A) (a : A) :
    ((threads.set i next).flatMap holds).count a + (holds here).count a =
      (threads.flatMap holds).count a + (holds next).count a := by
  induction threads generalizing i with
  | nil => simp at found
  | cons first others ih =>
    cases i with
    | zero =>
      obtain rfl : first = here := by simpa using found
      simp only [List.set_cons_zero, List.flatMap_cons, List.count_append]
      omega
    | succ i =>
      have later := @ih i (by simpa using found)
      simp only [List.set_cons_succ, List.flatMap_cons, List.count_append]
      omega

/-- A thread that moves changes a tally by what it counted for and what it counts for now. -/
theorem countP_set (found : threads[i]? = some here) (next : T) (p : T → Bool) :
    (threads.set i next).countP p + (p here).toNat = threads.countP p + (p next).toNat := by
  induction threads generalizing i with
  | nil => simp at found
  | cons first others ih =>
    cases i with
    | zero =>
      obtain rfl : first = here := by simpa using found
      rw [List.set_cons_zero, List.countP_cons, List.countP_cons]
      cases p first <;> cases p next <;> simp
    | succ i =>
      have later := @ih i (by simpa using found)
      simp only [List.set_cons_succ, List.countP_cons]
      omega

theorem forall_mem_set {P : T → Prop} (all : ∀ t ∈ threads, P t) {next : T} (moved : P next) :
    ∀ t ∈ threads.set i next, P t := by
  intro t member
  obtain old | rfl := List.mem_or_eq_of_mem_set member
  · exact all t old
  · exact moved

end Threads

end Pupnp.Run
