import Mathlib.Data.List.Basic
import Mathlib.Data.List.Count

/-!
Blocks with a count of their references. A block is freed by the release that takes its count to 0,
and is never in order again afterwards.
-/

namespace Pupnp.RefCount

structure Block (α : Type*) where
  payload : α
  ct : Int
  frees : Nat
  deriving DecidableEq, Repr

variable {α : Type*} {blocks : List (Block α)} {refs : List Nat} {d : Nat}

def count (d : Nat) (blocks : List (Block α)) : Int := (blocks[d]?.map (·.ct)).getD 0

def freed (d : Nat) (blocks : List (Block α)) : Bool := (blocks[d]?.map (·.frees)).getD 0 ≠ 0

def allocate (payload : α) (blocks : List (Block α)) : List (Block α) := blocks ++ [⟨payload, 1, 0⟩]

def retain (d : Nat) (blocks : List (Block α)) : List (Block α) :=
  blocks.modify d fun block => { block with ct := block.ct + 1 }

def release (d : Nat) (blocks : List (Block α)) : List (Block α) :=
  blocks.modify d fun block =>
    { block with ct := block.ct - 1, frees := if block.ct - 1 ≤ 0 then block.frees + 1 else block.frees }

/-- Each block has as many references as are listed, and has been freed once there are none. -/
def Counted (refs : List Nat) (blocks : List (Block α)) : Prop :=
  ∀ d block, blocks[d]? = some block →
    block.ct = (refs.count d : Int) ∧ block.frees = if refs.count d = 0 then 1 else 0

theorem Counted.perm {refs' : List Nat} (same : refs.Perm refs') (counted : Counted refs blocks) :
    Counted refs' blocks := by
  intro d block found
  rw [← same.count_eq]
  exact counted d block found

theorem Counted.count_eq (counted : Counted refs blocks) (known : d < blocks.length) :
    count d blocks = refs.count d := by
  have found := List.getElem?_eq_getElem known
  rw [count, found]
  exact (counted d _ found).1

theorem Counted.not_freed (counted : Counted refs blocks) (member : d ∈ refs) : freed d blocks = false := by
  unfold freed
  cases found : blocks[d]? with
  | none => rfl
  | some block =>
    have frees := (counted d block found).2
    rw [if_neg (Nat.ne_of_gt (List.count_pos_iff.mpr member))] at frees
    simp [frees]

theorem Counted.allocate (counted : Counted refs blocks) (known : ∀ d ∈ refs, d < blocks.length) (payload : α) :
    Counted (blocks.length :: refs) (allocate payload blocks) := by
  have fresh : blocks.length ∉ refs := fun member => Nat.lt_irrefl _ (known _ member)
  intro d block found
  unfold RefCount.allocate at found
  obtain below | rfl | above := Nat.lt_trichotomy d blocks.length
  · rw [List.getElem?_append_left below] at found
    rw [List.count_cons_of_ne (Nat.ne_of_gt below)]
    exact counted d block found
  · rw [List.getElem?_concat_length] at found
    obtain rfl := Option.some.inj found
    rw [List.count_cons_self, List.count_eq_zero.mpr fresh]
    exact ⟨rfl, rfl⟩
  · rw [List.getElem?_eq_none (by simp; omega)] at found
    cases found

theorem Counted.retain (counted : Counted refs blocks) (member : d ∈ refs) :
    Counted (d :: refs) (retain d blocks) := by
  intro e block found
  rw [RefCount.retain, List.getElem?_modify] at found
  obtain ⟨before, old, rfl⟩ := Option.map_eq_some_iff.mp found
  obtain ⟨count, frees⟩ := counted e before old
  by_cases same : d = e
  · subst same
    have some : 0 < refs.count d := List.count_pos_iff.mpr member
    rw [if_neg (by omega)] at frees
    rw [if_pos rfl, List.count_cons_self, if_neg (by omega)]
    exact ⟨by simp only; omega, frees⟩
  · rw [if_neg same, List.count_cons_of_ne same]
    exact ⟨count, frees⟩

theorem Counted.release (counted : Counted (d :: refs) blocks) : Counted refs (release d blocks) := by
  intro e block found
  rw [RefCount.release, List.getElem?_modify] at found
  obtain ⟨before, old, rfl⟩ := Option.map_eq_some_iff.mp found
  obtain ⟨count, frees⟩ := counted e before old
  by_cases same : d = e
  · subst same
    rw [List.count_cons_self] at count frees
    rw [if_neg (by omega)] at frees
    have left : before.ct - 1 = refs.count d := by omega
    rw [if_pos rfl]
    refine ⟨left, ?_⟩
    dsimp only
    rw [left, frees]
    split <;> split <;> omega
  · rw [List.count_cons_of_ne same] at count frees
    rw [if_neg same]
    exact ⟨count, frees⟩

@[simp] theorem length_retain : (retain d blocks).length = blocks.length := List.length_modify ..

@[simp] theorem length_release : (release d blocks).length = blocks.length := List.length_modify ..

theorem count_release (known : d < blocks.length) : count d (release d blocks) = count d blocks - 1 := by
  simp [count, release, known]

@[simp] theorem length_allocate (payload : α) : (allocate payload blocks).length = blocks.length + 1 := by
  simp [allocate]

end Pupnp.RefCount
