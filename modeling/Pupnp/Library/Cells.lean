import Mathlib.Data.List.AList
import Mathlib.Order.Lattice
import Pupnp.Library.Linked

/-!
Memory as cells by address. A cell that was never allocated or is freed can neither be read nor written.
-/

namespace Pupnp.Cells

variable {α : Type*}

abbrev Memory (α : Type*) := AList fun _ : Nat => α

/-- An allocator: whatever is allocated, it has one more address. -/
structure Malloc (α : Type*) where
  address : Memory α → Nat
  fresh : ∀ memory : Memory α, memory.lookup (address memory) = none

def addressBehind (memory : Memory α) : Nat := memory.keys.foldr max 0 + 1

theorem addressBehind_fresh (memory : Memory α) : memory.lookup (addressBehind memory) = none := by
  have below (keys : List Nat) : ∀ a ∈ keys, a ≤ keys.foldr max 0 := by
    induction keys with
    | nil => simp
    | cons key keys ih =>
      intro a member
      rw [List.foldr_cons]
      rcases List.mem_cons.mp member with rfl | later
      · exact le_max_left _ _
      · exact le_trans (ih a later) (le_max_right _ _)
  apply AList.lookup_eq_none.mpr
  intro inside
  have small := below memory.keys _ inside
  unfold addressBehind at small
  omega

def Malloc.behind : Malloc α := ⟨addressBehind, addressBehind_fresh⟩

def store (memory : Memory α) (a : Nat) (change : α → α) : Option (Memory α) :=
  (memory.lookup a).map fun cell => memory.insert a (change cell)

def storeAt (memory : Memory α) (pointer : Option Nat) (change : α → α) : Option (Memory α) :=
  match pointer with
  | none => some memory
  | some a => store memory a change

theorem store_eq {memory : Memory α} {a : Nat} {cell : α} (found : memory.lookup a = some cell) (change : α → α) :
    store memory a change = some (memory.insert a (change cell)) := by
  rw [store, found]
  rfl

theorem store_found {memory : Memory α} {a : Nat} {cell : α} (found : memory.lookup a = some cell) (change : α → α) :
    ∃ memory', store memory a change = some memory' ∧ memory'.lookup a = some (change cell) ∧
      ∀ b, b ≠ a → memory'.lookup b = memory.lookup b :=
  ⟨_, store_eq found change, AList.lookup_insert memory, fun _ other => AList.lookup_insert_ne other⟩

theorem store_idle {memory : Memory α} {a : Nat} {cell : α} (found : memory.lookup a = some cell) (change : α → α)
    (idle : change cell = cell) :
    ∃ memory', store memory a change = some memory' ∧ ∀ b, memory'.lookup b = memory.lookup b := by
  refine ⟨_, store_eq found change, fun b => ?_⟩
  rw [idle]
  by_cases same : b = a
  · rw [same, AList.lookup_insert, found]
  · exact AList.lookup_insert_ne same

theorem length_le_keys {memory : Memory α} {addresses : List Nat} (nodup : addresses.Nodup)
    (allocated : ∀ a ∈ addresses, (memory.lookup a).isSome) : addresses.length ≤ memory.keys.length := by
  apply (nodup.subperm _).length_le
  intro a member
  exact AList.lookup_isSome.mp (allocated a member)

/-! ### Fields -/

def field {β : Type*} (part : α → Option β) (memory : Memory α) (a : Nat) : Option β := (memory.lookup a).bind part

def Stored (memory memory' : Memory α) (pointer : Option Nat) (change : α → α) : Prop :=
  ∀ b, memory'.lookup b = if pointer = some b then (memory.lookup b).map change else memory.lookup b

theorem store_stored {memory : Memory α} {a : Nat} (allocated : (memory.lookup a).isSome) (change : α → α) :
    ∃ memory', store memory a change = some memory' ∧ Stored memory memory' (some a) change := by
  obtain ⟨cell, found⟩ := Option.isSome_iff_exists.mp allocated
  refine ⟨_, store_eq found change, fun b => ?_⟩
  by_cases here : b = a
  · rw [here, AList.lookup_insert, if_pos rfl, found, Option.map_some]
  · rw [AList.lookup_insert_ne here, if_neg fun same => here (Option.some.inj same).symm]

theorem storeAt_stored {memory : Memory α} {pointer : Option Nat}
    (allocated : ∀ a ∈ pointer, (memory.lookup a).isSome) (change : α → α) :
    ∃ memory', storeAt memory pointer change = some memory' ∧ Stored memory memory' pointer change := by
  cases pointer with
  | none => exact ⟨memory, rfl, fun b => by rw [if_neg (by simp)]⟩
  | some a => exact store_stored (allocated a rfl) change

section Fields
variable {β : Type*} {part : α → Option β} {memory memory' : Memory α} {pointer : Option Nat} {change : α → α}

theorem Stored.isSome (stored : Stored memory memory' pointer change) (b : Nat) :
    (memory'.lookup b).isSome = (memory.lookup b).isSome := by
  rw [stored b]
  split
  next => exact Option.isSome_map
  next => rfl

theorem Stored.field_same (stored : Stored memory memory' pointer change) (same : ∀ cell, part (change cell) = part cell) :
    field part memory' = field part memory := by
  funext b
  rw [field, field, stored b]
  split
  next =>
    rw [Option.bind_map]
    exact congrArg _ (funext same)
  next => rfl

theorem Stored.field_set {link : Option Nat} {part : α → Option Nat} (stored : Stored memory memory' pointer change)
    (allocated : ∀ a ∈ pointer, (memory.lookup a).isSome) (set : ∀ cell, part (change cell) = link) :
    field part memory' = Linked.setAt pointer link (field part memory) := by
  funext b
  rw [field, stored b, Linked.setAt]
  split
  next here =>
    obtain ⟨cell, found⟩ := Option.isSome_iff_exists.mp (allocated b here)
    rw [found, Option.map_some, Option.bind_some, set]
  next => rfl

end Fields

/-! ### Cells that stay -/

def Extends (memory memory' : Memory α) : Prop :=
  ∀ a cell, memory.lookup a = some cell → memory'.lookup a = some cell

theorem Extends.refl (memory : Memory α) : Extends memory memory := fun _ _ found => found

theorem Extends.trans {memory memory' memory'' : Memory α} (first : Extends memory memory')
    (second : Extends memory' memory'') : Extends memory memory'' :=
  fun a cell found => second a cell (first a cell found)

theorem Extends.absent {memory memory' : Memory α} (extends_ : Extends memory memory') {a : Nat}
    (absent : memory'.lookup a = none) : memory.lookup a = none := by
  cases found : memory.lookup a with
  | none => rfl
  | some cell =>
    rw [extends_ a cell found] at absent
    cases absent

theorem Extends.insert {memory memory' : Memory α} (extends_ : Extends memory memory') {a : Nat}
    (absent : memory.lookup a = none) (cell : α) : Extends memory (memory'.insert a cell) := by
  intro b other found
  have apart : b ≠ a := by
    rintro rfl
    rw [absent] at found
    cases found
  rw [AList.lookup_insert_ne apart]
  exact extends_ b other found

end Pupnp.Cells
