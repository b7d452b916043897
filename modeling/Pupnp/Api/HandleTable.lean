import Pupnp.Api.Dispatch

/-! `HandleTable` for any kind of entry: one slot for each handle, of which the slot 0 is never used. -/

namespace Pupnp.Api

structure HandleTable (α : Type) where
  entries : List (Option α)
  size : entries.length = NUM_HANDLE

namespace HandleTable
variable {α : Type}

/-- `GetHandleInfo`; `none` is `HND_INVALID`. -/
def get (table : HandleTable α) (hnd : Int) : Option α :=
  if hnd < 1 || NUM_HANDLE ≤ hnd then none else table.entries[hnd.toNat]?.join

def getFreeHandle (table : HandleTable α) : Option Int :=
  ((table.entries.drop 1).findIdx? (·.isNone)).map fun before : Nat => (before : Int) + 1

def set (table : HandleTable α) (hnd : Int) (entry : Option α) : HandleTable α where
  entries := table.entries.set hnd.toNat entry
  size := by rw [List.length_set, table.size]

def Valid (hnd : Int) : Prop := 1 ≤ hnd ∧ hnd < NUM_HANDLE

theorem get_valid {table : HandleTable α} {hnd : Int} {entry : α} (found : table.get hnd = some entry) :
    Valid hnd := by
  rw [get] at found
  split at found
  next => cases found
  next inside =>
    rw [Bool.or_eq_true, decide_eq_true_iff, decide_eq_true_iff] at inside
    unfold Valid
    omega

theorem get_of_valid (table : HandleTable α) {hnd : Int} (valid : Valid hnd) :
    table.get hnd = table.entries[hnd.toNat]?.join := by
  unfold Valid at valid
  rw [get, if_neg]
  rw [Bool.or_eq_true, decide_eq_true_iff, decide_eq_true_iff]
  omega

theorem get_of_not_valid (table : HandleTable α) {hnd : Int} (outside : ¬Valid hnd) : table.get hnd = none := by
  unfold Valid at outside
  rw [get, if_pos]
  rw [Bool.or_eq_true, decide_eq_true_iff, decide_eq_true_iff]
  omega

theorem get_set (table : HandleTable α) {hnd : Int} (valid : Valid hnd) (entry : Option α) (other : Int) :
    (table.set hnd entry).get other = if other = hnd then entry else table.get other := by
  by_cases inside : Valid other
  · have room : hnd.toNat < table.entries.length := by
      have size := table.size
      unfold Valid at valid
      omega
    rw [get_of_valid _ inside, get_of_valid _ inside, set]
    dsimp only
    split
    next same =>
      rw [same, List.getElem?_set_self room]
      rfl
    next different =>
      have apart : hnd.toNat ≠ other.toNat := by
        unfold Valid at valid inside
        omega
      rw [List.getElem?_set_ne apart]
  · have different : other ≠ hnd := fun same => inside (same ▸ valid)
    rw [get_of_not_valid _ inside, get_of_not_valid _ inside, if_neg different]

theorem getFreeHandle_some {table : HandleTable α} {hnd : Int} (free : table.getFreeHandle = some hnd) :
    Valid hnd ∧ table.get hnd = none := by
  rw [getFreeHandle, Option.map_eq_some_iff] at free
  obtain ⟨before, found, rfl⟩ := free
  obtain ⟨room, empty, -⟩ := List.findIdx?_eq_some_iff_getElem.mp found
  rw [List.length_drop, table.size] at room
  have valid : Valid ((before : Int) + 1) := by
    unfold Valid
    omega
  refine ⟨valid, ?_⟩
  have index : (1 + before : Nat) = ((before : Int) + 1).toNat := by omega
  rw [get_of_valid _ valid, ← index, ← List.getElem?_drop, List.getElem?_eq_getElem (by
    rw [List.length_drop, table.size]
    exact room)]
  exact Option.isNone_iff_eq_none.mp empty

end HandleTable

end Pupnp.Api
