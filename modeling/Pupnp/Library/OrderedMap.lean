import Mathlib.Data.List.Nodup

/-! Finite maps that keep their keys in the order of insertion. -/

namespace Pupnp

structure OrderedMap (κ ν : Type*) where
  entries : List (κ × ν)
  distinct : (entries.map Prod.fst).Nodup

namespace OrderedMap
variable {κ ν : Type*} [DecidableEq κ]

def empty : OrderedMap κ ν := ⟨[], List.nodup_nil⟩

def keys (m : OrderedMap κ ν) : List κ := m.entries.map Prod.fst

def find (m : OrderedMap κ ν) (key : κ) : Option ν := (m.entries.find? (·.1 = key)).map Prod.snd

def replaced (key : κ) (value : ν) (entries : List (κ × ν)) : List (κ × ν) :=
  entries.map fun entry => if entry.1 = key then (key, value) else entry

theorem replaced_keys (key : κ) (value : ν) (entries : List (κ × ν)) :
    (replaced key value entries).map Prod.fst = entries.map Prod.fst := by
  rw [replaced, List.map_map]
  apply List.map_congr_left
  intro entry _
  simp only [Function.comp_apply]
  split
  next same => exact same.symm
  next => rfl

theorem keys_of_find {m : OrderedMap κ ν} {key : κ} : (m.find key).isSome ↔ key ∈ m.keys := by
  rw [find, Option.isSome_map, List.find?_isSome, keys, List.mem_map]
  simp only [decide_eq_true_eq]

def put (m : OrderedMap κ ν) (key : κ) (value : ν) : OrderedMap κ ν :=
  if known : key ∈ m.keys then
    ⟨replaced key value m.entries, by rw [replaced_keys]; exact m.distinct⟩
  else
    ⟨m.entries ++ [(key, value)], by
      rw [List.map_append]
      exact m.distinct.append (List.nodup_singleton key) (List.disjoint_singleton.mpr known)⟩

def erase (m : OrderedMap κ ν) (key : κ) : OrderedMap κ ν :=
  ⟨m.entries.filter (·.1 ≠ key), m.distinct.sublist (List.filter_sublist.map Prod.fst)⟩

variable {m : OrderedMap κ ν} {key : κ}

theorem put_known (known : key ∈ m.keys) (value : ν) :
    (m.put key value).entries = m.entries.map fun entry => if entry.1 = key then (key, value) else entry := by
  rw [put, dif_pos known]
  rfl

theorem put_fresh (fresh : key ∉ m.keys) (value : ν) : (m.put key value).entries = m.entries ++ [(key, value)] := by
  rw [put, dif_neg fresh]

theorem put_keys (value : ν) : (m.put key value).keys = if key ∈ m.keys then m.keys else m.keys ++ [key] := by
  rw [put]
  split
  next => exact replaced_keys key value m.entries
  next =>
    rw [keys, List.map_append]
    rfl

theorem erase_keys : (m.erase key).keys = m.keys.filter (· ≠ key) := by
  rw [keys, keys, erase, List.filter_map]
  rfl

theorem erase_entries (m : OrderedMap κ ν) (key : κ) : (m.erase key).entries = m.entries.eraseP (·.1 = key) := by
  change m.entries.filter (·.1 ≠ key) = _
  obtain ⟨entries, distinct⟩ := m
  dsimp only
  induction entries with
  | nil => rfl
  | cons entry rest ih =>
    obtain ⟨fresh, distinct'⟩ := List.nodup_cons.mp distinct
    by_cases here : entry.1 = key
    · rw [List.filter_cons_of_neg (by simp [here]), List.eraseP_cons_of_pos (by simp [here]),
        List.filter_eq_self]
      intro other member
      have apart : other.1 ≠ key := by
        rintro rfl
        exact fresh (here ▸ List.mem_map_of_mem member)
      simpa using apart
    · rw [List.filter_cons_of_pos (by simp [here]), List.eraseP_cons_of_neg (by simp [here]), ih distinct']

/-! ### Where a key stands -/

omit [DecidableEq κ] in
theorem exists_entry (known : key ∈ m.keys) : ∃ before value after, m.entries = before ++ (key, value) :: after := by
  obtain ⟨⟨_, value⟩, member, rfl⟩ := List.mem_map.mp known
  obtain ⟨before, after, split⟩ := List.append_of_mem member
  exact ⟨before, value, after, split⟩

theorem find_fresh (fresh : key ∉ m.keys) : m.find key = none := by
  rw [← keys_of_find] at fresh
  exact Option.not_isSome_iff_eq_none.mp fresh

section Standing
variable {before after : List (κ × ν)} {value : ν}

omit [DecidableEq κ] in
theorem known_of_entry (stands : m.entries = before ++ (key, value) :: after) : key ∈ m.keys := by
  rw [keys, stands]
  simp

omit [DecidableEq κ] in
theorem apart_of_entry (stands : m.entries = before ++ (key, value) :: after) :
    (∀ entry ∈ before, entry.1 ≠ key) ∧ ∀ entry ∈ after, entry.1 ≠ key := by
  have distinct := m.distinct
  rw [stands, List.map_append, List.map_cons, List.nodup_append, List.nodup_cons] at distinct
  obtain ⟨-, ⟨notAfter, -⟩, apart⟩ := distinct
  refine ⟨fun entry member => ?_, fun entry member same => notAfter ?_⟩
  · exact apart entry.1 (List.mem_map_of_mem member) key List.mem_cons_self
  · have inside : entry.1 ∈ after.map Prod.fst := List.mem_map_of_mem member
    rwa [same] at inside

theorem find_entry (stands : m.entries = before ++ (key, value) :: after) : m.find key = some value := by
  obtain ⟨notBefore, -⟩ := apart_of_entry stands
  have skipped : before.find? (·.1 = key) = none := by simpa using notBefore
  rw [find, stands, List.find?_append, skipped, Option.none_or, List.find?_cons_of_pos (by simp)]
  rfl

theorem put_entry (stands : m.entries = before ++ (key, value) :: after) (value' : ν) :
    (m.put key value').entries = before ++ (key, value') :: after := by
  obtain ⟨notBefore, notAfter⟩ := apart_of_entry stands
  have idle {entries : List (κ × ν)} (apart : ∀ entry ∈ entries, entry.1 ≠ key) :
      entries.map (fun entry => if entry.1 = key then (key, value') else entry) = entries := by
    apply (List.map_congr_left _).trans (List.map_id entries)
    intro entry member
    rw [if_neg (apart entry member), id]
  rw [put_known (known_of_entry stands), stands, List.map_append, List.map_cons, idle notBefore, idle notAfter,
    if_pos rfl]

theorem erase_entry (stands : m.entries = before ++ (key, value) :: after) :
    (m.erase key).entries = before ++ after := by
  obtain ⟨notBefore, -⟩ := apart_of_entry stands
  rw [erase_entries, stands, List.eraseP_append_right _ (by simpa using notBefore),
    List.eraseP_cons_of_pos (by simp)]

end Standing

end OrderedMap

end Pupnp
