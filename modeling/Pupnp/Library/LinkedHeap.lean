import Mathlib.Data.List.AList
import Mathlib.Data.List.Nodup
import Mathlib.Data.List.Perm.Subperm

/-!
Singly linked lists in a heap: cells by address, each with a value and a link. A path along the links is
followed by its cells, so that a cell which has been freed ends it.
-/

namespace Pupnp.LinkedHeap

variable {α : Type*}

structure Cell (α : Type*) where
  value : α
  next : Option Nat
  deriving DecidableEq, Repr

abbrev Heap (α : Type*) := AList fun _ : Nat => Cell α

def addresses (list : List (Nat × α)) : List Nat := list.map Prod.fst

@[simp]
theorem addresses_nil : addresses ([] : List (Nat × α)) = [] := rfl

@[simp]
theorem addresses_cons (a : Nat) (value : α) (rest : List (Nat × α)) :
    addresses ((a, value) :: rest) = a :: addresses rest := rfl

@[simp]
theorem addresses_append (front back : List (Nat × α)) :
    addresses (front ++ back) = addresses front ++ addresses back := List.map_append

def Path (heap : Heap α) : Option Nat → List (Nat × α) → Option Nat → Prop
  | head, [], stop => head = stop
  | head, (a, value) :: rest, stop =>
      head = some a ∧ ∃ next, heap.lookup a = some ⟨value, next⟩ ∧ Path heap next rest stop

/-- A whole list, whose cells are all allocated. -/
abbrev Listed (heap : Heap α) (head : Option Nat) (list : List (Nat × α)) : Prop := Path heap head list none

section Paths
variable {heap heap' : Heap α} {head stop : Option Nat} {list list' front back : List (Nat × α)} {a : Nat} {value : α}

theorem path_append : Path heap head (front ++ back) stop ↔ ∃ mid, Path heap head front mid ∧ Path heap mid back stop := by
  induction front generalizing head with
  | nil =>
    constructor
    · intro path
      exact ⟨head, rfl, path⟩
    · rintro ⟨mid, same, path⟩
      exact same ▸ path
  | cons cell front ih =>
    constructor
    · rintro ⟨first, next, found, rest⟩
      obtain ⟨mid, before, behind⟩ := ih.mp rest
      exact ⟨mid, ⟨first, next, found, before⟩, behind⟩
    · rintro ⟨mid, ⟨first, next, found, before⟩, behind⟩
      exact ⟨first, next, found, ih.mpr ⟨mid, before, behind⟩⟩

theorem Path.congr (path : Path heap head list stop) (same : ∀ a ∈ addresses list, heap'.lookup a = heap.lookup a) :
    Path heap' head list stop := by
  induction list generalizing head with
  | nil => exact path
  | cons cell list ih =>
    obtain ⟨first, next, found, rest⟩ := path
    refine ⟨first, next, (same cell.1 List.mem_cons_self).trans found, ih rest ?_⟩
    intro a member
    exact same a (List.mem_cons_of_mem _ member)

theorem Path.insert (path : Path heap head list stop) (fresh : a ∉ addresses list) (cell : Cell α) :
    Path (heap.insert a cell) head list stop := by
  apply path.congr
  intro b member
  exact AList.lookup_insert_ne (ne_of_mem_of_not_mem member fresh)

theorem Path.erase (path : Path heap head list stop) (fresh : a ∉ addresses list) : Path (heap.erase a) head list stop := by
  apply path.congr
  intro b member
  exact AList.lookup_erase_ne (ne_of_mem_of_not_mem member fresh)

theorem Path.lookup (path : Path heap head list stop) (member : (a, value) ∈ list) :
    ∃ next, heap.lookup a = some ⟨value, next⟩ := by
  obtain ⟨front, back, rfl⟩ := List.append_of_mem member
  obtain ⟨mid, -, -, next, found, -⟩ := path_append.mp path
  exact ⟨next, found⟩

theorem Path.store {next : Option Nat} (path : Path heap head list stop) (found : heap.lookup a = some ⟨value, next⟩)
    (value' : α) :
    Path (heap.insert a ⟨value', next⟩) head (list.map fun cell => if cell.1 = a then (a, value') else cell) stop := by
  induction list generalizing head with
  | nil => exact path
  | cons cell list ih =>
    obtain ⟨first, link, here, rest⟩ := path
    rw [List.map_cons]
    by_cases same : cell.1 = a
    · rw [if_pos same]
      rw [same, found] at here
      obtain ⟨-, rfl⟩ := Cell.mk.inj (Option.some.inj here)
      exact ⟨same ▸ first, next, AList.lookup_insert heap, ih rest⟩
    · rw [if_neg same]
      exact ⟨first, link, (AList.lookup_insert_ne same).trans here, ih rest⟩

theorem Path.unique (path : Listed heap head list) (other : Listed heap head list') : list = list' := by
  induction list generalizing head list' with
  | nil =>
    obtain rfl : head = none := path
    cases list' with
    | nil => rfl
    | cons cell list' => exact absurd other.1 (Option.some_ne_none _).symm
  | cons cell list ih =>
    obtain ⟨rfl, next, found, rest⟩ := path
    cases list' with
    | nil => exact absurd other (Option.some_ne_none _)
    | cons cell' list' =>
      obtain ⟨first, next', found', rest'⟩ := other
      have same : cell.1 = cell'.1 := Option.some.inj first
      rw [← same, found] at found'
      obtain ⟨values, nexts⟩ := Cell.mk.inj (Option.some.inj found')
      rw [ih rest (nexts ▸ rest'), Prod.ext same values]

theorem Path.nodup (path : Listed heap head list) : (addresses list).Nodup := by
  induction list generalizing head with
  | nil => exact List.nodup_nil
  | cons cell list ih =>
    have whole := path
    obtain ⟨first, next, found, rest⟩ := path
    refine List.nodup_cons.mpr ⟨fun again => ?_, ih rest⟩
    obtain ⟨same, member, equal⟩ := List.mem_map.mp again
    obtain ⟨front, back, split⟩ := List.append_of_mem member
    rw [split] at rest
    obtain ⟨mid, -, later⟩ := path_append.mp rest
    have here : mid = head := later.1.trans ((congrArg some equal).trans first.symm)
    have lengths := congrArg List.length (Path.unique whole (here ▸ later))
    rw [split] at lengths
    simp only [List.length_cons, List.length_append] at lengths
    omega

theorem Path.length_le (path : Listed heap head list) : list.length ≤ heap.entries.length := by
  have inside : addresses list ⊆ heap.keys := by
    intro a member
    obtain ⟨⟨_, value⟩, cell, rfl⟩ := List.mem_map.mp member
    obtain ⟨next, found⟩ := path.lookup cell
    exact AList.lookup_isSome.mp (by rw [found]; rfl)
  have short := (List.subperm_of_subset path.nodup inside).length_le
  rwa [addresses, List.length_map, AList.keys, List.keys, List.length_map] at short

end Paths

/-! ### Links that change -/

/-- Link the cell in front, or else the head, to another cell; `none` where the cell in front is not
allocated. -/
def relink (previous next : Option Nat) (head : Option Nat) (heap : Heap α) : Option (Option Nat × Heap α) :=
  match previous with
  | none => some (next, heap)
  | some p => (heap.lookup p).map fun cell => (head, heap.insert p { cell with next := next })

def lastAddress (front : List (Nat × α)) : Option Nat := front.getLast?.map Prod.fst

@[simp]
theorem lastAddress_snoc (front : List (Nat × α)) (a : Nat) (value : α) : lastAddress (front ++ [(a, value)]) = some a := by
  simp [lastAddress]

section Relink
variable {heap : Heap α} {head mid next stop : Option Nat} {front back : List (Nat × α)} {a : Nat} {value : α}

theorem relink_path (before : Path heap head front mid) (behind : Path heap next back stop)
    (nodup : (addresses (front ++ back)).Nodup) :
    ∃ head' heap', relink (lastAddress front) next head heap = some (head', heap') ∧
      Path heap' head' (front ++ back) stop ∧ ∀ a ∉ addresses front, heap'.lookup a = heap.lookup a := by
  obtain rfl | ⟨front, ⟨p, value⟩, rfl⟩ := front.eq_nil_or_concat'
  · exact ⟨next, heap, rfl, behind, fun _ _ => rfl⟩
  · obtain ⟨link, before, first, old, found, -⟩ := path_append.mp before
    have apart : p ∉ addresses front ∧ p ∉ addresses back := by
      simp only [addresses_append, addresses_cons, addresses_nil, List.append_assoc] at nodup
      have parts := List.nodup_middle.mp nodup
      simpa using (List.nodup_cons.mp parts).1
    refine ⟨head, heap.insert p ⟨value, next⟩, by simp [relink, found], ?_, ?_⟩
    · rw [List.append_assoc]
      refine path_append.mpr ⟨link, before.insert apart.1 _, first, next, AList.lookup_insert heap, ?_⟩
      exact behind.insert apart.2 _
    · intro a other
      apply AList.lookup_insert_ne
      rintro rfl
      simp at other

theorem relink_erase (listed : Listed heap head (front ++ (a, value) :: back))
    (found : heap.lookup a = some ⟨value, next⟩) :
    ∃ head' heap', relink (lastAddress front) next head heap = some (head', heap') ∧
      Listed (heap'.erase a) head' (front ++ back) ∧
      ∀ b ∉ addresses (front ++ (a, value) :: back), (heap'.erase a).lookup b = heap.lookup b := by
  have nodup := listed.nodup
  rw [addresses_append, addresses_cons, List.nodup_middle, List.nodup_cons] at nodup
  obtain ⟨mid, before, -, next', same, behind⟩ := path_append.mp listed
  obtain rfl : next = next' := (Cell.mk.inj (Option.some.inj (found.symm.trans same))).2
  obtain ⟨head', heap', linked, path, frame⟩ := relink_path before behind (by simpa using nodup.2)
  refine ⟨head', heap', linked, path.erase (by simpa using nodup.1), ?_⟩
  intro b other
  simp only [addresses_append, addresses_cons, List.mem_append, List.mem_cons, not_or] at other
  rw [AList.lookup_erase_ne other.2.1, frame b other.1]

end Relink

end Pupnp.LinkedHeap
