import Pupnp.Ixml.Node
import Pupnp.Library.Run

/-!
The links of the nodes as a forest, and the calls that keep it one.
-/

namespace Pupnp.Ixml
open Pupnp.Linked Relation

variable {ι : Type}

structure IsForest (heap : Heap ι) (children : ι → List ι) : Prop where
  first : ∀ p, heap.firstChild p = (children p).head?
  chain : ∀ p, Chain heap.prevSibling heap.nextSibling (children p)
  nodup : ∀ p, (children p).Nodup
  owner : ∀ p c, c ∈ children p ↔ heap.parentNode c = some p
  loose : ∀ c, heap.parentNode c = none → heap.prevSibling c = none ∧ heap.nextSibling c = none
  acyclic : ∀ a, ¬Ancestor heap.parentNode a a

/-- Child lists as in a forest; a node without a parent may have siblings, as attributes do. -/
structure WellFormed (heap : Heap ι) (children : ι → List ι) : Prop where
  first : ∀ p, heap.firstChild p = (children p).head?
  chain : ∀ p, Chain heap.prevSibling heap.nextSibling (children p)
  nodup : ∀ p, (children p).Nodup
  owner : ∀ p c, c ∈ children p ↔ heap.parentNode c = some p
  beside : ∀ a b, heap.nextSibling a = some b → heap.parentNode b = heap.parentNode a
  finite : ∀ a, ¬TransGen (Link heap.nextSibling) a a
  acyclic : ∀ a, ¬Ancestor heap.parentNode a a

theorem WellFormed.first_parent {heap : Heap ι} {children : ι → List ι} (formed : WellFormed heap children)
    {a b : ι} (first : heap.firstChild a = some b) : heap.parentNode b = some a := by
  rw [formed.first] at first
  exact (formed.owner a b).mp (List.mem_of_head? first)

theorem WellFormed.walk_acyclic {heap : Heap ι} {children : ι → List ι} (formed : WellFormed heap children)
    (a : ι) : ¬TransGen (Walk heap.firstChild heap.nextSibling) a a :=
  Linked.walk_acyclic formed.acyclic formed.finite (fun _ _ => formed.first_parent) formed.beside a

/-- Every node stands in at most one child list, the lists are doubly linked and owned by the parents of
their nodes, and no node is its own ancestor. -/
def Forest (heap : Heap ι) : Prop := ∃ children, IsForest heap children

structure Fresh (heap : Heap ι) : Prop where
  parent : ∀ c, heap.parentNode c = none
  first : ∀ c, heap.firstChild c = none
  siblings : ∀ c, heap.prevSibling c = none ∧ heap.nextSibling c = none

theorem Fresh.forest {heap : Heap ι} (fresh : Fresh heap) : Forest heap := by
  refine ⟨fun _ => [], ?_, fun _ => .nil _ _, fun _ => List.nodup_nil, ?_, fun c _ => fresh.siblings c, ?_⟩
  · exact fresh.first
  · intro p c
    rw [fresh.parent]
    exact ⟨nofun, nofun⟩
  · intro a cycle
    obtain ⟨p, -, last⟩ := TransGen.tail'_iff.mp cycle
    rw [fresh.parent] at last
    cases last

namespace IsForest
variable {heap : Heap ι} {children : ι → List ι} {n c : ι} {before after : List ι}

theorem one_list (forest : IsForest heap children) {p q : ι} (left : c ∈ children p) (right : c ∈ children q) :
    p = q := by
  have here := (forest.owner p c).mp left
  rw [(forest.owner q c).mp right] at here
  exact (Option.some.inj here).symm

theorem links_inverse (forest : IsForest heap children) {a b : ι} (next : heap.nextSibling a = some b) :
    heap.prevSibling b = some a ∧ heap.parentNode b = heap.parentNode a := by
  cases above : heap.parentNode a with
  | none =>
    rw [(forest.loose a above).2] at next
    cases next
  | some p =>
    obtain ⟨before, after, list⟩ := List.append_of_mem ((forest.owner p a).mpr above)
    have chain := forest.chain p
    rw [list] at chain
    have head := chain.at.2.symm.trans next
    obtain ⟨later, rfl⟩ := List.head?_eq_some_iff.mp head
    have shape : before ++ a :: b :: later = (before ++ [a]) ++ b :: later := by simp
    have member : b ∈ children p := by simp [list]
    rw [shape] at chain
    exact ⟨by simpa using chain.at.1, (forest.owner p b).mp member⟩

theorem first_parent (forest : IsForest heap children) {a b : ι} (first : heap.firstChild a = some b) :
    heap.parentNode b = some a := by
  rw [forest.first] at first
  exact (forest.owner a b).mp (List.mem_of_head? first)

theorem beside_acyclic (forest : IsForest heap children) (a : ι) : ¬TransGen (Link heap.nextSibling) a a := by
  intro cycle
  cases above : heap.parentNode a with
  | none =>
    obtain ⟨b, link, -⟩ := TransGen.head'_iff.mp cycle
    have none := (forest.loose a above).2
    rw [Link, none] at link
    cases link
  | some p =>
    exact (forest.chain p).forward.acyclic (forest.nodup p) ((forest.owner p a).mpr above) cycle

theorem wellFormed (forest : IsForest heap children) : WellFormed heap children :=
  { first := forest.first
    chain := forest.chain
    nodup := forest.nodup
    owner := forest.owner
    beside := fun _ _ next => (forest.links_inverse next).2
    finite := forest.beside_acyclic
    acyclic := forest.acyclic }

theorem not_end {list : List ι} {d : ι} (outside : d ∉ list) : list.getLast? ≠ some d ∧ list.head? ≠ some d :=
  ⟨fun last => outside (List.mem_of_getLast? last), fun head => outside (List.mem_of_head? head)⟩

/-! ### Taking a node out -/

variable [DecidableEq ι] {heap' : Heap ι}

/-- The links once `c` is taken out from between two parts of the list of `n`. -/
structure Detached (heap heap' : Heap ι) (n c : ι) (before after : List ι) : Prop where
  parent : heap'.parentNode = setAt (some c) none heap.parentNode
  first : heap'.firstChild = if before = [] then setAt (some n) after.head? heap.firstChild else heap.firstChild
  prev : heap'.prevSibling = setAt (some c) none (setAt after.head? before.getLast? heap.prevSibling)
  next : heap'.nextSibling = setAt (some c) none (setAt before.getLast? after.head? heap.nextSibling)

theorem removeChild_detached (forest : IsForest heap children) (list : children n = before ++ c :: after) :
    (removeChild heap (some n) (some c)).1 = .success ∧
      Detached heap (removeChild heap (some n) (some c)).2 n c before after := by
  have child : heap.parentNode c = some n := (forest.owner n c).mp (by simp [list])
  have chain := forest.chain n
  have nodup := forest.nodup n
  rw [list] at chain nodup
  obtain ⟨prev, next⟩ := chain.at
  have apart : before.getLast? ≠ some c := by
    intro last
    rw [List.nodup_append] at nodup
    exact nodup.2.2 c (List.mem_of_getLast? last) c List.mem_cons_self rfl
  have head : heap.firstChild n = some c ↔ before = [] := by
    rw [forest.first, list]
    cases before with
    | nil => simp
    | cons d before =>
      have other : d ≠ c := by
        rintro rfl
        exact (List.nodup_cons.mp nodup).1 (by simp)
      simp [other]
  have same : setAt before.getLast? after.head? heap.nextSibling c = after.head? := by
    rw [setAt_other apart, next]
  by_cases isFirst : before = []
  · have first := head.mpr isFirst
    simp only [removeChild, isParent, child, prev, next, Heap.setNext, Heap.setFirst, Heap.setPrev,
      Heap.setParent, first, same, decide_true, Bool.not_true, Bool.false_eq_true, if_false, if_true]
    exact ⟨trivial, rfl, by rw [if_pos isFirst], rfl, rfl⟩
  · have first : heap.firstChild n ≠ some c := fun here => isFirst (head.mp here)
    simp only [removeChild, isParent, child, prev, next, Heap.setNext, Heap.setFirst, Heap.setPrev,
      Heap.setParent, first, same, decide_true, Bool.not_true, Bool.false_eq_true, if_false]
    exact ⟨trivial, rfl, by rw [if_neg isFirst], rfl, rfl⟩

theorem detach (forest : IsForest heap children) (list : children n = before ++ c :: after)
    (detached : Detached heap heap' n c before after) :
    IsForest heap' (Function.update children n (before ++ after)) := by
  have nodup := forest.nodup n
  rw [list] at nodup
  have fresh : c ∉ before ++ after := by
    have split := List.nodup_middle.mp nodup
    exact (List.nodup_cons.mp split).1
  have parts {d : ι} (other : d ≠ c) : d ∈ before ++ after ↔ heap.parentNode d = some n := by
    rw [← forest.owner, list]
    simp [other]
  have kept {d : ι} (other : d ≠ c) (elsewhere : heap.parentNode d ≠ some n) :
      heap'.prevSibling d = heap.prevSibling d ∧ heap'.nextSibling d = heap.nextSibling d := by
    have outside : d ∉ before ++ after := fun inside => elsewhere ((parts other).mp inside)
    rw [List.mem_append, not_or] at outside
    have notC : some c ≠ some d := fun same => other (Option.some.inj same).symm
    rw [detached.prev, detached.next, setAt_other notC, setAt_other notC, setAt_other (not_end outside.2).2,
      setAt_other (not_end outside.1).1]
    exact ⟨rfl, rfl⟩
  have notC {d : ι} (inside : d ∈ before ++ after) : some c ≠ some d := by
    intro same
    obtain rfl : c = d := Option.some.inj same
    exact fresh inside
  refine ⟨?_, ?_, ?_, ?_, ?_, ?_⟩
  · intro p
    rw [detached.first]
    by_cases here : p = n
    · subst here
      rw [Function.update_self]
      split
      next empty => rw [setAt_same, empty, List.nil_append]
      next more => rw [forest.first, list, List.head?_append_of_ne_nil _ more, List.head?_append_of_ne_nil _ more]
    · have notHere : some n ≠ some p := fun same => here (Option.some.inj same).symm
      rw [Function.update_of_ne here]
      split
      · rw [setAt_other notHere, forest.first]
      · exact forest.first p
  · intro p
    by_cases here : p = n
    · subst here
      have chain := forest.chain p
      rw [list] at chain
      rw [Function.update_self, detached.prev, detached.next]
      exact (chain.remove nodup).congr (fun d inside => setAt_other (notC inside) _ _)
        fun d inside => setAt_other (notC inside) _ _
    · rw [Function.update_of_ne here]
      have apart {d : ι} (member : d ∈ children p) : d ≠ c ∧ heap.parentNode d ≠ some n := by
        have above := (forest.owner p d).mp member
        refine ⟨?_, fun below => here (Option.some.inj (above.symm.trans below))⟩
        rintro rfl
        exact here (forest.one_list member (by simp [list]))
      exact (forest.chain p).congr (fun d member => (kept (apart member).1 (apart member).2).1)
        fun d member => (kept (apart member).1 (apart member).2).2
  · intro p
    by_cases here : p = n
    · subst here
      rw [Function.update_self]
      exact (List.nodup_cons.mp (List.nodup_middle.mp nodup)).2
    · rw [Function.update_of_ne here]
      exact forest.nodup p
  · intro p d
    rw [detached.parent]
    by_cases out : d = c
    · subst out
      rw [setAt_same]
      refine ⟨?_, nofun⟩
      by_cases here : p = n
      · subst here
        rw [Function.update_self]
        exact fun inside => absurd inside fresh
      · rw [Function.update_of_ne here]
        exact fun member => absurd (forest.one_list member (by simp [list])) here
    · rw [setAt_other fun same => out (Option.some.inj same).symm]
      by_cases here : p = n
      · subst here
        rw [Function.update_self]
        exact parts out
      · rw [Function.update_of_ne here]
        exact forest.owner p d
  · intro d above
    rw [detached.parent] at above
    by_cases out : d = c
    · subst out
      rw [detached.prev, detached.next, setAt_same, setAt_same]
      exact ⟨rfl, rfl⟩
    · rw [setAt_other fun same => out (Option.some.inj same).symm] at above
      obtain ⟨prev, next⟩ := kept out (by rw [above]; nofun)
      rw [prev, next]
      exact forest.loose d above
  · intro a cycle
    apply forest.acyclic a
    refine TransGen.mono (fun p d link => ?_) a a cycle
    change heap'.parentNode d = some p at link
    rw [detached.parent] at link
    by_cases out : d = c
    · rw [out, setAt_same] at link
      cases link
    · rwa [setAt_other fun same => out (Option.some.inj same).symm] at link

/-! ### Putting a node in -/

/-- The links once `c` is put in between two parts of the list of `n`. -/
structure Attached (heap heap' : Heap ι) (n c : ι) (before after : List ι) : Prop where
  parent : heap'.parentNode = setAt (some c) (some n) heap.parentNode
  first : heap'.firstChild = if before = [] then setAt (some n) (some c) heap.firstChild else heap.firstChild
  prev : heap'.prevSibling = setAt (some c) before.getLast? (setAt after.head? (some c) heap.prevSibling)
  next : heap'.nextSibling = setAt (some c) after.head? (setAt before.getLast? (some c) heap.nextSibling)

theorem attach (forest : IsForest heap children) (list : children n = before ++ after)
    (attached : Attached heap heap' n c before after) (apart : c ≠ n) (loose : heap.parentNode c = none)
    (notAbove : ¬Ancestor heap.parentNode c n) :
    IsForest heap' (Function.update children n (before ++ c :: after)) := by
  have nowhere (p : ι) : c ∉ children p := by
    rw [forest.owner, loose]
    nofun
  have nodup : (before ++ c :: after).Nodup := by
    apply List.nodup_middle.mpr
    have old := forest.nodup n
    rw [list] at old
    exact List.nodup_cons.mpr ⟨by rw [← list]; exact nowhere n, old⟩
  have parts {d : ι} (other : d ≠ c) : d ∈ before ++ c :: after ↔ heap.parentNode d = some n := by
    rw [← forest.owner, list]
    simp [other]
  have kept {d : ι} (other : d ≠ c) (elsewhere : heap.parentNode d ≠ some n) :
      heap'.prevSibling d = heap.prevSibling d ∧ heap'.nextSibling d = heap.nextSibling d := by
    have outside : d ∉ before ++ after := by
      rw [← list, forest.owner]
      exact elsewhere
    rw [List.mem_append, not_or] at outside
    have notC : some c ≠ some d := fun same => other (Option.some.inj same).symm
    rw [attached.prev, attached.next, setAt_other notC, setAt_other notC, setAt_other (not_end outside.2).2,
      setAt_other (not_end outside.1).1]
    exact ⟨rfl, rfl⟩
  refine ⟨?_, ?_, ?_, ?_, ?_, ?_⟩
  · intro p
    rw [attached.first]
    by_cases here : p = n
    · subst here
      rw [Function.update_self]
      split
      next empty => rw [setAt_same, empty, List.nil_append, List.head?_cons]
      next more => rw [forest.first, list, List.head?_append_of_ne_nil _ more, List.head?_append_of_ne_nil _ more]
    · have notHere : some n ≠ some p := fun same => here (Option.some.inj same).symm
      rw [Function.update_of_ne here]
      split
      · rw [setAt_other notHere, forest.first]
      · exact forest.first p
  · intro p
    by_cases here : p = n
    · subst here
      have chain := forest.chain p
      rw [list] at chain
      rw [Function.update_self, attached.prev, attached.next]
      exact chain.insert nodup
    · rw [Function.update_of_ne here]
      have away {d : ι} (member : d ∈ children p) : d ≠ c ∧ heap.parentNode d ≠ some n := by
        have above := (forest.owner p d).mp member
        refine ⟨?_, fun below => here (Option.some.inj (above.symm.trans below))⟩
        rintro rfl
        exact nowhere p member
      exact (forest.chain p).congr (fun d member => (kept (away member).1 (away member).2).1)
        fun d member => (kept (away member).1 (away member).2).2
  · intro p
    by_cases here : p = n
    · subst here
      rw [Function.update_self]
      exact nodup
    · rw [Function.update_of_ne here]
      exact forest.nodup p
  · intro p d
    rw [attached.parent]
    by_cases new : d = c
    · subst new
      rw [setAt_same]
      by_cases here : p = n
      · subst here
        rw [Function.update_self]
        simp
      · rw [Function.update_of_ne here]
        exact ⟨fun member => absurd member (nowhere p), fun same => absurd (Option.some.inj same).symm here⟩
    · rw [setAt_other fun same => new (Option.some.inj same).symm]
      by_cases here : p = n
      · subst here
        rw [Function.update_self]
        exact parts new
      · rw [Function.update_of_ne here]
        exact forest.owner p d
  · intro d above
    rw [attached.parent] at above
    by_cases new : d = c
    · subst new
      rw [setAt_same] at above
      cases above
    · rw [setAt_other fun same => new (Option.some.inj same).symm] at above
      obtain ⟨prev, next⟩ := kept new (by rw [above]; nofun)
      rw [prev, next]
      exact forest.loose d above
  · rw [attached.parent]
    exact acyclic_attach forest.acyclic apart notAbove

end IsForest

end Pupnp.Ixml
