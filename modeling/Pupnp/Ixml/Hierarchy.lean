import Pupnp.Ixml.Calls

/-!
When the calls refuse a new child for its place in the tree.
-/

namespace Pupnp.Ixml
open Pupnp.Linked Relation

variable {ι : Type}

/-- The calls that ask for `c` as a child of `n`. -/
def Call.Places (n c : ι) : Call ι → Prop
  | .appendChild nodeptr newChild => nodeptr = some n ∧ newChild = some c
  | .insertBefore nodeptr newChild _ => nodeptr = some n ∧ newChild = some c
  | .replaceChild nodeptr newChild oldChild => nodeptr = some n ∧ newChild = some c ∧ oldChild ≠ none
  | .removeChild _ _ => False

/-- The call refuses `c` for its place just when `n` takes no children of its type or `c` is `n` or a node
above it. -/
def RefusesAbove [DecidableEq ι] (fuel : Nat) (heap : Heap ι) (call : Call ι) (n c : ι) : Prop :=
  ∃ code next, call.apply fuel heap = some (code, next) ∧
    (code = .hierarchyRequestErr ↔
      allowChildren (heap.nodeType n) (heap.nodeType c) = false ∨ c = n ∨ Ancestor heap.parentNode c n)

/-- A node at or behind `c` in its list stands above `n`. -/
def AboveBehind (heap : Heap ι) (c n : ι) : Prop :=
  ∃ d, ReflTransGen (Link heap.nextSibling) c d ∧ Ancestor heap.parentNode d n

/-! ### The search -/

namespace WellFormed
variable {heap : Heap ι} {children : ι → List ι}

theorem walk_beside (formed : WellFormed heap children) {a d b : ι}
    (beside : ReflTransGen (Link heap.nextSibling) a d)
    (below : ReflTransGen (fun p c => heap.parentNode c = some p) d b) :
    ReflTransGen (Walk heap.firstChild heap.nextSibling) a b := by
  have along : ReflTransGen (Walk heap.firstChild heap.nextSibling) a d :=
    ReflTransGen.mono (fun _ _ link => Or.inr link) a d beside
  exact along.trans (formed.walk_below below)

/-- A node above `n` is at or behind `c` just when the walk from `c` comes to the parent of `n`. -/
theorem aboveBehind_iff_walk (formed : WellFormed heap children) (c n : ι) :
    AboveBehind heap c n ↔
      ∃ p, ReflTransGen (Walk heap.firstChild heap.nextSibling) c p ∧ heap.parentNode n = some p := by
  constructor
  · rintro ⟨d, beside, above⟩
    obtain ⟨p, below, last⟩ := TransGen.tail'_iff.mp above
    exact ⟨p, formed.walk_beside beside below, last⟩
  · rintro ⟨p, walk, last⟩
    rcases reflTransGen_iff_eq_or_transGen.mp walk with same | walk
    · rw [same] at last
      exact ⟨c, .refl, .single last⟩
    · obtain ⟨d, ⟨beside, below⟩ | ⟨beside, below⟩⟩ :=
        walk_shape (fun _ _ => formed.first_parent) formed.beside walk
      · exact ⟨d, beside.to_reflTransGen, TransGen.tail' below last⟩
      · exact ⟨d, beside, below.tail last⟩

theorem beside_parent (formed : WellFormed heap children) {c d : ι}
    (beside : ReflTransGen (Link heap.nextSibling) c d) : heap.parentNode d = heap.parentNode c := by
  induction beside with
  | refl => rfl
  | tail _ link ih => exact (formed.beside _ _ link).trans ih

theorem not_aboveBehind_self (formed : WellFormed heap children) (n : ι) : ¬AboveBehind heap n n := by
  rintro ⟨d, beside, above⟩
  obtain ⟨p, below, last⟩ := TransGen.tail'_iff.mp above
  have same : heap.parentNode d = some p := (formed.beside_parent beside).trans last
  exact formed.acyclic p (TransGen.head' same below)

theorem prev_next (formed : WellFormed heap children) {n c a : ι} (child : heap.parentNode c = some n)
    (prev : heap.prevSibling c = some a) : heap.nextSibling a = some c := by
  obtain ⟨before, after, list⟩ := List.append_of_mem ((formed.owner n c).mpr child)
  have chain := formed.chain n
  rw [list] at chain
  have last : before.getLast? = some a := chain.at.1.symm.trans prev
  obtain ⟨front, rfl⟩ := List.getLast?_eq_some_iff.mp last
  have shape : front ++ [a] ++ c :: after = front ++ a :: c :: after := by simp
  rw [shape] at chain
  exact chain.at.2

variable [DecidableEq ι]

theorem isAncestor_true {n : ι} {fuel : Nat} {node : Option ι} (found : isAncestor heap n fuel node = some true) :
    ∃ c p, node = some c ∧ ReflTransGen (Walk heap.firstChild heap.nextSibling) c p ∧
      heap.parentNode n = some p := by
  induction fuel generalizing node with
  | zero =>
    cases node with
    | none => cases found
    | some c => cases found
  | succ fuel ih =>
    cases node with
    | none => cases found
    | some c =>
      rw [isAncestor] at found
      by_cases here : heap.parentNode n = some c
      · exact ⟨c, c, rfl, .refl, here⟩
      · rw [if_neg here] at found
        obtain ⟨below, searched, rest⟩ := Option.bind_eq_some_iff.mp found
        cases below with
        | true =>
          obtain ⟨d, p, child, walk, last⟩ := ih searched
          exact ⟨c, p, rfl, .head (.inl child) walk, last⟩
        | false =>
          obtain ⟨d, p, sibling, walk, last⟩ := ih rest
          exact ⟨c, p, rfl, .head (.inr sibling) walk, last⟩

theorem isAncestor_iff (formed : WellFormed heap children) {n c : ι} {fuel : Nat} {found : Bool}
    (searched : isAncestor heap n fuel (some c) = some found) : (found = true) ↔ AboveBehind heap c n := by
  rw [formed.aboveBehind_iff_walk]
  cases found with
  | true =>
    obtain ⟨d, p, same, walk, last⟩ := isAncestor_true searched
    obtain rfl := Option.some.inj same
    exact ⟨fun _ => ⟨p, walk, last⟩, fun _ => rfl⟩
  | false =>
    constructor
    · intro wrong
      cases wrong
    · rintro ⟨p, walk, last⟩
      exact absurd last (isAncestor_walk searched walk)

end WellFormed

/-! ### The calls -/

theorem lastSibling_acyclic [Fintype ι] {heap : Heap ι} (finite : ∀ a, ¬TransGen (Link heap.nextSibling) a a)
    {fuel : Nat} (enough : Fintype.card ι ≤ fuel) (c : ι) : ∃ last, lastSibling heap fuel c = some last := by
  obtain ⟨height, lower, bounded⟩ := exists_height finite
  have returns {fuel : Nat} (c : ι) (low : height c < fuel) : ∃ last, lastSibling heap fuel c = some last := by
    induction fuel generalizing c with
    | zero => exact absurd low (Nat.not_lt_zero _)
    | succ fuel ih =>
      rw [lastSibling]
      cases next : heap.nextSibling c with
      | none => exact ⟨c, rfl⟩
      | some d =>
        have less := lower c d next
        exact ih d (by omega)
  exact returns c ((bounded c).trans_le enough)

variable [DecidableEq ι] {heap : Heap ι} {children : ι → List ι} {fuel : Nat} {n c : ι}

theorem takenOut_next (child : heap.parentNode c = some n) :
    (takenOut heap n c).nextSibling =
      setAt (some c) none (setAt (heap.prevSibling c) (heap.nextSibling c) heap.nextSibling) := by
  have here : isParent heap (some n) (some c) = true := decide_eq_true child
  by_cases first : heap.firstChild n = some c
  · simp only [takenOut, removeChild, here, first, if_true, Bool.not_true, Bool.false_eq_true, if_false,
      Heap.setNext, Heap.setPrev, Heap.setParent, Heap.setFirst]
  · simp only [takenOut, removeChild, here, first, if_true, Bool.not_true, Bool.false_eq_true, if_false,
      Heap.setNext, Heap.setPrev, Heap.setParent]

theorem WellFormed.takenOut_finite (formed : WellFormed heap children) (a : ι) :
    ¬TransGen (Link (takenOut heap n c).nextSibling) a a := by
  by_cases child : heap.parentNode c = some n
  · have step (a b : ι) (link : Link (takenOut heap n c).nextSibling a b) :
        TransGen (Link heap.nextSibling) a b := by
      rw [Link, takenOut_next child] at link
      by_cases out : some c = some a
      · rw [out, setAt_same] at link
        cases link
      · rw [setAt_other out] at link
        by_cases front : heap.prevSibling c = some a
        · rw [front, setAt_same] at link
          exact .head (formed.prev_next child front) (.single link)
        · rw [setAt_other front] at link
          exact .single link
    intro cycle
    exact formed.finite a (cycle.lift' id step)
  · rw [IsForest.takenOut_other child]
    exact formed.finite a

theorem linkLast_acyclic [Fintype ι] (finite : ∀ a, ¬TransGen (Link heap.nextSibling) a a)
    (enough : Fintype.card ι ≤ fuel) (nodeptr newChild : Option ι) (n : ι) :
    ∃ final, linkLast fuel heap nodeptr newChild n = some final := by
  unfold linkLast
  cases heap.firstChild n with
  | none => exact ⟨_, rfl⟩
  | some first =>
    obtain ⟨last, found⟩ := lastSibling_acyclic finite enough first
    exact ⟨_, by simp only [found, Option.map_some]; rfl⟩

def Answers (heap : Heap ι) (n c : ι) (above : Bool) (result : Option (ErrorCode × Heap ι)) : Prop :=
  ∃ code next, result = some (code, next) ∧
    (code = .hierarchyRequestErr ↔ allowChildren (heap.nodeType n) (heap.nodeType c) = false ∨ above = true)

omit [DecidableEq ι] in
theorem answers_refused {above : Bool}
    (refuses : allowChildren (heap.nodeType n) (heap.nodeType c) = false ∨ above = true) :
    Answers heap n c above (some (.hierarchyRequestErr, heap)) :=
  ⟨_, heap, rfl, fun _ => refuses, fun _ => rfl⟩

omit [DecidableEq ι] in
theorem answers_accepted (allowed : allowChildren (heap.nodeType n) (heap.nodeType c) = true)
    {code : ErrorCode} (other : code ≠ .hierarchyRequestErr) (next : Heap ι) :
    Answers heap n c false (some (code, next)) := by
  refine ⟨code, next, rfl, fun same => absurd same other, ?_⟩
  rintro (refused | refused)
  · rw [allowed] at refused
    cases refused
  · cases refused

variable [Fintype ι] {above : Bool}

theorem appendChild_answers (formed : WellFormed heap children) (enough : Fintype.card ι ≤ fuel)
    (owner : heap.ownerDocument n = heap.ownerDocument c) (searched : isAncestor heap n fuel (some c) = some above) :
    Answers heap n c above (appendChild fuel heap (some n) (some c)) := by
  have sameDocument : (heap.ownerDocument c ≠ none && heap.ownerDocument n ≠ heap.ownerDocument c) = false := by
    simp [owner]
  rw [appendChild]
  simp only [sameDocument, searched, Option.bind_some, Bool.false_eq_true, if_false]
  cases above with
  | true => exact answers_refused (.inr rfl)
  | false =>
    rw [if_neg Bool.false_ne_true]
    cases allowed : allowChildren (heap.nodeType n) (heap.nodeType c) with
    | false => exact answers_refused (.inl allowed)
    | true =>
      obtain ⟨final, linked⟩ := @linkLast_acyclic ι _ (((takenOut heap n c).setParent (some c) (some n)).setOwner
        (some c) (((takenOut heap n c).setParent (some c) (some n)).ownerDocument n)) fuel _
        formed.takenOut_finite enough (some n) (some c) n
      unfold takenOut at linked
      change Answers heap n c false ((linkLast fuel _ (some n) (some c) n).map (ErrorCode.success, ·))
      rw [linked, Option.map_some]
      exact answers_accepted allowed (fun same => by cases same) final

omit [Fintype ι] in
theorem insertBefore_answers (owner : heap.ownerDocument n = heap.ownerDocument c)
    (searched : isAncestor heap n fuel (some c) = some above) (refChild : Option ι) :
    Answers heap n c above (insertBefore fuel heap (some n) (some c) refChild) := by
  rw [insertBefore.eq_def]
  dsimp only
  cases allowed : allowChildren (heap.nodeType n) (heap.nodeType c) with
  | false => exact answers_refused (.inl allowed)
  | true =>
    rw [searched, Option.bind_some, if_neg (by simp)]
    cases above with
    | true => exact answers_refused (.inr rfl)
    | false =>
      rw [if_neg Bool.false_ne_true, if_neg (not_not.mpr owner)]
      cases refChild with
      | none => exact answers_accepted allowed (fun same => by cases same) heap
      | some r =>
        split
        · exact answers_accepted allowed (fun same => by cases same) heap
        · exact answers_accepted allowed (fun same => by cases same) _

omit [Fintype ι] in
theorem replaceChild_answers (owner : heap.ownerDocument n = heap.ownerDocument c)
    (searched : isAncestor heap n fuel (some c) = some above) (old : ι) :
    Answers heap n c above (replaceChild fuel heap (some n) (some c) (some old)) := by
  rw [replaceChild, searched, Option.bind_some]
  cases above with
  | true => exact answers_refused (.inr rfl)
  | false =>
    rw [if_neg Bool.false_ne_true]
    cases allowed : allowChildren (heap.nodeType n) (heap.nodeType c) with
    | false => exact answers_refused (.inl allowed)
    | true =>
      rw [if_neg (by simp), if_neg (not_not.mpr owner)]
      split
      · exact answers_accepted allowed (fun same => by cases same) heap
      next child =>
        have below : heap.parentNode old = some n := by simpa [isParent] using child
        rw [insertBefore_accepted ⟨searched, allowed⟩ owner below, Option.map_some, if_neg (not_not.mpr rfl)]
        have other (heap : Heap ι) : (removeChild heap (some n) (some old)).1 ≠ .hierarchyRequestErr := by
          rw [removeChild]
          split
          · exact fun same => by cases same
          · exact fun same => by cases same
        exact answers_accepted allowed (other _) _

/-- A new child is refused for its place as it should be unless it is the parent itself, or only a node behind
it in its list stands above the parent. -/
theorem refusesAbove_iff (formed : WellFormed heap children) (enough : Fintype.card ι ≤ fuel) {call : Call ι}
    (places : call.Places n c) (owner : heap.ownerDocument n = heap.ownerDocument c) :
    RefusesAbove fuel heap call n c ↔
      allowChildren (heap.nodeType n) (heap.nodeType c) = false ∨
        (c ≠ n ∧ (AboveBehind heap c n → Ancestor heap.parentNode c n)) := by
  obtain ⟨above, searched⟩ := formed.isAncestor_returns n enough c
  have decided := formed.isAncestor_iff searched
  have answers : Answers heap n c above (call.apply fuel heap) := by
    cases call with
    | appendChild nodeptr newChild =>
        obtain ⟨rfl, rfl⟩ := places
        exact appendChild_answers formed enough owner searched
    | insertBefore nodeptr newChild refChild =>
        obtain ⟨rfl, rfl⟩ := places
        exact insertBefore_answers owner searched refChild
    | replaceChild nodeptr newChild oldChild =>
        obtain ⟨rfl, rfl, given⟩ := places
        obtain ⟨old, rfl⟩ := Option.ne_none_iff_exists'.mp given
        exact replaceChild_answers owner searched old
    | removeChild nodeptr oldChild => cases places
  obtain ⟨code, next, returned, answer⟩ := answers
  rw [decided] at answer
  have single (code' : ErrorCode) (next' : Heap ι) (same : call.apply fuel heap = some (code', next')) : code' = code := by
    rw [returned] at same
    exact (congrArg Prod.fst (Option.some.inj same)).symm
  have itself : c = n → ¬AboveBehind heap c n := by
    rintro rfl
    exact formed.not_aboveBehind_self c
  have behind : Ancestor heap.parentNode c n → AboveBehind heap c n := fun above => ⟨c, .refl, above⟩
  constructor
  · rintro ⟨code', next', same, right⟩
    rw [single code' next' same, answer] at right
    tauto
  · intro fine
    refine ⟨code, next, returned, ?_⟩
    rw [answer]
    tauto

omit [DecidableEq ι] [Fintype ι] in
theorem Fresh.wellFormed (fresh : Fresh heap) : ∃ children, WellFormed heap children := by
  obtain ⟨children, forest⟩ := fresh.forest
  exact ⟨children, forest.wellFormed⟩

def twoBranches : List (Call (Fin 4)) :=
  [.appendChild (some 0) (some 1), .appendChild (some 0) (some 2), .appendChild (some 2) (some 3)]

/-- The root of a tree is turned down as a child of its grandchild. -/
theorem refusesAbove_grandchild :
    ∃ heap, Run.run (step 4) twoBranches (newElements 4 0) = some heap ∧
      RefusesAbove 4 heap (.appendChild (some 3) (some 0)) 3 0 ∧
      (appendChild 4 heap (some 3) (some 0)).map (·.1) = some .hierarchyRequestErr := by
  have fits : Run.Along (step 4) (fun call heap => call.Fits 4 heap) twoBranches (newElements 4 0) := by decide
  obtain ⟨heap, ran, children, forest⟩ := run_forest (show Fintype.card (Fin 4) ≤ 4 by decide)
    (newElements_fresh 4 0).forest fits
  have read : (Run.run (step 4) twoBranches (newElements 4 0)).bind (fun heap =>
      (appendChild 4 heap (some 3) (some 0)).map fun answer =>
        (heap.parentNode 2, heap.parentNode 3, heap.ownerDocument 3, heap.ownerDocument 0, answer.1)) =
      some (some 0, some 2, some 0, some 0, .hierarchyRequestErr) := by decide
  rw [ran, Option.bind_some] at read
  obtain ⟨answer, called, same⟩ := Option.map_eq_some_iff.mp read
  simp only [Prod.mk.injEq] at same
  obtain ⟨child, grandchild, owner, owner', code⟩ := same
  have above : Ancestor heap.parentNode 0 3 := .head child (.single grandchild)
  have places : (Call.appendChild (some (3 : Fin 4)) (some 0)).Places 3 0 := ⟨rfl, rfl⟩
  refine ⟨heap, ran, ?_, by rw [called, Option.map_some, code]⟩
  exact (refusesAbove_iff forest.wellFormed (show Fintype.card (Fin 4) ≤ 4 by decide) places
    (owner.trans owner'.symm)).mpr (.inr ⟨by decide, fun _ => above⟩)

/-- A node behind the new child holds the parent. -/
example : ((Run.run (step 4) twoBranches (newElements 4 0)).bind fun heap =>
    (appendChild 4 heap (some 3) (some 1)).map (·.1)) = some .hierarchyRequestErr := by decide

/-- A node becomes its own child. -/
theorem appendChild_itself :
    ¬∀ (k fuel : Nat) (heap : Heap (Fin k)) (children : Fin k → List (Fin k)) (call : Call (Fin k)) (n c : Fin k),
      WellFormed heap children → k ≤ fuel → call.Places n c → heap.ownerDocument n = heap.ownerDocument c →
        RefusesAbove fuel heap call n c := by
  intro claim
  obtain ⟨children, formed⟩ := (newElements_fresh 1 0).wellFormed
  obtain ⟨code, next, returned, exact⟩ := claim 1 1 (newElements 1 0) children (.appendChild (some 0) (some 0)) 0 0
    formed le_rfl ⟨rfl, rfl⟩ rfl
  have success : ((appendChild 1 (newElements 1 0) (some 0) (some 0)).map (·.1)) = some .success := by decide
  change appendChild 1 (newElements 1 0) (some 0) (some 0) = some (code, next) at returned
  rw [returned, exact.mpr (.inr (.inl rfl))] at success
  cases success

end Pupnp.Ixml
