import Pupnp.Ixml.Forest

/-!
What the four calls make of a forest.
-/

namespace Pupnp.Ixml
open Pupnp.Linked Relation

variable {ι : Type}

structure CallSpec (heap : Heap ι) (fits : Prop) (result : Option (ErrorCode × Heap ι)) : Prop where
  returns : ∃ code next, result = some (code, next)
  failed : ∀ code next, result = some (code, next) → code ≠ .success → next = heap
  keeps : fits → ∀ code next, result = some (code, next) → Forest next

theorem CallSpec.refused {heap : Heap ι} {fits : Prop} (forest : Forest heap) (code : ErrorCode) :
    CallSpec heap fits (some (code, heap)) := by
  refine ⟨⟨code, heap, rfl⟩, ?_, ?_⟩
  · rintro _ _ ⟨⟩ -
    rfl
  · rintro - _ _ ⟨⟩
    exact forest

theorem CallSpec.done {heap : Heap ι} {fits : Prop} {next : Heap ι} (keeps : fits → Forest next) :
    CallSpec heap fits (some (.success, next)) := by
  refine ⟨⟨.success, next, rfl⟩, ?_, ?_⟩
  · rintro _ _ ⟨⟩ failed
    exact absurd rfl failed
  · rintro good _ _ ⟨⟩
    exact keeps good

/-- The links once the new child is taken out of the list of `n`, if it is in there. -/
def takenOut [DecidableEq ι] (heap : Heap ι) (n c : ι) : Heap ι :=
  if isParent heap (some n) (some c) then (removeChild heap (some n) (some c)).2 else heap

/-! ### Searches -/

namespace WellFormed
variable {heap : Heap ι} {children : ι → List ι}

theorem walk_below (formed : WellFormed heap children) {a b : ι}
    (below : ReflTransGen (fun p c => heap.parentNode c = some p) a b) :
    ReflTransGen (Walk heap.firstChild heap.nextSibling) a b := by
  induction below with
  | refl => exact .refl
  | @tail p d _ child ih =>
    have member := (formed.owner p d).mpr child
    have first := formed.first p
    have follows := (formed.chain p).forward
    cases list : children p with
    | nil =>
      rw [list] at member
      cases member
    | cons e rest =>
      rw [list] at member first follows
      have down : ReflTransGen (Walk heap.firstChild heap.nextSibling) p e := .single (.inl first)
      have along : ReflTransGen (Walk heap.firstChild heap.nextSibling) e d :=
        ReflTransGen.mono (fun _ _ link => Or.inr link) e d (follows.reaches member)
      exact ih.trans (down.trans along)

variable [DecidableEq ι]

theorem isAncestor_walk {x : ι} {fuel : Nat} {a b : ι}
    (absent : isAncestor heap x fuel (some a) = some false)
    (walk : ReflTransGen (Walk heap.firstChild heap.nextSibling) a b) : heap.parentNode x ≠ some b := by
  induction walk using ReflTransGen.head_induction_on generalizing fuel with
  | refl =>
    cases fuel with
    | zero => cases absent
    | succ fuel =>
      intro here
      rw [isAncestor, if_pos here] at absent
      cases absent
  | @head a d step _ ih =>
    cases fuel with
    | zero => cases absent
    | succ fuel =>
      rw [isAncestor] at absent
      split at absent
      · cases absent
      · obtain ⟨found, below, later⟩ := Option.bind_eq_some_iff.mp absent
        cases found with
        | true => cases later
        | false =>
          rcases step with child | sibling
          · rw [child] at below
            exact ih below
          · rw [sibling] at later
            exact ih later

theorem isAncestor_false (formed : WellFormed heap children) {x : ι} {fuel : Nat} {a : ι}
    (absent : isAncestor heap x fuel (some a) = some false) : ¬Ancestor heap.parentNode a x := by
  intro above
  obtain ⟨p, front, last⟩ := TransGen.tail'_iff.mp above
  exact isAncestor_walk absent (formed.walk_below front) last

theorem isAncestor_returns [Fintype ι] (formed : WellFormed heap children) (x : ι) {fuel : Nat}
    (enough : Fintype.card ι ≤ fuel) (a : ι) : ∃ found, isAncestor heap x fuel (some a) = some found := by
  obtain ⟨height, lower, bounded⟩ := exists_height formed.walk_acyclic
  have returns {fuel : Nat} (node : Option ι) (low : ∀ a, node = some a → height a < fuel) :
      ∃ found, isAncestor heap x fuel node = some found := by
    induction fuel generalizing node with
    | zero =>
      cases node with
      | none => exact ⟨false, rfl⟩
      | some a => exact absurd (low a rfl) (Nat.not_lt_zero _)
    | succ fuel ih =>
      cases node with
      | none => exact ⟨false, rfl⟩
      | some a =>
        have size := low a rfl
        rw [isAncestor]
        split
        · exact ⟨true, rfl⟩
        · obtain ⟨below, searched⟩ := ih (heap.firstChild a) fun b child => by
            have less := lower a b (.inl child)
            omega
          rw [searched]
          cases below with
          | true => exact ⟨true, rfl⟩
          | false =>
            exact ih (heap.nextSibling a) fun b sibling => by
              have less := lower a b (.inr sibling)
              omega
  exact returns (some a) fun b same => by
    obtain rfl := Option.some.inj same
    exact (bounded a).trans_le enough

end WellFormed

namespace IsForest
variable {heap : Heap ι} {children : ι → List ι} {n c : ι}

theorem lastSibling_follows {fuel : Nat} {c : ι} {rest : List ι}
    (follows : Follows heap.nextSibling (c :: rest)) (enough : (c :: rest).length ≤ fuel) :
    lastSibling heap fuel c = (c :: rest).getLast? := by
  induction rest generalizing c fuel with
  | nil =>
    cases fuel with
    | zero => cases enough
    | succ fuel =>
      rw [lastSibling, follows.1]
      rfl
  | cons d rest ih =>
    cases fuel with
    | zero => cases enough
    | succ fuel =>
      rw [lastSibling, follows.1, List.getLast?_cons_cons]
      exact ih follows.2 (Nat.le_of_succ_le_succ enough)

theorem lastSibling_returns [Fintype ι] (forest : IsForest heap children) {fuel : Nat}
    (enough : Fintype.card ι ≤ fuel) {heap' : Heap ι} (next : heap'.nextSibling = heap.nextSibling) {e : ι}
    (first : heap.firstChild n = some e) :
    ∃ last, lastSibling heap' fuel e = some last ∧ (children n).getLast? = some last := by
  rw [forest.first] at first
  obtain ⟨rest, list⟩ := List.head?_eq_some_iff.mp first
  have follows := (forest.chain n).forward
  have size := (forest.nodup n).length_le_card
  rw [list, ← next] at follows
  rw [list] at size ⊢
  have behind := List.getLast?_eq_some_getLast (List.cons_ne_nil e rest)
  exact ⟨_, (lastSibling_follows follows (size.trans enough)).trans behind, behind⟩

variable [DecidableEq ι]

/-! ### The forest without the new child -/

theorem takenOut_child (forest : IsForest heap children) (child : heap.parentNode c = some n) :
    ∃ before after, children n = before ++ c :: after ∧ Detached heap (takenOut heap n c) n c before after := by
  have here : isParent heap (some n) (some c) = true := decide_eq_true child
  obtain ⟨before, after, list⟩ := List.append_of_mem ((forest.owner n c).mpr child)
  have detached := (forest.removeChild_detached list).2
  refine ⟨before, after, list, ?_⟩
  rwa [takenOut, if_pos here]

theorem takenOut_other (elsewhere : heap.parentNode c ≠ some n) : takenOut heap n c = heap := by
  have outside : isParent heap (some n) (some c) = false := decide_eq_false elsewhere
  rw [takenOut, if_neg (by rw [outside]; exact Bool.false_ne_true)]

theorem takenOut_forest (forest : IsForest heap children) : ∃ children', IsForest (takenOut heap n c) children' := by
  by_cases child : heap.parentNode c = some n
  · obtain ⟨before, after, list, detached⟩ := forest.takenOut_child child
    exact ⟨_, forest.detach list detached⟩
  · rw [takenOut_other child]
    exact ⟨children, forest⟩

theorem takenOut_parent (forest : IsForest heap children) {r : ι} (other : r ≠ c) :
    (takenOut heap n c).parentNode r = heap.parentNode r := by
  by_cases child : heap.parentNode c = some n
  · obtain ⟨before, after, -, detached⟩ := forest.takenOut_child child
    rw [detached.parent, setAt_other fun same => other (Option.some.inj same).symm]
  · rw [takenOut_other child]

theorem takenOut_loose (forest : IsForest heap children)
    (fits : heap.parentNode c = none ∨ heap.parentNode c = some n) : (takenOut heap n c).parentNode c = none := by
  by_cases child : heap.parentNode c = some n
  · obtain ⟨before, after, -, detached⟩ := forest.takenOut_child child
    rw [detached.parent, setAt_same]
  · rw [takenOut_other child]
    exact fits.resolve_right child

theorem takenOut_notAbove (forest : IsForest heap children)
    (fits : heap.parentNode c = none ∨ heap.parentNode c = some n) (notAbove : ¬Ancestor heap.parentNode c n) :
    ¬Ancestor (takenOut heap n c).parentNode c n := by
  intro above
  refine notAbove (TransGen.mono (fun p d link => ?_) c n above)
  change (takenOut heap n c).parentNode d = some p at link
  by_cases out : d = c
  · rw [out, forest.takenOut_loose fits] at link
    cases link
  · exact (forest.takenOut_parent out).symm.trans link

theorem cleared (forest : IsForest heap children)
    (fits : heap.parentNode c = none ∨ heap.parentNode c = some n) :
    (if isParent heap (some n) (some c) then
      ((removeChild heap (some n) (some c)).2.setNext (some c) none).setPrev (some c) none
    else heap) = takenOut heap n c := by
  unfold takenOut
  by_cases child : isParent heap (some n) (some c) = true
  · obtain ⟨children', without⟩ := @forest.takenOut_forest _ _ _ n c _
    obtain ⟨noPrev, noNext⟩ := without.loose c (forest.takenOut_loose fits)
    rw [takenOut, if_pos child] at noPrev noNext
    rw [if_pos child, if_pos child]
    simp only [Heap.setNext, Heap.setPrev, setAt_idle noPrev, setAt_idle noNext]
  · rw [if_neg child, if_neg child]

/-! ### New links -/

theorem linkBefore_parent (heap : Heap ι) (nodeptr newChild refChild : Option ι) (c r : ι) :
    (linkBefore heap nodeptr newChild refChild c r).parentNode = setAt newChild nodeptr heap.parentNode := by
  unfold linkBefore
  dsimp only
  split_ifs <;> rfl

/-- A node that is put in front of itself is linked to itself, and taken out again by `ixmlNode_removeChild`. -/
theorem linkBefore_self (forest : IsForest heap children) (loose : heap.parentNode c = none) :
    removeChild (linkBefore heap (some n) (some c) (some c) c c) (some n) (some c) = (.success, heap) := by
  obtain ⟨noPrev, noNext⟩ := forest.loose c loose
  have notFirst : heap.firstChild n ≠ some c := by
    intro first
    rw [forest.first_parent first] at loose
    cases loose
  simp [linkBefore, removeChild, isParent, Heap.setNext, Heap.setPrev, Heap.setParent, noPrev, notFirst,
    setAt_same, setAt_idle loose, setAt_idle noPrev, setAt_idle noNext]

theorem linkBefore_attached (forest : IsForest heap children) {r : ι} {before after : List ι}
    (list : children n = before ++ r :: after) (loose : heap.parentNode c = none) :
    Attached heap (linkBefore heap (some n) (some c) (some r) c r) n c before (r :: after) := by
  have chain := forest.chain n
  rw [list] at chain
  have prev : heap.prevSibling r = before.getLast? := chain.at.1
  have apart : c ≠ r := by
    rintro rfl
    have child := (forest.owner n c).mp (by simp [list])
    rw [loose] at child
    cases child
  have notR : some r ≠ some c := fun same => apart (Option.some.inj same).symm
  have notC : some c ≠ some r := fun same => apart (Option.some.inj same)
  obtain ⟨noPrev, noNext⟩ := forest.loose c loose
  cases front : before.getLast? with
  | none =>
    have empty := List.getLast?_eq_none_iff.mp front
    rw [front] at prev
    have last : setAt (some r) (some c) heap.prevSibling c = none := by rw [setAt_other notR, noPrev]
    simp only [linkBefore, Heap.setNext, Heap.setPrev, Heap.setFirst, Heap.setParent, prev, last, ne_eq,
      not_true_eq_false, if_false, if_true]
    refine ⟨rfl, by rw [if_pos empty], ?_, ?_⟩
    · rw [front]
      exact (setAt_idle last).symm
    · rw [front, setAt_none]
      rfl
  | some p =>
    have more : before ≠ [] := by
      rintro rfl
      cases front
    have other : p ≠ c := by
      rintro rfl
      have child := (forest.owner n p).mp (by simp [list, List.mem_of_getLast? front])
      rw [loose] at child
      cases child
    rw [front] at prev
    have last : setAt (some r) (some c) (setAt (some c) (some p) heap.prevSibling) c = some p := by
      rw [setAt_other notR, setAt_same]
    simp only [linkBefore, Heap.setNext, Heap.setPrev, Heap.setFirst, Heap.setParent, prev, last, ne_eq,
      reduceCtorEq, not_false_eq_true, if_true, if_false]
    refine ⟨rfl, by rw [if_neg more], ?_, ?_⟩
    · rw [front]
      exact setAt_comm (fun d same => by rw [← Option.some.inj same]; exact notC) _ _ _
    · rw [front]
      refine setAt_comm (fun d same => ?_) _ _ _
      rw [← Option.some.inj same]
      exact fun here => other (Option.some.inj here).symm

theorem linkLast_returns [Fintype ι] (forest : IsForest heap children) {fuel : Nat}
    (enough : Fintype.card ι ≤ fuel) {heap' : Heap ι} (first : heap'.firstChild = heap.firstChild)
    (next : heap'.nextSibling = heap.nextSibling) :
    ∃ final, linkLast fuel heap' (some n) (some c) n = some final := by
  unfold linkLast
  rw [first]
  cases head : heap.firstChild n with
  | none => exact ⟨_, rfl⟩
  | some e =>
    obtain ⟨last, found, -⟩ := forest.lastSibling_returns enough next head
    exact ⟨_, by simp only [found, Option.map_some]; rfl⟩

theorem linkLast_attached [Fintype ι] (forest : IsForest heap children) {fuel : Nat}
    (enough : Fintype.card ι ≤ fuel) (loose : heap.parentNode c = none) {heap' final : Heap ι}
    (parent : heap'.parentNode = setAt (some c) (some n) heap.parentNode)
    (first : heap'.firstChild = heap.firstChild) (prev : heap'.prevSibling = heap.prevSibling)
    (next : heap'.nextSibling = heap.nextSibling)
    (linked : linkLast fuel heap' (some n) (some c) n = some final) : Attached heap final n c (children n) [] := by
  obtain ⟨noPrev, noNext⟩ := forest.loose c loose
  have list := forest.first n
  unfold linkLast at linked
  rw [first] at linked
  cases head : heap.firstChild n with
  | none =>
    have empty : children n = [] := List.head?_eq_none_iff.mp (list.symm.trans head)
    rw [head] at linked
    obtain rfl := Option.some.inj linked
    rw [empty]
    refine ⟨parent, ?_, ?_, ?_⟩
    · simp only [Heap.setFirst, first, if_true]
    · simp only [Heap.setFirst, List.getLast?_nil, List.head?_nil, setAt_none, setAt_idle noPrev, prev]
    · simp only [Heap.setFirst, List.getLast?_nil, List.head?_nil, setAt_none, setAt_idle noNext, next]
  | some e =>
    obtain ⟨last, found, behind⟩ := forest.lastSibling_returns enough next head
    rw [head] at linked
    simp only [found, Option.map_some] at linked
    obtain rfl := Option.some.inj linked
    have more : children n ≠ [] := by
      intro empty
      rw [empty] at behind
      cases behind
    have other : some last ≠ some c := by
      intro same
      have child := (forest.owner n last).mp (List.mem_of_getLast? behind)
      rw [Option.some.inj same, loose] at child
      cases child
    have idle : setAt (some last) (some c) heap.nextSibling c = none := by
      rw [setAt_other other, noNext]
    refine ⟨parent, ?_, ?_, ?_⟩
    · rw [if_neg more]
      exact first
    · simp only [Heap.setNext, Heap.setPrev, prev, List.head?_nil, setAt_none, behind]
    · rw [List.head?_nil, behind, setAt_idle idle]
      simp only [Heap.setNext, Heap.setPrev, next]

end IsForest

/-! ### The calls -/

section Calls
variable [DecidableEq ι] {heap : Heap ι}

/-- The checks that all calls share let `c` become a child of `n`. -/
def Accepted (fuel : Nat) (heap : Heap ι) (n c : ι) : Prop :=
  isAncestor heap n fuel (some c) = some false ∧ allowChildren (heap.nodeType n) (heap.nodeType c) = true

/-- A node that is not `n` itself and in no list or in that of `n`. -/
def Movable (heap : Heap ι) (n c : ι) : Prop :=
  c ≠ n ∧ (heap.parentNode c = none ∨ heap.parentNode c = some n)

/-- Calls that leave the new child attached where it can be: nothing stays linked to it that another list
holds, and it does not become its own parent or sibling. -/
def Call.Fits (fuel : Nat) (heap : Heap ι) : Call ι → Prop
  | .appendChild (some n) (some c) =>
      Accepted fuel heap n c → (heap.ownerDocument c = none ∨ heap.ownerDocument n = heap.ownerDocument c) →
        Movable heap n c
  | .insertBefore (some n) (some c) (some r) =>
      Accepted fuel heap n c → heap.ownerDocument n = heap.ownerDocument c → heap.parentNode r = some n →
        Movable heap n c ∧ c ≠ r
  | .replaceChild (some n) (some c) (some old) =>
      Accepted fuel heap n c → heap.ownerDocument n = heap.ownerDocument c → heap.parentNode old = some n →
        Movable heap n c
  | _ => True

instance decidableAccepted (fuel : Nat) (heap : Heap ι) (n c : ι) : Decidable (Accepted fuel heap n c) :=
  inferInstanceAs (Decidable (_ ∧ _))

instance decidableMovable (heap : Heap ι) (n c : ι) : Decidable (Movable heap n c) :=
  inferInstanceAs (Decidable (_ ∧ _))

instance Call.decidableFits (fuel : Nat) (heap : Heap ι) : ∀ call : Call ι, Decidable (call.Fits fuel heap)
  | .appendChild (some n) (some c) => inferInstanceAs (Decidable (Accepted fuel heap n c →
      (heap.ownerDocument c = none ∨ heap.ownerDocument n = heap.ownerDocument c) → Movable heap n c))
  | .insertBefore (some n) (some c) (some r) => inferInstanceAs (Decidable (Accepted fuel heap n c →
      heap.ownerDocument n = heap.ownerDocument c → heap.parentNode r = some n → Movable heap n c ∧ c ≠ r))
  | .replaceChild (some n) (some c) (some old) => inferInstanceAs (Decidable (Accepted fuel heap n c →
      heap.ownerDocument n = heap.ownerDocument c → heap.parentNode old = some n → Movable heap n c))
  | .appendChild none _ | .appendChild (some _) none => isTrue trivial
  | .insertBefore none _ _ | .insertBefore (some _) none _ | .insertBefore (some _) (some _) none =>
      isTrue trivial
  | .replaceChild none _ _ | .replaceChild (some _) none _ | .replaceChild (some _) (some _) none =>
      isTrue trivial
  | .removeChild _ _ => isTrue trivial

variable {fuel : Nat}

/-- The links that `ixmlNode_insertBefore` starts from once it has passed its checks. -/
def cleared (heap : Heap ι) (n c : ι) : Heap ι :=
  if isParent heap (some n) (some c) then
    ((removeChild heap (some n) (some c)).2.setNext (some c) none).setPrev (some c) none
  else heap

theorem insertBefore_accepted {n c r : ι} (accepted : Accepted fuel heap n c)
    (sameDocument : heap.ownerDocument n = heap.ownerDocument c) (below : heap.parentNode r = some n) :
    insertBefore fuel heap (some n) (some c) (some r) =
      some (.success, linkBefore (cleared heap n c) (some n) (some c) (some r) c r) := by
  have child : isParent heap (some n) (some r) = true := decide_eq_true below
  rw [insertBefore.eq_def]
  simp only [accepted.1, accepted.2, sameDocument, child, Option.bind_some, Bool.not_true, Bool.false_eq_true,
    if_false, ne_eq, not_true_eq_false]
  rfl

theorem removeChild_success {n c : ι} (child : heap.parentNode c = some n) :
    removeChild heap (some n) (some c) = (.success, (removeChild heap (some n) (some c)).2) := by
  simp [removeChild, isParent, child]

theorem linkBefore_keeps {children : ι → List ι} (forest : IsForest heap children) {n c old : ι}
    (below : heap.parentNode old = some n) :
    (linkBefore (cleared heap n c) (some n) (some c) (some old) c old).parentNode old = some n := by
  have parents : (cleared heap n c).parentNode = (takenOut heap n c).parentNode := by
    unfold cleared takenOut
    split <;> rfl
  rw [IsForest.linkBefore_parent, parents]
  by_cases same : c = old
  · rw [same, setAt_same]
  · rw [setAt_other fun here => same (Option.some.inj here), forest.takenOut_parent (Ne.symm same), below]

theorem removeChild_spec (forest : Forest heap) {fits : Prop} (nodeptr oldChild : Option ι) :
    CallSpec heap fits (some (removeChild heap nodeptr oldChild)) := by
  cases nodeptr with
  | none => exact .refused forest _
  | some n =>
    cases oldChild with
    | none => exact .refused forest _
    | some c =>
      obtain ⟨children, isForest⟩ := forest
      by_cases child : heap.parentNode c = some n
      · obtain ⟨before, after, list⟩ := List.append_of_mem ((isForest.owner n c).mpr child)
        obtain ⟨success, detached⟩ := isForest.removeChild_detached list
        have shape : removeChild heap (some n) (some c) =
            (.success, (removeChild heap (some n) (some c)).2) := by rw [← success]
        rw [shape]
        exact .done fun _ => ⟨_, isForest.detach list detached⟩
      · have failed : removeChild heap (some n) (some c) = (.notFoundErr, heap) := by
          simp [removeChild, isParent, child]
        rw [failed]
        exact .refused ⟨children, isForest⟩ _

variable [Fintype ι]

theorem appendChild_spec (forest : Forest heap) (enough : Fintype.card ι ≤ fuel) (nodeptr newChild : Option ι) :
    CallSpec heap ((Call.appendChild nodeptr newChild).Fits fuel heap)
      (appendChild fuel heap nodeptr newChild) := by
  cases nodeptr with
  | none => exact .refused forest _
  | some n =>
    cases newChild with
    | none => exact .refused forest _
    | some c =>
      rw [appendChild]
      split
      · exact .refused forest _
      next sameDocument =>
        obtain ⟨children, isForest⟩ := forest
        obtain ⟨above, searched⟩ := isForest.wellFormed.isAncestor_returns n enough c
        rw [searched, Option.bind_some]
        cases above with
        | true => exact .refused ⟨children, isForest⟩ _
        | false =>
          rw [if_neg Bool.false_ne_true]
          split
          · exact .refused ⟨children, isForest⟩ _
          next allowed =>
            obtain ⟨children', without⟩ := @isForest.takenOut_forest _ _ _ n c _
            set heap' := ((takenOut heap n c).setParent (some c) (some n)).setOwner (some c)
              (((takenOut heap n c).setParent (some c) (some n)).ownerDocument n) with heap'_eq
            have parent : heap'.parentNode = setAt (some c) (some n) (takenOut heap n c).parentNode := rfl
            obtain ⟨final, linked⟩ := @without.linkLast_returns _ _ _ n c _ _ _ enough heap' rfl rfl
            change CallSpec heap _ ((linkLast fuel heap' (some n) (some c) n).map (ErrorCode.success, ·))
            rw [linked, Option.map_some]
            refine .done fun fits => ?_
            have owners : heap.ownerDocument c = none ∨ heap.ownerDocument n = heap.ownerDocument c := by
              by_contra other
              rw [not_or] at other
              exact sameDocument (by simp [other.1, other.2])
            obtain ⟨apart, place⟩ := fits ⟨searched, by simpa using allowed⟩ owners
            have loose := isForest.takenOut_loose place
            have attached := without.linkLast_attached enough loose parent rfl rfl rfl linked
            exact ⟨_, without.attach (List.append_nil _).symm attached apart loose
              (isForest.takenOut_notAbove place (isForest.wellFormed.isAncestor_false searched))⟩

theorem insertBefore_spec (forest : Forest heap) (enough : Fintype.card ι ≤ fuel)
    (nodeptr newChild refChild : Option ι) :
    CallSpec heap ((Call.insertBefore nodeptr newChild refChild).Fits fuel heap)
      (insertBefore fuel heap nodeptr newChild refChild) := by
  cases nodeptr with
  | none => exact .refused forest _
  | some n =>
    cases newChild with
    | none => exact .refused forest _
    | some c =>
      rw [insertBefore.eq_def]
      dsimp only
      split
      · exact .refused forest _
      next allowed =>
        obtain ⟨children, isForest⟩ := forest
        obtain ⟨above, searched⟩ := isForest.wellFormed.isAncestor_returns n enough c
        rw [searched, Option.bind_some]
        cases above with
        | true => exact .refused ⟨children, isForest⟩ _
        | false =>
          rw [if_neg Bool.false_ne_true]
          split
          · exact .refused ⟨children, isForest⟩ _
          next sameDocument =>
            cases refChild with
            | none => exact .refused ⟨children, isForest⟩ _
            | some r =>
              split
              · exact .refused ⟨children, isForest⟩ _
              next child =>
                refine .done fun fits => ?_
                have below : heap.parentNode r = some n := by simpa [isParent] using child
                obtain ⟨⟨apart, place⟩, other⟩ :=
                  fits ⟨searched, by simpa using allowed⟩ (not_not.mp sameDocument) below
                rw [isForest.cleared place]
                obtain ⟨children', without⟩ := @isForest.takenOut_forest _ _ _ n c _
                have loose := isForest.takenOut_loose place
                have still := (@isForest.takenOut_parent _ _ _ n c _ r fun same => other same.symm).trans below
                obtain ⟨before, after, list⟩ := List.append_of_mem ((without.owner n r).mpr still)
                exact ⟨_, without.attach list (without.linkBefore_attached list loose) apart loose
                  (isForest.takenOut_notAbove place (isForest.wellFormed.isAncestor_false searched))⟩

theorem replaceChild_spec (forest : Forest heap) (enough : Fintype.card ι ≤ fuel)
    (nodeptr newChild oldChild : Option ι) :
    CallSpec heap ((Call.replaceChild nodeptr newChild oldChild).Fits fuel heap)
      (replaceChild fuel heap nodeptr newChild oldChild) := by
  cases nodeptr with
  | none => exact .refused forest _
  | some n =>
    cases newChild with
    | none => exact .refused forest _
    | some c =>
      cases oldChild with
      | none => exact .refused forest _
      | some old =>
        obtain ⟨children, isForest⟩ := forest
        obtain ⟨above, searched⟩ := isForest.wellFormed.isAncestor_returns n enough c
        rw [replaceChild, searched, Option.bind_some]
        cases above with
        | true => exact .refused ⟨children, isForest⟩ _
        | false =>
          rw [if_neg Bool.false_ne_true]
          split
          · exact .refused ⟨children, isForest⟩ _
          next allowed =>
            split
            · exact .refused ⟨children, isForest⟩ _
            next sameDocument =>
              split
              · exact .refused ⟨children, isForest⟩ _
              next child =>
                have below : heap.parentNode old = some n := by simpa [isParent] using child
                have allowed' : allowChildren (heap.nodeType n) (heap.nodeType c) = true := by
                  simpa using allowed
                rw [insertBefore_accepted ⟨searched, allowed'⟩ (not_not.mp sameDocument) below,
                  Option.map_some, if_neg (not_not.mpr rfl),
                  removeChild_success (linkBefore_keeps isForest below)]
                refine .done fun fits => ?_
                obtain ⟨apart, place⟩ := fits ⟨searched, allowed'⟩ (not_not.mp sameDocument) below
                obtain ⟨children', without⟩ := @isForest.takenOut_forest _ _ _ n c _
                have loose := isForest.takenOut_loose place
                rw [cleared, isForest.cleared place]
                by_cases same : c = old
                · subst same
                  rw [without.linkBefore_self loose]
                  exact ⟨_, without⟩
                · have still := (@isForest.takenOut_parent _ _ _ n c _ old (Ne.symm same)).trans below
                  obtain ⟨before, after, list⟩ := List.append_of_mem ((without.owner n old).mpr still)
                  have inserted := without.attach list (without.linkBefore_attached list loose) apart loose
                    (isForest.takenOut_notAbove place (isForest.wellFormed.isAncestor_false searched))
                  exact (removeChild_spec ⟨_, inserted⟩ (some n) (some old)).keeps trivial _ _ rfl

theorem Call.spec (forest : Forest heap) (enough : Fintype.card ι ≤ fuel) (call : Call ι) :
    CallSpec heap (call.Fits fuel heap) (call.apply fuel heap) := by
  cases call with
  | appendChild nodeptr newChild => exact appendChild_spec forest enough nodeptr newChild
  | insertBefore nodeptr newChild refChild => exact insertBefore_spec forest enough nodeptr newChild refChild
  | replaceChild nodeptr newChild oldChild => exact replaceChild_spec forest enough nodeptr newChild oldChild
  | removeChild nodeptr oldChild => exact removeChild_spec forest nodeptr oldChild

def step (fuel : Nat) (call : Call ι) (heap : Heap ι) : Option (Heap ι) := (call.apply fuel heap).map (·.2)

theorem run_forest (enough : Fintype.card ι ≤ fuel) {calls : List (Call ι)} {start : Heap ι} (forest : Forest start)
    (fits : Run.Along (step fuel) (fun call heap => call.Fits fuel heap) calls start) :
    ∃ heap, Run.run (step fuel) calls start = some heap ∧ Forest heap := by
  induction calls generalizing start with
  | nil => exact ⟨start, rfl, forest⟩
  | cons call calls ih =>
      have spec := call.spec forest enough
      obtain ⟨code, next, returns⟩ := spec.returns
      have stepped : step fuel call start = some next := by rw [step, returns]; rfl
      obtain ⟨fit, later⟩ := fits
      obtain ⟨heap, ran, kept⟩ := ih (spec.keeps fit code next returns) (later next stepped)
      exact ⟨heap, by rw [Run.run, stepped, Option.bind_some, ran], kept⟩

/-- From new nodes on, calls that fit leave a forest, and in a forest every call returns and leaves the
links alone when it gives an error. -/
theorem calls_forest (enough : Fintype.card ι ≤ fuel) {calls : List (Call ι)} {start : Heap ι}
    (fresh : Fresh start) (fits : Run.Along (step fuel) (fun call heap => call.Fits fuel heap) calls start) :
    ∃ heap, Run.run (step fuel) calls start = some heap ∧ Forest heap ∧
      ∀ call : Call ι, ∃ code next, call.apply fuel heap = some (code, next) ∧
        (code ≠ .success → next = heap) := by
  obtain ⟨heap, ran, forest⟩ := run_forest enough fresh.forest fits
  refine ⟨heap, ran, forest, fun call => ?_⟩
  have spec := call.spec forest enough
  obtain ⟨code, next, returns⟩ := spec.returns
  exact ⟨code, next, returns, spec.failed code next returns⟩

end Calls

def newElements (k : Nat) (document : Fin k) : Heap (Fin k) where
  nodeType _ := .element
  parentNode _ := none
  firstChild _ := none
  prevSibling _ := none
  nextSibling _ := none
  ownerDocument _ := some document

theorem newElements_fresh (k : Nat) (document : Fin k) : Fresh (newElements k document) :=
  ⟨fun _ => rfl, fun _ => rfl, fun _ => ⟨rfl, rfl⟩⟩

/-- Two children, the second moved to the front. -/
theorem calls_forest_moved :
    ∃ heap, Run.run (step 3) [.appendChild (some 0) (some 1), .appendChild (some 0) (some 2),
      .insertBefore (some 0) (some 2) (some 1)] (newElements 3 0) = some heap ∧ Forest heap := by
  have fits : Run.Along (step 3) (fun call heap => call.Fits 3 heap)
      [.appendChild (some 0) (some 1), .appendChild (some 0) (some 2),
        .insertBefore (some 0) (some 2) (some 1)] (newElements 3 0) := by decide
  obtain ⟨heap, ran, forest, -⟩ := calls_forest (show Fintype.card (Fin 3) ≤ 3 by decide)
    (newElements_fresh 3 0) fits
  exact ⟨heap, ran, forest⟩

/-- A child that is appended elsewhere stays in the list that it came from. -/
theorem calls_not_forest :
    ¬∀ (k fuel : Nat) (calls : List (Call (Fin k))) (start heap : Heap (Fin k)), k ≤ fuel → Fresh start →
      (∃ document, ∀ c, start.ownerDocument c = some document) →
        Run.run (step fuel) calls start = some heap → Forest heap := by
  intro claim
  have ran : ∃ heap, Run.run (step 3) [.appendChild (some 0) (some 2), .appendChild (some 1) (some 2)]
      (newElements 3 0) = some heap ∧ heap.firstChild 0 = some 2 ∧ heap.parentNode 2 = some 1 :=
    ⟨_, rfl, by decide, by decide⟩
  obtain ⟨heap, ran, first, parent⟩ := ran
  obtain ⟨children, forest⟩ := claim 3 3 _ (newElements 3 0) heap le_rfl (newElements_fresh 3 0)
    ⟨0, fun _ => rfl⟩ ran
  have above := forest.first_parent first
  rw [parent] at above
  cases above

end Pupnp.Ixml
