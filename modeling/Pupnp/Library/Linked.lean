import Mathlib.Logic.Relation
import Mathlib.Data.Fintype.Card
import Mathlib.Data.List.Nodup

/-!
Lists and trees that are held together by links: one link out of every node is followed
along a list, a parent link leads to the owner, and neither leads back to where it started.
-/

namespace Pupnp.Linked
open Relation

section Lists
variable {ι : Type*}

def Follows (next : ι → Option ι) : List ι → Prop
  | [] => True
  | c :: rest => next c = rest.head? ∧ Follows next rest

theorem Follows.congr {next next' : ι → Option ι} {list : List ι} (follows : Follows next list)
    (same : ∀ c ∈ list, next' c = next c) : Follows next' list := by
  induction list with
  | nil => trivial
  | cons c rest ih =>
    exact ⟨(same c List.mem_cons_self).trans follows.1,
      ih follows.2 fun d member => same d (List.mem_cons_of_mem c member)⟩

theorem Follows.append {next : ι → Option ι} {before after : List ι} (follows : Follows next (before ++ after)) :
    Follows next after := by
  induction before with
  | nil => exact follows
  | cons c rest ih => exact ih follows.2

theorem Follows.at {next : ι → Option ι} {before after : List ι} {c : ι}
    (follows : Follows next (before ++ c :: after)) : next c = after.head? := follows.append.1

theorem Follows.reaches {next : ι → Option ι} {c d : ι} {rest : List ι} (follows : Follows next (c :: rest))
    (member : d ∈ c :: rest) : Relation.ReflTransGen (fun a b => next a = some b) c d := by
  induction rest generalizing c with
  | nil =>
    obtain rfl := List.mem_singleton.mp member
    exact .refl
  | cons e rest ih =>
    rcases List.mem_cons.mp member with rfl | behind
    · exact .refl
    · exact .head follows.1 (ih follows.2 behind)

theorem getLast?_mem {list : List ι} {c : ι} (last : list.getLast? = some c) : c ∈ list :=
  List.mem_of_getLast? last

structure Chain (prev next : ι → Option ι) (list : List ι) : Prop where
  forward : Follows next list
  backward : Follows prev list.reverse

theorem Chain.nil (prev next : ι → Option ι) : Chain prev next [] := ⟨trivial, trivial⟩

theorem Chain.congr {prev next prev' next' : ι → Option ι} {list : List ι} (chain : Chain prev next list)
    (samePrev : ∀ c ∈ list, prev' c = prev c) (sameNext : ∀ c ∈ list, next' c = next c) :
    Chain prev' next' list :=
  ⟨chain.forward.congr sameNext, chain.backward.congr fun c member => samePrev c (List.mem_reverse.mp member)⟩

theorem Chain.at {prev next : ι → Option ι} {before after : List ι} {x : ι}
    (chain : Chain prev next (before ++ x :: after)) :
    prev x = before.getLast? ∧ next x = after.head? := by
  have backward := chain.backward
  rw [List.reverse_append, List.reverse_cons, List.append_assoc, List.singleton_append] at backward
  exact ⟨by simpa using backward.at, chain.forward.at⟩

variable [DecidableEq ι]

def setAt (node : Option ι) (link : Option ι) (links : ι → Option ι) (c : ι) : Option ι :=
  if node = some c then link else links c

@[simp]
theorem setAt_none (link : Option ι) (links : ι → Option ι) : setAt none link links = links := by
  funext c
  simp [setAt]

theorem setAt_same (c : ι) (link : Option ι) (links : ι → Option ι) : setAt (some c) link links c = link := by
  simp [setAt]

theorem setAt_idle {c : ι} {link : Option ι} {links : ι → Option ι} (same : links c = link) :
    setAt (some c) link links = links := by
  funext d
  unfold setAt
  split
  next here => rw [← Option.some.inj here, same]
  next => rfl

@[simp]
theorem setAt_twice (node : Option ι) (link link' : Option ι) (links : ι → Option ι) :
    setAt node link (setAt node link' links) = setAt node link links := by
  funext c
  unfold setAt
  split <;> rfl

theorem setAt_comm {a b : Option ι} (apart : ∀ c, a = some c → b ≠ some c) (link link' : Option ι)
    (links : ι → Option ι) : setAt a link (setAt b link' links) = setAt b link' (setAt a link links) := by
  funext c
  unfold setAt
  by_cases here : a = some c
  · rw [if_pos here, if_neg (apart c here), if_pos here]
  · rw [if_neg here, if_neg here]

theorem setAt_other {node : Option ι} {c : ι} (other : node ≠ some c) (link : Option ι)
    (links : ι → Option ι) : setAt node link links c = links c := if_neg other

theorem Follows.remove {next : ι → Option ι} {before after : List ι} {x : ι}
    (follows : Follows next (before ++ x :: after)) (nodup : (before ++ x :: after).Nodup) :
    Follows (setAt before.getLast? after.head? next) (before ++ after) := by
  induction before with
  | nil =>
    rw [List.getLast?_nil, setAt_none]
    exact follows.2
  | cons c rest ih =>
    obtain ⟨fresh, nodup'⟩ := List.nodup_cons.mp nodup
    cases rest with
    | nil =>
      refine ⟨setAt_same c _ next, follows.2.2.congr fun d member => setAt_other ?_ _ _⟩
      intro same
      obtain rfl : c = d := Option.some.inj same
      exact fresh (List.mem_cons_of_mem x member)
    | cons d rest =>
      have later := ih follows.2 nodup'
      rw [List.getLast?_cons_cons]
      refine ⟨?_, later⟩
      have inside : (d :: rest).getLast? ≠ some c := by
        intro last
        exact fresh (List.mem_append_left _ (getLast?_mem last))
      rw [setAt_other inside]
      exact follows.1

theorem Follows.insert {next : ι → Option ι} {before after : List ι} {x : ι}
    (follows : Follows next (before ++ after)) (nodup : (before ++ x :: after).Nodup) :
    Follows (setAt (some x) after.head? (setAt before.getLast? (some x) next)) (before ++ x :: after) := by
  induction before with
  | nil =>
    have fresh := (List.nodup_cons.mp nodup).1
    rw [List.getLast?_nil, setAt_none]
    refine ⟨setAt_same x _ next, follows.congr fun d member => setAt_other ?_ _ _⟩
    rintro ⟨⟩
    exact fresh member
  | cons c rest ih =>
    obtain ⟨fresh, nodup'⟩ := List.nodup_cons.mp nodup
    have distinct : some x ≠ some c := by
      rintro ⟨⟩
      exact fresh (by simp)
    cases rest with
    | nil =>
      refine ⟨?_, setAt_same x _ _, follows.2.congr fun d member => ?_⟩
      · rw [setAt_other distinct]
        exact setAt_same c _ next
      · have notX : some x ≠ some d := by
          rintro ⟨⟩
          exact (List.nodup_cons.mp nodup').1 member
        have notC : some c ≠ some d := by
          intro same
          obtain rfl : c = d := Option.some.inj same
          exact fresh (List.mem_cons_of_mem x member)
        rw [setAt_other notX]
        exact setAt_other notC _ _
    | cons d rest =>
      have later := ih follows.2 nodup'
      rw [List.getLast?_cons_cons]
      refine ⟨?_, later⟩
      have inside : (d :: rest).getLast? ≠ some c := by
        intro last
        exact fresh (List.mem_append_left _ (getLast?_mem last))
      rw [setAt_other distinct, setAt_other inside]
      exact follows.1

theorem Follows.concat {next : ι → Option ι} {list : List ι} {x : ι} (follows : Follows next list)
    (nodup : (list ++ [x]).Nodup) (last : next x = none) :
    Follows (setAt list.getLast? (some x) next) (list ++ [x]) := by
  rw [← List.append_nil list] at follows
  have inserted := follows.insert nodup
  rwa [List.head?_nil, setAt_idle] at inserted
  rw [setAt_other, last]
  intro same
  exact (List.nodup_append.mp nodup).2.2 x (getLast?_mem same) x (List.mem_singleton.mpr rfl) rfl

section Chains
variable {prev next : ι → Option ι} {before after : List ι} {x : ι}

theorem Chain.remove (chain : Chain prev next (before ++ x :: after)) (nodup : (before ++ x :: after).Nodup) :
    Chain (setAt after.head? before.getLast? prev) (setAt before.getLast? after.head? next)
      (before ++ after) := by
  refine ⟨chain.forward.remove nodup, ?_⟩
  have backward := chain.backward
  have nodup' := List.nodup_reverse.mpr nodup
  rw [List.reverse_append, List.reverse_cons, List.append_assoc, List.singleton_append] at backward nodup'
  have removed := backward.remove nodup'
  rwa [List.getLast?_reverse, List.head?_reverse, ← List.reverse_append] at removed

theorem Chain.insert (chain : Chain prev next (before ++ after)) (nodup : (before ++ x :: after).Nodup) :
    Chain (setAt (some x) before.getLast? (setAt after.head? (some x) prev))
      (setAt (some x) after.head? (setAt before.getLast? (some x) next)) (before ++ x :: after) := by
  refine ⟨chain.forward.insert nodup, ?_⟩
  have backward := chain.backward
  have nodup' := List.nodup_reverse.mpr nodup
  rw [List.reverse_append, List.reverse_cons, List.append_assoc, List.singleton_append] at nodup'
  rw [List.reverse_append] at backward
  have inserted := backward.insert nodup'
  rw [List.getLast?_reverse, List.head?_reverse] at inserted
  rwa [List.reverse_append, List.reverse_cons, List.append_assoc, List.singleton_append]

theorem Chain.concat {list : List ι} (chain : Chain prev next list) (nodup : (list ++ [x]).Nodup)
    (last : next x = none) :
    Chain (setAt (some x) list.getLast? prev) (setAt list.getLast? (some x) next) (list ++ [x]) := by
  refine ⟨chain.forward.concat nodup last, ?_⟩
  rw [← List.append_nil list] at chain
  have inserted := (chain.insert nodup).backward
  rwa [List.head?_nil, setAt_none] at inserted

theorem Chain.relink (chain : Chain prev next (before ++ x :: after)) :
    setAt before.getLast? (some x) next = next ∧ setAt after.head? (some x) prev = prev := by
  constructor
  · cases last : before.getLast? with
    | none => rw [setAt_none]
    | some p =>
      obtain ⟨front, rfl⟩ := List.getLast?_eq_some_iff.mp last
      rw [List.append_assoc, List.singleton_append] at chain
      exact setAt_idle chain.at.2
  · cases after with
    | nil => rw [List.head?_nil, setAt_none]
    | cons q rest =>
      rw [List.append_cons] at chain
      have link := chain.at.1
      rw [List.getLast?_concat] at link
      exact setAt_idle link

end Chains

end Lists

section Trees
variable {ι : Type*}

def Link (link : ι → Option ι) (a b : ι) : Prop := link a = some b

abbrev Ancestor (parent : ι → Option ι) (a b : ι) : Prop := TransGen (fun p c => parent c = some p) a b

theorem Follows.acyclic {next : ι → Option ι} {list : List ι} (follows : Follows next list)
    (nodup : list.Nodup) {a : ι} (member : a ∈ list) : ¬TransGen (Link next) a a := by
  have inside {list : List ι} (follows : Follows next list) {a b : ι} (member : a ∈ list)
      (path : TransGen (Link next) a b) : b ∈ list := by
    have step {a b : ι} (member : a ∈ list) (link : next a = some b) : b ∈ list := by
      obtain ⟨before, after, rfl⟩ := List.append_of_mem member
      rw [follows.at] at link
      exact List.mem_append_right before (List.mem_cons_of_mem a (List.mem_of_head? link))
    induction path with
    | single link => exact step member link
    | tail _ link ih => exact step ih link
  induction list with
  | nil => cases member
  | cons c rest ih =>
    obtain ⟨fresh, nodup'⟩ := List.nodup_cons.mp nodup
    rcases List.mem_cons.mp member with rfl | behind
    · intro cycle
      rcases TransGen.head'_iff.mp cycle with ⟨b, link, path⟩
      have first : b ∈ rest := List.mem_of_head? (follows.1.symm.trans link)
      rcases reflTransGen_iff_eq_or_transGen.mp path with rfl | path
      · exact fresh first
      · exact fresh (inside follows.2 first path)
    · exact ih follows.2 nodup' behind

theorem acyclic_attach [DecidableEq ι] {parent : ι → Option ι} {p x : ι}
    (acyclic : ∀ a, ¬Ancestor parent a a) (apart : x ≠ p) (below : ¬Ancestor parent x p) (a : ι) :
    ¬Ancestor (setAt (some x) (some p) parent) a a := by
  have notAbove : ¬ReflTransGen (fun p c => parent c = some p) x p := by
    intro path
    rcases reflTransGen_iff_eq_or_transGen.mp path with same | path
    · exact apart same.symm
    · exact below path
  -- a path in the new tree either avoids the new edge or goes through it once
  have through {a b : ι} (path : Ancestor (setAt (some x) (some p) parent) a b) :
      Ancestor parent a b ∨ (ReflTransGen (fun p c => parent c = some p) a p ∧
        ReflTransGen (fun p c => parent c = some p) x b) := by
    have edge {b c : ι} (link : setAt (some x) (some p) parent c = some b) :
        (b = p ∧ c = x) ∨ parent c = some b := by
      by_cases new : x = c
      · subst new
        rw [setAt_same] at link
        exact .inl ⟨(Option.some.inj link).symm, rfl⟩
      · rw [setAt_other fun same => new (Option.some.inj same)] at link
        exact .inr link
    induction path with
    | single link =>
      rcases edge link with ⟨rfl, rfl⟩ | old
      · exact .inr ⟨.refl, .refl⟩
      · exact .inl (.single old)
    | tail _ link ih =>
      rcases edge link with ⟨rfl, rfl⟩ | old
      · rcases ih with before | ⟨-, under⟩
        · exact .inr ⟨before.to_reflTransGen, .refl⟩
        · exact absurd under notAbove
      · rcases ih with before | ⟨front, under⟩
        · exact .inl (before.tail old)
        · exact .inr ⟨front, under.tail old⟩
  intro cycle
  rcases through cycle with old | ⟨front, under⟩
  · exact acyclic a old
  · exact notAbove (under.trans front)

theorem exists_height [Fintype ι] {r : ι → ι → Prop} (acyclic : ∀ a, ¬TransGen r a a) :
    ∃ height : ι → Nat, (∀ a b, r a b → height b < height a) ∧ ∀ a, height a < Fintype.card ι := by
  classical
  refine ⟨fun a => (Finset.univ.filter (TransGen r a)).card, ?_, ?_⟩
  · intro a b link
    apply Finset.card_lt_card
    refine Finset.ssubset_iff_subset_ne.mpr ⟨?_, ?_⟩
    · intro c member
      rw [Finset.mem_filter] at member ⊢
      exact ⟨member.1, .head link member.2⟩
    · intro same
      have reached : b ∈ Finset.univ.filter (TransGen r a) :=
        Finset.mem_filter.mpr ⟨Finset.mem_univ b, .single link⟩
      rw [← same, Finset.mem_filter] at reached
      exact acyclic b reached.2
  · intro a
    apply Finset.card_lt_univ_of_notMem (x := a)
    rw [Finset.mem_filter]
    exact fun member => acyclic a member.2

/-- The steps of a walk through a tree: down to a first child, or on to the next sibling. -/
def Walk (first next : ι → Option ι) (a b : ι) : Prop := first a = some b ∨ next a = some b

/-- A walk goes on along siblings and then down, when siblings have the same parent. -/
theorem walk_shape {first next parent : ι → Option ι} (down : ∀ a b, first a = some b → parent b = some a)
    (along : ∀ a b, next a = some b → parent b = parent a) {a b : ι} (path : TransGen (Walk first next) a b) :
    ∃ s, (TransGen (Link next) a s ∧ ReflTransGen (fun p c => parent c = some p) s b) ∨
      (ReflTransGen (Link next) a s ∧ Ancestor parent s b) := by
  induction path with
  | single step =>
    rcases step with child | sibling
    · exact ⟨_, .inr ⟨.refl, .single (down _ _ child)⟩⟩
    · exact ⟨_, .inl ⟨.single sibling, .refl⟩⟩
  | @tail b c _ step ih =>
    obtain ⟨s, ih⟩ := ih
    rcases step with child | sibling
    · rcases ih with ⟨on, under⟩ | ⟨on, under⟩
      · exact ⟨s, .inl ⟨on, under.tail (down _ _ child)⟩⟩
      · exact ⟨s, .inr ⟨on, under.tail (down _ _ child)⟩⟩
    · have turn {s : ι} (under : Ancestor parent s b) : Ancestor parent s c := by
        obtain ⟨q, front, last⟩ := TransGen.tail'_iff.mp under
        exact TransGen.tail' front ((along _ _ sibling).trans last)
      rcases ih with ⟨on, under⟩ | ⟨on, under⟩
      · rcases reflTransGen_iff_eq_or_transGen.mp under with rfl | under
        · exact ⟨c, .inl ⟨on.tail sibling, .refl⟩⟩
        · exact ⟨s, .inl ⟨on, (turn under).to_reflTransGen⟩⟩
      · exact ⟨s, .inr ⟨on, turn under⟩⟩

theorem walk_acyclic {first next parent : ι → Option ι} (above : ∀ a, ¬Ancestor parent a a)
    (beside : ∀ a, ¬TransGen (Link next) a a) (down : ∀ a b, first a = some b → parent b = some a)
    (along : ∀ a b, next a = some b → parent b = parent a) (a : ι) : ¬TransGen (Walk first next) a a := by
  have siblings {a s : ι} (on : ReflTransGen (Link next) a s) : parent s = parent a := by
    induction on with
    | refl => rfl
    | tail _ link ih => exact (along _ _ link).trans ih
  have noTurn {s : ι} (on : ReflTransGen (Link next) a s) : ¬Ancestor parent s a := by
    intro under
    obtain ⟨q, front, last⟩ := TransGen.tail'_iff.mp under
    have top : parent s = some q := (siblings on).trans last
    exact above q (TransGen.head' top front)
  intro cycle
  obtain ⟨s, ⟨on, under⟩ | ⟨on, under⟩⟩ := walk_shape down along cycle
  · rcases reflTransGen_iff_eq_or_transGen.mp under with rfl | under
    · exact beside _ on
    · exact noTurn on.to_reflTransGen under
  · exact noTurn on under

end Trees

end Pupnp.Linked
