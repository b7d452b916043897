import Pupnp.ThreadPool.ListLayout

/-!
The operations on a list by its entries: where a new node stands, what is left behind a removal, and what the loops
along the nodes find.
-/

namespace Pupnp.ThreadUtil
open Pupnp.Cells Pupnp.Linked

variable {α : Type}

/-! ### Positions -/

/-- How many entries stand in front of what is behind a node; the head is in front of all. -/
def behindNode (head : Nat) (entries : Entries α) (node : Nat) : Nat := (head :: entries.nodes).idxOf node

def beforeNode (tail : Nat) (entries : Entries α) (node : Nat) : Nat := (entries.nodes ++ [tail]).idxOf node

section Positions
variable {head tail : Nat} {entries : Entries α} {node : Nat}

theorem Entries.nodes_take (entries : Entries α) (i : Nat) : Entries.nodes (entries.take i) = entries.nodes.take i :=
  List.map_take

theorem Entries.nodes_drop (entries : Entries α) (i : Nat) : Entries.nodes (entries.drop i) = entries.nodes.drop i :=
  List.map_drop

theorem ringOf_behind (member : node ∈ head :: entries.nodes) :
    (head :: Entries.nodes (entries.take (behindNode head entries node))).getLast? = some node ∧
      ∃ front, head :: Entries.nodes (entries.take (behindNode head entries node)) = front ++ [node] := by
  have inside := List.idxOf_lt_length_of_mem member
  have taken : head :: Entries.nodes (entries.take (behindNode head entries node)) =
      (head :: entries.nodes).take (behindNode head entries node) ++ [node] := by
    rw [Entries.nodes_take, ← List.take_succ_cons, behindNode, List.take_succ_eq_append_getElem inside,
      List.getElem_idxOf]
  exact ⟨by rw [taken, List.getLast?_concat], _, taken⟩

theorem ringOf_before (member : node ∈ entries.nodes ++ [tail]) :
    ∃ back, Entries.nodes (entries.drop (beforeNode tail entries node)) ++ [tail] = node :: back := by
  have inside := List.idxOf_lt_length_of_mem member
  have short : beforeNode tail entries node ≤ entries.nodes.length := by
    rw [List.length_append, List.length_singleton] at inside
    exact Nat.le_of_lt_succ inside
  refine ⟨(entries.nodes ++ [tail]).drop (beforeNode tail entries node + 1), ?_⟩
  rw [Entries.nodes_drop, ← List.drop_append_of_le_length short, beforeNode, List.drop_eq_getElem_cons inside,
    List.getElem_idxOf]

end Positions

/-! ### What the operations do -/

section Operations
variable {malloc : Malloc (ListNode α)} {s : ListState α} {entries : Entries α} {spare : List Nat}

def Entries.insert (entries : Entries α) (i node : Nat) (item : Option α) : Entries α :=
  entries.take i ++ (node, item) :: entries.drop i

def Adds (room : Option (ListNode α)) (item : Option α) (i : Nat) (s : ListState α) (entries : Entries α)
    (result : Option (Option Nat × ListState α)) : Prop :=
  (room = none ∧ result = some (none, s)) ∨
    ∃ x s' spare', result = some (some x, s') ∧ x ∉ ringOf s.list.head s.list.tail entries.nodes ∧
      Represents s' (entries.insert i x item) spare' ∧ Alike s s' ∧ s'.freed = s.freed

theorem adds_linked {item : Option α} {i : Nat} {s' : ListState α} {spare' : List Nat} {x : Nat}
    {memory : Memory (ListNode α)} (size : s.list.size = entries.length) (beside : Beside s' entries spare' x)
    (untouched : Untouched s s') (holds : itemOf s'.memory x = some item)
    (relinked : Relinked s'.memory memory
      (setAt (some x) (s'.list.head :: Entries.nodes (entries.take i)).getLast?
        (setAt (Entries.nodes (entries.drop i) ++ [s'.list.tail]).head? (some x) (prevOf s'.memory)))
      (setAt (some x) (Entries.nodes (entries.drop i) ++ [s'.list.tail]).head?
        (setAt (s'.list.head :: Entries.nodes (entries.take i)).getLast? (some x) (nextOf s'.memory)))) :
    let s'' := { s' with memory, list.size := s'.list.size + 1 }
    x ∉ ringOf s.list.head s.list.tail entries.nodes ∧ Represents s'' (entries.insert i x item) spare' ∧
      Alike s s'' ∧ s''.freed = s.freed := by
  obtain ⟨⟨laid, freeHead, freeLength⟩, apart, allocated⟩ := beside
  have alike := untouched.toAlike
  have grown : s'.list.size + 1 = ((entries.insert i x item).length : Int) := by
    rw [untouched.size, size, Entries.insert, List.length_append, List.length_cons, List.length_take, List.length_drop]
    omega
  have new : x ∉ ringOf s.list.head s.list.tail entries.nodes := by
    rw [← alike.head, ← alike.tail]
    exact fun member => apart (List.mem_append_left _ member)
  rw [← List.take_append_drop i entries] at laid apart
  exact ⟨new, ⟨⟨laid.insert apart allocated holds relinked, freeHead, freeLength⟩, grown⟩,
    ⟨alike.head, alike.tail, alike.freeFunc, alike.cmpFunc⟩, untouched.freed⟩

theorem listAddAfter_adds (represents : Represents s entries spare) (room : Option (ListNode α)) (item : Option α)
    {b : Nat} (member : b ∈ s.list.head :: entries.nodes) :
    Adds room item (behindNode s.list.head entries b) s entries (listAddAfter malloc room item (some b) s) := by
  rcases @createListNode_found _ malloc _ _ _ represents.toStocked room item with
    ⟨full, unchanged⟩ | ⟨x, s', spare', created, beside, untouched, holds⟩
  · refine .inl ⟨full, ?_⟩
    rw [listAddAfter, unchanged]
    rfl
  · set i := behindNode s.list.head entries b with position
    obtain ⟨last, front, cut⟩ := ringOf_behind member
    rw [← position, ← untouched.head] at last cut
    have ring : ringOf s'.list.head s'.list.tail entries.nodes =
        front ++ b :: (Entries.nodes (entries.drop i) ++ [s'.list.tail]) := by
      rw [← List.take_append_drop i entries, Entries.nodes_append, ringOf_append, cut, List.take_append_drop,
        List.append_assoc]
      rfl
    obtain ⟨node, found, -, next⟩ := beside.laid.links ring
    obtain ⟨a, behind⟩ : ∃ a, (Entries.nodes (entries.drop i) ++ [s'.list.tail]).head? = some a :=
      Option.isSome_iff_exists.mp (by simp)
    have inRing : a ∈ ringOf s'.list.head s'.list.tail entries.nodes := by
      rw [ring]
      exact List.mem_append_right _ (List.mem_cons_of_mem _ (List.mem_of_head? behind))
    obtain ⟨memory, linked, relinked⟩ := linkAfter_found found (next.trans behind)
      (beside.laid.allocated a (List.mem_append_left _ inRing)) beside.allocated
    have other : x ≠ a := by
      rintro rfl
      exact beside.apart (List.mem_append_left _ inRing)
    rw [setAt_comm (fun c here => by cases here; exact fun same => other (Option.some.inj same)), ← behind, ← last]
      at relinked
    refine .inr ⟨x, _, spare', ?_, adds_linked represents.size beside untouched holds relinked⟩
    simp only [listAddAfter, created, linked, Option.bind_eq_bind, Option.bind_some]

theorem listAddBefore_adds (represents : Represents s entries spare) (room : Option (ListNode α)) (item : Option α)
    {a : Nat} (member : a ∈ entries.nodes ++ [s.list.tail]) :
    Adds room item (beforeNode s.list.tail entries a) s entries (listAddBefore malloc room item (some a) s) := by
  rcases @createListNode_found _ malloc _ _ _ represents.toStocked room item with
    ⟨full, unchanged⟩ | ⟨x, s', spare', created, beside, untouched, holds⟩
  · refine .inl ⟨full, ?_⟩
    rw [listAddBefore, unchanged]
    rfl
  · set i := beforeNode s.list.tail entries a with position
    obtain ⟨back, cut⟩ := ringOf_before member
    rw [← position, ← untouched.tail] at cut
    have first : (Entries.nodes (entries.drop i) ++ [s'.list.tail]).head? = some a := by
      rw [cut]
      rfl
    have ring : ringOf s'.list.head s'.list.tail entries.nodes =
        (s'.list.head :: Entries.nodes (entries.take i)) ++ a :: back := by
      rw [← cut, ← List.take_append_drop i entries, Entries.nodes_append, ringOf_append, List.take_append_drop]
    obtain ⟨node, found, prev, -⟩ := beside.laid.links ring
    obtain ⟨b, front⟩ : ∃ b, (s'.list.head :: Entries.nodes (entries.take i)).getLast? = some b :=
      Option.isSome_iff_exists.mp (by simp)
    have inRing : b ∈ ringOf s'.list.head s'.list.tail entries.nodes := by
      rw [ring]
      exact List.mem_append_left _ (List.mem_of_getLast? front)
    obtain ⟨memory, linked, relinked⟩ := linkBefore_found found (prev.trans front)
      (beside.laid.allocated b (List.mem_append_left _ inRing)) beside.allocated
    have other : b ≠ x := by
      rintro rfl
      exact beside.apart (List.mem_append_left _ inRing)
    rw [setAt_comm (fun c here => by cases here; exact fun same => other (Option.some.inj same).symm) (some x) (some a),
      ← front, ← first] at relinked
    refine .inr ⟨x, _, spare', ?_, adds_linked represents.size beside untouched holds relinked⟩
    simp only [listAddBefore, created, linked, Option.bind_eq_bind, Option.bind_some]

theorem Entries.split {entries : Entries α} {d : Nat} (member : d ∈ entries.nodes) :
    ∃ before item after, entries = before ++ (d, item) :: after ∧ d ∉ Entries.nodes before := by
  induction entries with
  | nil => cases member
  | cons e entries ih =>
    by_cases here : e.1 = d
    · exact ⟨[], e.2, entries, by rw [← here, List.nil_append], List.not_mem_nil⟩
    · obtain ⟨before, item, after, rfl, first⟩ := ih ((List.mem_cons.mp member).resolve_left fun same => here same.symm)
      refine ⟨e :: before, item, after, rfl, ?_⟩
      rw [Entries.nodes_cons, List.mem_cons, not_or]
      exact ⟨fun same => here same.symm, first⟩

def Entries.without (entries : Entries α) (d : Nat) : Entries α := entries.filter (·.1 ≠ d)

def Entries.itemAt (entries : Entries α) (d : Nat) : Option α := (entries.find? (·.1 = d)).bind Prod.snd

/-- The items that `free_func` is called with for an item that is removed -/
def freedItem (freeFunc freeItem : Bool) (item : Option α) : List (Option α) :=
  if freeItem && freeFunc then [item] else []

theorem listDelNode_found {before after : Entries α} {d : Nat} {item : Option α} (freeItem : Bool)
    (represents : Represents s (before ++ (d, item) :: after) spare) :
    ∃ s' spare', listDelNode (some d) freeItem s =
        some (if freeItem && s.list.freeFunc then none else item, s') ∧
      Represents s' (before ++ after) spare' ∧ Alike s s' ∧ s'.freed = s.freed ++ freedItem s.list.freeFunc freeItem item := by
  obtain ⟨⟨laid, freeHead, freeLength⟩, size⟩ := represents
  obtain ⟨node, found, prev, next, held⟩ := laid.node
  have member : d ∈ Entries.nodes (before ++ (d, item) :: after) := by simp
  obtain ⟨notHead, notTail⟩ := laid.inner member
  obtain ⟨b, front⟩ : ∃ b, (s.list.head :: before.nodes).getLast? = some b := Option.isSome_iff_exists.mp (by simp)
  obtain ⟨a, back⟩ : ∃ a, (after.nodes ++ [s.list.tail]).head? = some a := Option.isSome_iff_exists.mp (by simp)
  have nodup := (List.nodup_append.mp laid.nodup).1
  have isSome := fun c member => laid.allocated c (List.mem_append_left spare member)
  rw [Entries.nodes_append, ringOf_append] at nodup isSome
  have apart := (List.nodup_append.mp nodup).2.2
  obtain ⟨memory, unlinked, relinked⟩ := unlink_found found (prev.trans front) (next.trans back)
    (isSome b (List.mem_append_left _ (List.mem_of_getLast? front)))
    (isSome a (List.mem_append_right _ (List.mem_cons_of_mem _ (List.mem_of_head? back))))
    (fun same => apart b (List.mem_of_getLast? front) d List.mem_cons_self same.symm)
  rw [← front, ← back] at relinked
  obtain ⟨laid', new, allocated⟩ := laid.remove relinked
  have beside : Beside { s with memory } (before ++ after) spare d := ⟨⟨laid', freeHead, freeLength⟩, new, allocated⟩
  obtain ⟨s', spare', put, stocked, untouched⟩ := freeListFree_found beside
  have shrunk : s'.list.size - 1 = ((before ++ after).length : Int) := by
    have before_ : s'.list.size = s.list.size := untouched.size
    rw [before_, size, List.length_append, List.length_append, List.length_cons]
    omega
  have alike : Alike s s' := ⟨untouched.head, untouched.tail, untouched.freeFunc, untouched.cmpFunc⟩
  have ends : (d = s.list.head || d = s.list.tail) = false := by simp [notHead, notTail]
  rw [freedItem, ← alike.freeFunc]
  simp only [listDelNode, ends, found, unlinked, put, held, Option.bind_eq_bind, Option.bind_some]
  by_cases frees : (freeItem && s'.list.freeFunc) = true
  · simp only [frees, if_true]
    exact ⟨_, spare', rfl, ⟨⟨stocked.laid, stocked.freeHead, stocked.freeLength⟩, shrunk⟩,
      ⟨alike.head, alike.tail, alike.freeFunc, alike.cmpFunc⟩, congrArg (· ++ [item]) untouched.freed⟩
  · simp only [frees]
    exact ⟨_, spare', rfl, ⟨⟨stocked.laid, stocked.freeHead, stocked.freeLength⟩, shrunk⟩,
      ⟨alike.head, alike.tail, alike.freeFunc, alike.cmpFunc⟩, untouched.freed.trans (List.append_nil _).symm⟩

end Operations

/-! ### Loops along a list -/

section Loops
variable {s : ListState α} {entries before after : Entries α} {spare : List Nat} {d : Nat} {item : Option α}

theorem rounds_enough {nodes : List Nat} (nodup : nodes.Nodup) (allocated : ∀ a ∈ nodes, (s.memory.lookup a).isSome) :
    nodes.length < rounds s := Nat.lt_succ_of_le (length_le_keys nodup allocated)

theorem Stocked.enough (stocked : Stocked s entries spare) : entries.length < rounds s ∧ spare.length < rounds s := by
  have nodup := List.nodup_append.mp stocked.laid.nodup
  have inside := (List.nodup_append.mp (List.nodup_cons.mp nodup.1).2).1
  constructor
  · have enough := @rounds_enough _ s _ inside fun a member => stocked.laid.allocated a
      (List.mem_append_left _ (List.mem_cons_of_mem _ (List.mem_append_left _ member)))
    rwa [Entries.nodes, List.length_map] at enough
  · exact rounds_enough nodup.2.1 fun a member => stocked.laid.allocated a (List.mem_append_right _ member)

theorem Laid.first {memory : Memory (ListNode α)} {head tail : Nat} (laid : Laid memory head tail entries spare) :
    ∃ node, memory.lookup head = some node ∧ node.next = (entries.nodes ++ [tail]).head? := by
  have ring : ringOf head tail entries.nodes = [] ++ head :: (entries.nodes ++ [tail]) := rfl
  obtain ⟨node, found, -, next⟩ := laid.links ring
  exact ⟨node, found, next⟩

theorem Laid.last {memory : Memory (ListNode α)} {head tail : Nat} (laid : Laid memory head tail entries spare) :
    ∃ node, memory.lookup tail = some node ∧ node.prev = (head :: entries.nodes).getLast? := by
  have ring : ringOf head tail entries.nodes = (head :: entries.nodes) ++ tail :: [] := rfl
  obtain ⟨node, found, prev, -⟩ := laid.links ring
  exact ⟨node, found, prev⟩

theorem notTail_head (laid : Laid s.memory s.list.head s.list.tail (before ++ after) spare) :
    (if (after.nodes ++ [s.list.tail]).head? = some s.list.tail then none else (after.nodes ++ [s.list.tail]).head?) =
      after.nodes.head? := by
  cases after with
  | nil => exact if_pos rfl
  | cons e after =>
    have member : e.1 ∈ Entries.nodes (before ++ e :: after) := by simp
    have other := (laid.inner member).2
    exact if_neg fun same => other (Option.some.inj same)

theorem notHead_last (laid : Laid s.memory s.list.head s.list.tail (before ++ after) spare) :
    (if (s.list.head :: before.nodes).getLast? = some s.list.head then none
      else (s.list.head :: before.nodes).getLast?) = before.nodes.getLast? := by
  rcases List.eq_nil_or_concat before with rfl | ⟨front, e, rfl⟩
  · exact if_pos rfl
  · have member : e.1 ∈ Entries.nodes (front.concat e ++ after) := by simp
    have other := (laid.inner member).1
    have last : (s.list.head :: Entries.nodes (front.concat e)).getLast? = some e.1 := by
      rw [List.concat_eq_append, Entries.nodes_append, ← List.cons_append]
      exact List.getLast?_concat
    have last' : (Entries.nodes (front.concat e)).getLast? = some e.1 := by
      rw [List.concat_eq_append, Entries.nodes_append]
      exact List.getLast?_concat
    rw [last, last']
    exact if_neg fun same => other (Option.some.inj same)

theorem listNext_found (laid : Laid s.memory s.list.head s.list.tail (before ++ (d, item) :: after) spare) :
    listNext (some d) s = some after.nodes.head? := by
  obtain ⟨node, found, -, next, -⟩ := laid.node
  rw [List.append_cons] at laid
  rw [listNext, found, Option.map_some, next, notTail_head laid]

theorem listPrev_found (laid : Laid s.memory s.list.head s.list.tail (before ++ (d, item) :: after) spare) :
    listPrev (some d) s = some before.nodes.getLast? := by
  obtain ⟨node, found, prev, -, -⟩ := laid.node
  rw [listPrev, found, Option.map_some, prev, notHead_last laid]

theorem findLoop_found [DecidableEq α] (laid : Laid s.memory s.list.head s.list.tail (before ++ after) spare)
    (wanted : Option α) {fuel : Nat} (enough : after.length < fuel) :
    findLoop wanted s fuel (after.nodes ++ [s.list.tail]).head? =
      some ((after.find? fun e => stopsAt s.list.cmpFunc wanted e.2).map Prod.fst) := by
  induction after generalizing before fuel with
  | nil =>
    cases fuel with
    | zero => cases enough
    | succ fuel =>
      have none_ : (Entries.nodes ([] : Entries α) ++ [s.list.tail]).head? = some s.list.tail := rfl
      rw [findLoop, if_pos none_]
      rfl
  | cons e after ih =>
    cases fuel with
    | zero => cases enough
    | succ fuel =>
      obtain ⟨node, found, -, next, held⟩ := laid.node
      have member : e.1 ∈ Entries.nodes (before ++ e :: after) := by simp
      have other := (laid.inner member).2
      have later := @ih (before ++ [e]) (by rwa [List.append_assoc]) fuel (Nat.lt_of_succ_lt_succ enough)
      have first : (Entries.nodes (e :: after) ++ [s.list.tail]).head? = some e.1 := rfl
      rw [first, findLoop, if_neg fun same => other (Option.some.inj same)]
      simp only [found, held, next, later, Option.bind_eq_bind, Option.bind_some]
      cases here : stopsAt s.list.cmpFunc wanted e.2 with
      | true =>
        rw [if_pos rfl, List.find?_cons_of_pos (by simpa using here)]
        rfl
      | false =>
        rw [if_neg Bool.false_ne_true, List.find?_cons_of_neg (by simp [here])]

theorem destroyLoop_found (freeItem : Bool) (represents : Represents s entries spare) {fuel : Nat}
    (enough : entries.length < fuel) :
    ∃ s' spare', destroyLoop freeItem fuel (entries.nodes ++ [s.list.tail]).head? s = some s' ∧
      Represents s' [] spare' ∧ Alike s s' ∧
      s'.freed = s.freed ++ entries.flatMap fun e => freedItem s.list.freeFunc freeItem e.2 := by
  induction entries generalizing s spare fuel with
  | nil =>
    cases fuel with
    | zero => cases enough
    | succ fuel =>
      have none_ : (Entries.nodes ([] : Entries α) ++ [s.list.tail]).head? = some s.list.tail := rfl
      refine ⟨s, spare, ?_, represents, .refl s, by rw [List.flatMap_nil, List.append_nil]⟩
      rw [destroyLoop, if_pos none_]
  | cons e entries ih =>
    cases fuel with
    | zero => cases enough
    | succ fuel =>
      have laid := represents.laid
      obtain ⟨node, found, -, next, -⟩ := @Laid.node _ _ _ _ [] entries spare e.1 e.2 laid
      have other := (laid.inner (List.mem_cons_self : e.1 ∈ Entries.nodes (e :: entries))).2
      obtain ⟨s₁, spare₁, deleted, represents₁, alike, freed⟩ := @listDelNode_found _ s spare [] entries e.1 e.2
        freeItem represents
      obtain ⟨s', spare', destroyed, empty, alike', freed'⟩ := ih represents₁ (Nat.lt_of_succ_lt_succ enough)
      have first : (Entries.nodes (e :: entries) ++ [s.list.tail]).head? = some e.1 := rfl
      refine ⟨s', spare', ?_, empty, alike.trans alike', ?_⟩
      · rw [first, destroyLoop, if_neg fun same => other (Option.some.inj same)]
        simp only [found, deleted, next, Option.bind_eq_bind, Option.bind_some, ← alike.tail]
        exact destroyed
      · rw [freed', freed, alike.freeFunc, List.flatMap_cons, List.append_assoc]

theorem freeListLoop_found (laid : Laid s.memory s.list.head s.list.tail entries spare)
    (freeHead : s.list.freeNodeList.head = spare.head?) {fuel : Nat} (enough : spare.length < fuel) :
    ∃ s', freeListLoop fuel s = some s' ∧ Laid s'.memory s.list.head s.list.tail entries [] ∧
      s'.list.freeNodeList.head = none ∧ Untouched s s' := by
  induction spare generalizing s fuel with
  | nil =>
    cases fuel with
    | zero => cases enough
    | succ fuel =>
      refine ⟨s, ?_, laid, freeHead, ⟨rfl, rfl, rfl, rfl⟩, rfl, rfl⟩
      simp only [freeListLoop, freeHead, List.head?_nil]
  | cons x rest ih =>
    cases fuel with
    | zero => cases enough
    | succ fuel =>
      obtain ⟨node, found, link, laid', apart⟩ := laid.pop
      have framed : Laid (s.memory.erase x) s.list.head s.list.tail entries rest :=
        laid'.frame fun a member => AList.lookup_erase_ne fun same => apart (same ▸ member)
      obtain ⟨s', looped, empty, none_, untouched⟩ :=
        @ih { s with memory := s.memory.erase x, list.freeNodeList.head := node.prev } framed link fuel
          (Nat.lt_of_succ_lt_succ enough)
      refine ⟨s', ?_, empty, none_, ⟨untouched.head, untouched.tail, untouched.freeFunc, untouched.cmpFunc⟩,
        untouched.size, untouched.freed⟩
      simp only [freeListLoop, freeHead, List.head?_cons, found, freeCell, Option.bind_eq_bind, Option.bind_some,
        Option.map_some]
      exact looped

theorem listDestroy_found (freeItem : Bool) (represents : Represents s entries spare) :
    ∃ s', listDestroy freeItem s = some s' ∧ Represents s' [] [] ∧ Alike s s' ∧
      s'.freed = s.freed ++ entries.flatMap fun e => freedItem s.list.freeFunc freeItem e.2 := by
  obtain ⟨node, found, next⟩ := represents.laid.first
  obtain ⟨s₁, spare₁, destroyed, ⟨⟨laid, freeHead, freeLength⟩, size⟩, alike, freed⟩ :=
    destroyLoop_found freeItem represents represents.enough.1
  have stocked : Stocked { s₁ with list.size := 0 } [] spare₁ := ⟨laid, freeHead, freeLength⟩
  obtain ⟨s₂, looped, empty, none_, untouched⟩ := freeListLoop_found stocked.laid stocked.freeHead stocked.enough.2
  have represents' : Represents { s₂ with list.freeNodeList.freeListLength := 0 } [] [] := by
    refine ⟨⟨?_, none_, rfl⟩, untouched.size⟩
    rw [untouched.head, untouched.tail]
    exact empty
  refine ⟨_, ?_, represents', ⟨untouched.head.trans alike.head, untouched.tail.trans alike.tail,
    untouched.freeFunc.trans alike.freeFunc, untouched.cmpFunc.trans alike.cmpFunc⟩, untouched.freed.trans freed⟩
  simp only [listDestroy, found, next, destroyed, freeListDestroy, looped, Option.bind_eq_bind, Option.bind_some,
    Option.map_some]

end Loops

end Pupnp.ThreadUtil
