import Pupnp.ThreadPool.LinkedList

/-!
How a list lies in memory: a ring of links from its head to its tail, and the cells of its free list beside it. What
stores into the links make of it, and what is taken from the free list or put there.
-/

namespace Pupnp.ThreadUtil
open Pupnp.Cells Pupnp.Linked

variable {α : Type}

/-! ### A list in memory -/

abbrev Entries (α : Type) := List (Nat × Option α)

def Entries.nodes (entries : Entries α) : List Nat := entries.map Prod.fst

@[simp]
theorem Entries.nodes_nil : Entries.nodes ([] : Entries α) = [] := rfl

@[simp]
theorem Entries.nodes_cons (e : Nat × Option α) (entries : Entries α) :
    Entries.nodes (e :: entries) = e.1 :: Entries.nodes entries := rfl

@[simp]
theorem Entries.nodes_append (before after : Entries α) :
    Entries.nodes (before ++ after) = Entries.nodes before ++ Entries.nodes after := List.map_append

def ringOf (head tail : Nat) (nodes : List Nat) : List Nat := head :: (nodes ++ [tail])

/-- The nodes between head and tail are linked in both directions and carry the items, those in `spare` are linked to
each other, and no cell is used twice. -/
structure Laid (memory : Memory (ListNode α)) (head tail : Nat) (entries : Entries α) (spare : List Nat) : Prop where
  chain : Chain (prevOf memory) (nextOf memory) (ringOf head tail entries.nodes)
  free : Follows (prevOf memory) spare
  nodup : (ringOf head tail entries.nodes ++ spare).Nodup
  allocated : ∀ a ∈ ringOf head tail entries.nodes ++ spare, (memory.lookup a).isSome
  items : ∀ e ∈ entries, itemOf memory e.1 = some e.2

structure Stocked (s : ListState α) (entries : Entries α) (spare : List Nat) : Prop where
  laid : Laid s.memory s.list.head s.list.tail entries spare
  freeHead : s.list.freeNodeList.head = spare.head?
  freeLength : s.list.freeNodeList.freeListLength = spare.length

structure Represents (s : ListState α) (entries : Entries α) (spare : List Nat) : Prop
    extends Stocked s entries spare where
  size : s.list.size = entries.length

theorem ringOf_append (head tail : Nat) (before after : List Nat) :
    ringOf head tail (before ++ after) = (head :: before) ++ (after ++ [tail]) := by
  rw [ringOf, List.append_assoc]
  rfl

theorem mem_ringOf {head tail : Nat} {entries : Entries α} {e : Nat × Option α} (member : e ∈ entries) :
    e.1 ∈ ringOf head tail entries.nodes :=
  List.mem_cons_of_mem _ (List.mem_append_left _ (List.mem_map_of_mem member))

section Cells
variable {memory memory' : Memory (ListNode α)} {head tail : Nat} {entries before after : Entries α} {spare : List Nat}
  {x : Nat} {item : Option α}

theorem field_of_lookup {β : Type} {part : ListNode α → Option β} {a : Nat}
    (same : memory'.lookup a = memory.lookup a) : field part memory' a = field part memory a := by
  rw [field, field, same]

theorem field_found {β : Type} {part : ListNode α → Option β} {a : Nat} {node : ListNode α}
    (found : memory.lookup a = some node) : field part memory a = part node := by
  rw [field, found, Option.bind_some]

theorem Laid.frame (laid : Laid memory head tail entries spare)
    (same : ∀ a ∈ ringOf head tail entries.nodes ++ spare, memory'.lookup a = memory.lookup a) :
    Laid memory' head tail entries spare where
  chain := laid.chain.congr (fun a member => field_of_lookup (same a (List.mem_append_left _ member)))
    fun a member => field_of_lookup (same a (List.mem_append_left _ member))
  free := laid.free.congr fun a member => field_of_lookup (same a (List.mem_append_right _ member))
  nodup := laid.nodup
  allocated a member := by
    rw [same a member]
    exact laid.allocated a member
  items e member := by
    rw [itemOf, field_of_lookup (same e.1 (List.mem_append_left _ (mem_ringOf member)))]
    exact laid.items e member

structure Relinked (memory memory' : Memory (ListNode α)) (prev next : Nat → Option Nat) : Prop where
  prev : prevOf memory' = prev
  next : nextOf memory' = next
  item : itemOf memory' = itemOf memory
  isSome : ∀ a, (memory'.lookup a).isSome = (memory.lookup a).isSome

theorem setPrev_found {a : Nat} (allocated : (memory.lookup a).isSome) (link : Option Nat) :
    ∃ memory', store memory a ({ · with prev := link }) = some memory' ∧
      Relinked memory memory' (setAt (some a) link (prevOf memory)) (nextOf memory) := by
  obtain ⟨memory', stored, what⟩ := store_stored allocated ({ · with prev := link })
  refine ⟨memory', stored, ?_, what.field_same fun _ => rfl, what.field_same fun _ => rfl, what.isSome⟩
  apply what.field_set _ fun _ => rfl
  rintro b ⟨⟩
  exact allocated

theorem setNext_found {a : Nat} (allocated : (memory.lookup a).isSome) (link : Option Nat) :
    ∃ memory', store memory a ({ · with next := link }) = some memory' ∧
      Relinked memory memory' (prevOf memory) (setAt (some a) link (nextOf memory)) := by
  obtain ⟨memory', stored, what⟩ := store_stored allocated ({ · with next := link })
  refine ⟨memory', stored, what.field_same fun _ => rfl, ?_, what.field_same fun _ => rfl, what.isSome⟩
  apply what.field_set _ fun _ => rfl
  rintro b ⟨⟩
  exact allocated

theorem Laid.insert (laid : Laid memory head tail (before ++ after) spare)
    (new : x ∉ ringOf head tail (before ++ after).nodes ++ spare) (allocated : (memory.lookup x).isSome)
    (holds : itemOf memory x = some item)
    (relinked : Relinked memory memory'
      (setAt (some x) (head :: before.nodes).getLast? (setAt (after.nodes ++ [tail]).head? (some x) (prevOf memory)))
      (setAt (some x) (after.nodes ++ [tail]).head? (setAt (head :: before.nodes).getLast? (some x) (nextOf memory)))) :
    Laid memory' head tail (before ++ (x, item) :: after) spare := by
  obtain ⟨chain, free, nodup, isSome, items⟩ := laid
  rw [Entries.nodes_append, ringOf_append] at chain nodup isSome new
  set front := head :: before.nodes
  set back := after.nodes ++ [tail]
  have ring : ringOf head tail (before ++ (x, item) :: after).nodes = front ++ x :: back := by
    rw [Entries.nodes_append, Entries.nodes_cons, ringOf_append]
    rfl
  have perm : (front ++ x :: back ++ spare).Perm (x :: (front ++ back ++ spare)) := by
    rw [List.append_assoc, List.append_assoc]
    exact List.perm_middle
  have nodup' : (front ++ x :: back ++ spare).Nodup := perm.nodup_iff.mpr (List.nodup_cons.mpr ⟨new, nodup⟩)
  refine ⟨?_, ?_, by rwa [ring], ?_, ?_⟩
  · rw [ring, relinked.prev, relinked.next]
    exact chain.insert (List.nodup_append.mp nodup').1
  · rw [relinked.prev]
    have apart := (List.nodup_append.mp nodup').2.2
    apply free.congr
    intro a member
    rw [setAt_other, setAt_other]
    · intro first
      exact apart a (List.mem_append_right _ (List.mem_cons_of_mem _ (List.mem_of_head? first))) a member rfl
    · rintro ⟨⟩
      exact apart x (List.mem_append_right _ List.mem_cons_self) x member rfl
  · rw [ring]
    intro a member
    rw [relinked.isSome]
    rcases List.mem_cons.mp (perm.mem_iff.mp member) with rfl | old
    · exact allocated
    · exact isSome a old
  · intro e member
    rw [relinked.item]
    rcases List.mem_append.mp member with front | rest
    · exact items e (List.mem_append_left _ front)
    · rcases List.mem_cons.mp rest with rfl | back
      · exact holds
      · exact items e (List.mem_append_right _ back)

theorem Laid.remove (laid : Laid memory head tail (before ++ (x, item) :: after) spare)
    (relinked : Relinked memory memory'
      (setAt (after.nodes ++ [tail]).head? (head :: before.nodes).getLast? (prevOf memory))
      (setAt (head :: before.nodes).getLast? (after.nodes ++ [tail]).head? (nextOf memory))) :
    Laid memory' head tail (before ++ after) spare ∧ x ∉ ringOf head tail (before ++ after).nodes ++ spare ∧
      (memory'.lookup x).isSome := by
  obtain ⟨chain, free, nodup, isSome, items⟩ := laid
  rw [Entries.nodes_append, Entries.nodes_cons, ringOf_append, List.cons_append] at chain nodup isSome
  rw [Entries.nodes_append, ringOf_append]
  set front := head :: before.nodes
  set back := after.nodes ++ [tail]
  have perm : (front ++ x :: back ++ spare).Perm (x :: (front ++ back ++ spare)) := by
    rw [List.append_assoc, List.append_assoc]
    exact List.perm_middle
  obtain ⟨new, nodup'⟩ := List.nodup_cons.mp (perm.nodup_iff.mp nodup)
  refine ⟨⟨?_, ?_, ?_, ?_, ?_⟩, new, ?_⟩
  · rw [Entries.nodes_append, ringOf_append, relinked.prev, relinked.next]
    exact chain.remove (List.nodup_append.mp nodup).1
  · rw [relinked.prev]
    have apart := (List.nodup_append.mp nodup').2.2
    apply free.congr
    intro a member
    rw [setAt_other]
    intro first
    exact apart a (List.mem_append_right _ (List.mem_of_head? first)) a member rfl
  · rw [Entries.nodes_append, ringOf_append]
    exact nodup'
  · rw [Entries.nodes_append, ringOf_append]
    intro a member
    rw [relinked.isSome]
    exact isSome a (perm.mem_iff.mpr (List.mem_cons_of_mem _ member))
  · intro e member
    rw [relinked.item]
    rcases List.mem_append.mp member with front | back
    · exact items e (List.mem_append_left _ front)
    · exact items e (List.mem_append_right _ (List.mem_cons_of_mem _ back))
  · rw [relinked.isSome]
    exact isSome x (perm.mem_iff.mpr List.mem_cons_self)

theorem Laid.links (laid : Laid memory head tail entries spare) {front back : List Nat} {a : Nat}
    (split : ringOf head tail entries.nodes = front ++ a :: back) :
    ∃ node, memory.lookup a = some node ∧ node.prev = front.getLast? ∧ node.next = back.head? := by
  have member : a ∈ ringOf head tail entries.nodes := by
    rw [split]
    exact List.mem_append_right _ List.mem_cons_self
  obtain ⟨node, found⟩ := Option.isSome_iff_exists.mp (laid.allocated a (List.mem_append_left _ member))
  have chain := laid.chain
  rw [split] at chain
  refine ⟨node, found, ?_, ?_⟩
  · rw [← chain.at.1, prevOf, field_found found]
  · rw [← chain.at.2, nextOf, field_found found]

theorem Laid.node (laid : Laid memory head tail (before ++ (x, item) :: after) spare) :
    ∃ node, memory.lookup x = some node ∧ node.prev = (head :: before.nodes).getLast? ∧
      node.next = (after.nodes ++ [tail]).head? ∧ node.item = item := by
  have ring : ringOf head tail (before ++ (x, item) :: after).nodes =
      (head :: before.nodes) ++ x :: (after.nodes ++ [tail]) := by
    rw [Entries.nodes_append, ringOf_append, Entries.nodes_cons]
    rfl
  obtain ⟨node, found, prev, next⟩ := laid.links ring
  have items := laid.items (x, item) (List.mem_append_right _ List.mem_cons_self)
  rw [itemOf, field_found found] at items
  exact ⟨node, found, prev, next, Option.some.inj items⟩

theorem Laid.inner (laid : Laid memory head tail entries spare) (member : x ∈ entries.nodes) : x ≠ head ∧ x ≠ tail := by
  have nodup := (List.nodup_append.mp laid.nodup).1
  obtain ⟨notHead, nodup'⟩ := List.nodup_cons.mp nodup
  constructor
  · rintro rfl
    exact notHead (List.mem_append_left _ member)
  · rintro rfl
    exact (List.nodup_append.mp nodup').2.2 x member x (List.mem_singleton.mpr rfl) rfl

end Cells

/-! ### The stores of the operations -/

section Stores
variable {memory : Memory (ListNode α)} {x a b : Nat}

theorem Relinked.trans {memory' memory'' : Memory (ListNode α)} {prev next prev' next' : Nat → Option Nat}
    (first : Relinked memory memory' prev next) (second : Relinked memory' memory'' prev' next') :
    Relinked memory memory'' prev' next' :=
  ⟨second.prev, second.next, second.item.trans first.item, fun a => (second.isSome a).trans (first.isSome a)⟩

theorem linkAfter_found {node : ListNode α} (found : memory.lookup b = some node) (next : node.next = some a)
    (allocated : (memory.lookup a).isSome) (new : (memory.lookup x).isSome) :
    ∃ memory', linkAfter memory x b = some memory' ∧ Relinked memory memory'
      (setAt (some a) (some x) (setAt (some x) (some b) (prevOf memory)))
      (setAt (some x) (some a) (setAt (some b) (some x) (nextOf memory))) := by
  have here : (memory.lookup b).isSome := by
    rw [found]
    rfl
  obtain ⟨m₁, stored₁, first⟩ := setNext_found here (some x)
  obtain ⟨m₂, stored₂, second⟩ := @setPrev_found _ m₁ x (by rwa [first.isSome]) (some b)
  have two := first.trans second
  obtain ⟨m₃, stored₃, third⟩ := @setNext_found _ m₂ x (by rwa [two.isSome]) node.next
  have three := two.trans third
  obtain ⟨m₄, stored₄, fourth⟩ := @setPrev_found _ m₃ a (by rwa [three.isSome]) (some x)
  refine ⟨m₄, ?_, ?_⟩
  · simp only [linkAfter, found, stored₁, stored₂, stored₃, Option.bind_eq_bind, Option.bind_some]
    rw [next, Option.bind_some, stored₄]
  · have four := three.trans fourth
    rwa [third.prev, second.prev, first.prev, third.next, second.next, first.next, next] at four

theorem linkBefore_found {node : ListNode α} (found : memory.lookup a = some node) (prev : node.prev = some b)
    (allocated : (memory.lookup b).isSome) (new : (memory.lookup x).isSome) :
    ∃ memory', linkBefore memory x a = some memory' ∧ Relinked memory memory'
      (setAt (some x) (some b) (setAt (some a) (some x) (prevOf memory)))
      (setAt (some b) (some x) (setAt (some x) (some a) (nextOf memory))) := by
  have here : (memory.lookup a).isSome := by
    rw [found]
    rfl
  obtain ⟨m₁, stored₁, first⟩ := setPrev_found here (some x)
  obtain ⟨m₂, stored₂, second⟩ := @setNext_found _ m₁ x (by rwa [first.isSome]) (some a)
  have two := first.trans second
  obtain ⟨m₃, stored₃, third⟩ := @setPrev_found _ m₂ x (by rwa [two.isSome]) node.prev
  have three := two.trans third
  obtain ⟨m₄, stored₄, fourth⟩ := @setNext_found _ m₃ b (by rwa [three.isSome]) (some x)
  refine ⟨m₄, ?_, ?_⟩
  · simp only [linkBefore, found, stored₁, stored₂, stored₃, Option.bind_eq_bind, Option.bind_some]
    rw [prev, Option.bind_some, stored₄]
  · have four := three.trans fourth
    rwa [third.prev, second.prev, first.prev, third.next, second.next, first.next, prev] at four

theorem unlink_found {node : ListNode α} (found : memory.lookup x = some node) (prev : node.prev = some b)
    (next : node.next = some a) (before : (memory.lookup b).isSome) (behind : (memory.lookup a).isSome)
    (apart : x ≠ b) :
    ∃ memory', unlink memory x = some memory' ∧
      Relinked memory memory' (setAt (some a) (some b) (prevOf memory)) (setAt (some b) (some a) (nextOf memory)) := by
  obtain ⟨m₁, stored₁, what⟩ := store_stored before ({ · with next := some a })
  obtain ⟨m₁', stored₁', first⟩ := setNext_found before (some a)
  obtain rfl : m₁ = m₁' := Option.some.inj (stored₁.symm.trans stored₁')
  have same : m₁.lookup x = some node := by
    rw [what x, if_neg fun here => apart (Option.some.inj here).symm, found]
  obtain ⟨m₂, stored₂, second⟩ := @setPrev_found _ m₁ a (by rwa [first.isSome]) (some b)
  refine ⟨m₂, ?_, ?_⟩
  · simp only [unlink, found, prev, next, stored₁, same, stored₂, Option.bind_eq_bind, Option.bind_some]
  · have both := first.trans second
    rwa [first.prev, first.next] at both

end Stores

/-! ### Cells for nodes -/

section Spare
variable {malloc : Malloc (ListNode α)} {s : ListState α} {entries : Entries α} {spare : List Nat} {x : Nat}

structure Beside (s : ListState α) (entries : Entries α) (spare : List Nat) (x : Nat) : Prop
    extends Stocked s entries spare where
  apart : x ∉ ringOf s.list.head s.list.tail entries.nodes ++ spare
  allocated : (s.memory.lookup x).isSome

structure Alike (s s' : ListState α) : Prop where
  head : s'.list.head = s.list.head
  tail : s'.list.tail = s.list.tail
  freeFunc : s'.list.freeFunc = s.list.freeFunc
  cmpFunc : s'.list.cmpFunc = s.list.cmpFunc

theorem Alike.refl (s : ListState α) : Alike s s := ⟨rfl, rfl, rfl, rfl⟩

theorem Alike.trans {s s' s'' : ListState α} (first : Alike s s') (second : Alike s' s'') : Alike s s'' :=
  ⟨second.head.trans first.head, second.tail.trans first.tail, second.freeFunc.trans first.freeFunc,
    second.cmpFunc.trans first.cmpFunc⟩

structure Untouched (s s' : ListState α) : Prop extends Alike s s' where
  size : s'.list.size = s.list.size
  freed : s'.freed = s.freed

theorem middle_perm (head tail : Nat) (entries : Entries α) (spare : List Nat) (x : Nat) :
    (ringOf head tail entries.nodes ++ x :: spare).Perm (x :: (ringOf head tail entries.nodes ++ spare)) :=
  List.perm_middle

theorem Laid.pop {memory : Memory (ListNode α)} {head tail : Nat} {rest : List Nat}
    (laid : Laid memory head tail entries (x :: rest)) :
    ∃ node, memory.lookup x = some node ∧ node.prev = rest.head? ∧ Laid memory head tail entries rest ∧
      x ∉ ringOf head tail entries.nodes ++ rest := by
  obtain ⟨node, found⟩ := Option.isSome_iff_exists.mp (laid.allocated x (by simp))
  have perm := middle_perm head tail entries rest x
  obtain ⟨apart, nodup⟩ := List.nodup_cons.mp (perm.nodup_iff.mp laid.nodup)
  have link : node.prev = rest.head? := by
    rw [← laid.free.1, prevOf, field_found found]
  exact ⟨node, found, link, ⟨laid.chain, laid.free.2, nodup,
    fun a member => laid.allocated a (perm.mem_iff.mpr (List.mem_cons_of_mem _ member)), laid.items⟩, apart⟩

theorem freeListAlloc_found (stocked : Stocked s entries spare) (room : Option (ListNode α)) :
    (room = none ∧ freeListAlloc malloc room s = some (none, s)) ∨
      ∃ x s' spare', freeListAlloc malloc room s = some (some x, s') ∧ Beside s' entries spare' x ∧ Untouched s s' := by
  have freeHead := stocked.freeHead
  cases spare with
  | cons x rest =>
    obtain ⟨node, found, link, laid, apart⟩ := stocked.laid.pop
    have shrunk : s.list.freeNodeList.freeListLength - 1 = (rest.length : Int) := by
      rw [stocked.freeLength, List.length_cons]
      omega
    have beside : Beside { s with
        list.freeNodeList.head := node.prev
        list.freeNodeList.freeListLength := s.list.freeNodeList.freeListLength - 1 } entries rest x :=
      ⟨⟨laid, link, shrunk⟩, apart, by rw [found]; rfl⟩
    refine .inr ⟨x, _, rest, ?_, beside, ⟨rfl, rfl, rfl, rfl⟩, rfl, rfl⟩
    simp only [freeListAlloc, freeHead, List.head?_cons, found, Option.bind_eq_bind, Option.bind_some]
  | nil =>
    cases room with
    | none =>
      refine .inl ⟨rfl, ?_⟩
      simp only [freeListAlloc, freeHead, List.head?_nil]
    | some content =>
      have fresh := malloc.fresh s.memory
      set x := malloc.address s.memory with address
      have apart : x ∉ ringOf s.list.head s.list.tail entries.nodes ++ [] := by
        intro member
        have isSome := stocked.laid.allocated x member
        rw [fresh] at isSome
        cases isSome
      have kept : Laid (s.memory.insert x content) s.list.head s.list.tail entries [] := by
        apply stocked.laid.frame
        intro a member
        exact AList.lookup_insert_ne fun same => apart (same ▸ member)
      have beside : Beside { s with memory := s.memory.insert x content } entries [] x :=
        ⟨⟨kept, freeHead, stocked.freeLength⟩, apart, by rw [AList.lookup_insert]; rfl⟩
      refine .inr ⟨x, _, [], ?_, beside, ⟨rfl, rfl, rfl, rfl⟩, rfl, rfl⟩
      simp only [freeListAlloc, freeHead, List.head?_nil, address]

theorem createListNode_found (stocked : Stocked s entries spare) (room : Option (ListNode α)) (item : Option α) :
    (room = none ∧ createListNode malloc room item s = some (none, s)) ∨
      ∃ x s' spare', createListNode malloc room item s = some (some x, s') ∧ Beside s' entries spare' x ∧
        Untouched s s' ∧ itemOf s'.memory x = some item := by
  rcases @freeListAlloc_found _ malloc _ _ _ stocked room with
    ⟨full, unchanged⟩ | ⟨x, s', spare', taken, beside, untouched⟩
  · refine .inl ⟨full, ?_⟩
    rw [createListNode, unchanged]
    rfl
  · obtain ⟨node, found⟩ := Option.isSome_iff_exists.mp beside.allocated
    obtain ⟨memory, stored, here, others⟩ := store_found found fun _ => (⟨none, none, item⟩ : ListNode α)
    have framed : Laid memory s'.list.head s'.list.tail entries spare' :=
      beside.laid.frame fun a member => others a fun same => beside.apart (same ▸ member)
    have created : Beside { s' with memory } entries spare' x :=
      ⟨⟨framed, beside.freeHead, beside.freeLength⟩, beside.apart, by rw [here]; rfl⟩
    refine .inr ⟨x, _, spare', ?_, created, ⟨⟨untouched.head, untouched.tail, untouched.freeFunc, untouched.cmpFunc⟩,
      untouched.size, untouched.freed⟩, ?_⟩
    · simp only [createListNode, taken, stored, Option.bind_eq_bind, Option.bind_some]
    · rw [itemOf, field_found here]

theorem freeListFree_found (beside : Beside s entries spare x) :
    ∃ s' spare', freeListFree s x = some s' ∧ Stocked s' entries spare' ∧ Untouched s s' := by
  obtain ⟨⟨laid, freeHead, freeLength⟩, apart, allocated⟩ := beside
  obtain ⟨node, found⟩ := Option.isSome_iff_exists.mp allocated
  by_cases kept : s.list.freeNodeList.freeListLength + 1 < s.list.freeNodeList.maxFreeListLength
  · obtain ⟨memory, stored, here, others⟩ := store_found found ({ · with prev := s.list.freeNodeList.head })
    have framed : Laid memory s.list.head s.list.tail entries spare :=
      laid.frame fun a member => others a fun same => apart (same ▸ member)
    have perm := middle_perm s.list.head s.list.tail entries spare x
    have laid' : Laid memory s.list.head s.list.tail entries (x :: spare) := by
      refine ⟨framed.chain, ⟨?_, framed.free⟩, ?_, ?_, framed.items⟩
      · rw [prevOf, field_found here]
        exact freeHead
      · exact perm.nodup_iff.mpr (List.nodup_cons.mpr ⟨apart, laid.nodup⟩)
      · intro a member
        rcases List.mem_cons.mp (perm.mem_iff.mp member) with rfl | old
        · rw [here]
          rfl
        · exact framed.allocated a old
    have grown : s.list.freeNodeList.freeListLength + 1 = ((x :: spare).length : Int) := by
      rw [freeLength, List.length_cons]
      omega
    have stocked : Stocked { s with
        memory
        list.freeNodeList.head := some x
        list.freeNodeList.freeListLength := s.list.freeNodeList.freeListLength + 1 } entries (x :: spare) :=
      ⟨laid', rfl, grown⟩
    refine ⟨_, x :: spare, ?_, stocked, ⟨rfl, rfl, rfl, rfl⟩, rfl, rfl⟩
    simp only [freeListFree, if_pos kept, stored, Option.bind_eq_bind, Option.bind_some]
  · have framed : Laid (s.memory.erase x) s.list.head s.list.tail entries spare :=
      laid.frame fun a member => AList.lookup_erase_ne fun same => apart (same ▸ member)
    have stocked : Stocked { s with memory := s.memory.erase x } entries spare := ⟨framed, freeHead, freeLength⟩
    refine ⟨_, spare, ?_, stocked, ⟨rfl, rfl, rfl, rfl⟩, rfl, rfl⟩
    rw [freeListFree, if_neg kept, freeCell, found]
    rfl

end Spare

end Pupnp.ThreadUtil
