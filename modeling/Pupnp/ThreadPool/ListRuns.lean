import Pupnp.Library.Run
import Pupnp.ThreadPool.ListOperations

/-!
Runs of calls on one list next to a sequence of nodes and items. Every answer of the list is what the sequence says,
and the links, the count and the free list agree with it.
-/

namespace Pupnp.ThreadUtil
open Pupnp.Cells Pupnp.Linked Pupnp.Run

variable {α : Type}

/-! ### The calls -/

inductive ListCall (α : Type) where
  | addHead (room : Option (ListNode α)) (item : Option α)
  | addTail (room : Option (ListNode α)) (item : Option α)
  | addBefore (room : Option (ListNode α)) (item : Option α) (anode : Option Nat)
  | addAfter (room : Option (ListNode α)) (item : Option α) (bnode : Option Nat)
  | delNode (dnode : Option Nat) (freeItem : Bool)
  | find (start : Option Nat) (item : Option α)
  | next (node : Option Nat)
  | prev (node : Option Nat)
  | head
  | tail
  | size
  | destroy (freeItem : Bool)
  deriving DecidableEq, Repr

inductive Answer (α : Type) where
  | node (node : Option Nat)
  | item (item : Option α)
  | number (number : Int)
  deriving DecidableEq, Repr

/-- The answer of a call, and the list behind it -/
def ListCall.apply [DecidableEq α] (malloc : Malloc (ListNode α)) (s : ListState α) :
    ListCall α → Option (Answer α × ListState α)
  | addHead room item => (listAddHead malloc room item s).map fun r => (.node r.1, r.2)
  | addTail room item => (listAddTail malloc room item s).map fun r => (.node r.1, r.2)
  | addBefore room item anode => (listAddBefore malloc room item anode s).map fun r => (.node r.1, r.2)
  | addAfter room item bnode => (listAddAfter malloc room item bnode s).map fun r => (.node r.1, r.2)
  | delNode dnode freeItem => (listDelNode dnode freeItem s).map fun r => (.item r.1, r.2)
  | find start item => (listFind start item s).map fun node => (.node node, s)
  | next node => (listNext node s).map fun node => (.node node, s)
  | prev node => (listPrev node s).map fun node => (.node node, s)
  | head => (listHead s).map fun node => (.node node, s)
  | tail => (listTail s).map fun node => (.node node, s)
  | size => some (.number (listSize s), s)
  | destroy freeItem => (listDestroy freeItem s).map fun s => (.number 0, s)

def listStep [DecidableEq α] (malloc : Malloc (ListNode α)) (call : ListCall α) (s : ListState α) :
    Option (ListState α) := (call.apply malloc s).map Prod.snd

/-- The answers of the calls, and the list behind them -/
def runCalls [DecidableEq α] (malloc : Malloc (ListNode α)) :
    List (ListCall α) → ListState α → Option (List (Answer α) × ListState α)
  | [], s => some ([], s)
  | call :: calls, s => do
      let (answer, s) ← call.apply malloc s
      let (answers, s) ← runCalls malloc calls s
      some (answer :: answers, s)

/-! ### Traversals -/

def walk (link : Nat → Option Nat) (stop : Option Nat) : Nat → Option Nat → Option (List Nat)
  | 0, _ => none
  | fuel + 1, pointer =>
      if pointer = stop then some []
      else pointer.bind fun a => (walk link stop fuel (link a)).map (a :: ·)

def forward (s : ListState α) : Option (List Nat) :=
  walk (nextOf s.memory) (some s.list.tail) (rounds s) (nextOf s.memory s.list.head)

def backward (s : ListState α) : Option (List Nat) :=
  walk (prevOf s.memory) (some s.list.head) (rounds s) (prevOf s.memory s.list.tail)

def spareCells (s : ListState α) : Option (List Nat) :=
  walk (prevOf s.memory) none (rounds s) s.list.freeNodeList.head

def IsNode (s : ListState α) (a : Nat) : Prop := a ∈ (forward s).getD []

instance decidableIsNode (s : ListState α) (a : Nat) : Decidable (IsNode s a) :=
  inferInstanceAs (Decidable (a ∈ (forward s).getD []))

def ListCall.OnNodes (s : ListState α) : ListCall α → Prop
  | addBefore _ _ anode => ∀ a ∈ anode, IsNode s a ∨ a = s.list.tail
  | addAfter _ _ bnode => ∀ b ∈ bnode, IsNode s b ∨ b = s.list.head
  | delNode dnode _ => ∀ d ∈ dnode, IsNode s d
  | find start _ => ∀ a ∈ start, IsNode s a
  | next node => ∀ a ∈ node, IsNode s a
  | prev node => ∀ a ∈ node, IsNode s a
  | _ => True

instance decidableOnNodes (s : ListState α) : ∀ call : ListCall α, Decidable (call.OnNodes s)
  | .addBefore _ _ anode => inferInstanceAs (Decidable (∀ a ∈ anode, IsNode s a ∨ a = s.list.tail))
  | .addAfter _ _ bnode => inferInstanceAs (Decidable (∀ b ∈ bnode, IsNode s b ∨ b = s.list.head))
  | .delNode dnode _ => inferInstanceAs (Decidable (∀ d ∈ dnode, IsNode s d))
  | .find start _ => inferInstanceAs (Decidable (∀ a ∈ start, IsNode s a))
  | .next node => inferInstanceAs (Decidable (∀ a ∈ node, IsNode s a))
  | .prev node => inferInstanceAs (Decidable (∀ a ∈ node, IsNode s a))
  | .addHead .. | .addTail .. | .head | .tail | .size | .destroy .. => isTrue trivial

/-! ### The sequence -/

structure Sequence (α : Type) where
  entries : Entries α
  freed : List (Option α)
  deriving DecidableEq, Repr

def Sequence.Added (head tail : Nat) (room : Option (ListNode α)) (item : Option α) (i : Nat) (answer : Answer α)
    (seq seq' : Sequence α) : Prop :=
  (room = none ∧ answer = .node none ∧ seq' = seq) ∨
    ∃ node, answer = .node (some node) ∧ node ≠ head ∧ node ≠ tail ∧ node ∉ seq.entries.nodes ∧
      seq' = { seq with entries := seq.entries.insert i node item }

/-- The entries behind the node where a search starts, and all for NULL -/
def Entries.searched (head : Nat) (entries : Entries α) (start : Option Nat) : Entries α :=
  entries.drop (behindNode head entries (start.getD head))

def ListCall.Means [DecidableEq α] (list : LinkedList α) (call : ListCall α) (answer : Answer α)
    (seq seq' : Sequence α) : Prop :=
  match call with
  | addHead room item => seq.Added list.head list.tail room item 0 answer seq'
  | addTail room item => seq.Added list.head list.tail room item seq.entries.length answer seq'
  | addBefore _ _ none => answer = .node none ∧ seq' = seq
  | addBefore room item (some a) =>
      seq.Added list.head list.tail room item (beforeNode list.tail seq.entries a) answer seq'
  | addAfter _ _ none => answer = .node none ∧ seq' = seq
  | addAfter room item (some b) =>
      seq.Added list.head list.tail room item (behindNode list.head seq.entries b) answer seq'
  | delNode none _ => answer = .item none ∧ seq' = seq
  | delNode (some d) freeItem =>
      let item := seq.entries.itemAt d
      answer = .item (if freeItem && list.freeFunc then none else item) ∧
        seq' = ⟨seq.entries.without d, seq.freed ++ freedItem list.freeFunc freeItem item⟩
  | find start item =>
      answer = .node (((seq.entries.searched list.head start).find? fun e => stopsAt list.cmpFunc item e.2).map Prod.fst) ∧
        seq' = seq
  | next node =>
      answer = .node (node.bind fun a => (Entries.nodes (seq.entries.drop (behindNode list.head seq.entries a))).head?) ∧
        seq' = seq
  | prev node =>
      answer = .node (node.bind fun a => (Entries.nodes (seq.entries.take (beforeNode list.tail seq.entries a))).getLast?) ∧
        seq' = seq
  | head => answer = .node seq.entries.nodes.head? ∧ seq' = seq
  | tail => answer = .node seq.entries.nodes.getLast? ∧ seq' = seq
  | size => answer = .number seq.entries.length ∧ seq' = seq
  | destroy freeItem =>
      answer = .number 0 ∧
        seq' = ⟨[], seq.freed ++ seq.entries.flatMap fun e => freedItem list.freeFunc freeItem e.2⟩

/-- What calls do with the sequence one after the other, and their answers -/
def Explains [DecidableEq α] (list : LinkedList α) :
    List (ListCall α) → List (Answer α) → Sequence α → Sequence α → Prop
  | [], [], seq, seq' => seq' = seq
  | call :: calls, answer :: answers, seq, seq' =>
      ∃ between, call.Means list answer seq between ∧ Explains list calls answers between seq'
  | _, _, _, _ => False

/-- The list is the sequence: its nodes are found along the links in both directions and counted, and what its free
list links is in no other use. -/
structure Refines (s : ListState α) (seq : Sequence α) : Prop where
  forward : forward s = some seq.entries.nodes
  backward : backward s = some seq.entries.nodes.reverse
  nodup : seq.entries.nodes.Nodup
  items : ∀ e ∈ seq.entries, itemOf s.memory e.1 = some e.2
  size : s.list.size = seq.entries.length
  spare : ∃ spare, spareCells s = some spare ∧ spare.Nodup ∧ s.list.freeNodeList.freeListLength = spare.length ∧
    ∀ a ∈ spare, a ≠ s.list.head ∧ a ≠ s.list.tail ∧ a ∉ seq.entries.nodes
  freed : s.freed = seq.freed

/-! ### Traversals of a list -/

theorem walk_along {link : Nat → Option Nat} {stop : Option Nat} {nodes : List Nat}
    (links : ∀ before a after, nodes = before ++ a :: after → link a = after.head?.or stop)
    (apart : ∀ a ∈ nodes, some a ≠ stop) {fuel : Nat} (enough : nodes.length < fuel) :
    walk link stop fuel (nodes.head?.or stop) = some nodes := by
  induction nodes generalizing fuel with
  | nil =>
    cases fuel with
    | zero => cases enough
    | succ fuel => exact if_pos rfl
  | cons a nodes ih =>
    cases fuel with
    | zero => cases enough
    | succ fuel =>
      have later := ih (fun before b after split => links (a :: before) b after (by rw [split]; rfl))
        (fun b member => apart b (List.mem_cons_of_mem a member)) (Nat.lt_of_succ_lt_succ enough)
      have next := links [] a nodes rfl
      rw [List.head?_cons, Option.some_or, walk, if_neg (apart a List.mem_cons_self), Option.bind_some, next, later]
      rfl

section Traversals
variable {s : ListState α} {entries : Entries α} {spare : List Nat}

theorem head?_concat_or (nodes : List Nat) (a : Nat) : (nodes ++ [a]).head? = nodes.head?.or (some a) := by
  cases nodes <;> rfl

theorem Represents.forward (represents : Represents s entries spare) : forward s = some entries.nodes := by
  have laid := represents.laid
  obtain ⟨node, found, next⟩ := laid.first
  have first : nextOf s.memory s.list.head = entries.nodes.head?.or (some s.list.tail) := by
    rw [nextOf, field_found found, next, head?_concat_or]
  rw [ThreadUtil.forward, first]
  apply walk_along
  · intro before a after split
    have ring : ringOf s.list.head s.list.tail entries.nodes =
        (s.list.head :: before) ++ a :: (after ++ [s.list.tail]) := by
      rw [ringOf, split, List.append_assoc]
      rfl
    obtain ⟨node, found, -, next⟩ := laid.links ring
    rw [nextOf, field_found found, next, head?_concat_or]
  · intro a member same
    exact (laid.inner member).2 (Option.some.inj same)
  · rw [Entries.nodes, List.length_map]
    exact represents.enough.1

theorem Represents.backward (represents : Represents s entries spare) : backward s = some entries.nodes.reverse := by
  have laid := represents.laid
  have last (nodes : List Nat) : (s.list.head :: nodes).getLast? = nodes.reverse.head?.or (some s.list.head) := by
    rw [← head?_concat_or, ← List.reverse_cons, List.head?_reverse]
  obtain ⟨node, found, prev⟩ := laid.last
  have first : prevOf s.memory s.list.tail = entries.nodes.reverse.head?.or (some s.list.head) := by
    rw [prevOf, field_found found, prev, last]
  rw [ThreadUtil.backward, first]
  apply walk_along
  · intro before a after split
    have split' : entries.nodes = after.reverse ++ a :: before.reverse := by
      rw [← List.reverse_reverse entries.nodes, split]
      simp
    have ring : ringOf s.list.head s.list.tail entries.nodes =
        (s.list.head :: after.reverse) ++ a :: (before.reverse ++ [s.list.tail]) := by
      rw [ringOf, split', List.append_assoc]
      rfl
    obtain ⟨node, found, prev, -⟩ := laid.links ring
    rw [prevOf, field_found found, prev, last, List.reverse_reverse]
  · intro a member same
    exact (laid.inner (List.mem_reverse.mp member)).1 (Option.some.inj same)
  · rw [List.length_reverse, Entries.nodes, List.length_map]
    exact represents.enough.1

theorem Represents.spareCells (represents : Represents s entries spare) : spareCells s = some spare := by
  have free := represents.laid.free
  rw [ThreadUtil.spareCells, represents.freeHead, ← @Option.or_none _ spare.head?]
  apply walk_along
  · rintro before a after rfl
    rw [free.at, Option.or_none]
  · exact fun a _ => Option.some_ne_none a
  · exact represents.enough.2

theorem Represents.isNode (represents : Represents s entries spare) (a : Nat) : IsNode s a ↔ a ∈ entries.nodes := by
  rw [IsNode, represents.forward, Option.getD_some]

theorem Represents.refines {seq : Sequence α} (represents : Represents s seq.entries spare)
    (freed : s.freed = seq.freed) : Refines s seq := by
  have nodup := List.nodup_append.mp represents.laid.nodup
  refine ⟨represents.forward, represents.backward, ?_, represents.laid.items, represents.size,
    ⟨spare, represents.spareCells, nodup.2.1, represents.freeLength, ?_⟩, freed⟩
  · exact (List.nodup_append.mp (List.nodup_cons.mp nodup.1).2).1
  · intro a member
    have apart := fun b inRing => (nodup.2.2 b inRing a member).symm
    refine ⟨apart _ List.mem_cons_self, apart _ ?_, fun inside => apart a ?_ rfl⟩
    · exact List.mem_cons_of_mem _ (List.mem_append_right _ (List.mem_singleton.mpr rfl))
    · exact List.mem_cons_of_mem _ (List.mem_append_left _ inside)

end Traversals

/-! ### Each call -/

section Positions
variable {head tail d : Nat} {item : Option α} {before after : Entries α}

theorem behindNode_split (notHead : d ≠ head) (first : d ∉ before.nodes) :
    behindNode head (before ++ (d, item) :: after) d = (before ++ [(d, item)]).length := by
  rw [behindNode, List.idxOf_cons_ne _ notHead.symm, Entries.nodes_append, List.idxOf_append_of_notMem first,
    Entries.nodes_cons, List.idxOf_cons_self, List.length_append, Entries.nodes, List.length_map]
  rfl

theorem beforeNode_split (first : d ∉ before.nodes) :
    beforeNode tail (before ++ (d, item) :: after) d = before.length := by
  rw [beforeNode, Entries.nodes_append, List.append_assoc, List.idxOf_append_of_notMem first, Entries.nodes_cons,
    List.cons_append, List.idxOf_cons_self, Entries.nodes, List.length_map]
  rfl

theorem drop_split (entries : Entries α) (e : Nat × Option α) :
    (before ++ e :: entries).drop (before ++ [e]).length = entries := by
  rw [List.append_cons before e entries, List.drop_left]

theorem Entries.itemAt_split (first : d ∉ before.nodes) :
    Entries.itemAt (before ++ (d, item) :: after) d = item := by
  have none_ : before.find? (·.1 = d) = none := by
    rw [List.find?_eq_none]
    intro e member same
    exact first (of_decide_eq_true same ▸ List.mem_map_of_mem member)
  rw [Entries.itemAt, List.find?_append, none_, List.find?_cons_of_pos (by simp)]
  rfl

theorem Entries.without_split (first : d ∉ before.nodes) (last : d ∉ after.nodes) :
    Entries.without (before ++ (d, item) :: after) d = before ++ after := by
  have all (entries : Entries α) (absent : d ∉ entries.nodes) : entries.filter (·.1 ≠ d) = entries := by
    rw [List.filter_eq_self]
    intro e member
    exact decide_eq_true fun same => absent (same ▸ List.mem_map_of_mem member)
  rw [Entries.without, List.filter_append, List.filter_cons_of_neg (by simp), all before first, all after last]

end Positions

section Calls
variable [DecidableEq α] {malloc : Malloc (ListNode α)} {s : ListState α} {seq : Sequence α} {spare : List Nat}

def Goes (malloc : Malloc (ListNode α)) (call : ListCall α) (s : ListState α) (seq : Sequence α) : Prop :=
  ∃ answer s' seq' spare', call.apply malloc s = some (answer, s') ∧ call.Means s.list answer seq seq' ∧
    Represents s' seq'.entries spare' ∧ Alike s s' ∧ s'.freed = seq'.freed

theorem Goes.unchanged {call : ListCall α} {answer : Answer α} (represents : Represents s seq.entries spare)
    (freed : s.freed = seq.freed) (applied : call.apply malloc s = some (answer, s))
    (means : call.Means s.list answer seq seq) : Goes malloc call s seq :=
  ⟨answer, s, seq, spare, applied, means, represents, .refl s, freed⟩

theorem Goes.adds {call : ListCall α} {room : Option (ListNode α)} {item : Option α} {i : Nat}
    {result : Option (Option Nat × ListState α)} (represents : Represents s seq.entries spare)
    (freed : s.freed = seq.freed) (adds : Adds room item i s seq.entries result)
    (applied : call.apply malloc s = result.map fun r => (.node r.1, r.2))
    (means : ∀ answer seq', seq.Added s.list.head s.list.tail room item i answer seq' →
      call.Means s.list answer seq seq') : Goes malloc call s seq := by
  rcases adds with ⟨full, unchanged⟩ | ⟨x, s', spare', added, new, represents', alike, freed'⟩
  · rw [unchanged] at applied
    exact .unchanged represents freed applied (means _ _ (.inl ⟨full, rfl, rfl⟩))
  · rw [added] at applied
    rw [ringOf, List.mem_cons, List.mem_append, List.mem_singleton, not_or, not_or] at new
    exact ⟨_, s', { seq with entries := seq.entries.insert i x item }, spare', applied,
      means _ _ (.inr ⟨x, rfl, new.1, new.2.2, new.2.1, rfl⟩), represents', alike, freed'.trans freed⟩

theorem addAfter_goes (represents : Represents s seq.entries spare) (freed : s.freed = seq.freed)
    (room : Option (ListNode α)) (item : Option α) (bnode : Option Nat)
    (onNodes : (ListCall.addAfter room item bnode).OnNodes s) : Goes malloc (.addAfter room item bnode) s seq := by
  cases bnode with
  | none => exact .unchanged represents freed rfl ⟨rfl, rfl⟩
  | some b =>
    have member : b ∈ s.list.head :: seq.entries.nodes := by
      rcases onNodes b rfl with node | rfl
      · exact List.mem_cons_of_mem _ ((represents.isNode b).mp node)
      · exact List.mem_cons_self
    exact .adds represents freed (listAddAfter_adds represents room item member) rfl fun _ _ => id

theorem addBefore_goes (represents : Represents s seq.entries spare) (freed : s.freed = seq.freed)
    (room : Option (ListNode α)) (item : Option α) (anode : Option Nat)
    (onNodes : (ListCall.addBefore room item anode).OnNodes s) : Goes malloc (.addBefore room item anode) s seq := by
  cases anode with
  | none => exact .unchanged represents freed rfl ⟨rfl, rfl⟩
  | some a =>
    have member : a ∈ seq.entries.nodes ++ [s.list.tail] := by
      rcases onNodes a rfl with node | rfl
      · exact List.mem_append_left _ ((represents.isNode a).mp node)
      · exact List.mem_append_right _ (List.mem_singleton.mpr rfl)
    exact .adds represents freed (listAddBefore_adds represents room item member) rfl fun _ _ => id

theorem addHead_goes (represents : Represents s seq.entries spare) (freed : s.freed = seq.freed)
    (room : Option (ListNode α)) (item : Option α) : Goes malloc (.addHead room item) s seq := by
  have adds := @listAddAfter_adds _ malloc _ _ _ represents room item _ List.mem_cons_self
  have position : behindNode s.list.head seq.entries s.list.head = 0 := List.idxOf_cons_self
  rw [position] at adds
  exact .adds represents freed adds rfl fun _ _ => id

theorem addTail_goes (represents : Represents s seq.entries spare) (freed : s.freed = seq.freed)
    (room : Option (ListNode α)) (item : Option α) : Goes malloc (.addTail room item) s seq := by
  have adds := @listAddBefore_adds _ malloc _ _ _ represents room item _
    (List.mem_append_right _ (List.mem_singleton.mpr rfl))
  have absent : s.list.tail ∉ seq.entries.nodes := fun member => (represents.laid.inner member).2 rfl
  have position : beforeNode s.list.tail seq.entries s.list.tail = seq.entries.length := by
    rw [beforeNode, List.idxOf_append_of_notMem absent, List.idxOf_cons_self, Entries.nodes, List.length_map]
    rfl
  rw [position] at adds
  exact .adds represents freed adds rfl fun _ _ => id

theorem delNode_goes (represents : Represents s seq.entries spare) (freed : s.freed = seq.freed) (dnode : Option Nat)
    (freeItem : Bool) (onNodes : (ListCall.delNode dnode freeItem).OnNodes s) :
    Goes malloc (.delNode dnode freeItem) s seq := by
  cases dnode with
  | none => exact .unchanged represents freed rfl ⟨rfl, rfl⟩
  | some d =>
    obtain ⟨before, item, after, split, first⟩ := Entries.split ((represents.isNode d).mp (onNodes d rfl))
    have nodup := (represents.refines freed).nodup
    rw [split, Entries.nodes_append, Entries.nodes_cons] at nodup
    have last := (List.nodup_cons.mp (List.nodup_append.mp nodup).2.1).1
    rw [split] at represents
    obtain ⟨s', spare', deleted, represents', alike, freed'⟩ := listDelNode_found freeItem represents
    have item_ : seq.entries.itemAt d = item := by
      rw [split]
      exact Entries.itemAt_split first
    have without : seq.entries.without d = before ++ after := by
      rw [split]
      exact Entries.without_split first last
    refine ⟨.item (if freeItem && s.list.freeFunc then none else item), s',
      ⟨before ++ after, seq.freed ++ freedItem s.list.freeFunc freeItem item⟩, spare', ?_, ⟨?_, ?_⟩, represents',
      alike, ?_⟩
    · rw [ListCall.apply, deleted]
      rfl
    · rw [item_]
    · rw [item_, without]
    · rw [freed', freed]

theorem next_goes (represents : Represents s seq.entries spare) (freed : s.freed = seq.freed) (node : Option Nat)
    (onNodes : (ListCall.next node).OnNodes s) : Goes malloc (.next node) s seq := by
  cases node with
  | none => exact .unchanged represents freed rfl ⟨rfl, rfl⟩
  | some d =>
    have member := (represents.isNode d).mp (onNodes d rfl)
    obtain ⟨before, item, after, split, first⟩ := Entries.split member
    have laid := represents.laid
    rw [split] at laid
    have position := @behindNode_split _ s.list.head d item before after (represents.laid.inner member).1 first
    refine .unchanged represents freed ?_ ⟨rfl, rfl⟩
    rw [ListCall.apply, listNext_found laid, Option.bind_some, split, position, drop_split]
    rfl

theorem prev_goes (represents : Represents s seq.entries spare) (freed : s.freed = seq.freed) (node : Option Nat)
    (onNodes : (ListCall.prev node).OnNodes s) : Goes malloc (.prev node) s seq := by
  cases node with
  | none => exact .unchanged represents freed rfl ⟨rfl, rfl⟩
  | some d =>
    obtain ⟨before, item, after, split, first⟩ := Entries.split ((represents.isNode d).mp (onNodes d rfl))
    have laid := represents.laid
    rw [split] at laid
    have position := @beforeNode_split _ s.list.tail d item before after first
    refine .unchanged represents freed ?_ ⟨rfl, rfl⟩
    rw [ListCall.apply, listPrev_found laid, Option.bind_some, split, position, List.take_left]
    rfl

theorem find_goes (represents : Represents s seq.entries spare) (freed : s.freed = seq.freed) (start : Option Nat)
    (item : Option α) (onNodes : (ListCall.find start item).OnNodes s) : Goes malloc (.find start item) s seq := by
  have enough := represents.enough.1
  have laid := represents.laid
  refine .unchanged represents freed ?_ ⟨rfl, rfl⟩
  cases start with
  | none =>
    obtain ⟨node, found, next⟩ := laid.first
    have position : behindNode s.list.head seq.entries s.list.head = 0 := List.idxOf_cons_self
    have looped := @findLoop_found _ s [] seq.entries spare _ laid item _ enough
    rw [ListCall.apply, listFind, Option.getD_none, found, Option.bind_eq_bind, Option.bind_some, next, looped,
      Entries.searched, Option.getD_none, position, List.drop_zero]
    rfl
  | some d =>
    have member := (represents.isNode d).mp (onNodes d rfl)
    obtain ⟨before, held, after, split, first⟩ := Entries.split member
    have position := @behindNode_split _ s.list.head d held before after (laid.inner member).1 first
    rw [split] at laid enough
    obtain ⟨node, found, -, next, -⟩ := laid.node
    rw [List.append_cons] at laid
    have less : after.length < rounds s := by
      rw [List.length_append, List.length_cons] at enough
      omega
    have looped := findLoop_found laid item less
    rw [ListCall.apply, listFind, Option.getD_some, found, Option.bind_eq_bind, Option.bind_some, next, looped,
      Entries.searched, Option.getD_some, split, position, drop_split]
    rfl

theorem head_goes (represents : Represents s seq.entries spare) (freed : s.freed = seq.freed) :
    Goes malloc .head s seq := by
  refine .unchanged represents freed ?_ ⟨rfl, rfl⟩
  obtain ⟨node, found, next⟩ := represents.laid.first
  have size := represents.size
  rw [ListCall.apply, listHead, found, Option.map_some, next]
  cases entries : seq.entries with
  | nil =>
    have zero : s.list.size = 0 := by rwa [entries] at size
    rw [if_pos zero]
    rfl
  | cons e rest =>
    rw [entries, List.length_cons] at size
    rw [if_neg (by omega)]
    rfl

theorem tail_goes (represents : Represents s seq.entries spare) (freed : s.freed = seq.freed) :
    Goes malloc .tail s seq := by
  refine .unchanged represents freed ?_ ⟨rfl, rfl⟩
  obtain ⟨node, found, prev⟩ := represents.laid.last
  have size := represents.size
  rw [ListCall.apply, listTail, found, Option.map_some, prev]
  cases entries : seq.entries with
  | nil =>
    have zero : s.list.size = 0 := by rwa [entries] at size
    rw [if_pos zero]
    rfl
  | cons e rest =>
    rw [entries, List.length_cons] at size
    rw [if_neg (by omega), Entries.nodes_cons, List.getLast?_cons_cons]
    rfl

theorem destroy_goes (represents : Represents s seq.entries spare) (freed : s.freed = seq.freed) (freeItem : Bool) :
    Goes malloc (.destroy freeItem) s seq := by
  obtain ⟨s', destroyed, empty, alike, freed'⟩ := listDestroy_found freeItem represents
  refine ⟨.number 0, s', ⟨[], _⟩, [], ?_, ⟨rfl, rfl⟩, empty, alike, ?_⟩
  · rw [ListCall.apply, destroyed]
    rfl
  · rw [freed', freed]

theorem ListCall.goes (represents : Represents s seq.entries spare) (freed : s.freed = seq.freed) (call : ListCall α)
    (onNodes : call.OnNodes s) : Goes malloc call s seq := by
  cases call with
  | addHead room item => exact addHead_goes represents freed room item
  | addTail room item => exact addTail_goes represents freed room item
  | addBefore room item anode => exact addBefore_goes represents freed room item anode onNodes
  | addAfter room item bnode => exact addAfter_goes represents freed room item bnode onNodes
  | delNode dnode freeItem => exact delNode_goes represents freed dnode freeItem onNodes
  | find start item => exact find_goes represents freed start item onNodes
  | next node => exact next_goes represents freed node onNodes
  | prev node => exact prev_goes represents freed node onNodes
  | head => exact head_goes represents freed
  | tail => exact tail_goes represents freed
  | size =>
    refine .unchanged represents freed rfl ⟨?_, rfl⟩
    rw [listSize, represents.size]
  | destroy freeItem => exact destroy_goes represents freed freeItem

end Calls

/-! ### Runs -/

section Runs
variable [DecidableEq α] {malloc : Malloc (ListNode α)} {s t : ListState α} {seq seq' : Sequence α} {spare : List Nat}

theorem Alike.means (alike : Alike s t) (call : ListCall α) (answer : Answer α) :
    call.Means t.list answer seq seq' ↔ call.Means s.list answer seq seq' := by
  unfold ListCall.Means
  rw [alike.head, alike.tail, alike.freeFunc, alike.cmpFunc]

theorem Alike.explains (alike : Alike s t) {calls : List (ListCall α)} {answers : List (Answer α)} :
    Explains t.list calls answers seq seq' ↔ Explains s.list calls answers seq seq' := by
  induction calls generalizing answers seq with
  | nil =>
    cases answers with
    | nil => exact Iff.rfl
    | cons => exact Iff.rfl
  | cons call calls ih =>
    cases answers with
    | nil => exact Iff.rfl
    | cons answer answers =>
      apply exists_congr
      intro between
      rw [alike.means, ih]

theorem runCalls_found {calls : List (ListCall α)} (represents : Represents s seq.entries spare)
    (freed : s.freed = seq.freed) (onNodes : Along (listStep malloc) (fun call t => call.OnNodes t) calls s) :
    ∃ answers t seq', runCalls malloc calls s = some (answers, t) ∧ Explains s.list calls answers seq seq' ∧
      Refines t seq' := by
  induction calls generalizing s seq spare with
  | nil => exact ⟨[], s, seq, rfl, rfl, represents.refines freed⟩
  | cons call calls ih =>
    obtain ⟨here, later⟩ := onNodes
    obtain ⟨answer, s', between, spare', applied, means, represents', alike, freed'⟩ :=
      @ListCall.goes _ _ malloc _ _ _ represents freed call here
    have stepped : listStep malloc call s = some s' := by
      rw [listStep, applied]
      rfl
    obtain ⟨answers, t, seq', ran, explains, refines⟩ := ih represents' freed' (later s' stepped)
    refine ⟨answer :: answers, t, seq', ?_, ⟨between, means, alike.explains.mp explains⟩, refines⟩
    simp only [runCalls, applied, ran, Option.bind_eq_bind, Option.bind_some]

end Runs

theorem listInit_represents {s : ListState α} {memory : Memory (ListNode α)} {head tail : Nat} (apart : head ≠ tail)
    {cmpFunc : Option (Option α → Option α → Bool)} {freeFunc : Bool}
    (init : listInit memory head tail cmpFunc freeFunc = some s) :
    Represents s [] [] ∧ s.freed = [] ∧ s.list.head = head ∧ s.list.tail = tail := by
  simp only [listInit, store, Option.bind_eq_bind, Option.bind_eq_some_iff, Option.map_eq_some_iff, Option.some.injEq]
    at init
  obtain ⟨memory₁, ⟨headCell, headFound, rfl⟩, memory₂, ⟨tailCell, tailFound, rfl⟩, rfl⟩ := init
  set memory' := (memory.insert head ⟨none, some tail, none⟩).insert tail ⟨some head, none, none⟩ with stored
  have atTail : memory'.lookup tail = some ⟨some head, none, none⟩ := AList.lookup_insert _
  have atHead : memory'.lookup head = some ⟨none, some tail, none⟩ := by
    rw [stored, AList.lookup_insert_ne apart, AList.lookup_insert]
  have chain : Chain (prevOf memory') (nextOf memory') (ringOf head tail []) := by
    refine ⟨⟨?_, ?_, trivial⟩, ⟨?_, ?_, trivial⟩⟩
    · rw [nextOf, field_found atHead]
      rfl
    · rw [nextOf, field_found atTail]
      rfl
    · rw [prevOf, field_found atTail]
      rfl
    · rw [prevOf, field_found atHead]
      rfl
  refine ⟨⟨⟨⟨chain, trivial, ?_, ?_, fun _ member => absurd member List.not_mem_nil⟩, rfl, rfl⟩, rfl⟩, rfl, rfl, rfl⟩
  · simpa [ringOf] using apart
  · intro a member
    obtain rfl | rfl : a = head ∨ a = tail := by simpa [ringOf] using member
    · rw [atHead]
      rfl
    · rw [atTail]
      rfl

/-- Calls on nodes of a list, from `ListInit` on, return what they would of a sequence of nodes and items. At every
time the list is the sequence: both traversals find its nodes, the size counts them, and what the free list links is no
node of the list. -/
theorem listCalls_refine [DecidableEq α] (malloc : Malloc (ListNode α)) {memory : Memory (ListNode α)} {head tail : Nat}
    (apart : head ≠ tail) (cmpFunc : Option (Option α → Option α → Bool)) (freeFunc : Bool) {s : ListState α}
    (init : listInit memory head tail cmpFunc freeFunc = some s) (calls : List (ListCall α))
    (onNodes : Along (listStep malloc) (fun call t => call.OnNodes t) calls s) :
    ∃ answers t seq, runCalls malloc calls s = some (answers, t) ∧ Explains s.list calls answers ⟨[], []⟩ seq ∧
      Refines t seq := by
  obtain ⟨represents, freed, -⟩ := listInit_represents apart init
  exact @runCalls_found _ _ malloc s ⟨[], []⟩ [] calls represents freed onNodes

def listMemory : Memory (ListNode Nat) := (AList.singleton 1 ⟨none, none, none⟩).insert 2 ⟨none, none, none⟩

def newNode : Option (ListNode Nat) := some ⟨some 7, some 7, some 7⟩

/-- A removed node is used again for the next one. -/
def reusingCalls : List (ListCall Nat) :=
  [.addTail newNode (some 10), .addTail newNode (some 20), .addHead newNode (some 30), .delNode (some 3) true,
    .addAfter none (some 40) (some 5), .find none (some 40), .prev (some 4), .next (some 5), .destroy true]

theorem listCalls_refine_reusing :
    ∃ s answers t seq, listInit listMemory 1 2 none true = some s ∧
      runCalls .behind reusingCalls s = some (answers, t) ∧ Explains s.list reusingCalls answers ⟨[], []⟩ seq ∧
        Refines t seq := by
  have ready : (listInit listMemory 1 2 none true).isSome := by decide
  obtain ⟨s, init⟩ := Option.isSome_iff_exists.mp ready
  have onNodes : ∀ s ∈ listInit listMemory 1 2 none true,
      Along (listStep .behind) (fun call t => call.OnNodes t) reusingCalls s := by decide +kernel
  obtain ⟨answers, t, seq, run⟩ := listCalls_refine .behind (by decide) none true init reusingCalls (onNodes s init)
  exact ⟨s, answers, t, seq, init, run⟩

end Pupnp.ThreadUtil
