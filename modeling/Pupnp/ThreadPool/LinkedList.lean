import Pupnp.Library.Cells

/-!
The linked lists that the timer, the thread pool and the queues of events are built on. The nodes of a list are cells
of memory; the cells of removed ones are kept in a free list, which links them through the field that is `prev` in a
list. There is no result where NULL or a cell that is not allocated would be read or written.
-/

namespace Pupnp.ThreadUtil
open Pupnp.Cells Pupnp.Linked

variable {α : Type}

/-- `ListNode`; items are pointers, and `none` is NULL. -/
structure ListNode (α : Type) where
  prev : Option Nat
  next : Option Nat
  item : Option α
  deriving DecidableEq, Repr

structure FreeList where
  head : Option Nat
  maxFreeListLength : Int
  freeListLength : Int
  deriving DecidableEq, Repr

def FREELISTSIZE : Int := 100

/-- `LinkedList`; `head` and `tail` are where its two nodes are. -/
structure LinkedList (α : Type) where
  head : Nat
  tail : Nat
  size : Int
  freeNodeList : FreeList
  freeFunc : Bool
  cmpFunc : Option (Option α → Option α → Bool)

/-- A list, and the items that its `free_func` was called with. -/
structure ListState (α : Type) where
  memory : Memory (ListNode α)
  list : LinkedList α
  freed : List (Option α)

abbrev prevOf (memory : Memory (ListNode α)) := field ListNode.prev memory
abbrev nextOf (memory : Memory (ListNode α)) := field ListNode.next memory
abbrev itemOf (memory : Memory (ListNode α)) := field (fun node => some node.item) memory

def rounds (s : ListState α) : Nat := s.memory.keys.length + 1

/-! ### FreeList.c -/

def freeListInit (maxFreeListLength : Int) : FreeList := ⟨none, maxFreeListLength, 0⟩

/-- `FreeListAlloc`; `room` is `none` if there is no memory, and otherwise what is in it. -/
def freeListAlloc (malloc : Malloc (ListNode α)) (room : Option (ListNode α)) (s : ListState α) :
    Option (Option Nat × ListState α) :=
  let freeList := s.list.freeNodeList
  match freeList.head with
  | some ret => do
      let node ← s.memory.lookup ret
      let freeList := { freeList with head := node.prev, freeListLength := freeList.freeListLength - 1 }
      some (some ret, { s with list := { s.list with freeNodeList := freeList } })
  | none =>
      match room with
      | none => some (none, s)
      | some content =>
          let ret := malloc.address s.memory
          some (some ret, { s with memory := s.memory.insert ret content })

def freeCell (s : ListState α) (a : Nat) : Option (ListState α) :=
  (s.memory.lookup a).map fun _ => { s with memory := s.memory.erase a }

def freeListFree (s : ListState α) (element : Nat) : Option (ListState α) :=
  let freeList := s.list.freeNodeList
  if freeList.freeListLength + 1 < freeList.maxFreeListLength then do
    let memory ← store s.memory element fun node => { node with prev := freeList.head }
    let freeList := { freeList with head := some element, freeListLength := freeList.freeListLength + 1 }
    some { s with memory := memory, list := { s.list with freeNodeList := freeList } }
  else freeCell s element

def freeListLoop : Nat → ListState α → Option (ListState α)
  | 0, _ => none
  | fuel + 1, s =>
      match s.list.freeNodeList.head with
      | none => some s
      | some a => do
          let node ← s.memory.lookup a
          let s ← freeCell s a
          freeListLoop fuel { s with list.freeNodeList.head := node.prev }

def freeListDestroy (s : ListState α) : Option (ListState α) :=
  (freeListLoop (rounds s) s).map fun s => { s with list.freeNodeList.freeListLength := 0 }

/-! ### LinkedList.c -/

/-- `ListInit` of the list with its nodes at these addresses -/
def listInit (memory : Memory (ListNode α)) (head tail : Nat) (cmpFunc : Option (Option α → Option α → Bool))
    (freeFunc : Bool) : Option (ListState α) := do
  let memory ← store memory head fun _ => ⟨none, some tail, none⟩
  let memory ← store memory tail fun _ => ⟨some head, none, none⟩
  some ⟨memory, ⟨head, tail, 0, freeListInit FREELISTSIZE, freeFunc, cmpFunc⟩, []⟩

def createListNode (malloc : Malloc (ListNode α)) (room : Option (ListNode α)) (item : Option α) (s : ListState α) :
    Option (Option Nat × ListState α) := do
  let (temp, s) ← freeListAlloc malloc room s
  match temp with
  | none => some (none, s)
  | some temp =>
      let memory ← store s.memory temp fun _ => ⟨none, none, item⟩
      some (some temp, { s with memory })

def linkAfter (memory : Memory (ListNode α)) (newNode bnode : Nat) : Option (Memory (ListNode α)) := do
  let node ← memory.lookup bnode
  let memory ← store memory bnode ({ · with next := some newNode })
  let memory ← store memory newNode ({ · with prev := some bnode })
  let memory ← store memory newNode ({ · with next := node.next })
  let temp ← node.next
  store memory temp ({ · with prev := some newNode })

def listAddAfter (malloc : Malloc (ListNode α)) (room : Option (ListNode α)) (item : Option α) (bnode : Option Nat)
    (s : ListState α) : Option (Option Nat × ListState α) :=
  match bnode with
  | none => some (none, s)
  | some bnode => do
      let (newNode, s) ← createListNode malloc room item s
      match newNode with
      | none => some (none, s)
      | some newNode =>
          let memory ← linkAfter s.memory newNode bnode
          some (some newNode, { s with memory, list.size := s.list.size + 1 })

def linkBefore (memory : Memory (ListNode α)) (newNode anode : Nat) : Option (Memory (ListNode α)) := do
  let node ← memory.lookup anode
  let memory ← store memory anode ({ · with prev := some newNode })
  let memory ← store memory newNode ({ · with next := some anode })
  let memory ← store memory newNode ({ · with prev := node.prev })
  let temp ← node.prev
  store memory temp ({ · with next := some newNode })

def listAddBefore (malloc : Malloc (ListNode α)) (room : Option (ListNode α)) (item : Option α) (anode : Option Nat)
    (s : ListState α) : Option (Option Nat × ListState α) :=
  match anode with
  | none => some (none, s)
  | some anode => do
      let (newNode, s) ← createListNode malloc room item s
      match newNode with
      | none => some (none, s)
      | some newNode =>
          let memory ← linkBefore s.memory newNode anode
          some (some newNode, { s with memory, list.size := s.list.size + 1 })

def listAddHead (malloc : Malloc (ListNode α)) (room : Option (ListNode α)) (item : Option α) (s : ListState α) :
    Option (Option Nat × ListState α) := listAddAfter malloc room item (some s.list.head) s

def listAddTail (malloc : Malloc (ListNode α)) (room : Option (ListNode α)) (item : Option α) (s : ListState α) :
    Option (Option Nat × ListState α) := listAddBefore malloc room item (some s.list.tail) s

def unlink (memory : Memory (ListNode α)) (dnode : Nat) : Option (Memory (ListNode α)) := do
  let node ← memory.lookup dnode
  let before ← node.prev
  let memory ← store memory before ({ · with next := node.next })
  let node ← memory.lookup dnode
  let behind ← node.next
  store memory behind ({ · with prev := node.prev })

def listDelNode (dnode : Option Nat) (freeItem : Bool) (s : ListState α) : Option (Option α × ListState α) :=
  match dnode with
  | none => some (none, s)
  | some dnode =>
      if dnode = s.list.head || dnode = s.list.tail then some (none, s)
      else do
        let node ← s.memory.lookup dnode
        let memory ← unlink s.memory dnode
        let s ← freeListFree { s with memory } dnode
        let s := { s with list.size := s.list.size - 1 }
        if freeItem && s.list.freeFunc then some (none, { s with freed := s.freed ++ [node.item] })
        else some (node.item, s)

def destroyLoop (freeItem : Bool) : Nat → Option Nat → ListState α → Option (ListState α)
  | 0, _, _ => none
  | fuel + 1, dnode, s =>
      if dnode = some s.list.tail then some s
      else do
        let a ← dnode
        let node ← s.memory.lookup a
        let (_, s) ← listDelNode dnode freeItem s
        destroyLoop freeItem fuel node.next s

def listDestroy (freeItem : Bool) (s : ListState α) : Option (ListState α) := do
  let head ← s.memory.lookup s.list.head
  let s ← destroyLoop freeItem (rounds s) head.next s
  freeListDestroy { s with list.size := 0 }

def listHead (s : ListState α) : Option (Option Nat) :=
  if s.list.size = 0 then some none else (s.memory.lookup s.list.head).map (·.next)

def listTail (s : ListState α) : Option (Option Nat) :=
  if s.list.size = 0 then some none else (s.memory.lookup s.list.tail).map (·.prev)

def listNext (node : Option Nat) (s : ListState α) : Option (Option Nat) :=
  match node with
  | none => some none
  | some a => (s.memory.lookup a).map fun node => if node.next = some s.list.tail then none else node.next

def listPrev (node : Option Nat) (s : ListState α) : Option (Option Nat) :=
  match node with
  | none => some none
  | some a => (s.memory.lookup a).map fun node => if node.prev = some s.list.head then none else node.prev

section Find
variable [DecidableEq α]

def stopsAt (cmpFunc : Option (Option α → Option α → Bool)) (item found : Option α) : Bool :=
  match cmpFunc with
  | some cmpFunc => cmpFunc item found
  | none => item = found

def findLoop (item : Option α) (s : ListState α) : Nat → Option Nat → Option (Option Nat)
  | 0, _ => none
  | fuel + 1, finger =>
      if finger = some s.list.tail then some none
      else do
        let a ← finger
        let node ← s.memory.lookup a
        if stopsAt s.list.cmpFunc item node.item then some (some a) else findLoop item s fuel node.next

def listFind (start : Option Nat) (item : Option α) (s : ListState α) : Option (Option Nat) := do
  let start ← s.memory.lookup (start.getD s.list.head)
  findLoop item s (rounds s) start.next

end Find

def listSize (s : ListState α) : Int := s.list.size

end Pupnp.ThreadUtil
