import Pupnp.Ixml.AttrLists

/-!
The elements with a tag name, and the lists of nodes that they are returned in. A list of nodes is one of cells in
memory too; it is filled through a pointer to its first cell. There is always memory for a cell.
-/

namespace Pupnp.Ixml.Dom
open Pupnp.Cells Pupnp.CString Pupnp.Linked Nodes

/-! ### nodeList.c -/

/-- `IXML_NodeList`, all NULL after `ixmlNodeList_init` -/
structure ListItem where
  nodeItem : Option Nat := none
  next : Option Nat := none
  deriving DecidableEq, Repr

structure NodeList where
  nList : Option Nat
  items : Memory ListItem

def lastItem (items : Memory ListItem) : Nat → Option Nat → Option Nat → Option (Option Nat)
  | _, p, none => some p
  | 0, _, some _ => none
  | rounds + 1, _, some traverse => do
      let cell ← items.lookup traverse
      lastItem items rounds (some traverse) cell.next

def addToNodeList (malloc : Malloc ListItem) (list : NodeList) (add : Nat) : Option NodeList := do
  let list : NodeList :=
    if list.nList = none then
      let first := malloc.address list.items
      ⟨some first, list.items.insert first {}⟩
    else list
  let first ← list.nList
  let cell ← list.items.lookup first
  if cell.nodeItem = none then
    let items ← store list.items first ({ · with nodeItem := some add })
    some { list with items }
  else do
    let p ← lastItem list.items list.items.keys.length none list.nList
    let newListItem := malloc.address list.items
    let items ← store (list.items.insert newListItem {}) (← p) ({ · with next := some newListItem })
    let items ← store items newListItem ({ · with nodeItem := some add })
    let items ← store items newListItem ({ · with next := none })
    some { list with items }

def nodeListLength (items : Memory ListItem) : Nat → Option Nat → Option Nat
  | _, none => some 0
  | 0, some _ => none
  | rounds + 1, some list => do
      let cell ← items.lookup list
      (nodeListLength items rounds cell.next).map (· + 1)

/-- The loop of `ixmlNodeList_item`: it counts in an `unsigned int`, up to an `unsigned long`. -/
def itemLoop (items : Memory ListItem) (index : UInt64) : Nat → UInt32 → Option Nat → Option (Option Nat)
  | _, _, none => some none
  | 0, _, some _ => none
  | rounds + 1, i, some next => do
      let cell ← items.lookup next
      if i.toNat < index.toNat then itemLoop items index rounds (i + 1) cell.next else some cell.nodeItem

def nodeListItem (list : NodeList) (index : UInt64) : Option (Option Nat) :=
  match list.nList with
  | none => some none
  | some _ => do
      let length ← nodeListLength list.items list.items.keys.length list.nList
      if length - 1 < index.toNat then some none
      else itemLoop list.items index list.items.keys.length 0 list.nList

/-! ### Searches -/

def tagMatches (tagname : List UInt8) (cell : Cell) : Option Bool :=
  (strcmpEq (some tagname) cell.nodeName).map fun same => same || tagname = bytes "*"

def addElement (malloc : Malloc ListItem) (memory : Memory Cell) (tagname : List UInt8) (n : Nat) (list : NodeList) :
    Option NodeList := do
  let cell ← memory.lookup n
  if cell.nodeType = .element then do
    let found ← tagMatches tagname cell
    if found then addToNodeList malloc list n else some list
  else some list

def getElementsRecursive (malloc : Malloc ListItem) (memory : Memory Cell) (tagname : List UInt8) :
    Nat → Option Nat → NodeList → Option NodeList
  | _, none, list => some list
  | 0, some _, _ => none
  | depth + 1, some n, list => do
      let cell ← memory.lookup n
      let list ← addElement malloc memory tagname n list
      let list ← getElementsRecursive malloc memory tagname depth cell.firstChild list
      getElementsRecursive malloc memory tagname depth cell.nextSibling list

def ixmlNodeGetElements (malloc : Malloc ListItem) (memory : Memory Cell) (tagname : List UInt8) (n : Nat)
    (list : NodeList) : Option NodeList := do
  let cell ← memory.lookup n
  let list ← addElement malloc memory tagname n list
  getElementsRecursive malloc memory tagname (cellCount memory) cell.firstChild list

/-- `ixmlDocument_getElementsByTagName`, where these cells are in use before -/
def ixmlDocumentGetElementsByTagName (malloc : Malloc ListItem) (memory : Memory Cell) (items : Memory ListItem)
    (doc : Option Nat) (tagName : Option (List UInt8)) : Option NodeList :=
  match doc, tagName with
  | some doc, some tagName => ixmlNodeGetElements malloc memory tagName doc ⟨none, items⟩
  | _, _ => some ⟨none, items⟩

def ixmlElementGetElementsByTagName (malloc : Malloc ListItem) (memory : Memory Cell) (items : Memory ListItem)
    (element : Option Nat) (tagName : Option (List UInt8)) : Option NodeList :=
  match element, tagName with
  | some element, some tagName => ixmlNodeGetElements malloc memory tagName element ⟨none, items⟩
  | _, _ => some ⟨none, items⟩

/-! ### What is searched for -/

def preorder : Placed → List (Nat × Content)
  | nil => []
  | node label _ children next => label :: (preorder children ++ preorder next)

def Matches (tagname : List UInt8) (content : Content) : Prop :=
  content.nodeType = .element ∧ (content.nodeName = some tagname ∨ tagname = bytes "*")

instance decidableMatches (tagname : List UInt8) (content : Content) : Decidable (Matches tagname content) :=
  inferInstanceAs (Decidable (_ ∧ _))

/-- The elements that match, in document order -/
def matching (tagname : List UInt8) (nodes : Placed) : List Nat :=
  ((preorder nodes).filter fun label => Matches tagname label.2).map Prod.fst

def Named (nodes : Placed) : Prop := ∀ label ∈ preorder nodes, label.2.nodeType = .element → label.2.nodeName ≠ none

instance decidableNamed (nodes : Placed) : Decidable (Named nodes) :=
  inferInstanceAs (Decidable (∀ label ∈ preorder nodes, _))

def nodeItems (items : Memory ListItem) : Nat → Option Nat → Option (List Nat)
  | _, none => some []
  | 0, some _ => none
  | rounds + 1, some list => do
      let cell ← items.lookup list
      let node ← cell.nodeItem
      (nodeItems items rounds cell.next).map (node :: ·)

/-! ### Lists in memory -/

abbrev itemNext (items : Memory ListItem) := field ListItem.next items
abbrev itemNode (items : Memory ListItem) := field ListItem.nodeItem items

structure Filled (list : NodeList) (cells nodes : List Nat) : Prop where
  first : list.nList = cells.head?
  nodup : cells.Nodup
  allocated : ∀ a ∈ cells, (list.items.lookup a).isSome
  follows : Follows (itemNext list.items) cells
  nodes : cells.map (itemNode list.items) = nodes.map some

section Lists
variable {malloc : Malloc ListItem} {list : NodeList} {cells nodes : List Nat}

theorem itemField_found {β : Type} {part : ListItem → Option β} {items : Memory ListItem} {a : Nat} {cell : ListItem}
    (found : items.lookup a = some cell) : field part items a = part cell := by
  rw [field, found, Option.bind_some]

theorem Filled.empty (items : Memory ListItem) : Filled ⟨none, items⟩ [] [] :=
  ⟨rfl, List.nodup_nil, fun _ member => absurd member List.not_mem_nil, trivial, rfl⟩

theorem follows_cell {items : Memory ListItem} {a : Nat} (follows : Follows (itemNext items) (a :: cells))
    (allocated : ∀ b ∈ a :: cells, (items.lookup b).isSome) :
    ∃ cell, items.lookup a = some cell ∧ cell.next = cells.head? ∧ ∀ b ∈ cells, (items.lookup b).isSome := by
  obtain ⟨cell, found⟩ := Option.isSome_iff_exists.mp (allocated a List.mem_cons_self)
  have next := follows.1
  rw [itemNext, itemField_found found] at next
  exact ⟨cell, found, next, fun b member => allocated b (List.mem_cons_of_mem a member)⟩

theorem lastItem_found {items : Memory ListItem} {rounds : Nat} {p : Option Nat} (follows : Follows (itemNext items) cells)
    (allocated : ∀ a ∈ cells, (items.lookup a).isSome) (enough : cells.length ≤ rounds) :
    lastItem items rounds p cells.head? = some (cells.getLast?.or p) := by
  induction cells generalizing rounds p with
  | nil => cases rounds <;> rfl
  | cons a rest ih =>
    cases rounds with
    | zero => cases enough
    | succ rounds =>
      obtain ⟨cell, found, next, others⟩ := follows_cell follows allocated
      have later := @ih rounds (some a) follows.2 others (Nat.le_of_succ_le_succ enough)
      simp only [List.head?_cons, lastItem, found, Option.bind_eq_bind, Option.bind_some, next, later]
      cases rest with
      | nil => rfl
      | cons b rest => rw [List.getLast?_cons_cons, List.getLast?_cons, Option.some_or, Option.some_or]

theorem addToNodeList_first (items : Memory ListItem) (add : Nat) :
    ∃ list' x, addToNodeList malloc ⟨none, items⟩ add = some list' ∧ Filled list' [x] [add] := by
  set x := malloc.address items with address
  have atX : (items.insert x {}).lookup x = some {} := AList.lookup_insert items
  obtain ⟨items', stored, found, -⟩ := store_found atX ({ · with nodeItem := some add })
  refine ⟨⟨some x, items'⟩, x, ?_, ⟨rfl, List.nodup_singleton x, ?_, ⟨?_, trivial⟩, ?_⟩⟩
  · simp only [addToNodeList, if_true, ← address, atX, stored, Option.bind_eq_bind, Option.bind_some]
  · intro a member
    rw [List.mem_singleton.mp member, found]
    rfl
  · rw [itemNext, itemField_found found]
    rfl
  · rw [List.map_singleton, itemNode, itemField_found found]
    rfl

theorem newListItem_stored {items : Memory ListItem} {p x : Nat} (ready : (items.lookup p).isSome)
    (atX : items.lookup x = some {}) (apart : p ≠ x) (add : Nat) :
    ∃ m₁ m₂ m₃, store items p ({ · with next := some x }) = some m₁ ∧
      store m₁ x ({ · with nodeItem := some add }) = some m₂ ∧ store m₂ x ({ · with next := none }) = some m₃ ∧
        (∀ b, (m₃.lookup b).isSome = (items.lookup b).isSome) ∧
          itemNext m₃ = setAt (some p) (some x) (itemNext items) ∧
            itemNode m₃ = setAt (some x) (some add) (itemNode items) := by
  obtain ⟨m₁, stored₁, what₁⟩ := store_stored ready ({ · with next := some x })
  have ready₁ : (m₁.lookup x).isSome := by
    rw [what₁.isSome, atX]
    rfl
  obtain ⟨m₂, stored₂, what₂⟩ := store_stored ready₁ ({ · with nodeItem := some add })
  have ready₂ : (m₂.lookup x).isSome := by rwa [what₂.isSome]
  obtain ⟨m₃, stored₃, what₃⟩ := store_stored ready₂ ({ · with next := none })
  have single {memory : Memory ListItem} {b : Nat} (isSome : (memory.lookup b).isSome) :
      ∀ c ∈ some b, (memory.lookup c).isSome := by
    rintro c ⟨⟩
    exact isSome
  refine ⟨m₁, m₂, m₃, stored₁, stored₂, stored₃, fun b => ?_, ?_, ?_⟩
  · rw [what₃.isSome, what₂.isSome, what₁.isSome]
  · have next₁ : itemNext m₁ = _ := what₁.field_set (single ready) fun _ => rfl
    rw [itemNext, what₃.field_set (single ready₂) fun _ => rfl, what₂.field_same fun _ => rfl]
    change setAt (some x) none (itemNext m₁) = _
    rw [next₁, setAt_idle]
    rw [setAt_other fun same => apart (Option.some.inj same)]
    exact itemField_found atX
  · rw [itemNode, what₃.field_same fun _ => rfl, what₂.field_set (single ready₁) fun _ => rfl,
      what₁.field_same fun _ => rfl]

theorem addToNodeList_filled (filled : Filled list cells nodes) (add : Nat) :
    ∃ list' x, addToNodeList malloc list add = some list' ∧ Filled list' (cells ++ [x]) (nodes ++ [add]) := by
  obtain ⟨nList, items⟩ := list
  obtain ⟨first, nodup, allocated, follows, held⟩ := filled
  cases cells with
  | nil =>
    obtain rfl := List.map_eq_nil_iff.mp held.symm
    obtain rfl : nList = none := first
    exact addToNodeList_first items add
  | cons a rest =>
    obtain rfl : nList = some a := first
    obtain ⟨cell, found⟩ := Option.isSome_iff_exists.mp (allocated a List.mem_cons_self)
    have holds : cell.nodeItem ≠ none := by
      cases nodes with
      | nil => cases held
      | cons node nodes =>
        have here := (List.cons.inj held).1
        rw [itemNode, itemField_found found] at here
        rw [here]
        exact Option.some_ne_none node
    obtain ⟨p, last⟩ : ∃ p, (a :: rest).getLast? = some p := Option.isSome_iff_exists.mp (by simp)
    have behind := @lastItem_found _ items _ none follows allocated (length_le_keys nodup allocated)
    rw [List.head?_cons, last, Option.some_or] at behind
    have absent := malloc.fresh items
    set x := malloc.address items with address
    have new : x ∉ a :: rest := by
      intro member
      have isSome := allocated x member
      rw [absent] at isSome
      cases isSome
    have atP : p ∈ a :: rest := List.mem_of_getLast? last
    have same : ∀ b ∈ a :: rest, (items.insert x {}).lookup b = items.lookup b :=
      fun b member => AList.lookup_insert_ne fun here => new (here ▸ member)
    have atX : (items.insert x {}).lookup x = some {} := AList.lookup_insert items
    have ready : (items.insert x {}).lookup p |>.isSome := by
      rw [same p atP]
      exact allocated p atP
    obtain ⟨m₁, m₂, m₃, stored₁, stored₂, stored₃, kept, nexts, nodes_⟩ :=
      newListItem_stored ready atX (ne_of_mem_of_not_mem atP new) add
    have noNext : itemNext (items.insert x {}) x = none := itemField_found atX
    have longer : (a :: rest ++ [x]).Nodup := by
      refine List.nodup_append.mpr ⟨nodup, List.nodup_singleton x, fun b member c here => ?_⟩
      rw [List.mem_singleton.mp here]
      exact ne_of_mem_of_not_mem member new
    refine ⟨⟨some a, m₃⟩, x, ?_, ⟨rfl, ?_, ?_, ?_, ?_⟩⟩
    · simp only [addToNodeList, reduceCtorEq, if_false, found, holds, behind, ← address, stored₁, stored₂, stored₃,
        Option.bind_eq_bind, Option.bind_some]
    · exact longer
    · intro b member
      rw [kept]
      rcases List.mem_append.mp member with old | here
      · rw [same b old]
        exact allocated b old
      · rw [List.mem_singleton.mp here, atX]
        rfl
    · rw [nexts, ← last]
      refine Follows.concat (follows.congr fun b member => ?_) longer noNext
      rw [itemNext, itemNext, field, field, same b member]
    · rw [nodes_, List.map_append, List.map_append, List.map_singleton, List.map_singleton, setAt_same, ← held]
      congr 1
      refine List.map_congr_left fun b member => ?_
      have other : some x ≠ some b := by
        intro here
        rw [← Option.some.inj here] at member
        exact new member
      rw [setAt_other other, itemNode, itemNode, field, field, same b member]

theorem nodeListLength_follows {items : Memory ListItem} {rounds : Nat} (follows : Follows (itemNext items) cells)
    (allocated : ∀ a ∈ cells, (items.lookup a).isSome) (enough : cells.length ≤ rounds) :
    nodeListLength items rounds cells.head? = some cells.length := by
  induction cells generalizing rounds with
  | nil => cases rounds <;> rfl
  | cons a rest ih =>
    cases rounds with
    | zero => cases enough
    | succ rounds =>
      obtain ⟨cell, found, next, others⟩ := follows_cell follows allocated
      have later := ih follows.2 others (Nat.le_of_succ_le_succ enough)
      rw [List.head?_cons, nodeListLength, found]
      simp only [Option.bind_eq_bind, Option.bind_some, next, later, Option.map_some, List.length_cons]

theorem itemLoop_follows {items : Memory ListItem} {index : UInt64} {rounds : Nat} {i : UInt32}
    (follows : Follows (itemNext items) cells) (allocated : ∀ a ∈ cells, (items.lookup a).isSome)
    (enough : cells.length ≤ rounds) (small : index.toNat < 2 ^ 32) (before : i.toNat ≤ index.toNat) :
    itemLoop items index rounds i cells.head? = some (cells[index.toNat - i.toNat]?.bind (itemNode items)) := by
  induction cells generalizing rounds i with
  | nil => cases rounds <;> rfl
  | cons a rest ih =>
    obtain ⟨cell, found, next, others⟩ := follows_cell follows allocated
    cases rounds with
    | zero => cases enough
    | succ rounds =>
      rw [List.head?_cons, itemLoop, found]
      simp only [Option.bind_eq_bind, Option.bind_some]
      by_cases behind : i.toNat < index.toNat
      · have step : (i + 1).toNat = i.toNat + 1 := by
          rw [UInt32.toNat_add, UInt32.toNat_one, Nat.mod_eq_of_lt (by omega)]
        have later := ih follows.2 others (Nat.le_of_succ_le_succ enough) (i := i + 1) (by omega)
        rw [if_pos behind, next, later, step, show index.toNat - i.toNat = index.toNat - (i.toNat + 1) + 1 by omega,
          List.getElem?_cons_succ]
      · rw [if_neg behind, Nat.sub_eq_zero_of_le (Nat.le_of_not_lt behind), List.getElem?_cons_zero, Option.bind_some,
          itemNode, itemField_found found]

/-- The counter never reaches an index of 2^32 or more, and the loop runs to the end of the list. -/
theorem itemLoop_far {items : Memory ListItem} {index : UInt64} {rounds : Nat} {i : UInt32}
    (follows : Follows (itemNext items) cells) (allocated : ∀ a ∈ cells, (items.lookup a).isSome)
    (enough : cells.length ≤ rounds) (far : 2 ^ 32 ≤ index.toNat) :
    itemLoop items index rounds i cells.head? = some none := by
  induction cells generalizing rounds i with
  | nil => cases rounds <;> rfl
  | cons a rest ih =>
    obtain ⟨cell, found, next, others⟩ := follows_cell follows allocated
    cases rounds with
    | zero => cases enough
    | succ rounds =>
      have behind : i.toNat < index.toNat := Nat.lt_of_lt_of_le i.toNat_lt far
      rw [List.head?_cons, itemLoop, found]
      simp only [Option.bind_eq_bind, Option.bind_some]
      rw [if_pos behind, next]
      exact ih follows.2 others (Nat.le_of_succ_le_succ enough)

theorem nodeItems_follows {items : Memory ListItem} {rounds : Nat} (follows : Follows (itemNext items) cells)
    (allocated : ∀ a ∈ cells, (items.lookup a).isSome) (held : cells.map (itemNode items) = nodes.map some)
    (enough : cells.length ≤ rounds) : nodeItems items rounds cells.head? = some nodes := by
  induction cells generalizing rounds nodes with
  | nil =>
    obtain rfl := List.map_eq_nil_iff.mp held.symm
    cases rounds <;> rfl
  | cons a rest ih =>
    cases nodes with
    | nil => cases held
    | cons node nodes =>
      obtain ⟨here, held'⟩ := List.cons.inj held
      cases rounds with
      | zero => cases enough
      | succ rounds =>
        obtain ⟨cell, found, next, others⟩ := follows_cell follows allocated
        rw [itemNode, itemField_found found] at here
        have later := ih follows.2 others held' (Nat.le_of_succ_le_succ enough)
        rw [List.head?_cons, nodeItems, found]
        simp only [Option.bind_eq_bind, Option.bind_some, here, next, later, Option.map_some]

def Lists (list : NodeList) (nodes : List Nat) : Prop := ∃ cells, Filled list cells nodes

theorem Lists.nodeItems (lists : Lists list nodes) :
    nodeItems list.items list.items.keys.length list.nList = some nodes := by
  obtain ⟨cells, first, nodup, allocated, follows, held⟩ := lists
  rw [first]
  exact nodeItems_follows follows allocated held (length_le_keys nodup allocated)

theorem Lists.nList (lists : Lists list nodes) : list.nList = none ↔ nodes = [] := by
  obtain ⟨cells, first, -, -, -, held⟩ := lists
  rw [first, List.head?_eq_none_iff]
  constructor
  · rintro rfl
    exact List.map_eq_nil_iff.mp held.symm
  · rintro rfl
    exact List.map_eq_nil_iff.mp held

theorem Lists.item (lists : Lists list nodes) (index : UInt64) :
    nodeListItem list index = some (if index.toNat < 2 ^ 32 then nodes[index.toNat]? else none) := by
  obtain ⟨cells, first, nodup, allocated, follows, held⟩ := lists
  have length : cells.length = nodes.length := by
    have lengths := congrArg List.length held
    rwa [List.length_map, List.length_map] at lengths
  have enough := length_le_keys nodup allocated
  have along := nodeListLength_follows follows allocated enough
  have there : cells[index.toNat]?.bind (itemNode list.items) = nodes[index.toNat]? := by
    have at_ := congrArg (·[index.toNat]?) held
    simp only [List.getElem?_map] at at_
    cases inCells : cells[index.toNat]? <;> cases inNodes : nodes[index.toNat]? <;> simp_all
  have loop : itemLoop list.items index list.items.keys.length 0 cells.head? =
      some (if index.toNat < 2 ^ 32 then nodes[index.toNat]? else none) := by
    by_cases small : index.toNat < 2 ^ 32
    · have reached := itemLoop_follows follows allocated enough small (i := 0) (Nat.zero_le _)
      rw [UInt32.toNat_zero, Nat.sub_zero, there] at reached
      rw [reached, if_pos small]
    · rw [itemLoop_far follows allocated enough (Nat.le_of_not_lt small), if_neg small]
  unfold nodeListItem
  cases cells with
  | nil =>
    obtain rfl := List.map_eq_nil_iff.mp held.symm
    rw [first, List.getElem?_nil, ite_self]
    rfl
  | cons a rest =>
    rw [first]
    rw [List.head?_cons] at along loop ⊢
    simp only [along, Option.bind_eq_bind, Option.bind_some]
    split
    next beyond =>
      rw [List.getElem?_eq_none (by omega), ite_self]
    next => exact loop

end Lists

/-! ### The searches -/

section Searches
variable {malloc : Malloc ListItem} {memory : Memory Cell} {list : NodeList} {nodes : List Nat} {tagname : List UInt8}

theorem matching_node (label : Nat × Content) (attrs children next : Placed) :
    matching tagname (node label attrs children next) =
      (if Matches tagname label.2 then [label.1] else []) ++ (matching tagname children ++ matching tagname next) := by
  unfold matching
  rw [preorder, List.filter_cons, List.filter_append]
  split
  next same => rw [if_pos (of_decide_eq_true same), List.map_cons, List.map_append, List.singleton_append]
  next other => rw [if_neg (fun same => other (decide_eq_true same)), List.map_append, List.nil_append]

theorem Named.node {label : Nat × Content} {attrs children next : Placed}
    (named : Named (node label attrs children next)) :
    (label.2.nodeType = .element → label.2.nodeName ≠ none) ∧ Named children ∧ Named next := by
  refine ⟨named label List.mem_cons_self, fun other member => ?_, fun other member => ?_⟩
  · exact named other (List.mem_cons_of_mem _ (List.mem_append_left _ member))
  · exact named other (List.mem_cons_of_mem _ (List.mem_append_right _ member))

theorem addElement_lists {label : Nat × Content} {links : Links} (holds : Holds memory label links)
    (named : label.2.nodeType = .element → label.2.nodeName ≠ none) (lists : Lists list nodes) :
    ∃ list', addElement malloc memory tagname label.1 list = some list' ∧
      Lists list' (nodes ++ if Matches tagname label.2 then [label.1] else []) := by
  obtain ⟨cell, found, content, -⟩ := holds
  rw [← content] at named ⊢
  simp only [addElement, found, Option.bind_eq_bind, Option.bind_some]
  by_cases element : cell.nodeType = .element
  · obtain ⟨name, hasName⟩ := Option.ne_none_iff_exists'.mp (named element)
    have compared : tagMatches tagname cell = some (decide (tagname = name) || tagname = bytes "*") := by
      rw [tagMatches, hasName]
      rfl
    rw [if_pos element, compared, Option.bind_some]
    have means : (decide (tagname = name) || decide (tagname = bytes "*")) = true ↔ Matches tagname cell.toContent := by
      rw [Bool.or_eq_true, decide_eq_true_iff, decide_eq_true_iff, Matches, hasName, Option.some.injEq, eq_comm]
      exact ⟨fun same => ⟨element, same⟩, And.right⟩
    split
    next same =>
      rw [if_pos (means.mp same)]
      obtain ⟨cells, filled⟩ := lists
      obtain ⟨list', x, added, filled'⟩ := addToNodeList_filled filled label.1
      exact ⟨list', added, cells ++ [x], filled'⟩
    next other =>
      rw [if_neg fun same => other (means.mpr same), List.append_nil]
      exact ⟨list, rfl, lists⟩
  · rw [if_neg element, if_neg fun same => element same.1, List.append_nil]
    exact ⟨list, rfl, lists⟩

theorem getElementsRecursive_lists {placed : Placed} {parent prev : Option Nat} {depth : Nat}
    (stands : Stands memory parent prev placed) (named : Named placed) (deep : placed.size ≤ depth)
    (lists : Lists list nodes) :
    ∃ list', getElementsRecursive malloc memory tagname depth placed.head list = some list' ∧
      Lists list' (nodes ++ matching tagname placed) := by
  induction placed generalizing parent prev depth list nodes with
  | nil =>
    refine ⟨list, by cases depth <;> rfl, ?_⟩
    rwa [matching, preorder, List.filter_nil, List.map_nil, List.append_nil]
  | node label attrs children next _ childrenIh nextIh =>
    cases depth with
    | zero => cases deep
    | succ depth =>
      obtain ⟨holds, -, childrenStand, nextStands⟩ := stands
      obtain ⟨here, childrenNamed, nextNamed⟩ := named.node
      rw [size] at deep
      obtain ⟨list₁, added, lists₁⟩ := @addElement_lists malloc _ _ _ tagname _ _ holds here lists
      obtain ⟨list₂, below, lists₂⟩ := childrenIh childrenStand childrenNamed (by omega : _ ≤ depth) lists₁
      obtain ⟨list₃, behind, lists₃⟩ := nextIh nextStands nextNamed (by omega : _ ≤ depth) lists₂
      obtain ⟨cell, found, -, links⟩ := holds
      have first : cell.firstChild = children.head := congrArg Links.firstChild links
      have sibling : cell.nextSibling = next.head := congrArg Links.nextSibling links
      refine ⟨list₃, ?_, ?_⟩
      · rw [head, getElementsRecursive, found]
        simp only [added, first, sibling, below, behind, Option.bind_eq_bind, Option.bind_some]
      · rwa [matching_node, ← List.append_assoc, ← List.append_assoc]

theorem ixmlNodeGetElements_lists {label : Nat × Content} {attrs children next : Placed} {parent prev : Option Nat}
    (stands : Stands memory parent prev (node label attrs children next))
    (nodup : (node label attrs children next).addresses.Nodup) (named : Named (node label attrs children nil))
    (items : Memory ListItem) :
    ∃ list, ixmlNodeGetElements malloc memory tagname label.1 ⟨none, items⟩ = some list ∧
      Lists list (matching tagname (node label attrs children nil)) := by
  have childrenNodup : children.addresses.Nodup := by
    have parts := (List.nodup_append.mp (List.nodup_cons.mp nodup).2).2.1
    exact (List.nodup_append.mp parts).1
  obtain ⟨holds, -, childrenStand, -⟩ := stands
  obtain ⟨here, childrenNamed, -⟩ := named.node
  have deep : children.size ≤ cellCount memory := by
    rw [← Nodes.addresses_length]
    apply cellCount_le childrenNodup
    intro a member
    exact Option.isSome_iff_exists.mpr (childrenStand.found member)
  obtain ⟨list₁, added, lists₁⟩ := @addElement_lists malloc _ _ _ tagname _ _ holds here ⟨[], Filled.empty items⟩
  obtain ⟨list₂, below, lists₂⟩ := @getElementsRecursive_lists malloc _ _ _ tagname _ _ _ _ childrenStand childrenNamed
    deep lists₁
  obtain ⟨cell, found, -, links⟩ := holds
  have first : cell.firstChild = children.head := congrArg Links.firstChild links
  refine ⟨list₂, ?_, ?_⟩
  · simp only [ixmlNodeGetElements, found, added, first, below, Option.bind_eq_bind, Option.bind_some]
  · rw [matching_node, ← List.append_assoc]
    simpa [matching, preorder] using lists₂

theorem preorder_sublist (placed : Placed) : ((preorder placed).map Prod.fst).Sublist placed.addresses := by
  induction placed with
  | nil => exact List.Sublist.slnil
  | node label attrs children next _ childrenIh nextIh =>
    rw [preorder, addresses, List.map_cons, List.map_append]
    exact ((childrenIh.append nextIh).trans (List.sublist_append_right _ _)).cons_cons _

theorem matching_nodup {placed : Placed} (nodup : placed.addresses.Nodup) : (matching tagname placed).Nodup :=
  ((List.filter_sublist.map Prod.fst).trans (preorder_sublist placed)).nodup nodup

/-- The elements of the tree that match are returned in document order, each once. -/
theorem getElementsByTagName_exact {label : Nat × Content} {attrs children next : Placed} {parent prev : Option Nat}
    (stands : Stands memory parent prev (node label attrs children next))
    (nodup : (node label attrs children next).addresses.Nodup) (named : Named (node label attrs children nil))
    (items : Memory ListItem) (tagName : List UInt8) :
    ∃ list, ixmlDocumentGetElementsByTagName malloc memory items (some label.1) (some tagName) = some list ∧
      ixmlElementGetElementsByTagName malloc memory items (some label.1) (some tagName) = some list ∧
      nodeItems list.items list.items.keys.length list.nList = some (matching tagName (node label attrs children nil)) ∧
      (matching tagName (node label attrs children nil)).Nodup ∧
      (list.nList = none ↔ matching tagName (node label attrs children nil) = []) ∧
      ∀ index, nodeListItem list index = some (if index.toNat < 2 ^ 32 then
        (matching tagName (node label attrs children nil))[index.toNat]? else none) := by
  obtain ⟨list, searched, lists⟩ := @ixmlNodeGetElements_lists malloc _ tagName _ _ _ _ _ _ stands nodup named items
  have alone : (node label attrs children nil).addresses.Nodup := by
    refine List.Nodup.sublist ?_ nodup
    rw [addresses, addresses]
    exact ((List.Sublist.refl _).append ((List.Sublist.refl _).append (List.nil_sublist _))).cons_cons _
  exact ⟨list, searched, searched, lists.nodeItems, matching_nodup alone, lists.nList, lists.item⟩

/-- Below a document: two elements of one name and another one inside. -/
def namedTree : Placed :=
  node (1, { nodeType := .document }) nil
    (node (2, { nodeType := .element, nodeName := some [97] }) nil
      (node (3, { nodeType := .element, nodeName := some [98] }) nil
        (node (4, { nodeType := .element, nodeName := some [97] }) nil nil nil) nil)
      (node (5, { nodeType := .text }) nil nil nil)) nil

theorem getElementsByTagName_namedTree :
    ∃ list, ixmlDocumentGetElementsByTagName Malloc.behind (laidOut ∅ none none namedTree) ∅ (some 1) (some [97]) =
        some list ∧
      nodeItems list.items list.items.keys.length list.nList = some [2, 4] := by
  obtain ⟨list, searched, -, nodes, -⟩ := @getElementsByTagName_exact .behind _ _ _ _ _ _ _
    (@laidOut_stands ∅ none none namedTree (by decide)) (by decide) (by decide) ∅ [97]
  exact ⟨list, searched, nodes⟩

end Searches

end Pupnp.Ixml.Dom
