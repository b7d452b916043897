import Pupnp.Ixml.Dom

/-!
Freeing a tree: the loops of today, which go down to a node without children and later siblings, free it and
go back over the link that led to it, and the recursion that they replace.
-/

namespace Pupnp.Ixml.Dom
open Pupnp.Cells

structure Heaped where
  memory : Memory Cell
  freed : List Nat

def freeSingleNode (state : Heaped) (nodeptr : Nat) : Option Heaped :=
  (state.memory.lookup nodeptr).map fun _ => ⟨state.memory.erase nodeptr, state.freed ++ [nodeptr]⟩

/-! ### The recursion -/

/-- `ixmlNode_recursive_free` with bounded depth. Its calls of `ixmlNode_free`, as it was named, are to itself. -/
def recursiveFree : Nat → Heaped → Option Nat → Option Heaped
  | _, state, none => some state
  | 0, _, some _ => none
  | depth + 1, state, some nodeptr => do
      let node ← state.memory.lookup nodeptr
      let state ← recursiveFree depth state node.firstChild
      let node ← state.memory.lookup nodeptr
      let state ← recursiveFree depth state node.nextSibling
      let node ← state.memory.lookup nodeptr
      let state ← recursiveFree depth state node.firstAttr
      freeSingleNode state nodeptr

/-! ### The loops -/

/-- The last node along a link, by the two loops over `curr_child` and `prev_child`. -/
def lastAlong (link : Cell → Option Nat) : Nat → Memory Cell → Option Nat → Nat → Option Nat
  | _, _, none, prev_child => some prev_child
  | 0, _, some _, _ => none
  | depth + 1, memory, some curr_child, _ => do
      let node ← memory.lookup curr_child
      lastAlong link depth memory (link node) curr_child

/-- The loop that ends at a node without children: along the first children, then along the siblings. -/
def lastChild (limit : Nat) : Nat → Memory Cell → Option Nat → Nat → Option Nat
  | 0, _, _, _ => none
  | depth + 1, memory, curr_child, prev_child => do
      let prev_child ← lastAlong (·.firstChild) limit memory curr_child prev_child
      let prev_child ← lastAlong (·.nextSibling) limit memory (some prev_child) prev_child
      let node ← memory.lookup prev_child
      if node.firstChild = none then some prev_child
      else lastChild limit depth memory (some prev_child) prev_child

def freeAttrs : Nat → Heaped → Option Nat → Option Heaped
  | _, state, none => some state
  | 0, _, some _ => none
  | depth + 1, state, some curr_attr => do
      let node ← state.memory.lookup curr_attr
      let state ← freeSingleNode state curr_attr
      freeAttrs depth state node.nextSibling

/-- The link to a node is cleared where it comes from, a sibling or else the parent, which is next. -/
def unlink (memory : Memory Cell) (curr_child : Nat) : Option (Nat × Memory Cell) := do
  let node ← memory.lookup curr_child
  match node.prevSibling with
  | some next_child => do
      let memory ← store memory next_child ({ · with nextSibling := none })
      some (next_child, memory)
  | none => do
      let next_child ← node.parentNode
      let memory ← store memory next_child ({ · with firstChild := none })
      some (next_child, memory)

def freeLoop (limit nodeptr : Nat) : Nat → Heaped → Option Nat → Nat → Option Heaped
  | 0, _, _, _ => none
  | depth + 1, state, next_child, prev_child => do
      let curr_child ← lastChild limit limit state.memory next_child prev_child
      let node ← state.memory.lookup curr_child
      let state ← freeAttrs limit state node.firstAttr
      let memory ← store state.memory curr_child ({ · with firstAttr := none })
      if curr_child = nodeptr then freeSingleNode ⟨memory, state.freed⟩ curr_child
      else
        let (next_child, memory) ← unlink memory curr_child
        let state ← freeSingleNode ⟨memory, state.freed⟩ curr_child
        freeLoop limit nodeptr depth state (some next_child) curr_child

def ixmlNodeFree (limit : Nat) (memory : Memory Cell) : Option Nat → Option Heaped
  | none => some ⟨memory, []⟩
  | some nodeptr => do
      let node ← memory.lookup nodeptr
      freeLoop limit nodeptr limit ⟨memory, []⟩ node.firstChild nodeptr

/-! ### A place in the tree -/

open Nodes

/-- What stands around a part of a tree: a node whose children are that part, or whose later siblings are. -/
inductive Frame where
  | child (label : Nat × Content) (attrs next : Placed)
  | sibling (label : Nat × Content) (attrs children : Placed)

namespace Frame

def label : Frame → Nat × Content
  | child label _ _ => label
  | sibling label _ _ => label

def addresses : Frame → List Nat
  | child label attrs next => label.1 :: (attrs.addresses ++ next.addresses)
  | sibling label attrs children => label.1 :: (attrs.addresses ++ children.addresses)

def close : Frame → Placed
  | child label attrs next => node label attrs nil next
  | sibling label attrs children => node label attrs children nil

theorem close_addresses (frame : Frame) : frame.close.addresses = frame.addresses := by
  cases frame <;> simp [close, addresses, Nodes.addresses]

end Frame

def holeParent : List Frame → Option Nat
  | [] => none
  | .child label _ _ :: _ => some label.1
  | .sibling _ _ _ :: above => holeParent above

def holePrev : List Frame → Option Nat
  | .sibling label _ _ :: _ => some label.1
  | _ => none

def rootOf : List Frame → Option Nat → Option Nat
  | [], hole => hole
  | frame :: above, _ => rootOf above (some frame.label.1)

def aboveAddresses (above : List Frame) : List Nat := above.flatMap Frame.addresses

def Rest (memory : Memory Cell) : List Frame → Option Nat → Prop
  | [], _ => True
  | .child label attrs next :: above, hole =>
      Holds memory label ⟨holeParent above, hole, holePrev above, next.head, attrs.head⟩ ∧
        Stands memory none none attrs ∧ Stands memory (holeParent above) (some label.1) next ∧
          Rest memory above (some label.1)
  | .sibling label attrs children :: above, hole =>
      Holds memory label ⟨holeParent above, children.head, holePrev above, hole, attrs.head⟩ ∧
        Stands memory none none attrs ∧ Stands memory (some label.1) none children ∧
          Rest memory above (some label.1)

def Flat : Placed → Prop
  | nil => True
  | node _ attrs children next => attrs = nil ∧ children = nil ∧ Flat next

def AttrsFlat : Placed → Prop
  | nil => True
  | node _ attrs children next => Flat attrs ∧ AttrsFlat children ∧ AttrsFlat next

/-- A part of the tree of `nodeptr` and what stands around it. -/
structure Held (memory : Memory Cell) (nodeptr : Nat) (above : List Frame) (focus : Placed) : Prop where
  rest : Rest memory above focus.head
  stands : Stands memory (holeParent above) (holePrev above) focus
  nodup : (focus.addresses ++ aboveAddresses above).Nodup
  flat : AttrsFlat focus ∧ ∀ frame ∈ above, AttrsFlat frame.close
  root : rootOf above focus.head = some nodeptr

section Places
variable {memory memory' : Memory Cell} {nodeptr : Nat} {above : List Frame} {focus attrs children next : Placed}
  {label : Nat × Content} {hole : Option Nat}

theorem Rest.congr (rest : Rest memory above hole)
    (same : ∀ a ∈ aboveAddresses above, ∀ cell, memory.lookup a = some cell → memory'.lookup a = some cell) :
    Rest memory' above hole := by
  induction above generalizing hole with
  | nil => trivial
  | cons frame above ih =>
    simp only [aboveAddresses, List.flatMap_cons, List.mem_append] at same
    have later := fun a member => same a (.inr member)
    cases frame with
    | child label attrs next =>
      obtain ⟨⟨cell, found, holds⟩, attrsStand, nextStands, rest⟩ := rest
      simp only [Frame.addresses, List.mem_cons, List.mem_append] at same
      exact ⟨⟨cell, same _ (.inl (.inl rfl)) cell found, holds⟩,
        attrsStand.congr fun a member => same a (.inl (.inr (.inl member))),
        nextStands.congr fun a member => same a (.inl (.inr (.inr member))), ih rest later⟩
    | sibling label attrs children =>
      obtain ⟨⟨cell, found, holds⟩, attrsStand, childrenStand, rest⟩ := rest
      simp only [Frame.addresses, List.mem_cons, List.mem_append] at same
      exact ⟨⟨cell, same _ (.inl (.inl rfl)) cell found, holds⟩,
        attrsStand.congr fun a member => same a (.inl (.inr (.inl member))),
        childrenStand.congr fun a member => same a (.inl (.inr (.inr member))), ih rest later⟩

theorem down_perm : ((node label attrs children next).addresses ++ aboveAddresses above).Perm
    (children.addresses ++ aboveAddresses (.child label attrs next :: above)) := by
  apply List.perm_iff_count.mpr
  intro a
  simp only [Nodes.addresses, aboveAddresses, Frame.addresses, List.flatMap_cons, List.count_append, List.count_cons]
  omega

theorem along_perm : ((node label attrs children next).addresses ++ aboveAddresses above).Perm
    (next.addresses ++ aboveAddresses (.sibling label attrs children :: above)) := by
  apply List.perm_iff_count.mpr
  intro a
  simp only [Nodes.addresses, aboveAddresses, Frame.addresses, List.flatMap_cons, List.count_append, List.count_cons]
  omega

theorem Held.down (held : Held memory nodeptr above (node label attrs children next)) :
    Held memory nodeptr (.child label attrs next :: above) children := by
  obtain ⟨holds, attrsStand, childrenStand, nextStands⟩ := held.stands
  obtain ⟨⟨attrsFlat, childrenFlat, nextFlat⟩, aboveFlat⟩ := held.flat
  refine ⟨⟨holds, attrsStand, nextStands, held.rest⟩, childrenStand, down_perm.nodup_iff.mp held.nodup,
    ⟨childrenFlat, ?_⟩, held.root⟩
  intro frame member
  rcases List.mem_cons.mp member with rfl | member
  · exact ⟨attrsFlat, trivial, nextFlat⟩
  · exact aboveFlat frame member

theorem Held.along (held : Held memory nodeptr above (node label attrs children next)) :
    Held memory nodeptr (.sibling label attrs children :: above) next := by
  obtain ⟨holds, attrsStand, childrenStand, nextStands⟩ := held.stands
  obtain ⟨⟨attrsFlat, childrenFlat, nextFlat⟩, aboveFlat⟩ := held.flat
  refine ⟨⟨holds, attrsStand, childrenStand, held.rest⟩, nextStands, along_perm.nodup_iff.mp held.nodup,
    ⟨nextFlat, ?_⟩, held.root⟩
  intro frame member
  rcases List.mem_cons.mp member with rfl | member
  · exact ⟨attrsFlat, childrenFlat, trivial⟩
  · exact aboveFlat frame member

def allAddresses (above : List Frame) (focus : Placed) : List Nat := focus.addresses ++ aboveAddresses above

theorem lastAlong_first {limit : Nat} (held : Held memory nodeptr above (node label attrs children next))
    (enough : children.size ≤ limit) :
    ∃ above' label' attrs' next', lastAlong (·.firstChild) limit memory children.head label.1 = some label'.1 ∧
      Held memory nodeptr above' (node label' attrs' nil next') ∧
        (allAddresses above (node label attrs children next)).Perm (allAddresses above' (node label' attrs' nil next')) ∧
          (node label' attrs' nil next').size ≤ (node label attrs children next).size := by
  induction children generalizing above label attrs next limit with
  | nil =>
    refine ⟨above, label, attrs, next, ?_, held, .rfl, le_rfl⟩
    cases limit <;> rfl
  | node first attrs₁ children₁ next₁ _ childrenIh _ =>
    rw [size] at enough
    obtain ⟨limit, rfl⟩ : ∃ k, limit = k + 1 := ⟨limit - 1, by omega⟩
    obtain ⟨cell, found, -, links⟩ := held.down.stands.1
    obtain ⟨above', label', attrs', next', searched, held', perm, smaller⟩ :=
      @childrenIh _ attrs₁ next₁ first limit held.down (by omega)
    refine ⟨above', label', attrs', next', ?_, held', down_perm.trans perm, ?_⟩
    · have firstChild : cell.firstChild = children₁.head := congrArg Links.firstChild links
      rw [head, lastAlong, found, Option.bind_eq_bind, Option.bind_some, firstChild]
      exact searched
    · simp only [size] at smaller ⊢
      omega

theorem lastAlong_next {limit : Nat} (held : Held memory nodeptr above (node label attrs children next))
    (enough : next.size ≤ limit) :
    ∃ above' label' attrs' children', lastAlong (·.nextSibling) limit memory next.head label.1 = some label'.1 ∧
      Held memory nodeptr above' (node label' attrs' children' nil) ∧
        (allAddresses above (node label attrs children next)).Perm (allAddresses above' (node label' attrs' children' nil)) ∧
          (node label' attrs' children' nil).size ≤ (node label attrs children next).size ∧
            (children' = children ∨ (node label' attrs' children' nil).size < (node label attrs children next).size) := by
  induction next generalizing above label attrs children limit with
  | nil =>
    refine ⟨above, label, attrs, children, ?_, held, .rfl, le_rfl, .inl rfl⟩
    cases limit <;> rfl
  | node second attrs₁ children₁ next₁ _ _ nextIh =>
    rw [size] at enough
    obtain ⟨limit, rfl⟩ : ∃ k, limit = k + 1 := ⟨limit - 1, by omega⟩
    obtain ⟨cell, found, -, links⟩ := held.along.stands.1
    obtain ⟨above', label', attrs', children', searched, held', perm, smaller, -⟩ :=
      @nextIh _ attrs₁ children₁ second limit held.along (by omega)
    have less : (node label' attrs' children' nil).size < (node label attrs children (node second attrs₁ children₁ next₁)).size := by
      simp only [size] at smaller ⊢
      omega
    refine ⟨above', label', attrs', children', ?_, held', along_perm.trans perm, less.le, .inr less⟩
    · have nextSibling : cell.nextSibling = next₁.head := congrArg Links.nextSibling links
      rw [head, lastAlong, found, Option.bind_eq_bind, Option.bind_some, nextSibling]
      exact searched

theorem lastChild_found {limit depth prev_child : Nat} {curr_child : Option Nat}
    (held : Held memory nodeptr above (node label attrs children next))
    (start : curr_child = some label.1 ∨ (curr_child = children.head ∧ prev_child = label.1))
    (enough : (node label attrs children next).size ≤ limit)
    (rounds : (node label attrs children next).size ≤ depth) :
    ∃ above' label' attrs', lastChild limit depth memory curr_child prev_child = some label'.1 ∧
      Held memory nodeptr above' (node label' attrs' nil nil) ∧
        (allAddresses above (node label attrs children next)).Perm (allAddresses above' (node label' attrs' nil nil)) := by
  induction depth generalizing above label attrs children next curr_child prev_child with
  | zero => exact absurd rounds (by simp [size])
  | succ depth ih =>
    obtain ⟨limit', rfl⟩ : ∃ k, limit = k + 1 := ⟨limit - 1, by simp only [size] at enough; omega⟩
    have first : ∃ above₁ label₁ attrs₁ next₁,
        lastAlong (·.firstChild) (limit' + 1) memory curr_child prev_child = some label₁.1 ∧
          Held memory nodeptr above₁ (node label₁ attrs₁ nil next₁) ∧
            (allAddresses above (node label attrs children next)).Perm (allAddresses above₁ (node label₁ attrs₁ nil next₁)) ∧
              (node label₁ attrs₁ nil next₁).size ≤ (node label attrs children next).size := by
      rcases start with rfl | ⟨rfl, rfl⟩
      · obtain ⟨cell, found, -, links⟩ := held.stands.1
        have firstChild : cell.firstChild = children.head := congrArg Links.firstChild links
        rw [lastAlong, found, Option.bind_eq_bind, Option.bind_some, firstChild]
        exact lastAlong_first held (by simp only [size] at enough; omega)
      · exact lastAlong_first held (by simp only [size] at enough; omega)
    obtain ⟨above₁, label₁, attrs₁, next₁, searched₁, held₁, perm₁, size₁⟩ := first
    obtain ⟨above₂, label₂, attrs₂, children₂, searched₂, held₂, perm₂, size₂, smaller⟩ :=
      @lastAlong_next _ _ _ _ _ _ _ limit' held₁ (by simp only [size] at enough size₁; omega)
    obtain ⟨cell₁, found₁, -, links₁⟩ := held₁.stands.1
    obtain ⟨cell₂, found₂, -, links₂⟩ := held₂.stands.1
    have nextSibling : cell₁.nextSibling = next₁.head := congrArg Links.nextSibling links₁
    have firstChild : cell₂.firstChild = children₂.head := congrArg Links.firstChild links₂
    rw [lastChild, searched₁, Option.bind_eq_bind, Option.bind_some, lastAlong, found₁, Option.bind_eq_bind,
      Option.bind_some, nextSibling, searched₂, Option.bind_some, found₂, Option.bind_some, firstChild]
    cases children₂ with
    | nil =>
      rw [if_pos (by rfl)]
      exact ⟨above₂, label₂, attrs₂, rfl, held₂, perm₁.trans perm₂⟩
    | node third attrs₃ children₃ next₃ =>
      rw [if_neg (by rw [head]; exact Option.some_ne_none _)]
      have less := smaller.resolve_left fun same => by cases same
      obtain ⟨above', label', attrs', searched, held', perm⟩ := ih held₂ (.inl rfl) (by omega) (by omega)
      exact ⟨above', label', attrs', searched, held', perm₁.trans (perm₂.trans perm)⟩

end Places

/-! ### What is freed -/

structure Frees (state state' : Heaped) (gone : List Nat) : Prop where
  freed : ∃ more, state'.freed = state.freed ++ more ∧ more.Perm gone
  absent : ∀ a ∈ gone, state'.memory.lookup a = none
  kept : ∀ a ∉ gone, state'.memory.lookup a = state.memory.lookup a

section Freeing
variable {state state' state'' : Heaped} {parent prev : Option Nat} {nodes : Placed}

theorem Frees.refl (state : Heaped) : Frees state state [] :=
  ⟨⟨[], (List.append_nil _).symm, .rfl⟩, fun _ member => absurd member List.not_mem_nil, fun _ _ => rfl⟩

theorem Frees.trans {gone later : List Nat} (first : Frees state state' gone) (second : Frees state' state'' later) :
    Frees state state'' (gone ++ later) := by
  obtain ⟨more, freed, perm⟩ := first.freed
  obtain ⟨more', freed', perm'⟩ := second.freed
  refine ⟨⟨more ++ more', ?_, perm.append perm'⟩, ?_, ?_⟩
  · rw [freed', freed, List.append_assoc]
  · intro a member
    by_cases again : a ∈ later
    · exact second.absent a again
    · rw [second.kept a again]
      exact first.absent a ((List.mem_append.mp member).resolve_right again)
  · intro a outside
    rw [List.mem_append, not_or] at outside
    rw [second.kept a outside.2, first.kept a outside.1]

theorem Frees.perm {gone gone' : List Nat} (frees : Frees state state' gone) (same : gone.Perm gone') :
    Frees state state' gone' := by
  obtain ⟨more, freed, perm⟩ := frees.freed
  exact ⟨⟨more, freed, perm.trans same⟩, fun a member => frees.absent a (same.mem_iff.mpr member),
    fun a outside => frees.kept a fun member => outside (same.mem_iff.mp member)⟩

theorem Frees.stands {gone : List Nat} (frees : Frees state state' gone) (stands : Stands state.memory parent prev nodes)
    (apart : ∀ a ∈ nodes.addresses, a ∉ gone) : Stands state'.memory parent prev nodes := by
  apply stands.congr
  intro a member cell found
  rw [frees.kept a (apart a member), found]

theorem freeSingleNode_frees {a : Nat} {cell : Cell} (found : state.memory.lookup a = some cell) :
    ∃ state', freeSingleNode state a = some state' ∧ Frees state state' [a] := by
  refine ⟨⟨state.memory.erase a, state.freed ++ [a]⟩, by rw [freeSingleNode, found]; rfl, ⟨[a], rfl, .rfl⟩, ?_, ?_⟩
  · intro b member
    obtain rfl := List.mem_singleton.mp member
    exact AList.lookup_erase _ _
  · intro b outside
    exact AList.lookup_erase_ne fun same => outside (List.mem_singleton.mpr same)

theorem freeAttrs_frees {limit : Nat} (stands : Stands state.memory parent prev nodes) (flat : Flat nodes)
    (nodup : nodes.addresses.Nodup) (enough : nodes.size ≤ limit) :
    ∃ state', freeAttrs limit state nodes.head = some state' ∧ Frees state state' nodes.addresses := by
  induction nodes generalizing state prev limit with
  | nil =>
    refine ⟨state, ?_, Frees.refl state⟩
    cases limit <;> rfl
  | node label attrs children next _ _ nextIh =>
    obtain ⟨rfl, rfl, nextFlat⟩ := flat
    simp only [addresses, List.nil_append, List.nodup_cons] at nodup
    rw [size] at enough
    obtain ⟨limit, rfl⟩ : ∃ k, limit = k + 1 := ⟨limit - 1, by omega⟩
    obtain ⟨⟨cell, found, -, links⟩, -, -, nextStands⟩ := stands
    obtain ⟨state₁, single, frees⟩ := freeSingleNode_frees found
    have nextStands' : Stands state₁.memory parent (some label.1) next :=
      frees.stands nextStands fun a member inside => nodup.1 (List.mem_singleton.mp inside ▸ member)
    obtain ⟨state₂, later, frees'⟩ := @nextIh _ _ limit nextStands' nextFlat nodup.2 (by omega)
    refine ⟨state₂, ?_, frees.trans frees'⟩
    have nextSibling : cell.nextSibling = next.head := congrArg Links.nextSibling links
    rw [head, freeAttrs, found, Option.bind_eq_bind, Option.bind_some, single, Option.bind_eq_bind, Option.bind_some,
      nextSibling]
    exact later

theorem recursiveFree_frees {depth : Nat} (stands : Stands state.memory parent prev nodes)
    (nodup : nodes.addresses.Nodup) (enough : nodes.size ≤ depth) :
    ∃ state', recursiveFree depth state nodes.head = some state' ∧ Frees state state' nodes.addresses := by
  induction nodes generalizing state parent prev depth with
  | nil =>
    refine ⟨state, ?_, Frees.refl state⟩
    cases depth <;> rfl
  | node label attrs children next attrsIh childrenIh nextIh =>
    simp only [addresses, List.nodup_cons, List.mem_append, not_or, List.nodup_append] at nodup
    obtain ⟨⟨notAttrs, notChildren, notNext⟩, attrsNodup, ⟨childrenNodup, nextNodup, apart⟩, apart'⟩ := nodup
    rw [size] at enough
    obtain ⟨depth, rfl⟩ : ∃ k, depth = k + 1 := ⟨depth - 1, by omega⟩
    obtain ⟨⟨cell, found, -, links⟩, attrsStand, childrenStand, nextStands⟩ := stands
    obtain ⟨state₁, children₁, frees₁⟩ := @childrenIh _ _ _ depth childrenStand childrenNodup (by omega)
    obtain ⟨state₂, next₂, frees₂⟩ := @nextIh _ _ _ depth
      (frees₁.stands nextStands fun a member inside => apart a inside a member rfl) nextNodup (by omega)
    have frees₁₂ := frees₁.trans frees₂
    obtain ⟨state₃, attrs₃, frees₃⟩ := @attrsIh _ _ _ depth
      (frees₁₂.stands attrsStand fun a member inside => apart' a member a (List.mem_append.mp inside) rfl) attrsNodup (by omega)
    have found₁ : state₁.memory.lookup label.1 = some cell := (frees₁.kept _ notChildren).trans found
    have found₂ : state₂.memory.lookup label.1 = some cell := (frees₂.kept _ notNext).trans found₁
    have found₃ : state₃.memory.lookup label.1 = some cell := (frees₃.kept _ notAttrs).trans found₂
    obtain ⟨state₄, single, frees₄⟩ := freeSingleNode_frees found₃
    refine ⟨state₄, ?_, ((frees₁₂.trans frees₃).trans frees₄).perm ?_⟩
    · have firstChild : cell.firstChild = children.head := congrArg Links.firstChild links
      have nextSibling : cell.nextSibling = next.head := congrArg Links.nextSibling links
      have firstAttr : cell.firstAttr = attrs.head := congrArg Links.firstAttr links
      change recursiveFree (depth + 1) state (some label.1) = some state₄
      simp only [recursiveFree, found, Option.bind_eq_bind, Option.bind_some, firstChild, children₁, found₁,
        nextSibling, next₂, found₂, firstAttr, attrs₃, single]
    · apply List.perm_iff_count.mpr
      intro a
      simp only [addresses, List.count_append, List.count_cons, List.count_nil]
      omega

end Freeing

/-! ### One round of the outer loop -/

section Rounds
variable {state state₁ : Heaped} {nodeptr : Nat} {above : List Frame} {attrs children next : Placed}
  {label : Nat × Content}

theorem rootOf_inside {frame : Frame} {hole : Option Nat} (root : rootOf (frame :: above) hole = some nodeptr) :
    nodeptr ∈ aboveAddresses (frame :: above) := by
  induction above generalizing frame hole with
  | nil =>
    obtain rfl := Option.some.inj root
    cases frame <;> simp [aboveAddresses, Frame.addresses, Frame.label]
  | cons outer above ih => exact List.mem_append_right _ (@ih outer (some frame.label.1) root)

def Frame.clear : Frame → Cell → Cell
  | child _ _ _, cell => { cell with firstChild := none }
  | sibling _ _ _, cell => { cell with nextSibling := none }

theorem unlink_frame {memory : Memory Cell} {frame : Frame} {inner outer : Cell}
    (found : memory.lookup label.1 = some inner) (parent : inner.parentNode = holeParent (frame :: above))
    (prev : inner.prevSibling = holePrev (frame :: above)) (outerFound : memory.lookup frame.label.1 = some outer) :
    unlink memory label.1 = some (frame.label.1, memory.insert frame.label.1 (frame.clear outer)) := by
  rw [unlink, found, Option.bind_eq_bind, Option.bind_some, prev, parent]
  cases frame with
  | child label' attrs next =>
    have stored := store_eq outerFound ({ · with firstChild := none })
    simp only [holePrev, holeParent, Option.bind_eq_bind, Option.bind_some]
    rw [show label'.1 = (Frame.child label' attrs next).label.1 from rfl, stored]
    rfl
  | sibling label' attrs children =>
    have stored := store_eq outerFound ({ · with nextSibling := none })
    simp only [holePrev, Option.bind_eq_bind]
    rw [show label'.1 = (Frame.sibling label' attrs children).label.1 from rfl, stored]
    rfl

theorem Frame.label_mem (frame : Frame) : frame.label.1 ∈ frame.addresses := by
  cases frame <;> exact List.mem_cons_self

theorem Frame.close_head (frame : Frame) : frame.close.head = some frame.label.1 := by
  cases frame <;> rfl

theorem Rest.found {memory : Memory Cell} {frame : Frame} {hole : Option Nat} (rest : Rest memory (frame :: above) hole) :
    ∃ cell, memory.lookup frame.label.1 = some cell := by
  cases frame with
  | child label attrs next =>
    obtain ⟨⟨cell, found, -⟩, -⟩ := rest
    exact ⟨cell, found⟩
  | sibling label attrs children =>
    obtain ⟨⟨cell, found, -⟩, -⟩ := rest
    exact ⟨cell, found⟩

theorem Rest.close {memory memory' : Memory Cell} {frame : Frame} {hole : Option Nat} {outer : Cell}
    (rest : Rest memory (frame :: above) hole) (nodup : (aboveAddresses (frame :: above)).Nodup)
    (found : memory.lookup frame.label.1 = some outer) (cleared : memory'.lookup frame.label.1 = some (frame.clear outer))
    (same : ∀ a ∈ aboveAddresses (frame :: above), a ≠ frame.label.1 → memory'.lookup a = memory.lookup a) :
    Rest memory' above frame.close.head ∧ Stands memory' (holeParent above) (holePrev above) frame.close := by
  simp only [aboveAddresses, List.flatMap_cons, List.nodup_append, List.mem_append] at nodup same
  obtain ⟨frameNodup, -, apart⟩ := nodup
  have keeps (a : Nat) (member : a ∈ aboveAddresses above) (cell : Cell) (here : memory.lookup a = some cell) :
      memory'.lookup a = some cell := by
    have other : a ≠ frame.label.1 := fun is => apart _ frame.label_mem a member is.symm
    rw [same a (.inr member) other, here]
  cases frame with
  | child label attrs next =>
    simp only [Frame.addresses, Frame.label, List.nodup_cons, List.mem_cons, List.mem_append, not_or] at frameNodup same found cleared
    obtain ⟨⟨cell, found', content, links⟩, attrsStand, nextStands, rest⟩ := rest
    obtain rfl := Option.some.inj (found.symm.trans found')
    refine ⟨rest.congr keeps, ⟨_, cleared, content, ?_⟩, ?_, trivial, ?_⟩
    · exact congrArg (fun links : Links => { links with firstChild := none }) links
    · apply attrsStand.congr
      intro a member cell' here
      rw [same a (.inl (.inr (.inl member))) (ne_of_mem_of_not_mem member frameNodup.1.1), here]
    · apply nextStands.congr
      intro a member cell' here
      rw [same a (.inl (.inr (.inr member))) (ne_of_mem_of_not_mem member frameNodup.1.2), here]
  | sibling label attrs children =>
    simp only [Frame.addresses, Frame.label, List.nodup_cons, List.mem_cons, List.mem_append, not_or] at frameNodup same found cleared
    obtain ⟨⟨cell, found', content, links⟩, attrsStand, childrenStand, rest⟩ := rest
    obtain rfl := Option.some.inj (found.symm.trans found')
    refine ⟨rest.congr keeps, ⟨_, cleared, content, ?_⟩, ?_, ?_, trivial⟩
    · exact congrArg (fun links : Links => { links with nextSibling := none }) links
    · apply attrsStand.congr
      intro a member cell' here
      rw [same a (.inl (.inr (.inl member))) (ne_of_mem_of_not_mem member frameNodup.1.1), here]
    · apply childrenStand.congr
      intro a member cell' here
      rw [same a (.inl (.inr (.inr member))) (ne_of_mem_of_not_mem member frameNodup.1.2), here]

/-- A node without children and later siblings is freed with its attributes, and its place is gone. -/
theorem Held.round {frame : Frame} (held : Held state.memory nodeptr (frame :: above) (node label attrs nil nil))
    (frees : Frees state state₁ attrs.addresses) :
    ∃ memory₂ memory₃ state₄, store state₁.memory label.1 ({ · with firstAttr := none }) = some memory₂ ∧
      unlink memory₂ label.1 = some (frame.label.1, memory₃) ∧
        freeSingleNode ⟨memory₃, state₁.freed⟩ label.1 = some state₄ ∧ Held state₄.memory nodeptr above frame.close ∧
          (∃ more, state₄.freed = state.freed ++ more ∧ more.Perm (label.1 :: attrs.addresses)) ∧
            (∀ a ∈ label.1 :: attrs.addresses, state₄.memory.lookup a = none) ∧
              ∀ a ∉ allAddresses (frame :: above) (node label attrs nil nil),
                state₄.memory.lookup a = state.memory.lookup a := by
  obtain ⟨cell, found, -, links⟩ := held.stands.1
  obtain ⟨outer, outerFound⟩ := held.rest.found
  have nodup := held.nodup
  simp only [addresses, List.append_nil, List.cons_append, List.nodup_cons, List.mem_append, not_or, List.nodup_append] at nodup
  obtain ⟨⟨notAttrs, notAbove⟩, -, aboveNodup, apart⟩ := nodup
  have outside (a : Nat) (member : a ∈ aboveAddresses (frame :: above)) : a ≠ label.1 ∧ a ∉ attrs.addresses :=
    ⟨ne_of_mem_of_not_mem member notAbove, fun inside => apart a inside a member rfl⟩
  have frameInside : frame.label.1 ∈ aboveAddresses (frame :: above) := List.mem_append_left _ frame.label_mem
  obtain ⟨memory₂, stored, found₂, same₂⟩ :=
    store_found ((frees.kept _ notAttrs).trans found) ({ · with firstAttr := none })
  have outerFound₂ : memory₂.lookup frame.label.1 = some outer := by
    rw [same₂ _ (outside _ frameInside).1, frees.kept _ (outside _ frameInside).2, outerFound]
  have unlinked := unlink_frame found₂ (congrArg Links.parentNode links) (congrArg Links.prevSibling links) outerFound₂
  set memory₃ := memory₂.insert frame.label.1 (frame.clear outer) with memory₃_eq
  have found₃ : memory₃.lookup label.1 = some { cell with firstAttr := none } := by
    rw [memory₃_eq, AList.lookup_insert_ne (outside _ frameInside).1.symm, found₂]
  obtain ⟨state₄, single, gone⟩ := @freeSingleNode_frees ⟨memory₃, state₁.freed⟩ _ _ found₃
  have same (a : Nat) (notGone : a ≠ label.1 ∧ a ∉ attrs.addresses) (notFrame : a ≠ frame.label.1) :
      state₄.memory.lookup a = state.memory.lookup a := by
    rw [gone.kept a fun is => notGone.1 (List.mem_singleton.mp is)]
    change memory₃.lookup a = _
    rw [memory₃_eq, AList.lookup_insert_ne notFrame, same₂ a notGone.1, frees.kept a notGone.2]
  have cleared : state₄.memory.lookup frame.label.1 = some (frame.clear outer) := by
    rw [gone.kept _ fun is => (outside _ frameInside).1 (List.mem_singleton.mp is)]
    exact AList.lookup_insert memory₂
  obtain ⟨rest, stands⟩ := held.rest.close aboveNodup outerFound cleared fun a member other => same a (outside a member) other
  refine ⟨memory₂, memory₃, state₄, stored, unlinked, single, ⟨rest, stands, ?_, ?_, ?_⟩, ?_, ?_, ?_⟩
  · rw [frame.close_addresses]
    exact aboveNodup
  · exact ⟨held.flat.2 frame List.mem_cons_self, fun f member => held.flat.2 f (List.mem_cons_of_mem _ member)⟩
  · rw [frame.close_head]
    exact held.root
  · obtain ⟨more, freed, perm⟩ := frees.freed
    obtain ⟨more', freed', perm'⟩ := gone.freed
    refine ⟨more ++ more', ?_, ?_⟩
    · rw [freed']
      change state₁.freed ++ more' = _
      rw [freed, List.append_assoc]
    · exact (perm.append perm').trans (List.perm_append_singleton _ _)
  · intro a member
    by_cases here : a = label.1
    · exact gone.absent a (List.mem_singleton.mpr here)
    · have attr : a ∈ attrs.addresses := (List.mem_cons.mp member).resolve_left here
      have notFrame : a ≠ frame.label.1 := fun is => (outside _ frameInside).2 (is ▸ attr)
      rw [gone.kept a fun is => here (List.mem_singleton.mp is)]
      change memory₃.lookup a = _
      rw [memory₃_eq, AList.lookup_insert_ne notFrame, same₂ a here, frees.absent a attr]
  · intro a away
    simp only [allAddresses, addresses, List.append_nil, List.mem_append, List.mem_cons, not_or] at away
    exact same a away.1 fun is => away.2 (is ▸ frameInside)

theorem Frame.close_node (frame : Frame) :
    ∃ attrs children next, frame.close = node frame.label attrs children next := by
  cases frame <;> exact ⟨_, _, _, rfl⟩

theorem Held.lastRound (held : Held state.memory nodeptr [] (node label attrs nil nil))
    (frees : Frees state state₁ attrs.addresses) :
    ∃ memory₂ state₄, store state₁.memory label.1 ({ · with firstAttr := none }) = some memory₂ ∧
      freeSingleNode ⟨memory₂, state₁.freed⟩ label.1 = some state₄ ∧
        Frees state state₄ (allAddresses [] (node label attrs nil nil)) := by
  obtain ⟨cell, found, -, links⟩ := held.stands.1
  have nodup := held.nodup
  simp only [addresses, List.append_nil, List.cons_append, List.nodup_cons, List.mem_append, not_or] at nodup
  obtain ⟨memory₂, stored, found₂, same₂⟩ :=
    store_found ((frees.kept _ nodup.1.1).trans found) ({ · with firstAttr := none })
  obtain ⟨state₄, single, gone⟩ := @freeSingleNode_frees ⟨memory₂, state₁.freed⟩ _ _ found₂
  have stored_frees : Frees state₁ state₄ [label.1] := by
    refine ⟨gone.freed, gone.absent, fun a outside => ?_⟩
    rw [gone.kept a outside]
    exact same₂ a fun is => outside (List.mem_singleton.mpr is)
  refine ⟨memory₂, state₄, stored, single, (frees.trans stored_frees).perm ?_⟩
  apply List.perm_iff_count.mpr
  intro a
  simp only [allAddresses, addresses, aboveAddresses, List.flatMap_nil, List.append_nil, List.count_append,
    List.count_cons, List.count_nil]
  omega

theorem freeLoop_frees {limit depth prev_child : Nat} {next_child : Option Nat}
    (held : Held state.memory nodeptr above (node label attrs children next))
    (start : next_child = some label.1 ∨ (next_child = children.head ∧ prev_child = label.1))
    (enough : (allAddresses above (node label attrs children next)).length ≤ limit)
    (rounds : (allAddresses above (node label attrs children next)).length ≤ depth) :
    ∃ state', freeLoop limit nodeptr depth state next_child prev_child = some state' ∧
      Frees state state' (allAddresses above (node label attrs children next)) := by
  induction depth generalizing state above label attrs children next next_child prev_child with
  | zero => exact absurd rounds (by simp [allAddresses, addresses])
  | succ depth ih =>
    have size_le : (node label attrs children next).size ≤ limit := by
      have whole := addresses_length (node label attrs children next)
      rw [allAddresses, List.length_append] at enough
      omega
    obtain ⟨above', label', attrs', found, held', perm⟩ := lastChild_found held start size_le size_le
    obtain ⟨cell, here, -, links⟩ := held'.stands.1
    have firstAttr : cell.firstAttr = attrs'.head := congrArg Links.firstAttr links
    have total := perm.length_eq
    have parts : (allAddresses above' (node label' attrs' nil nil)).length =
        attrs'.size + 1 + (aboveAddresses above').length := by
      rw [allAddresses, List.length_append, addresses_length]
      simp only [size]
    have attrsNodup : attrs'.addresses.Nodup := by
      have nodup := held'.nodup
      simp only [addresses, List.append_nil, List.cons_append, List.nodup_cons, List.nodup_append] at nodup
      exact nodup.2.1
    obtain ⟨state₁, attrsFreed, frees⟩ :=
      @freeAttrs_frees _ _ _ _ limit held'.stands.2.1 held'.flat.1.1 attrsNodup (by omega)
    simp only [freeLoop, found, Option.bind_eq_bind, Option.bind_some, here, firstAttr, attrsFreed]
    cases above' with
    | nil =>
      obtain ⟨memory₂, state₄, stored, single, gone⟩ := held'.lastRound frees
      have isRoot : label'.1 = nodeptr := Option.some.inj held'.root
      refine ⟨state₄, ?_, gone.perm perm.symm⟩
      rw [stored, Option.bind_some, if_pos isRoot]
      exact single
    | cons frame above' =>
      obtain ⟨memory₂, memory₃, state₄, stored, unlinked, single, held₄, ⟨more, freed, perm₄⟩, absent, kept⟩ :=
        held'.round frees
      have notRoot : label'.1 ≠ nodeptr := by
        rintro rfl
        have nodup := held'.nodup
        simp only [addresses, List.cons_append, List.nodup_cons, List.mem_append, not_or] at nodup
        exact nodup.1.2 (rootOf_inside held'.root)
      obtain ⟨attrs₄, children₄, next₄, close⟩ := frame.close_node
      have remaining : allAddresses above' (node frame.label attrs₄ children₄ next₄) = aboveAddresses (frame :: above') := by
        rw [← close, allAddresses, frame.close_addresses]
        rfl
      rw [close] at held₄
      have fewer : (aboveAddresses (frame :: above')).length ≤ depth := by omega
      obtain ⟨state', ran, gone⟩ := ih held₄ (.inl rfl) (by rw [remaining]; omega) (by rw [remaining]; omega)
      refine ⟨state', ?_, ?_⟩
      · rw [stored, Option.bind_some, if_neg notRoot, unlinked, Option.bind_some, single, Option.bind_some]
        exact ran
      · rw [remaining] at gone
        obtain ⟨more', freed', perm'⟩ := gone.freed
        have split : allAddresses (frame :: above') (node label' attrs' nil nil) =
            label'.1 :: attrs'.addresses ++ aboveAddresses (frame :: above') := by
          simp only [allAddresses, addresses, List.append_nil]
        apply Frees.perm _ perm.symm
        rw [split]
        refine ⟨⟨more ++ more', ?_, perm₄.append perm'⟩, ?_, ?_⟩
        · rw [freed', freed, List.append_assoc]
        · intro a member
          by_cases later : a ∈ aboveAddresses (frame :: above')
          · exact gone.absent a later
          · rw [gone.kept a later]
            exact absent a ((List.mem_append.mp member).resolve_right later)
        · intro a outside
          rw [gone.kept a fun inside => outside (List.mem_append_right _ inside)]
          exact kept a (split ▸ outside)

end Rounds

/-! ### The whole call -/

theorem typed_flat {nodes : Placed} (typed : Typed .attribute nodes.contents) : Flat nodes := by
  induction nodes with
  | nil => trivial
  | node label attrs children next _ _ nextIh =>
    obtain ⟨takes, -, attrsOnly, -, childrenTyped, nextTyped⟩ := typed
    have isAttribute : label.2.nodeType = .attribute := of_decide_eq_true takes
    rw [isAttribute] at attrsOnly childrenTyped
    have noAttrs : attrs.contents = .nil := not_not.mp fun some => by cases attrsOnly some
    have noChildren : children.contents = .nil := childrenTyped.nil fun _ => rfl
    refine ⟨?_, ?_, nextIh nextTyped⟩
    · cases attrs with
      | nil => rfl
      | node => cases noAttrs
    · cases children with
      | nil => rfl
      | node => cases noChildren

theorem typed_attrsFlat {nodes : Placed} {place : Place} (typed : Typed place nodes.contents) : AttrsFlat nodes := by
  induction nodes generalizing place with
  | nil => trivial
  | node label attrs children next _ childrenIh nextIh =>
    obtain ⟨-, -, -, attrsTyped, childrenTyped, nextTyped⟩ := typed
    exact ⟨typed_flat attrsTyped, childrenIh childrenTyped, nextIh nextTyped⟩

theorem ixmlNodeFree_frees {memory : Memory Cell} {tree : Placed} {limit : Nat} (stands : Stands memory none none tree)
    (detached : tree.alone = tree) (flat : AttrsFlat tree) (nodup : tree.addresses.Nodup) (enough : tree.size ≤ limit) :
    ∃ state', ixmlNodeFree limit memory tree.head = some state' ∧ Frees ⟨memory, []⟩ state' tree.addresses := by
  cases tree with
  | nil => exact ⟨_, rfl, Frees.refl _⟩
  | node label attrs children next =>
    obtain rfl : next = nil := (Nodes.node.inj detached).2.2.2.symm
    obtain ⟨cell, found, -, links⟩ := stands.1
    have firstChild : cell.firstChild = children.head := congrArg Links.firstChild links
    have all : allAddresses [] (node label attrs children nil) = (node label attrs children nil).addresses :=
      List.append_nil _
    have allNodup : (allAddresses [] (node label attrs children nil)).Nodup := by rwa [all]
    have held : Held memory label.1 [] (node label attrs children nil) :=
      ⟨trivial, stands, allNodup, ⟨flat, fun _ member => absurd member List.not_mem_nil⟩, rfl⟩
    have length := addresses_length (node label attrs children nil)
    obtain ⟨loops, ran, gone⟩ := @freeLoop_frees ⟨memory, []⟩ _ _ _ _ _ _ limit limit label.1 children.head held
      (.inr ⟨rfl, rfl⟩) (by rw [all]; omega) (by rw [all]; omega)
    refine ⟨loops, ?_, all ▸ gone⟩
    rw [head, ixmlNodeFree, found, Option.bind_eq_bind, Option.bind_some, firstChild]
    exact ran

/-- A detached tree is freed by the loops as by the recursion: all its nodes and attributes, once each. No node
is touched once it is freed, as both calls come to an end. -/
theorem ixmlNodeFree_recursive {memory : Memory Cell} {tree : Placed} {place : Place} {limit : Nat}
    (stands : Stands memory none none tree) (detached : tree.alone = tree) (typed : Typed place tree.contents)
    (nodup : tree.addresses.Nodup) (enough : tree.size ≤ limit) :
    ∃ loops recursion, ixmlNodeFree limit memory tree.head = some loops ∧
      recursiveFree limit ⟨memory, []⟩ tree.head = some recursion ∧
        loops.freed.Perm recursion.freed ∧ loops.freed.Perm tree.addresses ∧ loops.freed.Nodup ∧
          (∀ a, loops.memory.lookup a = recursion.memory.lookup a) ∧
            ∀ a, a ∉ tree.addresses → loops.memory.lookup a = memory.lookup a := by
  obtain ⟨recursion, recursed, frees⟩ := @recursiveFree_frees ⟨memory, []⟩ none none tree limit stands nodup enough
  obtain ⟨loops, ran, gone⟩ := ixmlNodeFree_frees stands detached (typed_attrsFlat typed) nodup enough
  obtain ⟨more, freed, perm⟩ := frees.freed
  obtain ⟨more', freed', perm'⟩ := gone.freed
  rw [List.nil_append] at freed freed'
  refine ⟨loops, recursion, ran, recursed, ?_, ?_, ?_, ?_, gone.kept⟩
  · rw [freed, freed']
    exact perm'.trans perm.symm
  · rw [freed']
    exact perm'
  · rw [freed']
    exact perm'.nodup_iff.mpr nodup
  · intro a
    by_cases inside : a ∈ tree.addresses
    · rw [gone.absent a inside, frees.absent a inside]
    · rw [gone.kept a inside, frees.kept a inside]

/-- An element with an attribute and three children, of which the second has a child. -/
def smallTree : Placed :=
  node (1, { nodeType := .element, tagName := some [97] }) (node (2, { nodeType := .attribute }) nil nil nil)
    (node (3, { nodeType := .text }) nil nil
      (node (4, { nodeType := .element, tagName := some [98] }) nil (node (6, { nodeType := .text }) nil nil nil)
        (node (5, { nodeType := .text }) nil nil nil))) nil

theorem smallTree_typed : Typed .loose smallTree.contents := by
  simp [smallTree, Nodes.map, Typed, Place.takes, allowChildren]

theorem ixmlNodeFree_smallTree :
    ∃ loops recursion, ixmlNodeFree 6 (laidOut ∅ none none smallTree) (some 1) = some loops ∧
      recursiveFree 6 ⟨laidOut ∅ none none smallTree, []⟩ (some 1) = some recursion ∧
        loops.freed.Perm recursion.freed := by
  obtain ⟨loops, recursion, ran, recursed, same, -⟩ := @ixmlNodeFree_recursive _ smallTree _ 6
    (laidOut_stands (by decide)) rfl smallTree_typed (by decide) (by decide)
  exact ⟨loops, recursion, ran, recursed, same⟩

/-- The order differs. -/
example : (ixmlNodeFree 6 (laidOut ∅ none none smallTree) (some 1)).map (·.freed) = some [5, 6, 4, 3, 2, 1] ∧
    (recursiveFree 6 ⟨laidOut ∅ none none smallTree, []⟩ (some 1)).map (·.freed) = some [6, 5, 4, 3, 2, 1] := by
  decide

end Pupnp.Ixml.Dom
