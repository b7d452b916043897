import Pupnp.Ixml.Node
import Pupnp.Ixml.Parser
import Pupnp.Library.Cells

/-!
The nodes in memory with all that they hold. A string that is NULL is `none`; there is always memory for a
string and for a node.
-/

namespace Pupnp.Ixml.Dom
open Pupnp.Cells

/-- The fields of a node that are no pointers to other nodes; `tagName` is a field of elements only. -/
structure Content where
  nodeType : NodeType
  nodeName : Option (List UInt8) := none
  nodeValue : Option (List UInt8) := none
  namespaceURI : Option (List UInt8) := none
  prefixName : Option (List UInt8) := none
  localName : Option (List UInt8) := none
  tagName : Option (List UInt8) := none
  deriving DecidableEq, Repr

structure Links where
  parentNode : Option Nat := none
  firstChild : Option Nat := none
  prevSibling : Option Nat := none
  nextSibling : Option Nat := none
  firstAttr : Option Nat := none
  deriving DecidableEq, Repr

/-- `IXML_Node` with the fields that an element or an attribute has besides. -/
structure Cell extends Content, Links where
  ownerDocument : Option Nat := none
  ownerElement : Option Nat := none
  specified : Bool := false
  deriving DecidableEq, Repr

/-! ### Trees -/

/-- The place of a node: without a parent, in an attribute list, or below a node of this type. -/
inductive Place where
  | loose
  | attribute
  | child (parent : NodeType)

def Place.takes : Place → NodeType → Bool
  | .loose, _ => true
  | .attribute, nodeType => nodeType = .attribute
  | .child parent, nodeType => allowChildren parent nodeType

/-- A node, if any, and what hangs on it: its attributes, its children and the siblings behind it. -/
inductive Nodes (α : Type) where
  | nil
  | node (label : α) (attrs children next : Nodes α)
  deriving DecidableEq, Repr

namespace Nodes
variable {α β : Type}

def size : Nodes α → Nat
  | nil => 0
  | node _ attrs children next => attrs.size + children.size + next.size + 1

def map (f : α → β) : Nodes α → Nodes β
  | nil => nil
  | node label attrs children next => node (f label) (attrs.map f) (children.map f) (next.map f)

/-- The node without the siblings behind it. -/
def alone : Nodes α → Nodes α
  | nil => nil
  | node label attrs children _ => node label attrs children nil

theorem size_map (f : α → β) (nodes : Nodes α) : (nodes.map f).size = nodes.size := by
  induction nodes with
  | nil => rfl
  | node label attrs children next attrsIh childrenIh nextIh => rw [map, size, size, attrsIh, childrenIh, nextIh]

abbrev Placed := Nodes (Nat × Content)

def head : Placed → Option Nat
  | nil => none
  | node label _ _ _ => some label.1

def addresses : Placed → List Nat
  | nil => []
  | node label attrs children next => label.1 :: (attrs.addresses ++ (children.addresses ++ next.addresses))

theorem addresses_length (nodes : Placed) : nodes.addresses.length = nodes.size := by
  induction nodes with
  | nil => rfl
  | node label attrs children next attrsIh childrenIh nextIh =>
    rw [addresses, List.length_cons, List.length_append, List.length_append, attrsIh, childrenIh, nextIh, size]
    omega

/-- The node at the address holds this content and these links. -/
def Holds (memory : Memory Cell) (label : Nat × Content) (links : Links) : Prop :=
  ∃ cell, memory.lookup label.1 = some cell ∧ cell.toContent = label.2 ∧ cell.toLinks = links

/-- The links in memory hold these nodes together, under this parent and behind this sibling. -/
def Stands (memory : Memory Cell) (parent prev : Option Nat) : Placed → Prop
  | nil => True
  | node label attrs children next =>
      Holds memory label ⟨parent, children.head, prev, next.head, attrs.head⟩ ∧
        Stands memory none none attrs ∧ Stands memory (some label.1) none children ∧
          Stands memory parent (some label.1) next

/-- Every node is of a type that its place takes. Only elements have attributes, and they have a tag name. -/
def Typed (place : Place) : Nodes Content → Prop
  | nil => True
  | node content attrs children next =>
      place.takes content.nodeType = true ∧ (content.nodeType = .element → content.tagName ≠ none) ∧
        (attrs ≠ nil → content.nodeType = .element) ∧ Typed .attribute attrs ∧
          Typed (.child content.nodeType) children ∧ Typed place next

theorem Typed.nil {parent : NodeType} {nodes : Nodes Content} (typed : Typed (.child parent) nodes)
    (takesNone : ∀ nodeType, allowChildren parent nodeType = false) : nodes = .nil := by
  cases nodes with
  | nil => rfl
  | node content attrs children next =>
    have takes : allowChildren parent content.nodeType = true := typed.1
    rw [takesNone] at takes
    cases takes

/-- What the nodes hold, without their addresses. -/
abbrev contents (nodes : Placed) : Nodes Content := nodes.map Prod.snd

section Standing
variable {memory memory' : Memory Cell} {parent prev : Option Nat} {nodes nodes' : Placed}

theorem Stands.congr (stands : Stands memory parent prev nodes)
    (same : ∀ a ∈ nodes.addresses, ∀ cell, memory.lookup a = some cell → memory'.lookup a = some cell) :
    Stands memory' parent prev nodes := by
  induction nodes generalizing parent prev with
  | nil => trivial
  | node label attrs children next attrsIh childrenIh nextIh =>
    obtain ⟨⟨cell, found, holds⟩, attrsStand, childrenStand, nextStands⟩ := stands
    simp only [addresses, List.mem_cons, List.mem_append] at same
    refine ⟨⟨cell, same _ (.inl rfl) cell found, holds⟩, ?_, ?_, ?_⟩
    · exact attrsIh attrsStand fun a member => same a (.inr (.inl member))
    · exact childrenIh childrenStand fun a member => same a (.inr (.inr (.inl member)))
    · exact nextIh nextStands fun a member => same a (.inr (.inr (.inr member)))

theorem Stands.mono (stands : Stands memory parent prev nodes) (extends_ : Extends memory memory') :
    Stands memory' parent prev nodes :=
  stands.congr fun a _ cell found => extends_ a cell found

theorem Stands.insert (stands : Stands memory parent prev nodes) {a : Nat} (outside : a ∉ nodes.addresses)
    (cell : Cell) : Stands (memory.insert a cell) parent prev nodes := by
  apply stands.congr
  intro b member other found
  rwa [AList.lookup_insert_ne (ne_of_mem_of_not_mem member outside)]

theorem Stands.found (stands : Stands memory parent prev nodes) {a : Nat} (member : a ∈ nodes.addresses) :
    ∃ cell, memory.lookup a = some cell := by
  induction nodes generalizing parent prev with
  | nil => cases member
  | node label attrs children next attrsIh childrenIh nextIh =>
    obtain ⟨⟨cell, found, -⟩, attrsStand, childrenStand, nextStands⟩ := stands
    simp only [addresses, List.mem_cons, List.mem_append] at member
    rcases member with rfl | member | member | member
    · exact ⟨cell, found⟩
    · exact attrsIh attrsStand member
    · exact childrenIh childrenStand member
    · exact nextIh nextStands member

theorem Stands.unique {parent' prev' : Option Nat} (stands : Stands memory parent prev nodes)
    (other : Stands memory parent' prev' nodes') (same : nodes.head = nodes'.head) : nodes = nodes' := by
  induction nodes generalizing parent prev parent' prev' nodes' with
  | nil =>
    cases nodes' with
    | nil => rfl
    | node => cases same
  | node label attrs children next attrsIh childrenIh nextIh =>
    cases nodes' with
    | nil => cases same
    | node label' attrs' children' next' =>
      obtain ⟨⟨cell, found, content, links⟩, attrsStand, childrenStand, nextStands⟩ := stands
      obtain ⟨⟨cell', found', content', links'⟩, attrsStand', childrenStand', nextStands'⟩ := other
      have address : label.1 = label'.1 := Option.some.inj same
      rw [← address, found] at found'
      obtain rfl := Option.some.inj found'
      obtain ⟨-, firsts, -, nexts, firstAttrs⟩ := Links.mk.inj (links.symm.trans links')
      rw [attrsIh attrsStand attrsStand' firstAttrs, childrenIh childrenStand childrenStand' firsts,
        nextIh nextStands nextStands' nexts, Prod.ext address (content.symm.trans content')]

end Standing

/-! ### Nodes put into memory -/

def laidOut (memory : Memory Cell) (parent prev : Option Nat) : Placed → Memory Cell
  | nil => memory
  | node label attrs children next =>
      let links : Links := ⟨parent, children.head, prev, next.head, attrs.head⟩
      let memory := laidOut (memory.insert label.1 { toContent := label.2, toLinks := links }) none none attrs
      laidOut (laidOut memory (some label.1) none children) parent (some label.1) next

theorem laidOut_other {memory : Memory Cell} {parent prev : Option Nat} {nodes : Placed} {a : Nat}
    (outside : a ∉ nodes.addresses) : (laidOut memory parent prev nodes).lookup a = memory.lookup a := by
  induction nodes generalizing memory parent prev with
  | nil => rfl
  | node label attrs children next attrsIh childrenIh nextIh =>
    simp only [addresses, List.mem_cons, List.mem_append, not_or] at outside
    rw [laidOut, nextIh outside.2.2.2, childrenIh outside.2.2.1, attrsIh outside.2.1]
    exact AList.lookup_insert_ne outside.1

theorem laidOut_stands {memory : Memory Cell} {parent prev : Option Nat} {nodes : Placed}
    (nodup : nodes.addresses.Nodup) : Stands (laidOut memory parent prev nodes) parent prev nodes := by
  induction nodes generalizing memory parent prev with
  | nil => trivial
  | node label attrs children next attrsIh childrenIh nextIh =>
    simp only [addresses, List.nodup_cons, List.mem_append, not_or, List.nodup_append] at nodup
    obtain ⟨⟨notAttrs, notChildren, notNext⟩, attrsNodup, ⟨childrenNodup, nextNodup, apart⟩, apart'⟩ := nodup
    refine ⟨⟨{ toContent := label.2, toLinks := _ }, ?_, rfl, rfl⟩, ?_, ?_, nextIh nextNodup⟩
    · rw [laidOut, laidOut_other notNext, laidOut_other notChildren, laidOut_other notAttrs]
      exact AList.lookup_insert _
    · apply (attrsIh attrsNodup).congr
      intro a member cell found
      have notChild : a ∉ children.addresses := fun inside => apart' a member a (.inl inside) rfl
      have notBehind : a ∉ next.addresses := fun inside => apart' a member a (.inr inside) rfl
      rwa [laidOut, laidOut_other notBehind, laidOut_other notChild]
    · apply (childrenIh childrenNodup).congr
      intro a member cell found
      have notBehind : a ∉ next.addresses := fun inside => apart a member a inside rfl
      rwa [laidOut, laidOut_other notBehind]

end Nodes

end Pupnp.Ixml.Dom
