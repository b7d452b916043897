import Pupnp.Ixml.Clone

/-!
When a deep copy is a whole one.
-/

namespace Pupnp.Ixml.Dom
open Pupnp.Cells Nodes

/-- What a copy is to hold: type, name, value and namespace of every node, prefix and local name of elements
and attributes, and the tag name of elements. -/
def Content.seen (content : Content) : Content :=
  match content.nodeType with
  | .element => content
  | .attribute => { content with tagName := none }
  | _ => { content with prefixName := none, localName := none, tagName := none }

/-- The copy of a node is its tree again, detached, in new nodes, and what was there before is as it was. -/
def Clones (malloc : Malloc Cell) (depth : Nat) (memory : Memory Cell) (source : Placed) : Prop :=
  ∃ copy memory', cloneNode malloc true depth memory source.head = some (copy.head, memory') ∧
    Made memory memory' copy ∧ copy.contents.map Content.seen = source.contents.alone.map Content.seen

/-- Child lists of elements, in which text and CDATA sections without a namespace come last. -/
def TextLast : Nodes Content → Prop
  | .nil => True
  | .node content _ children next =>
      match content.nodeType with
      | .element => TextLast children ∧ TextLast next
      | .text | .cdataSection => content.namespaceURI = none ∧ next = .nil
      | _ => False

def Copyable : Nodes Content → Prop
  | .nil => True
  | .node content _ children _ =>
      match content.nodeType with
      | .element => TextLast children
      | .attribute => True
      | .text | .cdataSection => content.namespaceURI = none
      | .document => content.nodeName = some documentNodeName ∧ content.nodeValue = none ∧
          content.namespaceURI = none ∧ TextLast children ∧ children.alone = children
      | _ => False

/-! ### Lists -/

theorem map_seen_nil {nodes : Nodes Content} : nodes.map Content.seen = .nil ↔ nodes = .nil := by
  cases nodes with
  | nil => exact ⟨fun _ => rfl, fun _ => rfl⟩
  | node content attrs children next => simp only [Nodes.map, reduceCtorEq]

theorem cloneAttr_seen {content : Content} (isAttribute : content.nodeType = .attribute) :
    (cloneAttr content).seen = content.seen := by
  obtain ⟨nodeType, nodeName, nodeValue, namespaceURI, prefixName, localName, tagName⟩ := content
  obtain rfl : nodeType = .attribute := isAttribute
  cases nodeName with
  | none => rfl
  | some qualifiedName => rfl

theorem cloneTextNode_seen {content : Content} (isText : content.nodeType = .text) :
    (cloneTextNode content).seen = content.seen ↔ content.namespaceURI = none := by
  obtain ⟨nodeType, nodeName, nodeValue, namespaceURI, prefixName, localName, tagName⟩ := content
  obtain rfl : nodeType = .text := isText
  cases nodeName with
  | none => exact ⟨fun same => (congrArg Content.namespaceURI same).symm, fun absent => by cases absent; rfl⟩
  | some qualifiedName => exact ⟨fun same => (congrArg Content.namespaceURI same).symm, fun absent => by cases absent; rfl⟩

theorem cloneCDATASect_seen {content : Content} (isCdata : content.nodeType = .cdataSection) :
    (cloneCDATASect content).seen = content.seen ↔ content.namespaceURI = none := by
  obtain ⟨nodeType, nodeName, nodeValue, namespaceURI, prefixName, localName, tagName⟩ := content
  obtain rfl : nodeType = .cdataSection := isCdata
  cases nodeName with
  | none => exact ⟨fun same => (congrArg Content.namespaceURI same).symm, fun absent => by cases absent; rfl⟩
  | some qualifiedName => exact ⟨fun same => (congrArg Content.namespaceURI same).symm, fun absent => by cases absent; rfl⟩

theorem copied_attrs {attrs : Nodes Content} (typed : Typed .attribute attrs) :
    (copied attrs).map Content.seen = attrs.map Content.seen := by
  induction attrs with
  | nil => rfl
  | node content attrs children next _ _ nextIh =>
    obtain ⟨takes, -, attrsOnly, -, childrenTyped, nextTyped⟩ := typed
    have isAttribute : content.nodeType = .attribute := of_decide_eq_true takes
    rw [isAttribute] at attrsOnly childrenTyped
    have noAttrs : attrs = .nil := not_not.mp fun some => by cases attrsOnly some
    obtain rfl := childrenTyped.nil fun _ => rfl
    obtain rfl := noAttrs
    simp only [copied, isAttribute, Nodes.map, cloneAttr_seen isAttribute, nextIh nextTyped]

theorem copied_children {parent : NodeType} {children : Nodes Content} (typed : Typed (.child parent) children)
    (kind : parent = .element ∨ parent = .document) :
    (copied children).map Content.seen = children.map Content.seen ↔ TextLast children := by
  induction children generalizing parent with
  | nil => exact ⟨fun _ => trivial, fun _ => rfl⟩
  | node content attrs children next _ childrenIh nextIh =>
    obtain ⟨takes, -, attrsOnly, attrsTyped, childrenTyped, nextTyped⟩ := typed
    by_cases isElement : content.nodeType = .element
    · rw [isElement] at childrenTyped
      simp only [copied, TextLast, isElement, Nodes.map, Nodes.node.injEq, true_and, copied_attrs attrsTyped,
        childrenIh childrenTyped (.inl rfl), nextIh nextTyped kind]
    have noAttrs : attrs = .nil := not_not.mp fun some => isElement (attrsOnly some)
    obtain rfl := noAttrs
    by_cases isText : content.nodeType = .text
    · rw [isText] at childrenTyped
      obtain rfl := childrenTyped.nil fun _ => rfl
      simp only [copied, TextLast, isText, Nodes.map, Nodes.node.injEq, true_and, cloneTextNode_seen isText,
        eq_comm (a := Nodes.nil), map_seen_nil]
    by_cases isCdata : content.nodeType = .cdataSection
    · rw [isCdata] at childrenTyped
      obtain rfl := childrenTyped.nil fun _ => rfl
      simp only [copied, TextLast, isCdata, Nodes.map, Nodes.node.injEq, true_and, cloneCDATASect_seen isCdata,
        eq_comm (a := Nodes.nil), map_seen_nil]
    by_cases isAttribute : content.nodeType = .attribute
    · rw [Place.takes, isAttribute] at takes
      rcases kind with rfl | rfl <;> cases takes
    simp only [copied, TextLast, Nodes.map, reduceCtorEq]

/-! ### The node itself -/

section Roots
variable {malloc : Malloc Cell} {memory memory' memory'' : Memory Cell} {copy children source : Placed} {depth : Nat}

theorem Made.congr (made : Made memory memory' copy) (same : ∀ a, memory''.lookup a = memory'.lookup a) :
    Made memory memory'' copy := by
  refine ⟨made.stands.congr fun a _ cell found => (same a).trans found, made.nodup, made.fresh, ?_⟩
  intro a cell found
  exact (same a).trans (made.kept a cell found)

theorem Made.storeNone (made : Made memory memory' copy) :
    ∃ memory'', storeAt memory' copy.head ({ · with parentNode := none }) = some memory'' ∧
      Made memory memory'' copy := by
  cases copy with
  | nil => exact ⟨memory', rfl, made⟩
  | node label attrs children next =>
    obtain ⟨cell, found, -, links⟩ := made.stands.1
    have idle : ({ cell with parentNode := none } : Cell) = cell := by
      have noParent : cell.parentNode = none := congrArg Links.parentNode links
      rw [← noParent]
    obtain ⟨memory'', stored, same⟩ := store_idle found ({ · with parentNode := none }) idle
    exact ⟨memory'', stored, made.congr same⟩

def copiedRoot : Nodes Content → Nodes Content
  | .nil => .nil
  | .node content attrs children _ =>
      match content.nodeType with
      | .element => .node content (copied attrs) (copied children) .nil
      | .attribute => .node (cloneAttr content) .nil .nil .nil
      | .text => .node (cloneTextNode content) .nil .nil .nil
      | .cdataSection => .node (cloneCDATASect content) .nil .nil .nil
      | _ => .nil

theorem cloneNode_made {label : Nat × Content} {attrs children next : Placed} {parent prev : Option Nat} {place : Place}
    (stands : Stands memory parent prev (node label attrs children next))
    (typed : Typed place (node label attrs children next).contents)
    (enough : (node label attrs children next).size ≤ depth) (other : label.2.nodeType ≠ .document) :
    ∃ copy memory', cloneNode malloc true depth memory (some label.1) = some (copy.head, memory') ∧
      Made memory memory' copy ∧ copy.contents = copiedRoot (node label attrs children next).contents := by
  rw [size] at enough
  obtain ⟨⟨node, found, content, links⟩, attrsStand, childrenStand, nextStands⟩ := stands
  obtain ⟨takes, tag, attrsOnly, attrsTyped, childrenTyped, nextTyped⟩ := typed
  by_cases isElement : label.2.nodeType = .element
  · have cloned := cloneElement_some isElement (tag isElement)
    have made₀ := @Made.alloc malloc memory { toContent := label.2 } rfl
    obtain ⟨attrsCopy, memory₁, attrsCloned, attrsMade, attrsContents⟩ := @cloneNodeTreeRecursive_made malloc _ none none
      attrs .attribute depth (attrsStand.mono made₀.kept) attrsTyped (.inl rfl) (by omega)
    obtain ⟨memory₂, attrsSet, made₂⟩ := made₀.setAttrs attrsMade
    obtain ⟨childrenCopy, memory₃, childrenCloned, childrenMade, childrenContents⟩ := @cloneNodeTreeRecursive_made malloc _
      (some label.1) none children (.child .element) depth (childrenStand.mono made₂.kept) (isElement ▸ childrenTyped)
      (.inr (.inl rfl)) (by omega)
    obtain ⟨memory₄, memory₅, childrenSet, adopted, made₅⟩ := @Made.setChildren _ _ _ _ _ _ depth made₂ childrenMade (by
      have less := copied_size childrenContents
      omega)
    obtain ⟨cell, copyFound, -, copyLinks⟩ := made₅.stands.1
    have idle : ({ cell with nextSibling := none } : Cell) = cell := by
      have noNext : cell.nextSibling = none := congrArg Links.nextSibling copyLinks
      rw [← noNext]
    obtain ⟨memory₆, nextSet, same⟩ := store_idle copyFound ({ · with nextSibling := none }) idle
    obtain ⟨memory₇, parentSet, made₇⟩ := (made₅.congr same).storeNone
    refine ⟨_, memory₇, ?_, made₇, ?_⟩
    · have firstAttr : node.firstAttr = attrs.head := congrArg Links.firstAttr links
      have firstChild : node.firstChild = children.head := congrArg Links.firstChild links
      have parentSet' : storeAt memory₆ (some (malloc.address memory)) ({ · with parentNode := none }) =
          some memory₇ := parentSet
      simp only [cloneNode, cloneNodeTree, found, content, isElement, cloned, Option.bind_eq_bind, Option.bind_some,
        made₀.kept _ _ found, firstAttr, attrsCloned, attrsSet, if_true, made₂.kept _ _ found, firstChild, childrenCloned,
        childrenSet, adopted, nextSet, parentSet']
      rfl
    · simp only [contents, Nodes.map, copiedRoot, isElement] at attrsContents childrenContents ⊢
      rw [attrsContents, childrenContents]
  by_cases isAttribute : label.2.nodeType = .attribute
  · have made := @Made.alloc malloc memory { toContent := cloneAttr label.2, specified := true } rfl
    refine ⟨_, _, ?_, made, ?_⟩
    · simp only [cloneNode, found, content, isAttribute, Option.bind_eq_bind, Option.bind_some]
      rfl
    · simp only [contents, Nodes.map, copiedRoot, isAttribute]
  obtain ⟨depth, rfl⟩ : ∃ k, depth = k + 1 := ⟨depth - 1, by omega⟩
  by_cases isText : label.2.nodeType = .text
  · obtain ⟨memory', parentSet, made⟩ := (@Made.alloc malloc memory { toContent := cloneTextNode label.2 } rfl).storeNone
    have parentSet' : storeAt (memory.insert (malloc.address memory) { toContent := cloneTextNode label.2 })
        (some (malloc.address memory)) ({ · with parentNode := none }) = some memory' := parentSet
    refine ⟨_, memory', ?_, made, ?_⟩
    · simp only [cloneNode, cloneNodeTree, cloneNodeTreeRecursive, found, content, isText, Option.bind_eq_bind,
        Option.bind_some, parentSet']
      rfl
    · simp only [contents, Nodes.map, copiedRoot, isText]
  by_cases isCdata : label.2.nodeType = .cdataSection
  · obtain ⟨memory', parentSet, made⟩ := (@Made.alloc malloc memory { toContent := cloneCDATASect label.2 } rfl).storeNone
    have parentSet' : storeAt (memory.insert (malloc.address memory) { toContent := cloneCDATASect label.2 })
        (some (malloc.address memory)) ({ · with parentNode := none }) = some memory' := parentSet
    refine ⟨_, memory', ?_, made, ?_⟩
    · simp only [cloneNode, cloneNodeTree, cloneNodeTreeRecursive, found, content, isCdata, Option.bind_eq_bind,
        Option.bind_some, parentSet']
      rfl
    · simp only [contents, Nodes.map, copiedRoot, isCdata]
  refine ⟨.nil, memory, ?_, Made.nothing memory, ?_⟩
  · simp only [cloneNode, cloneNodeTree, found, content, Option.bind_eq_bind, Option.bind_some]
    rfl
  · simp only [contents, Nodes.map, copiedRoot]

theorem copiedRoot_seen {content : Content} {attrs children next : Nodes Content} {place : Place}
    (typed : Typed place (.node content attrs children next)) (other : content.nodeType ≠ .document) :
    (copiedRoot (.node content attrs children next)).map Content.seen =
        (Nodes.node content attrs children next).alone.map Content.seen ↔
      Copyable (.node content attrs children next) := by
  obtain ⟨takes, -, attrsOnly, attrsTyped, childrenTyped, nextTyped⟩ := typed
  by_cases isElement : content.nodeType = .element
  · rw [isElement] at childrenTyped
    simp only [copiedRoot, Copyable, alone, isElement, Nodes.map, Nodes.node.injEq, true_and, and_true,
      copied_attrs attrsTyped, copied_children childrenTyped (.inl rfl)]
  have noAttrs : attrs = .nil := not_not.mp fun some => isElement (attrsOnly some)
  obtain rfl := noAttrs
  by_cases isAttribute : content.nodeType = .attribute
  · rw [isAttribute] at childrenTyped
    obtain rfl := childrenTyped.nil fun _ => rfl
    simp only [copiedRoot, Copyable, alone, isAttribute, Nodes.map, cloneAttr_seen isAttribute]
  by_cases isText : content.nodeType = .text
  · rw [isText] at childrenTyped
    obtain rfl := childrenTyped.nil fun _ => rfl
    simp only [copiedRoot, Copyable, alone, isText, Nodes.map, Nodes.node.injEq, and_true, cloneTextNode_seen isText]
  by_cases isCdata : content.nodeType = .cdataSection
  · rw [isCdata] at childrenTyped
    obtain rfl := childrenTyped.nil fun _ => rfl
    simp only [copiedRoot, Copyable, alone, isCdata, Nodes.map, Nodes.node.injEq, and_true, cloneCDATASect_seen isCdata]
  simp only [copiedRoot, Copyable, alone, Nodes.map, reduceCtorEq]

/-! ### Documents -/

theorem setParents_alone {nodes : Placed} {parent prev parentNode : Option Nat} (stands : Stands memory parent prev nodes)
    (single : nodes.alone = nodes) (depth : Nat) :
    setParents parentNode (depth + 1) memory nodes.head = storeAt memory nodes.head ({ · with parentNode := parentNode }) := by
  cases nodes with
  | nil => rfl
  | node label attrs children next =>
    obtain rfl : next = .nil := (Nodes.node.inj single).2.2.2.symm
    obtain ⟨cell, found, -, links⟩ := stands.1
    have last : cell.nextSibling = none := congrArg Links.nextSibling links
    rw [head, setParents, storeAt, store_eq found, Option.bind_eq_bind, Option.bind_some, AList.lookup_insert,
      Option.bind_eq_bind, Option.bind_some]
    change setParents parentNode depth _ cell.nextSibling = _
    rw [last]
    cases depth <;> rfl

theorem not_stands_second {cell first second : Cell} {d a b : Nat} (document : memory.lookup d = some cell)
    (child : cell.firstChild = some a) (firstFound : memory.lookup a = some first) (behind : first.nextSibling = some b)
    (secondFound : memory.lookup b = some second) (orphan : second.parentNode = none) {copy : Placed}
    (here : copy.head = some d) : ¬Stands memory none none copy := by
  intro stands
  cases copy with
  | nil => cases here
  | node label attrs children next =>
    obtain rfl := Option.some.inj here
    obtain ⟨⟨cell', found, -, links⟩, -, childrenStand, -⟩ := stands
    obtain rfl := Option.some.inj (document.symm.trans found)
    have children_head : children.head = some a := (congrArg Links.firstChild links).symm.trans child
    cases children with
    | nil => cases children_head
    | node label' attrs' children' next' =>
      obtain rfl := Option.some.inj children_head
      obtain ⟨⟨first', found', -, links'⟩, -, -, nextStands⟩ := childrenStand
      obtain rfl := Option.some.inj (firstFound.symm.trans found')
      have next_head : next'.head = some b := (congrArg Links.nextSibling links').symm.trans behind
      cases next' with
      | nil => cases next_head
      | node label'' attrs'' children'' next'' =>
        obtain rfl := Option.some.inj next_head
        obtain ⟨second', found'', -, links''⟩ := nextStands.1
        obtain rfl := Option.some.inj (secondFound.symm.trans found'')
        have parent : second.parentNode = some label.1 := congrArg Links.parentNode links''
        rw [orphan] at parent
        cases parent

theorem cloneNode_document {label : Nat × Content} {attrs children next : Placed} {parent prev : Option Nat} {place : Place}
    (stands : Stands memory parent prev (node label attrs children next))
    (typed : Typed place (node label attrs children next).contents)
    (enough : (node label attrs children next).size ≤ depth) (isDocument : label.2.nodeType = .document) :
    ∃ copies memory', cloneNode malloc true depth memory (some label.1) = some (some (malloc.address memory), memory') ∧
      copies.contents = copied children.contents ∧
        (copies.alone = copies → Made memory memory' (node (malloc.address memory, newDoc) .nil copies .nil)) ∧
          (copies.alone ≠ copies → ∀ copy : Placed, copy.head = some (malloc.address memory) →
            ¬Stands memory' none none copy) := by
  rw [size] at enough
  obtain ⟨depth, rfl⟩ : ∃ k, depth = k + 1 := ⟨depth - 1, by omega⟩
  obtain ⟨⟨node, found, content, links⟩, attrsStand, childrenStand, nextStands⟩ := stands
  obtain ⟨takes, tag, attrsOnly, attrsTyped, childrenTyped, nextTyped⟩ := typed
  have made₀ := @Made.alloc malloc memory { toContent := newDoc } rfl
  obtain ⟨copies, memory₁, cloned, made₁, sameContents⟩ := @cloneNodeTreeRecursive_made malloc _ (some label.1) none children
    (.child .document) depth (childrenStand.mono made₀.kept) (isDocument ▸ childrenTyped) (.inr (.inr rfl)) (by omega)
  have firstChild : node.firstChild = children.head := congrArg Links.firstChild links
  set d := malloc.address memory with d_eq
  have docFound : memory₁.lookup d = some { toContent := newDoc } := made₁.kept _ _ (AList.lookup_insert memory)
  have notCopies : d ∉ copies.addresses := made₁.apart made₀.stands List.mem_cons_self
  have linked := store_eq docFound ({ · with firstChild := copies.head })
  have copiesStand := made₁.stands.insert notCopies { toContent := newDoc, firstChild := copies.head }
  by_cases single : copies.alone = copies
  · obtain ⟨memory₂, memory₃, childrenSet, adopted, made₃⟩ := @Made.setChildren _ _ _ _ _ _ (depth + 1) made₀ made₁ (by
      have less := copied_size sameContents
      omega)
    obtain rfl := Option.some.inj (linked.symm.trans childrenSet)
    rw [setParents_alone copiesStand single] at adopted
    obtain ⟨memory₄, parentSet, made₄⟩ := made₃.storeNone
    have parentSet' : storeAt memory₃ (some d) ({ · with parentNode := none }) = some memory₄ := parentSet
    refine ⟨copies, memory₄, ?_, sameContents, fun _ => made₄, fun more => absurd single more⟩
    have adopted' : storeAt _ copies.head ({ · with parentNode := some d }) = some memory₃ := adopted
    simp only [cloneNode, cloneNodeTree, cloneNodeTreeRecursive, found, content, isDocument, Option.bind_eq_bind,
      Option.bind_some, made₀.kept _ _ found, firstChild, cloned, if_true, ← d_eq, linked, adopted', parentSet']
  · cases copies with
    | nil => exact absurd rfl single
    | node label₁ attrs₁ children₁ behind =>
      cases behind with
      | nil => exact absurd rfl single
      | node label₂ attrs₂ children₂ next₂ =>
        obtain ⟨⟨first, firstFound, -, firstLinks⟩, -, -, ⟨second, secondFound, -, secondLinks⟩, -⟩ := copiesStand
        have nodup := made₁.nodup
        simp only [addresses, List.mem_cons, List.mem_append, not_or, List.nodup_cons] at notCopies nodup
        have apart₁ : d ≠ label₁.1 := notCopies.1
        have apart₂ : label₂.1 ≠ label₁.1 := fun same => nodup.1.2.2.1 same.symm
        obtain ⟨memory₃, adopted, firstFound', same₃⟩ := store_found firstFound ({ · with parentNode := some d })
        have docFound' := (same₃ d apart₁).trans (AList.lookup_insert memory₁)
        obtain ⟨memory₄, parentSet, same₄⟩ := store_idle docFound' ({ · with parentNode := none }) rfl
        refine ⟨_, memory₄, ?_, sameContents, fun one => absurd one single, fun _ copy here => ?_⟩
        · have parentSet' : storeAt memory₃ (some d) ({ · with parentNode := none }) = some memory₄ := parentSet
          have adopted' : storeAt _
              (Nodes.node label₁ attrs₁ children₁ (Nodes.node label₂ attrs₂ children₂ next₂)).head
              ({ · with parentNode := some d }) = some memory₃ := adopted
          simp only [cloneNode, cloneNodeTree, cloneNodeTreeRecursive, found, content, isDocument, Option.bind_eq_bind,
            Option.bind_some, made₀.kept _ _ found, firstChild, cloned, if_true, ← d_eq, linked, adopted', parentSet']
        · exact not_stands_second ((same₄ d).trans docFound') rfl ((same₄ _).trans firstFound')
            (congrArg Links.nextSibling firstLinks) (((same₄ _).trans (same₃ _ apart₂)).trans secondFound)
            (congrArg Links.parentNode secondLinks) here

theorem alone_iff_map {α β : Type} (f : α → β) (nodes : Nodes α) : nodes.alone = nodes ↔ (nodes.map f).alone = nodes.map f := by
  cases nodes with
  | nil => exact ⟨fun _ => rfl, fun _ => rfl⟩
  | node label attrs children next => cases next <;> simp [alone, Nodes.map]

theorem newDoc_seen {content : Content} (isDocument : content.nodeType = .document) :
    newDoc.seen = content.seen ↔ content.nodeName = some documentNodeName ∧ content.nodeValue = none ∧
      content.namespaceURI = none := by
  obtain ⟨nodeType, nodeName, nodeValue, namespaceURI, prefixName, localName, tagName⟩ := content
  obtain rfl : nodeType = .document := isDocument
  simp only [Content.seen, newDoc, Content.setNodeName, Content.init, Content.mk.injEq, true_and, and_true]
  exact and_congr eq_comm (and_congr eq_comm eq_comm)

theorem documentCopy_seen {label : Nat × Content} {attrs children next copies : Placed} {place : Place}
    (typed : Typed place (node label attrs children next).contents) (isDocument : label.2.nodeType = .document)
    (same : copies.contents = copied children.contents) (d : Nat) :
    copies.alone = copies ∧ (node (d, newDoc) .nil copies .nil).contents.map Content.seen =
        (node label attrs children next).contents.alone.map Content.seen ↔
      Copyable (node label attrs children next).contents := by
  obtain ⟨-, -, attrsOnly, -, childrenTyped, -⟩ := typed
  rw [isDocument] at attrsOnly childrenTyped
  have noAttrs : attrs.contents = .nil := not_not.mp fun some => by cases attrsOnly some
  change copies.alone = copies ∧ Nodes.node newDoc.seen .nil (copies.contents.map Content.seen) .nil =
      .node label.2.seen (attrs.contents.map Content.seen) (children.contents.map Content.seen) .nil ↔
    Copyable (.node label.2 attrs.contents children.contents next.contents)
  have text := copied_children childrenTyped (.inr rfl)
  simp only [noAttrs, Nodes.map, Nodes.node.injEq, true_and, and_true, newDoc_seen isDocument, Copyable, isDocument, same]
  rw [alone_iff_map Prod.snd copies, alone_iff_map Content.seen (copies.map Prod.snd),
    alone_iff_map Content.seen children.contents]
  change (copies.contents.map Content.seen).alone = copies.contents.map Content.seen ∧ _ ↔ _
  rw [same]
  constructor
  · rintro ⟨one, ⟨name, value, namespace_⟩, alike⟩
    refine ⟨name, value, namespace_, text.mp alike, ?_⟩
    rwa [alike] at one
  · rintro ⟨name, value, namespace_, last, one⟩
    have alike := text.mpr last
    exact ⟨by rwa [alike], ⟨name, value, namespace_⟩, alike⟩

/-- A node is copied as it should be just when text stands last in every child list below it and, if it is a
document, it has one child at most. -/
theorem clones_iff {place : Place} {parent prev : Option Nat} (stands : Stands memory parent prev source)
    (typed : Typed place source.contents) (enough : source.size ≤ depth) :
    Clones malloc depth memory source ↔ Copyable source.contents := by
  cases source with
  | nil => exact ⟨fun _ => trivial, fun _ => ⟨.nil, memory, rfl, Made.nothing memory, rfl⟩⟩
  | node label attrs children next =>
      by_cases isDocument : label.2.nodeType = .document
      · obtain ⟨copies, memory', cloned, sameContents, single, second⟩ :=
          @cloneNode_document malloc _ _ _ _ _ _ _ _ _ stands typed enough isDocument
        have whole := documentCopy_seen typed isDocument sameContents
        constructor
        · rintro ⟨copy', memory'', cloned', made', alike⟩
          obtain ⟨same, rfl⟩ := Prod.mk.inj (Option.some.inj (cloned.symm.trans cloned'))
          by_cases one : copies.alone = copies
          · rw [← (single one).stands.unique made'.stands same] at alike
            exact (whole (malloc.address memory)).mp ⟨one, alike⟩
          · exact absurd made'.stands (second one copy' same.symm)
        · intro copyable
          obtain ⟨one, alike⟩ := (whole (malloc.address memory)).mpr copyable
          exact ⟨node (malloc.address memory, newDoc) .nil copies .nil, memory', cloned, single one, alike⟩
      · obtain ⟨copy, memory', cloned, made, sameContents⟩ :=
          @cloneNode_made malloc _ _ _ _ _ _ _ _ _ stands typed enough isDocument
        have whole : copy.contents.map Content.seen = (node label attrs children next).contents.alone.map Content.seen ↔
            Copyable (node label attrs children next).contents := by
          rw [sameContents]
          exact copiedRoot_seen typed isDocument
        constructor
        · rintro ⟨copy', memory'', cloned', made', alike⟩
          obtain ⟨same, rfl⟩ := Prod.mk.inj (Option.some.inj (cloned.symm.trans cloned'))
          rw [← made.stands.unique made'.stands same] at alike
          exact whole.mp alike
        · intro copyable
          exact ⟨copy, memory', cloned, made, whole.mpr copyable⟩

end Roots

def elementNamed (name : List UInt8) : Content :=
  { nodeType := .element, nodeName := some name, tagName := some name }

def textOf (value : List UInt8) : Content :=
  { nodeType := .text, nodeName := some [35, 116, 101, 120, 116], nodeValue := some value }

def textBehind : Placed :=
  .node (1, elementNamed [97]) .nil (.node (2, elementNamed [98]) .nil .nil (.node (3, textOf [104, 105]) .nil .nil .nil)) .nil

def textBefore : Placed :=
  .node (1, elementNamed [97]) .nil (.node (3, textOf [104, 105]) .nil .nil (.node (2, elementNamed [98]) .nil .nil .nil)) .nil

theorem textBehind_typed : Typed .loose textBehind.contents := by
  simp [textBehind, Nodes.map, Typed, Place.takes, elementNamed, textOf, allowChildren]

theorem textBefore_typed : Typed .loose textBefore.contents := by
  simp [textBefore, Nodes.map, Typed, Place.takes, elementNamed, textOf, allowChildren]

theorem clones_textBehind : Clones .behind 3 (laidOut ∅ none none textBehind) textBehind :=
  (clones_iff (laidOut_stands (by decide)) textBehind_typed (by decide)).mpr ⟨trivial, rfl, rfl⟩

/-- What stands behind a text is not copied. -/
theorem cloneNode_textBefore :
    ¬∀ (malloc : Malloc Cell) (depth : Nat) (memory : Memory Cell) (source : Placed) (place : Place)
      (parent prev : Option Nat), Stands memory parent prev source → Typed place source.contents →
        source.addresses.Nodup → source.size ≤ depth → Clones malloc depth memory source := by
  intro claim
  have stands : Stands (laidOut ∅ none none textBefore) none none textBefore := laidOut_stands (by decide)
  obtain ⟨copy, memory', cloned, made, alike⟩ :=
    claim .behind 3 _ textBefore .loose none none stands textBefore_typed (by decide) (by decide)
  obtain ⟨copy', memory'', cloned', made', same⟩ :=
    @cloneNode_made .behind _ 3 _ _ _ _ _ _ _ stands textBefore_typed (by decide) (by decide)
  obtain ⟨heads, rfl⟩ := Prod.mk.inj (Option.some.inj (cloned.symm.trans cloned'))
  rw [made.stands.unique made'.stands heads, same] at alike
  revert alike
  decide

end Pupnp.Ixml.Dom
