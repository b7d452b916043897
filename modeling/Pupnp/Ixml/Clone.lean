import Pupnp.Ixml.Dom

/-!
Copies of nodes. The recursion copies a node with its attributes, its children and the siblings behind it, but
behind a text or a CDATA section it stops.
-/

namespace Pupnp.Ixml.Dom
open Pupnp.Cells

/-! ### Copies of what a node holds -/

/-- `ixmlNode_setNodeName`, which sets the prefix and the local name too. -/
def Content.setNodeName (content : Content) : Option (List UInt8) → Content
  | none => { content with nodeName := none }
  | some qualifiedName =>
      { content with
        nodeName := some qualifiedName
        prefixName := (parserSetNodePrefixAndLocalName qualifiedName).1
        localName := some (parserSetNodePrefixAndLocalName qualifiedName).2 }

def Content.init : Content := { nodeType := .invalid }

def cloneTextNode (nodeptr : Content) : Content :=
  { Content.init.setNodeName nodeptr.nodeName with nodeValue := nodeptr.nodeValue, nodeType := .text }

def cloneCDATASect (nodeptr : Content) : Content :=
  { Content.init.setNodeName nodeptr.nodeName with nodeValue := nodeptr.nodeValue, nodeType := .cdataSection }

def cloneElement (nodeptr : Content) : Option Content :=
  nodeptr.tagName.map fun tagName =>
    { ({ Content.init with tagName := some tagName }).setNodeName nodeptr.nodeName with
      nodeValue := nodeptr.nodeValue
      namespaceURI := nodeptr.namespaceURI
      prefixName := nodeptr.prefixName
      localName := nodeptr.localName
      nodeType := .element }

def documentNodeName : List UInt8 := [35, 100, 111, 99, 117, 109, 101, 110, 116]

def newDoc : Content := { Content.init.setNodeName (some documentNodeName) with nodeType := .document }

def cloneAttr (nodeptr : Content) : Content :=
  { Content.init.setNodeName nodeptr.nodeName with
    nodeValue := nodeptr.nodeValue
    namespaceURI := nodeptr.namespaceURI
    prefixName := nodeptr.prefixName
    localName := nodeptr.localName
    nodeType := .attribute }

/-! ### Copies of trees -/

def setParents (parentNode : Option Nat) : Nat → Memory Cell → Option Nat → Option (Memory Cell)
  | _, memory, none => some memory
  | 0, _, some _ => none
  | depth + 1, memory, some nextptr => do
      let memory ← store memory nextptr ({ · with parentNode := parentNode })
      let next ← memory.lookup nextptr
      setParents parentNode depth memory next.nextSibling

def setSiblingNodesParent (depth : Nat) (memory : Memory Cell) (nodeptr : Nat) : Option (Memory Cell) := do
  let node ← memory.lookup nodeptr
  setParents node.parentNode depth memory node.nextSibling

def adopt (depth : Nat) (memory : Memory Cell) (element : Nat) : Option Nat → Option (Memory Cell)
  | none => some memory
  | some child => do
      let memory ← store memory child ({ · with parentNode := some element })
      setSiblingNodesParent depth memory child

def linkNext (memory : Memory Cell) (copy : Nat) (nextSib : Option Nat) : Option (Memory Cell) := do
  let memory ← store memory copy ({ · with nextSibling := nextSib })
  storeAt memory nextSib ({ · with prevSibling := some copy })

variable (malloc : Malloc Cell) (deep : Bool)

/-- `ixmlNode_cloneNodeTreeRecursive` with bounded depth: the copy, or NULL, and the memory behind it. -/
def cloneNodeTreeRecursive : Nat → Memory Cell → Option Nat → Option (Option Nat × Memory Cell)
  | _, memory, none => some (none, memory)
  | 0, _, some _ => none
  | depth + 1, memory, some nodeptr => do
      let node ← memory.lookup nodeptr
      match node.nodeType with
      | .element =>
          match cloneElement node.toContent with
          | none => some (none, memory)
          | some content =>
              let newElement := malloc.address memory
              let memory := memory.insert newElement { toContent := content }
              let node ← memory.lookup nodeptr
              let (firstAttr, memory) ← cloneNodeTreeRecursive depth memory node.firstAttr
              let memory ← store memory newElement ({ · with firstAttr := firstAttr })
              if deep then
                let node ← memory.lookup nodeptr
                let (firstChild, memory) ← cloneNodeTreeRecursive depth memory node.firstChild
                let memory ← store memory newElement ({ · with firstChild := firstChild })
                let memory ← adopt depth memory newElement firstChild
                let node ← memory.lookup nodeptr
                let (nextSib, memory) ← cloneNodeTreeRecursive depth memory node.nextSibling
                let memory ← linkNext memory newElement nextSib
                some (some newElement, memory)
              else some (some newElement, memory)
      | .attribute =>
          let newAttr := malloc.address memory
          let memory := memory.insert newAttr { toContent := cloneAttr node.toContent }
          let node ← memory.lookup nodeptr
          let (nextSib, memory) ← cloneNodeTreeRecursive depth memory node.nextSibling
          let memory ← linkNext memory newAttr nextSib
          some (some newAttr, memory)
      | .text =>
          let newNode := malloc.address memory
          some (some newNode, memory.insert newNode { toContent := cloneTextNode node.toContent })
      | .cdataSection =>
          let newCDATA := malloc.address memory
          some (some newCDATA, memory.insert newCDATA { toContent := cloneCDATASect node.toContent })
      | .document =>
          let newDoc_ := malloc.address memory
          let memory := memory.insert newDoc_ { toContent := newDoc }
          if deep then
            let node ← memory.lookup nodeptr
            let (firstChild, memory) ← cloneNodeTreeRecursive depth memory node.firstChild
            let memory ← store memory newDoc_ ({ · with firstChild := firstChild })
            let memory ← storeAt memory firstChild ({ · with parentNode := some newDoc_ })
            some (some newDoc_, memory)
          else some (some newDoc_, memory)
      | _ => some (none, memory)

def cloneNodeTree (depth : Nat) (memory : Memory Cell) (nodeptr : Nat) : Option (Option Nat × Memory Cell) := do
  let node ← memory.lookup nodeptr
  let (newNode, memory) ← match node.nodeType with
    | .element =>
        match cloneElement node.toContent with
        | none => return (none, memory)
        | some content =>
            let newElement := malloc.address memory
            let memory := memory.insert newElement { toContent := content }
            let node ← memory.lookup nodeptr
            let (firstAttr, memory) ← cloneNodeTreeRecursive malloc deep depth memory node.firstAttr
            let memory ← store memory newElement ({ · with firstAttr := firstAttr })
            if deep then
              let node ← memory.lookup nodeptr
              let (firstChild, memory) ← cloneNodeTreeRecursive malloc deep depth memory node.firstChild
              let memory ← store memory newElement ({ · with firstChild := firstChild })
              let memory ← setParents (some newElement) depth memory firstChild
              let memory ← store memory newElement ({ · with nextSibling := none })
              some (some newElement, memory)
            else some (some newElement, memory)
    | .attribute | .text | .cdataSection | .document =>
        cloneNodeTreeRecursive malloc deep depth memory (some nodeptr)
    | _ => some (none, memory)
  let memory ← storeAt memory newNode ({ · with parentNode := none })
  some (newNode, memory)

def cloneNode (depth : Nat) (memory : Memory Cell) : Option Nat → Option (Option Nat × Memory Cell)
  | none => some (none, memory)
  | some nodeptr => do
      let node ← memory.lookup nodeptr
      match node.nodeType with
      | .attribute =>
          let newAttr := malloc.address memory
          some (some newAttr, memory.insert newAttr { toContent := cloneAttr node.toContent, specified := true })
      | _ => cloneNodeTree malloc deep depth memory nodeptr

/-! ### Parts of a copy -/

open Nodes

structure Made (memory memory' : Memory Cell) (copy : Placed) : Prop where
  stands : Stands memory' none none copy
  nodup : copy.addresses.Nodup
  fresh : ∀ a ∈ copy.addresses, memory.lookup a = none
  kept : Extends memory memory'

section Parts
variable {malloc} {memory memory' : Memory Cell} {parent prev : Option Nat} {nodes copy attrs children next : Placed}

theorem Made.nothing (memory : Memory Cell) : Made memory memory Nodes.nil :=
  ⟨trivial, List.nodup_nil, fun _ member => absurd member List.not_mem_nil, .refl memory⟩

theorem Made.apart (made : Made memory memory' copy) (stands : Stands memory parent prev nodes) {a : Nat}
    (member : a ∈ nodes.addresses) : a ∉ copy.addresses := by
  intro inside
  obtain ⟨cell, found⟩ := stands.found member
  rw [made.fresh a inside] at found
  cases found

theorem Made.alloc (memory : Memory Cell) (cell : Cell) (links : cell.toLinks = {}) :
    Made memory (memory.insert (malloc.address memory) cell)
      (node (malloc.address memory, cell.toContent) nil nil nil) := by
  refine ⟨⟨⟨cell, AList.lookup_insert memory, rfl, links⟩, trivial, trivial, trivial⟩, ?_, ?_, ?_⟩
  · simp [addresses]
  · intro a member
    obtain rfl : a = malloc.address memory := by simpa [addresses] using member
    exact malloc.fresh memory
  · exact (Extends.refl memory).insert (malloc.fresh memory) cell

theorem setPrev_stands (stands : Stands memory parent prev nodes) (nodup : nodes.addresses.Nodup)
    (prevSibling : Option Nat) :
    ∃ memory', storeAt memory nodes.head ({ · with prevSibling := prevSibling }) = some memory' ∧
      Stands memory' parent prevSibling nodes ∧ ∀ a ∉ nodes.addresses, memory'.lookup a = memory.lookup a := by
  cases nodes with
  | nil => exact ⟨memory, rfl, trivial, fun _ _ => rfl⟩
  | node label attrs children next =>
    obtain ⟨⟨cell, found, content, links⟩, attrsStand, childrenStand, nextStands⟩ := stands
    simp only [addresses, List.nodup_cons, List.mem_append, not_or] at nodup
    obtain ⟨⟨notAttrs, notChildren, notNext⟩, -⟩ := nodup
    refine ⟨_, store_eq found _, ⟨⟨_, AList.lookup_insert memory, content, ?_⟩, attrsStand.insert notAttrs _,
      childrenStand.insert notChildren _, nextStands.insert notNext _⟩, ?_⟩
    · exact congrArg (fun links : Links => { links with prevSibling := prevSibling }) links
    · intro a other
      apply AList.lookup_insert_ne
      rintro rfl
      exact other List.mem_cons_self

theorem setParents_stands {parentNode : Option Nat} {depth : Nat} (stands : Stands memory parent prev nodes)
    (nodup : nodes.addresses.Nodup) (enough : nodes.size ≤ depth) :
    ∃ memory', setParents parentNode depth memory nodes.head = some memory' ∧
      Stands memory' parentNode prev nodes ∧ ∀ a ∉ nodes.addresses, memory'.lookup a = memory.lookup a := by
  induction nodes generalizing memory prev depth with
  | nil =>
    refine ⟨memory, ?_, trivial, fun _ _ => rfl⟩
    cases depth <;> rfl
  | node label attrs children next _ _ nextIh =>
    obtain ⟨⟨cell, found, content, links⟩, attrsStand, childrenStand, nextStands⟩ := stands
    simp only [addresses, List.nodup_cons, List.mem_append, not_or, List.nodup_append] at nodup
    obtain ⟨⟨notAttrs, notChildren, notNext⟩, -, ⟨-, nextNodup, apart⟩, apart'⟩ := nodup
    rw [size] at enough
    obtain ⟨depth, rfl⟩ : ∃ k, depth = k + 1 := ⟨depth - 1, by omega⟩
    obtain ⟨memory', set, nextStands', kept⟩ :=
      @nextIh _ _ depth (nextStands.insert notNext ({ cell with parentNode := parentNode })) nextNodup (by omega)
    refine ⟨memory', ?_, ⟨⟨_, (kept _ notNext).trans (AList.lookup_insert memory), content, ?_⟩, ?_, ?_, nextStands'⟩, ?_⟩
    · rw [head, setParents, store_eq found, Option.bind_eq_bind, Option.bind_some, AList.lookup_insert,
        Option.bind_eq_bind, Option.bind_some]
      have behind : cell.nextSibling = next.head := congrArg Links.nextSibling links
      rw [← behind] at set
      exact set
    · exact congrArg (fun links : Links => { links with parentNode := parentNode }) links
    · apply (attrsStand.insert notAttrs ({ cell with parentNode := parentNode })).congr
      intro a member
      rw [kept a fun inside => apart' a member a (.inr inside) rfl]
      exact fun _ same => same
    · apply (childrenStand.insert notChildren ({ cell with parentNode := parentNode })).congr
      intro a member
      rw [kept a fun inside => apart a member a inside rfl]
      exact fun _ same => same
    · intro a outside
      simp only [addresses, List.mem_cons, List.mem_append, not_or] at outside
      rw [kept a outside.2.2.2]
      exact AList.lookup_insert_ne outside.1

theorem adopt_eq (depth : Nat) (memory : Memory Cell) (element : Nat) (child : Option Nat) :
    adopt depth memory element child = setParents (some element) (depth + 1) memory child := by
  cases child with
  | none => rfl
  | some child =>
    rw [adopt, setParents]
    cases found : memory.lookup child with
    | none => rw [store, found]; rfl
    | some cell =>
      rw [store_eq found, Option.bind_eq_bind, Option.bind_some, Option.bind_eq_bind, Option.bind_some,
        setSiblingNodesParent, AList.lookup_insert]
      rfl

/-! ### A copy grows -/

section Grow
variable {start memory'' : Memory Cell} {label : Nat × Content}

structure Joins (memory memory' : Memory Cell) (label : Nat × Content) (more : Placed) : Prop where
  same : ∀ a, a ≠ label.1 → a ∉ more.addresses → memory'.lookup a = memory.lookup a

theorem Joins.stands (joins : Joins memory' memory'' label copy) (made : Made memory memory' copy)
    (stands : Stands memory parent prev nodes) (outside : label.1 ∉ nodes.addresses) :
    Stands memory'' parent prev nodes := by
  apply stands.congr
  intro a member cell found
  rw [joins.same a (ne_of_mem_of_not_mem member outside) (made.apart stands member)]
  exact made.kept a cell found

theorem Joins.kept (joins : Joins memory' memory'' label copy) (more : Made memory memory' copy)
    (kept : Extends start memory) (absent : start.lookup label.1 = none) : Extends start memory'' := by
  intro a cell found
  have here := kept a cell found
  have apart : a ≠ label.1 := by
    rintro rfl
    rw [absent] at found
    cases found
  have outside : a ∉ copy.addresses := by
    intro inside
    rw [more.fresh a inside] at here
    cases here
  rw [joins.same a apart outside]
  exact more.kept a cell here

theorem Made.setAttrs (made : Made start memory (node label nil nil nil)) (more : Made memory memory' attrs) :
    ∃ memory'', store memory' label.1 ({ · with firstAttr := attrs.head }) = some memory'' ∧
      Made start memory'' (node label attrs nil nil) := by
  obtain ⟨cell, found, content, links⟩ := made.stands.1
  have notAttrs : label.1 ∉ attrs.addresses := more.apart made.stands List.mem_cons_self
  have absent : start.lookup label.1 = none := made.fresh _ List.mem_cons_self
  refine ⟨_, store_eq (more.kept _ _ found) _, ⟨⟨_, AList.lookup_insert memory', content, ?_⟩, ?_, trivial, trivial⟩,
    ?_, ?_, ?_⟩
  · exact congrArg (fun links : Links => { links with firstAttr := attrs.head }) links
  · exact more.stands.insert notAttrs _
  · simp [addresses, notAttrs, more.nodup]
  · intro a member
    simp only [addresses, List.append_nil, List.mem_cons] at member
    rcases member with rfl | member
    · exact absent
    · exact made.kept.absent (more.fresh a member)
  · exact (made.kept.trans more.kept).insert absent _

theorem Made.setChildren {depth : Nat} (made : Made start memory (node label attrs nil nil))
    (more : Made memory memory' children) (enough : children.size ≤ depth) :
    ∃ memory₁ memory₂, store memory' label.1 ({ · with firstChild := children.head }) = some memory₁ ∧
      setParents (some label.1) depth memory₁ children.head = some memory₂ ∧
        Made start memory₂ (node label attrs children nil) := by
  obtain ⟨⟨cell, found, content, links⟩, attrsStand, -⟩ := made.stands
  have notChildren : label.1 ∉ children.addresses := more.apart made.stands List.mem_cons_self
  have absent : start.lookup label.1 = none := made.fresh _ List.mem_cons_self
  have nodup := made.nodup
  simp only [addresses, List.append_nil, List.nodup_cons] at nodup
  obtain ⟨memory₂, set, stands, same⟩ := @setParents_stands _ none none _ (some label.1) depth
    (more.stands.insert notChildren ({ cell with firstChild := children.head })) more.nodup enough
  have joins : Joins memory' memory₂ label children :=
    ⟨fun a apart outside => (same a outside).trans (AList.lookup_insert_ne apart)⟩
  refine ⟨_, memory₂, store_eq (more.kept _ _ found) _, set, ⟨⟨_, (same _ notChildren).trans (AList.lookup_insert memory'),
    content, ?_⟩, joins.stands more attrsStand nodup.1, stands, trivial⟩, ?_, ?_, joins.kept more made.kept absent⟩
  · exact congrArg (fun links : Links => { links with firstChild := children.head }) links
  · simp only [addresses, List.append_nil, List.nodup_cons, List.mem_append, not_or, List.nodup_append]
    refine ⟨⟨nodup.1, notChildren⟩, nodup.2, more.nodup, fun a member b inside => ?_⟩
    rintro rfl
    exact more.apart attrsStand member inside
  · intro a member
    simp only [addresses, List.append_nil, List.mem_cons, List.mem_append] at member
    rcases member with rfl | member | member
    · exact absent
    · exact made.fresh a (by simp [addresses, member])
    · exact made.kept.absent (more.fresh a member)

theorem Made.linkNext (made : Made start memory (node label attrs children nil)) (more : Made memory memory' next) :
    ∃ memory'', linkNext memory' label.1 next.head = some memory'' ∧
      Made start memory'' (node label attrs children next) := by
  obtain ⟨⟨cell, found, content, links⟩, attrsStand, childrenStand, -⟩ := made.stands
  have notNext : label.1 ∉ next.addresses := more.apart made.stands List.mem_cons_self
  have absent : start.lookup label.1 = none := made.fresh _ List.mem_cons_self
  have nodup := made.nodup
  simp only [addresses, List.append_nil, List.nodup_cons, List.mem_append, not_or] at nodup
  obtain ⟨memory₂, set, stands, same⟩ := setPrev_stands (more.stands.insert notNext ({ cell with nextSibling := next.head }))
    more.nodup (some label.1)
  have joins : Joins memory' memory₂ label next :=
    ⟨fun a apart outside => (same a outside).trans (AList.lookup_insert_ne apart)⟩
  refine ⟨memory₂, ?_, ⟨⟨_, (same _ notNext).trans (AList.lookup_insert memory'), content, ?_⟩,
    joins.stands more attrsStand nodup.1.1, joins.stands more childrenStand nodup.1.2, stands⟩, ?_, ?_,
    joins.kept more made.kept absent⟩
  · rw [Dom.linkNext, store_eq (more.kept _ _ found), Option.bind_eq_bind, Option.bind_some]
    exact set
  · exact congrArg (fun links : Links => { links with nextSibling := next.head }) links
  · simp only [addresses, List.nodup_cons, List.mem_append, not_or, ← List.append_assoc]
    refine ⟨⟨nodup.1, notNext⟩, List.nodup_append.mpr ⟨nodup.2, more.nodup, fun a member b inside => ?_⟩⟩
    rintro rfl
    refine more.apart made.stands ?_ inside
    simp only [addresses, List.append_nil]
    exact List.mem_cons_of_mem _ member
  · intro a member
    simp only [addresses, List.mem_cons, List.mem_append] at member
    rcases member with rfl | member | member | member
    · exact absent
    · exact made.fresh a (by simp [addresses, member])
    · exact made.fresh a (by simp [addresses, member])
    · exact made.kept.absent (more.fresh a member)

end Grow

end Parts

/-! ### What the recursion copies -/

def copied : Nodes Content → Nodes Content
  | .nil => .nil
  | .node content attrs children next =>
      match content.nodeType with
      | .element => .node content (copied attrs) (copied children) (copied next)
      | .attribute => .node (cloneAttr content) .nil .nil (copied next)
      | .text => .node (cloneTextNode content) .nil .nil .nil
      | .cdataSection => .node (cloneCDATASect content) .nil .nil .nil
      | _ => .nil

theorem copied_size {copy nodes : Placed} (same : copy.contents = copied nodes.contents) : copy.size ≤ nodes.size := by
  have smaller (nodes : Nodes Content) : (copied nodes).size ≤ nodes.size := by
    induction nodes with
    | nil => exact le_rfl
    | node content attrs children next attrsIh childrenIh nextIh =>
      rw [copied, size]
      split <;> simp only [size] <;> omega
  calc copy.size
    _ = copy.contents.size := (size_map Prod.snd copy).symm
    _ ≤ nodes.contents.size := by rw [same]; exact smaller nodes.contents
    _ = nodes.size := size_map Prod.snd nodes

theorem cloneElement_some {content : Content} (isElement : content.nodeType = .element) (tag : content.tagName ≠ none) :
    cloneElement content = some content := by
  obtain ⟨nodeType, nodeName, nodeValue, namespaceURI, prefixName, localName, tagName⟩ := content
  obtain ⟨tagName, rfl⟩ := Option.ne_none_iff_exists'.mp tag
  obtain rfl : nodeType = .element := isElement
  cases nodeName with
  | none => rfl
  | some qualifiedName => rfl

def Place.InList (place : Place) : Prop :=
  place = .attribute ∨ place = .child .element ∨ place = .child .document

theorem Place.InList.notDocument {place : Place} (inList : place.InList) {nodeType : NodeType}
    (takes : place.takes nodeType = true) : nodeType ≠ .document := by
  rintro rfl
  rcases inList with rfl | rfl | rfl <;> exact absurd takes (by decide)

theorem cloneNodeTreeRecursive_made {memory : Memory Cell} {parent prev : Option Nat} {nodes : Placed} {place : Place}
    {depth : Nat} (stands : Stands memory parent prev nodes) (typed : Typed place nodes.contents)
    (inList : place.InList) (enough : nodes.size ≤ depth) :
    ∃ copy memory', cloneNodeTreeRecursive malloc true depth memory nodes.head = some (copy.head, memory') ∧
      Made memory memory' copy ∧ copy.contents = copied nodes.contents := by
  induction nodes generalizing memory parent prev place depth with
  | nil =>
    refine ⟨.nil, memory, ?_, Made.nothing memory, rfl⟩
    cases depth <;> rfl
  | node label attrs children next attrsIh childrenIh nextIh =>
    rw [size] at enough
    obtain ⟨depth, rfl⟩ : ∃ k, depth = k + 1 := ⟨depth - 1, by omega⟩
    obtain ⟨⟨node, found, content, links⟩, attrsStand, childrenStand, nextStands⟩ := stands
    obtain ⟨takes, tag, attrsOnly, attrsTyped, childrenTyped, nextTyped⟩ := typed
    by_cases isElement : label.2.nodeType = .element
    · have cloned := cloneElement_some isElement (tag isElement)
      have made₀ := @Made.alloc malloc memory { toContent := label.2 } rfl
      have kept₀ := made₀.kept
      obtain ⟨attrsCopy, memory₁, attrsCloned, attrsMade, attrsContents⟩ := @attrsIh _ none none .attribute depth
        (attrsStand.mono kept₀) attrsTyped (.inl rfl) (by omega)
      obtain ⟨memory₂, attrsSet, made₂⟩ := made₀.setAttrs attrsMade
      obtain ⟨childrenCopy, memory₃, childrenCloned, childrenMade, childrenContents⟩ := @childrenIh _ (some label.1)
        none (.child .element) depth (childrenStand.mono made₂.kept) (isElement ▸ childrenTyped) (.inr (.inl rfl)) (by omega)
      obtain ⟨memory₄, memory₅, childrenSet, adopted, made₅⟩ :=
        @Made.setChildren _ _ _ _ _ _ (depth + 1) made₂ childrenMade (by
          have less := copied_size childrenContents
          omega)
      obtain ⟨nextCopy, memory₆, nextCloned, nextMade, nextContents⟩ := @nextIh _ parent (some label.1) place depth
        (nextStands.mono made₅.kept) nextTyped inList (by omega)
      obtain ⟨memory₇, nextSet, made₇⟩ := made₅.linkNext nextMade
      refine ⟨_, memory₇, ?_, made₇, ?_⟩
      · have firstAttr : node.firstAttr = attrs.head := congrArg Links.firstAttr links
        have firstChild : node.firstChild = children.head := congrArg Links.firstChild links
        have nextSibling : node.nextSibling = next.head := congrArg Links.nextSibling links
        change cloneNodeTreeRecursive malloc true (depth + 1) memory (some label.1) =
          some (some (malloc.address memory), memory₇)
        rw [← adopt_eq] at adopted
        simp only [cloneNodeTreeRecursive, found, content, isElement, cloned, Option.bind_eq_bind, Option.bind_some,
          kept₀ _ _ found, firstAttr, attrsCloned, attrsSet, if_true, made₂.kept _ _ found, firstChild, childrenCloned,
          childrenSet, adopted, made₅.kept _ _ found, nextSibling, nextCloned, nextSet]
      · simp only [contents, Nodes.map, copied, isElement] at attrsContents childrenContents nextContents ⊢
        rw [attrsContents, childrenContents, nextContents]
    by_cases isAttribute : label.2.nodeType = .attribute
    · have made₀ := @Made.alloc malloc memory { toContent := cloneAttr label.2 } rfl
      obtain ⟨nextCopy, memory₁, nextCloned, nextMade, nextContents⟩ := @nextIh _ parent (some label.1) place depth
        (nextStands.mono made₀.kept) nextTyped inList (by omega)
      obtain ⟨memory₂, nextSet, made₂⟩ := made₀.linkNext nextMade
      refine ⟨_, memory₂, ?_, made₂, ?_⟩
      · have nextSibling : node.nextSibling = next.head := congrArg Links.nextSibling links
        change cloneNodeTreeRecursive malloc true (depth + 1) memory (some label.1) =
          some (some (malloc.address memory), memory₂)
        simp only [cloneNodeTreeRecursive, found, content, isAttribute, Option.bind_eq_bind, Option.bind_some,
          made₀.kept _ _ found, nextSibling, nextCloned, nextSet]
      · simp only [contents, Nodes.map, copied, isAttribute] at nextContents ⊢
        rw [nextContents]
    by_cases isText : label.2.nodeType = .text
    · have made := @Made.alloc malloc memory { toContent := cloneTextNode label.2 } rfl
      refine ⟨_, _, ?_, made, ?_⟩
      · rw [head, cloneNodeTreeRecursive, found, Option.bind_eq_bind, Option.bind_some, content, isText]
        rfl
      · simp [contents, Nodes.map, copied, isText]
    by_cases isCdata : label.2.nodeType = .cdataSection
    · have made := @Made.alloc malloc memory { toContent := cloneCDATASect label.2 } rfl
      refine ⟨_, _, ?_, made, ?_⟩
      · rw [head, cloneNodeTreeRecursive, found, Option.bind_eq_bind, Option.bind_some, content, isCdata]
        rfl
      · simp [contents, Nodes.map, copied, isCdata]
    have notDocument := inList.notDocument takes
    refine ⟨.nil, memory, ?_, Made.nothing memory, ?_⟩
    · change cloneNodeTreeRecursive malloc true (depth + 1) memory (some label.1) = some (none, memory)
      simp only [cloneNodeTreeRecursive, found, content, Option.bind_eq_bind, Option.bind_some]
    · simp only [contents, Nodes.map, copied]

end Pupnp.Ixml.Dom
