import Pupnp.Ixml.Reprint

/-!
What a printed node is read back as: the nodes behind a text or a CDATA section among its children are lost, and
a text of white space is.
-/

namespace Pupnp.Ixml
open CString

/-- A node as its type, name, value, attributes and children show it. -/
inductive Content where
  | element (nodeName : List UInt8) (attributes : List (List UInt8 × List UInt8)) (childNodes : List Content)
  | text (nodeValue : List UInt8)
  | cdataSection (nodeValue : List UInt8)

def Attr.content (attr : Attr) : List UInt8 × List UInt8 := (attr.nodeName, attr.nodeValue)

def nodesContent : List Node → List Content
  | [] => []
  | .text nodeValue :: rest => .text nodeValue :: nodesContent rest
  | .cdataSection nodeValue :: rest => .cdataSection nodeValue :: nodesContent rest
  | .element tag attrs children :: rest =>
      .element tag.nodeName (attrs.map Attr.content) (nodesContent children) :: nodesContent rest

def kept : List Content → List Content
  | [] => []
  | .text nodeValue :: _ => if nodeValue.all WHITESPACE.contains then [] else [.text nodeValue]
  | .cdataSection nodeValue :: _ => [.cdataSection nodeValue]
  | .element nodeName attributes childNodes :: rest => .element nodeName attributes (kept childNodes) :: kept rest

def Printable : List Content → Prop
  | [] => True
  | .text nodeValue :: rest => ¬Blank nodeValue ∧ rest = []
  | .cdataSection _ :: rest => rest = []
  | .element _ _ childNodes :: rest => Printable childNodes ∧ Printable rest

theorem kept_eq_iff (nodes : List Content) : kept nodes = nodes ↔ Printable nodes := by
  induction nodes using kept.induct with
  | case1 => simp [kept, Printable]
  | case2 nodeValue rest white =>
    have blank : Blank nodeValue := List.all_eq_true.mp white
    rw [kept, if_pos white, Printable]
    exact ⟨fun none => absurd none.symm (List.cons_ne_nil _ _), fun visible => absurd blank visible.1⟩
  | case3 nodeValue rest visible =>
    have visible' : ¬Blank nodeValue := fun blank => visible (List.all_eq_true.mpr blank)
    rw [kept, if_neg visible, Printable]
    simp only [List.cons.injEq, true_and, visible', not_false_eq_true]
    exact eq_comm
  | case4 nodeValue rest =>
    rw [kept, Printable]
    simp only [List.cons.injEq, true_and]
    exact eq_comm
  | case5 nodeName attributes childNodes rest below beside =>
    rw [kept, Printable, ← below, ← beside]
    simp only [List.cons.injEq, Content.element.injEq, true_and]

/-! ### What the walk builds -/

theorem Tree.foldl_add (tag : Tag) (attrs : List Attr) (nodes added : List Node)
    (outer : List (Tag × List Attr × List Node)) (children : List Node) :
    added.foldl Tree.add ⟨(tag, attrs, nodes) :: outer, children⟩ =
      ⟨(tag, attrs, nodes ++ added) :: outer, children⟩ := by
  induction added generalizing nodes with
  | nil => rw [List.foldl_nil, List.append_nil]
  | cons node added ih =>
    rw [List.foldl_cons]
    change added.foldl Tree.add ⟨(tag, attrs, nodes ++ [node]) :: outer, children⟩ = _
    rw [ih, List.append_assoc, List.singleton_append]

theorem definedIn_content (newNode : Attr) (pCur : ElementStack) :
    (definedIn newNode pCur).1.content = newNode.content := by
  unfold definedIn
  split
  next => rfl
  next =>
    split
    next =>
      dsimp only
      split <;> rfl
    next => rfl

theorem map_ok {α β γ : Type} {result : Except γ α} {f : α → β} {b : β} (mapped : result.map f = .ok b) :
    ∃ a, result = .ok a ∧ f a = b := by
  cases result with
  | error stop => cases mapped
  | ok a => exact ⟨a, rfl, Except.ok.inj mapped⟩

theorem parserXmlNamespace_content {p q : Parser} {newNode attr : Attr} {top : Open} {outer : List Open}
    (read : parserXmlNamespace p newNode top outer = .ok (attr, q)) : attr.content = newNode.content := by
  have same := definedIn_content newNode top.item
  rw [parserXmlNamespace_eq] at read
  obtain ⟨r, -, found⟩ := map_ok read
  exact (Prod.mk.inj found).1 ▸ same

theorem enterAttribute_spec {p q : Parser} {attr : Attr} {tag : Tag} {attrs : List Attr} {nodes : List Node}
    {outer : List (Tag × List Attr × List Node)} {children : List Node}
    (entered : enterAttribute p attr = .ok q) (start : p.tree = ⟨(tag, attrs, nodes) :: outer, children⟩) :
    ∃ added : Attr, added.content = attr.content ∧
      q.tree = ⟨(tag, attrs ++ [added], nodes) :: outer, children⟩ := by
  unfold enterAttribute at entered
  cases opened : p.open_ with
  | nil =>
    rw [opened] at entered
    cases entered
  | cons top rest =>
    rw [opened] at entered
    rw [Parser.tree, opened, List.map_cons] at start
    cases named : parserXmlNamespace p ⟨attr.nodeName, attr.nodeValue, none, none⟩ top rest with
    | error stop =>
      simp only [named] at entered
      cases entered
    | ok result =>
      obtain ⟨added, r⟩ := result
      simp only [named] at entered
      have same := parserXmlNamespace_content named
      obtain ⟨item, uris, need, rfl⟩ := parserXmlNamespace_spec named
      dsimp only [Except.bind] at entered
      unfold parserProcessAttributeName at entered
      dsimp only at entered
      split at entered
      next => cases entered
      next =>
        cases entered
        cases start
        exact ⟨added, same, rfl⟩

theorem enterAttributes_spec {attrs : List Attr} {p q : Parser} {tag : Tag} {before : List Attr} {nodes : List Node}
    {outer : List (Tag × List Attr × List Node)} {children : List Node}
    (entered : attrs.foldlM enterAttribute p = .ok q) (start : p.tree = ⟨(tag, before, nodes) :: outer, children⟩) :
    ∃ added : List Attr, added.map Attr.content = attrs.map Attr.content ∧
      q.tree = ⟨(tag, before ++ added, nodes) :: outer, children⟩ := by
  induction attrs generalizing p before with
  | nil =>
    cases entered
    exact ⟨[], rfl, by rw [List.append_nil]; exact start⟩
  | cons attr attrs ih =>
    rw [List.foldlM_cons] at entered
    cases first : enterAttribute p attr with
    | error stop =>
      rw [first] at entered
      cases entered
    | ok r =>
      rw [first] at entered
      obtain ⟨one, same, grown⟩ := enterAttribute_spec first start
      obtain ⟨more, others, last⟩ := ih entered grown
      refine ⟨one :: more, by rw [List.map_cons, List.map_cons, same, others], ?_⟩
      rw [last, List.append_assoc, List.singleton_append]

theorem parserProcessElementName_tree {p q : Parser} {nodeName localName : List UInt8}
    {prefixName : Option (List UInt8)}
    (entered : parserProcessElementName p nodeName prefixName localName = .ok q) :
    ∃ tag : Tag, tag.nodeName = nodeName ∧ q.tree = ⟨(tag, [], []) :: p.tree.frames, p.tree.children⟩ := by
  unfold parserProcessElementName at entered
  dsimp only at entered
  split at entered
  next => cases entered
  next =>
    cases entered
    exact ⟨_, rfl, rfl⟩

theorem enterStartTag_spec {p q : Parser} {tag : Tag} {attrs : List Attr} (entered : enterStartTag p tag attrs = .ok q) :
    ∃ (tag' : Tag) (attrs' : List Attr), tag'.nodeName = tag.nodeName ∧
      attrs'.map Attr.content = attrs.map Attr.content ∧
      q.tree = ⟨(tag', attrs', []) :: p.tree.frames, p.tree.children⟩ := by
  unfold enterStartTag at entered
  dsimp only at entered
  cases named : parserProcessElementName
    { p with state := if attrs.isEmpty then ParserState.content else .attribute } tag.nodeName
    (parserSetNodePrefixAndLocalName tag.nodeName).1 (parserSetNodePrefixAndLocalName tag.nodeName).2 with
  | error stop =>
    rw [named] at entered
    cases entered
  | ok r =>
    rw [named] at entered
    obtain ⟨tag', name, opened⟩ := parserProcessElementName_tree named
    obtain ⟨added, same, grown⟩ := enterAttributes_spec entered opened
    exact ⟨tag', added, name, same, grown⟩

theorem parserETagVerification_spec {p q : Parser} {nodeName : List UInt8} {tag : Tag} {attrs : List Attr}
    {nodes : List Node} {outer : List (Tag × List Attr × List Node)} {children : List Node}
    (closed : parserETagVerification p nodeName = .ok q)
    (start : p.tree = ⟨(tag, attrs, nodes) :: outer, children⟩) :
    q.tree = Tree.add ⟨outer, children⟩ (.element tag attrs nodes) := by
  unfold parserETagVerification at closed
  split at closed
  next => cases closed
  next top rest opened =>
    split at closed
    next => cases closed
    next =>
      rw [Parser.tree, opened, List.map_cons] at start
      cases start
      obtain ⟨r, added, same⟩ := map_ok closed
      subst same
      exact (appendNode_spec added).2.2

theorem enterSiblings_spec {nodes : List Node} : ∀ {p q : Parser}, enterSiblings p nodes = .ok q →
    ∃ added : List Node, nodesContent added = kept (nodesContent nodes) ∧ q.tree = added.foldl Tree.add p.tree := by
  induction nodes using printSiblings.induct with
  | case1 =>
    intro p q entered
    rw [enterSiblings] at entered
    cases entered
    exact ⟨[], by rw [nodesContent, kept], rfl⟩
  | case2 nodeValue rest =>
    intro p q entered
    rw [enterSiblings] at entered
    rw [nodesContent, kept]
    split at entered
    next white =>
      cases entered
      exact ⟨[], by rw [if_pos white, nodesContent], rfl⟩
    next visible =>
      refine ⟨[.text nodeValue], ?_, (appendNode_spec entered).2.2⟩
      rw [if_neg visible, nodesContent, nodesContent]
  | case3 nodeValue rest =>
    intro p q entered
    rw [enterSiblings] at entered
    refine ⟨[.cdataSection nodeValue], ?_, (appendNode_spec entered).2.2⟩
    rw [nodesContent, nodesContent, nodesContent, kept]
  | case4 tag attrs children siblings inner outer =>
    intro p q entered
    rw [enterSiblings] at entered
    cases started : enterStartTag p tag attrs with
    | error stop =>
      rw [started] at entered
      cases entered
    | ok p₁ =>
      rw [started] at entered
      change (enterSiblings p₁ children).bind _ = _ at entered
      cases below : enterSiblings p₁ children with
      | error stop =>
        rw [below] at entered
        cases entered
      | ok p₂ =>
        rw [below] at entered
        change (parserETagVerification p₂ tag.nodeName).bind _ = _ at entered
        cases closed : parserETagVerification p₂ tag.nodeName with
        | error stop =>
          rw [closed] at entered
          cases entered
        | ok p₃ =>
          rw [closed] at entered
          obtain ⟨tag', attrs', name, attributes, opened⟩ := enterStartTag_spec started
          obtain ⟨added, same, filled⟩ := inner below
          obtain ⟨more, others, last⟩ := outer entered
          rw [opened, Tree.foldl_add] at filled
          rw [parserETagVerification_spec closed filled] at last
          refine ⟨.element tag' attrs' added :: more, ?_, last⟩
          rw [nodesContent, nodesContent, kept, name, attributes, others, same]

end Pupnp.Ixml
