import Pupnp.Ixml.DocumentPrint

/-!
The namespaces of a parsed document. An element gets the URI that the innermost declaration in scope binds to its
prefix, as long as no element declares anew what its own name was resolved with.
-/

namespace Pupnp.Ixml
open CString

/-! ### Scopes -/

abbrev Scope := Option (List UInt8) → Option (List UInt8)

def declared (nodeName : List UInt8) : Option (Option (List UInt8)) :=
  if nodeName = bytes "xmlns" then some none
  else if startsWith nodeName (bytes "xmlns:") then some (some (nodeName.drop 6))
  else none

def Scope.declareOne (scope : Scope) (attr : Attr) : Scope :=
  match declared attr.nodeName with
  | some key => Function.update scope key (some attr.nodeValue)
  | none => scope

def Scope.declare (scope : Scope) (attrs : List Attr) : Scope := attrs.foldl Scope.declareOne scope

def prefixOf (nodeName : List UInt8) : Option (List UInt8) := (parserSetNodePrefixAndLocalName nodeName).1

/-- A start tag whose own name the parser resolves in its scope: its prefix is bound by the tag or around it (`bound`);
the tag does not declare this prefix, or without one the default namespace, where that is bound around it already
(`once`); with a prefix it has no `xmlns` (`prefixed`), and without one it has `xmlns` in its first attribute only
(`first`). -/
structure TagScoped (scope : Scope) (nodeName : List UInt8) (attrs : List Attr) : Prop where
  bound : prefixOf nodeName ≠ none → scope.declare attrs (prefixOf nodeName) ≠ none
  once : ∀ attr ∈ attrs, declared attr.nodeName = some (prefixOf nodeName) → scope (prefixOf nodeName) = none
  prefixed : prefixOf nodeName ≠ none → ∀ attr ∈ attrs, declared attr.nodeName ≠ some none
  first : prefixOf nodeName = none → ∀ attr ∈ attrs.tail, declared attr.nodeName ≠ some none

/-- Each start tag is bound, once, prefixed and first, in the scope of the tags around it. -/
def NodesScoped (scope : Scope) : List Node → Prop
  | [] => True
  | .text _ :: rest => NodesScoped scope rest
  | .cdataSection _ :: rest => NodesScoped scope rest
  | .element tag attrs children :: rest =>
      TagScoped scope tag.nodeName attrs ∧ NodesScoped (scope.declare attrs) children ∧ NodesScoped scope rest

/-- Every element has the parts of its name, and the URI that is bound to its prefix. -/
def NodesBound (uris : Nat → Option (List UInt8)) (scope : Scope) : List Node → Prop
  | [] => True
  | .text _ :: rest => NodesBound uris scope rest
  | .cdataSection _ :: rest => NodesBound uris scope rest
  | .element tag attrs children :: rest =>
      (tag.prefixName, tag.localName) = parserSetNodePrefixAndLocalName tag.nodeName ∧
        uris tag.addr = scope.declare attrs tag.prefixName ∧
        NodesBound uris (scope.declare attrs) children ∧ NodesBound uris scope rest

/-! ### Declarations -/

theorem Scope.declare_append (scope : Scope) (attrs : List Attr) (attr : Attr) :
    scope.declare (attrs ++ [attr]) = (scope.declare attrs).declareOne attr := by
  rw [Scope.declare, List.foldl_append]
  rfl

theorem Scope.declareOne_other {scope : Scope} {attr : Attr} {key : Option (List UInt8)}
    (other : declared attr.nodeName ≠ some key) : scope.declareOne attr key = scope key := by
  unfold Scope.declareOne
  cases found : declared attr.nodeName with
  | none => rfl
  | some key' =>
    have unlike : key ≠ key' := by
      rintro rfl
      exact other found
    exact Function.update_of_ne unlike _ _

theorem Scope.declareOne_own {scope : Scope} {attr : Attr} {key : Option (List UInt8)}
    (own : declared attr.nodeName = some key) : scope.declareOne attr key = some attr.nodeValue := by
  unfold Scope.declareOne
  rw [own]
  exact Function.update_self _ _ _

theorem Scope.declare_other {scope : Scope} {attrs : List Attr} {key : Option (List UInt8)}
    (others : ∀ attr ∈ attrs, declared attr.nodeName ≠ some key) : scope.declare attrs key = scope key := by
  induction attrs generalizing scope with
  | nil => rfl
  | cons attr attrs ih =>
    change (scope.declareOne attr).declare attrs key = _
    rw [ih fun other member => others other (List.mem_cons_of_mem _ member)]
    exact Scope.declareOne_other (others attr List.mem_cons_self)

theorem Scope.declare_content {attrs attrs' : List Attr} (same : attrs'.map Attr.content = attrs.map Attr.content)
    (scope : Scope) : scope.declare attrs' = scope.declare attrs := by
  induction attrs generalizing attrs' scope with
  | nil =>
    rw [List.map_nil, List.map_eq_nil_iff] at same
    rw [same]
  | cons attr attrs ih =>
    cases attrs' with
    | nil => cases same
    | cons attr' attrs' =>
      obtain ⟨first, others⟩ := List.cons.inj same
      obtain ⟨name, value⟩ := Prod.mk.inj first
      have one : scope.declareOne attr' = scope.declareOne attr := by
        unfold Scope.declareOne
        rw [name, value]
      change (scope.declareOne attr').declare attrs' = (scope.declareOne attr).declare attrs
      rw [one, ih others]

theorem xmlns_parts {nodeName : List UInt8} (start : startsWith nodeName (bytes "xmlns:") = true) :
    nodeName = bytes "xmlns:" ++ nodeName.drop 6 ∧
      parserSetNodePrefixAndLocalName nodeName = (some (bytes "xmlns"), nodeName.drop 6) := by
  obtain ⟨rest, whole⟩ := (startsWith_iff (by decide) nodeName).mp start
  have text : bytes "xmlns:" = [120, 109, 108, 110, 115, 58] := by decide
  have front : bytes "xmlns" = [120, 109, 108, 110, 115] := by decide
  subst whole
  rw [text, front]
  refine ⟨rfl, ?_⟩
  unfold parserSetNodePrefixAndLocalName
  simp

theorem declared_inj {name name' : List UInt8} {key : Option (List UInt8)} (first : declared name = some key)
    (second : declared name' = some key) : name = name' := by
  have cases_ {name : List UInt8} (found : declared name = some key) :
      (name = bytes "xmlns" ∧ key = none) ∨ (name = bytes "xmlns:" ++ name.drop 6 ∧ key = some (name.drop 6)) := by
    unfold declared at found
    split at found
    next same => exact .inl ⟨same, (Option.some.inj found).symm⟩
    next =>
      split at found
      next start => exact .inr ⟨(xmlns_parts start).1, (Option.some.inj found).symm⟩
      next => cases found
  rcases cases_ first with ⟨same, default⟩ | ⟨whole, behind⟩
  · rcases cases_ second with ⟨same', -⟩ | ⟨-, behind'⟩
    · rw [same, same']
    · rw [default] at behind'
      cases behind'
  · rcases cases_ second with ⟨-, default⟩ | ⟨whole', behind'⟩
    · rw [default] at behind
      cases behind
    · rw [whole, whole', Option.some.inj (behind.symm.trans behind')]

theorem lookup_defineNs (pNsURI : List (List UInt8 × List UInt8)) (localName nsURI name : List UInt8) :
    (defineNs pNsURI localName nsURI).lookup name = if name = localName then some nsURI else pNsURI.lookup name := by
  induction pNsURI with
  | nil =>
    rw [defineNs, List.lookup_cons, List.lookup_nil]
    by_cases same : name = localName
    · rw [beq_iff_eq.mpr same, if_pos same]
    · rw [beq_eq_false_iff_ne.mpr same, if_neg same]
  | cons entry rest ih =>
    obtain ⟨known, uri⟩ := entry
    rw [defineNs]
    split
    next same =>
      rw [List.lookup_cons, List.lookup_cons, same]
      by_cases here : name = localName
      · rw [beq_iff_eq.mpr here, if_pos here]
      · rw [beq_eq_false_iff_ne.mpr here, if_neg here]
    next other =>
      rw [List.lookup_cons, List.lookup_cons, ih]
      by_cases here : name = known
      · subst here
        rw [beq_iff_eq.mpr rfl]
        simp only [if_neg other]
      · rw [beq_eq_false_iff_ne.mpr here]

/-! ### The stack of open elements -/

theorem definedIn_item (attr : Attr) (item : ElementStack) :
    (definedIn attr.bare item).2 = match declared attr.nodeName with
      | none => item
      | some none => { item with namespaceUri := some attr.nodeValue }
      | some (some name) =>
        if item.prefixName = some name then { item with namespaceUri := some attr.nodeValue }
        else { item with pNsURI := defineNs item.pNsURI name attr.nodeValue } := by
  obtain ⟨nodeName, nodeValue, prefixName, localName⟩ := attr
  change (definedIn ⟨nodeName, nodeValue, none, none⟩ item).2 = _
  unfold definedIn declared
  dsimp only
  by_cases default : nodeName = bytes "xmlns"
  · rw [if_pos default, if_pos default]
  · by_cases start : startsWith nodeName (bytes "xmlns:") = true
    · rw [if_neg default, if_neg default, if_pos start, if_pos start, (xmlns_parts start).2]
      dsimp only
      split <;> rfl
    · rw [if_neg default, if_neg default, if_neg start, if_neg start]

structure Represents (open_ : List Open) (scope : Scope) : Prop where
  default : parserHasDefaultNamespace open_ = scope none
  prefixes : ∀ name, parserElementPrefixDefined name open_ = (scope (some name)).map some

theorem Represents.boundUri {open_ : List Open} {scope : Scope} (represents : Represents open_ scope)
    (key : Option (List UInt8)) : boundUri open_ key = scope key := by
  cases key with
  | none => exact represents.default
  | some name =>
    rw [Ixml.boundUri, represents.prefixes]
    cases scope (some name) <;> rfl

theorem elementPrefixDefined_items {open_ open_' : List Open} (same : open_'.map Open.item = open_.map Open.item)
    (name : List UInt8) : parserElementPrefixDefined name open_' = parserElementPrefixDefined name open_ := by
  induction open_ generalizing open_' with
  | nil =>
    rw [List.map_nil, List.map_eq_nil_iff] at same
    rw [same]
  | cons top outer ih =>
    cases open_' with
    | nil => cases same
    | cons top' outer' =>
      rw [List.map_cons, List.map_cons] at same
      obtain ⟨item, others⟩ := List.cons.inj same
      rw [parserElementPrefixDefined, parserElementPrefixDefined, item, ih others]

theorem Represents.items {open_ open_' : List Open} {scope : Scope} (represents : Represents open_ scope)
    (same : open_'.map Open.item = open_.map Open.item) : Represents open_' scope where
  default := (hasDefaultNamespace_items same).trans represents.default
  prefixes name := (elementPrefixDefined_items same name).trans (represents.prefixes name)

/-- In a start tag behind some of the attributes: the element waits as long as its name is not bound, without a prefix
for the first attribute only. -/
structure InTag (scope : Scope) (outer : List Open) (tag : Tag) (done : List Attr) (p : Parser) (top : Open) : Prop where
  opened : p.open_ = top :: outer
  tag_ : top.tag = tag
  attrs : top.attrs.map Attr.content = done.map Attr.content
  children : top.children = []
  element : top.item.element = tag.nodeName
  prefixName : top.item.prefixName = tag.prefixName
  uri : top.item.namespaceUri = scope.declare done tag.prefixName
  others : ∀ name, tag.prefixName ≠ some name →
    scope.declare done (some name) = (top.item.pNsURI.lookup name).or (scope (some name))
  need : p.pNeedPrefixNode = if scope.declare done tag.prefixName = none ∧ (tag.prefixName = none → done = [])
    then some tag else none
  namespaceURI : p.namespaceURI tag.addr = scope.declare done tag.prefixName

theorem InTag.fresh {scope : Scope} {outer : List Open} {tag : Tag} {done : List Attr} {p : Parser} {top : Open}
    (inTag : InTag scope outer tag done p top) {attr : Attr} (distinct : top.attrs.any (·.nodeName = attr.nodeName) = false)
    {key : Option (List UInt8)} (own : declared attr.nodeName = some key) : scope.declare done key = scope key := by
  apply Scope.declare_other
  intro other member same
  have name := declared_inj same own
  have listed : (other.nodeName, other.nodeValue) ∈ top.attrs.map Attr.content := by
    rw [inTag.attrs]
    exact List.mem_map_of_mem member
  obtain ⟨there, member', content⟩ := List.mem_map.mp listed
  have found : top.attrs.any (·.nodeName = attr.nodeName) = true := by
    refine List.any_eq_true.mpr ⟨there, member', decide_eq_true ?_⟩
    exact (Prod.mk.inj content).1.trans name
  rw [distinct] at found
  cases found

/-- The waiting element is the innermost one: it gets the URI of its item, if there is one. -/
theorem parserAddNamespace_own {p : Parser} {tag : Tag} {item : ElementStack} (element : item.element = tag.nodeName)
    (prefixName : item.prefixName = tag.prefixName) :
    parserAddNamespace p tag item = .ok { p with
      namespaceURI := match item.namespaceUri with
        | some uri => Function.update p.namespaceURI tag.addr (some uri)
        | none => p.namespaceURI
      pNeedPrefixNode := if item.namespaceUri = none ∧ tag.prefixName ≠ none then p.pNeedPrefixNode else none } := by
  unfold parserAddNamespace
  cases prefixed : tag.prefixName with
  | none =>
    dsimp only
    have bare : ¬(item.namespaceUri = none ∧ (none : Option (List UInt8)) ≠ none) := fun both => both.2 rfl
    rw [if_neg bare]
    exact if_neg (by rw [element]; exact fun other => other rfl)
  | some name =>
    have own : item.prefixName = some name := prefixName.trans prefixed
    have space : parserGetNameSpace item name = item.namespaceUri := by
      unfold parserGetNameSpace
      rw [if_neg (by rw [own]; exact fun other => other rfl)]
    rw [own]
    dsimp only
    rw [if_neg (by simp [element]), space]
    cases item.namespaceUri <;> simp

theorem parserProcessAttributeName_ok {p q : Parser} {top : Open} {outer : List Open} {attr : Attr}
    (opened : p.open_ = top :: outer) (processed : parserProcessAttributeName p attr = .ok q) :
    top.attrs.any (·.nodeName = attr.nodeName) = false ∧
      q = { p with open_ := { top with attrs := top.attrs ++ [attr] } :: outer } := by
  unfold parserProcessAttributeName at processed
  rw [opened] at processed
  dsimp only at processed
  split at processed
  next => cases processed
  next distinct =>
    cases processed
    exact ⟨by simpa using distinct, rfl⟩

theorem Scope.declareOne_none {scope : Scope} {attr : Attr} {key : Option (List UInt8)}
    (unbound : scope.declareOne attr key = none) : scope key = none := by
  by_cases own : declared attr.nodeName = some key
  · rw [Scope.declareOne_own own] at unbound
    cases unbound
  · rwa [Scope.declareOne_other own] at unbound

section Step
variable {scope : Scope} {outer : List Open} {tag : Tag} {done : List Attr} {p q : Parser} {top : Open} {attr : Attr}

theorem InTag.item_uri (inTag : InTag scope outer tag done p top)
    (prefixed : tag.prefixName ≠ none → declared attr.nodeName ≠ some none) :
    (definedIn attr.bare top.item).2.namespaceUri = (scope.declare done).declareOne attr tag.prefixName := by
  rw [definedIn_item]
  by_cases own : declared attr.nodeName = some tag.prefixName
  · rw [Scope.declareOne_own own, own]
    cases key : tag.prefixName with
    | none => rfl
    | some name =>
      dsimp only
      rw [if_pos (inTag.prefixName.trans key)]
  · rw [Scope.declareOne_other own, ← inTag.uri]
    cases found : declared attr.nodeName with
    | none => rfl
    | some key =>
      cases key with
      | none =>
        have noPrefix : tag.prefixName = none := by
          by_contra some
          exact prefixed some found
        exact absurd (noPrefix ▸ found) own
      | some name =>
        dsimp only
        rw [if_neg]
        intro same
        rw [inTag.prefixName] at same
        exact own (same ▸ found)

theorem InTag.item_others (inTag : InTag scope outer tag done p top) {name : List UInt8}
    (other : tag.prefixName ≠ some name) :
    (scope.declare done).declareOne attr (some name) =
      ((definedIn attr.bare top.item).2.pNsURI.lookup name).or (scope (some name)) := by
  have before := inTag.others name other
  rw [definedIn_item]
  by_cases own : declared attr.nodeName = some (some name)
  · rw [Scope.declareOne_own own, own]
    dsimp only
    rw [if_neg (by rw [inTag.prefixName]; exact other)]
    dsimp only
    rw [lookup_defineNs, if_pos rfl, Option.some_or]
  · rw [Scope.declareOne_other own, before]
    cases found : declared attr.nodeName with
    | none => rfl
    | some key =>
      cases key with
      | none => rfl
      | some name' =>
        have apart : name ≠ name' := by
          rintro rfl
          exact own found
        dsimp only
        split
        next => rfl
        next =>
          dsimp only
          rw [lookup_defineNs, if_neg apart]

theorem InTag.served (inTag : InTag scope outer tag done p top) (entered : enterAttribute p attr = .ok q) :
    ∃ uris need, q = { p with
        open_ := { top with
          attrs := top.attrs ++ [(definedIn attr.bare top.item).1]
          item := (definedIn attr.bare top.item).2 } :: outer
        namespaceURI := uris
        pNeedPrefixNode := need } ∧
      top.attrs.any (·.nodeName = attr.nodeName) = false ∧
      (∀ a, (a ≠ tag.addr ∨ p.pNeedPrefixNode ≠ some tag) → uris a = p.namespaceURI a) ∧
      (p.pNeedPrefixNode = some tag →
        uris tag.addr = (definedIn attr.bare top.item).2.namespaceUri.or (p.namespaceURI tag.addr)) ∧
      need = if p.pNeedPrefixNode = some tag ∧ (definedIn attr.bare top.item).2.namespaceUri = none ∧ tag.prefixName ≠ none
        then some tag else none := by
  rw [enterAttribute_eq inTag.opened] at entered
  obtain ⟨r, added, processed⟩ := bind_ok entered
  obtain ⟨element_, prefixName_⟩ := definedIn_names attr.bare top.item
  have element : (definedIn attr.bare top.item).2.element = tag.nodeName := element_.trans inTag.element
  have prefixName : (definedIn attr.bare top.item).2.prefixName = tag.prefixName := prefixName_.trans inTag.prefixName
  have name : (definedIn attr.bare top.item).1.nodeName = attr.nodeName := (Prod.mk.inj (definedIn_content attr.bare _)).1
  by_cases waiting : p.pNeedPrefixNode = some tag
  · rw [waiting] at added
    change parserAddNamespace (p.declaring top outer attr) tag _ = .ok r at added
    rw [parserAddNamespace_own element prefixName] at added
    cases added
    obtain ⟨distinct, rfl⟩ := parserProcessAttributeName_ok rfl processed
    rw [name] at distinct
    refine ⟨_, _, rfl, distinct, fun a other => ?_, fun _ => ?_, ?_⟩
    · have apart := other.resolve_right fun stale => stale waiting
      cases (definedIn attr.bare top.item).2.namespaceUri with
      | none => rfl
      | some uri => exact Function.update_of_ne apart _ _
    · cases (definedIn attr.bare top.item).2.namespaceUri with
      | none => rfl
      | some uri => exact Function.update_self _ _ _
    · change (if _ then p.pNeedPrefixNode else none) = _
      rw [waiting]
      simp
  · have idle : p.pNeedPrefixNode = none := by
      have need := inTag.need
      split at need
      next => exact absurd need waiting
      next => exact need
    rw [idle] at added
    cases added
    obtain ⟨distinct, rfl⟩ := parserProcessAttributeName_ok rfl processed
    rw [name] at distinct
    refine ⟨p.namespaceURI, none, ?_, distinct, fun _ _ => rfl, fun more => absurd more waiting, ?_⟩
    · rw [← idle]
      rfl
    · rw [if_neg fun both => waiting both.1]

theorem InTag.step (inTag : InTag scope outer tag done p top)
    (once : declared attr.nodeName = some tag.prefixName → scope tag.prefixName = none)
    (prefixed : tag.prefixName ≠ none → declared attr.nodeName ≠ some none)
    (first : tag.prefixName = none → done ≠ [] → declared attr.nodeName ≠ some none)
    (entered : enterAttribute p attr = .ok q) :
    (∃ top', InTag scope outer tag (done ++ [attr]) q top') ∧ q.children = p.children ∧ q.created = p.created ∧
      ∀ a, a ≠ tag.addr → q.namespaceURI a = p.namespaceURI a := by
  obtain ⟨uris, need, rfl, distinct, frame, served, waits⟩ := inTag.served entered
  have uri := inTag.item_uri prefixed
  have grown := Scope.declare_append scope done attr
  refine ⟨⟨_, ⟨rfl, inTag.tag_, ?_, inTag.children, ?_, ?_, ?_, ?_, ?_, ?_⟩⟩, rfl, rfl, fun a other => frame a (.inl other)⟩
  · have content := definedIn_content attr.bare top.item
    rw [List.map_append, List.map_append, inTag.attrs, List.map_singleton, List.map_singleton, content]
    rfl
  · exact (definedIn_names _ _).1.trans inTag.element
  · exact (definedIn_names _ _).2.trans inTag.prefixName
  · rw [grown]
    exact uri
  · intro name other
    rw [grown]
    exact inTag.item_others other
  · change need = _
    rw [waits, uri, grown, inTag.need]
    by_cases unbound : (scope.declare done).declareOne attr tag.prefixName = none
    · have before := Scope.declareOne_none unbound
      cases key : tag.prefixName with
      | none => simp
      | some name =>
        rw [key] at unbound before
        simp [unbound, before]
    · simp [unbound]
  · change uris tag.addr = _
    rw [grown]
    by_cases waiting : p.pNeedPrefixNode = some tag
    · have unbound : scope.declare done tag.prefixName = none := by
        have need := inTag.need
        rw [waiting] at need
        split at need
        next both => exact both.1
        next => cases need
      rw [served waiting, uri, inTag.namespaceURI, unbound, Option.or_none]
    · have other : declared attr.nodeName ≠ some tag.prefixName := by
        intro own
        have before : scope.declare done tag.prefixName = none := (inTag.fresh distinct own).trans (once own)
        have early : tag.prefixName = none → done = [] := by
          intro noPrefix
          by_contra late
          exact first noPrefix late (noPrefix ▸ own)
        exact waiting (inTag.need.trans (if_pos ⟨before, early⟩))
      rw [frame _ (.inr waiting), Scope.declareOne_other other, inTag.namespaceURI]

theorem InTag.run {attrs : List Attr} (inTag : InTag scope outer tag done p top)
    (once : ∀ attr ∈ attrs, declared attr.nodeName = some tag.prefixName → scope tag.prefixName = none)
    (prefixed : tag.prefixName ≠ none → ∀ attr ∈ attrs, declared attr.nodeName ≠ some none)
    (first : tag.prefixName = none → ∀ attr ∈ (done ++ attrs).tail, declared attr.nodeName ≠ some none)
    (entered : attrs.foldlM enterAttribute p = .ok q) :
    (∃ top', InTag scope outer tag (done ++ attrs) q top') ∧ q.children = p.children ∧ q.created = p.created ∧
      ∀ a, a ≠ tag.addr → q.namespaceURI a = p.namespaceURI a := by
  induction attrs generalizing done p top with
  | nil =>
    cases entered
    rw [List.append_nil]
    exact ⟨⟨top, inTag⟩, rfl, rfl, fun _ _ => rfl⟩
  | cons attr attrs ih =>
    rw [List.foldlM_cons] at entered
    obtain ⟨r, one, rest⟩ := bind_ok entered
    have whole : done ++ attr :: attrs = (done ++ [attr]) ++ attrs := by simp
    have late (noPrefix : tag.prefixName = none) (more : done ≠ []) : declared attr.nodeName ≠ some none := by
      apply first noPrefix
      cases done with
      | nil => exact absurd rfl more
      | cons before done => simp
    obtain ⟨⟨top', inTag'⟩, children, created, frame⟩ := inTag.step (once attr List.mem_cons_self)
      (fun some_ => prefixed some_ attr List.mem_cons_self) late one
    rw [whole] at first ⊢
    obtain ⟨last, children', created', frame'⟩ := ih inTag'
      (fun other member => once other (List.mem_cons_of_mem _ member))
      (fun some_ other member => prefixed some_ other (List.mem_cons_of_mem _ member)) first rest
    exact ⟨last, children'.trans children, created'.trans created,
      fun a other => (frame' a other).trans (frame a other)⟩

end Step

theorem Scope.declare_none {scope : Scope} {attrs : List Attr} {key : Option (List UInt8)}
    (unbound : scope.declare attrs key = none) : scope key = none := by
  induction attrs generalizing scope with
  | nil => exact unbound
  | cons attr attrs ih => exact Scope.declareOne_none (ih unbound)

theorem InTag.represents {scope : Scope} {outer : List Open} {tag : Tag} {attrs : List Attr} {p : Parser} {top : Open}
    (inTag : InTag scope outer tag attrs p top) (represents : Represents outer scope)
    (bound : tag.prefixName ≠ none → scope.declare attrs tag.prefixName ≠ none)
    (prefixed : tag.prefixName ≠ none → ∀ attr ∈ attrs, declared attr.nodeName ≠ some none) :
    Represents p.open_ (scope.declare attrs) := by
  rw [inTag.opened]
  constructor
  · rw [parserHasDefaultNamespace, inTag.prefixName, inTag.uri, represents.default]
    cases key : tag.prefixName with
    | none =>
      cases value : scope.declare attrs none with
      | none => exact Scope.declare_none value
      | some uri => rfl
    | some name =>
      have some_ : tag.prefixName ≠ none := by
        rw [key]
        exact Option.some_ne_none name
      exact (Scope.declare_other (prefixed some_)).symm
  · intro name
    rw [parserElementPrefixDefined, inTag.prefixName, inTag.uri]
    split
    next own =>
      have some_ := bound (by rw [own]; exact Option.some_ne_none name)
      rw [own] at some_ ⊢
      obtain ⟨uri, value⟩ := Option.ne_none_iff_exists'.mp some_
      rw [value]
      rfl
    next other =>
      rw [inTag.others name other]
      cases top.item.pNsURI.lookup name with
      | none => exact represents.prefixes name
      | some uri => rfl

/-! ### The walk over the nodes -/

/-- Where nothing waits before a start tag, nothing waits behind it. A plain element without attributes waits in the
invariant only. -/
theorem enterStartTag_inTag {p q : Parser} {tag : Tag} {attrs : List Attr} {scope : Scope}
    (entered : enterStartTag p tag attrs = .ok q) (represents : Represents p.open_ scope)
    (quiet : p.pNeedPrefixNode = none) (well : TagScoped scope tag.nodeName attrs) :
    ∃ need top, InTag scope p.open_
        ⟨p.created, tag.nodeName, prefixOf tag.nodeName, (parserSetNodePrefixAndLocalName tag.nodeName).2⟩ attrs
        (q.waits need) top ∧
      q.pNeedPrefixNode = none ∧ q.children = p.children ∧ q.created = p.created + 1 ∧
      ∀ a, a ≠ p.created → q.namespaceURI a = p.namespaceURI a := by
  let opening : Tag := ⟨p.created, tag.nodeName, prefixOf tag.nodeName, (parserSetNodePrefixAndLocalName tag.nodeName).2⟩
  obtain ⟨r, named, later⟩ := bind_ok entered
  rw [parserProcessElementName_eq] at named
  by_cases second : (p.bHasTopLevel && p.open_.isEmpty) = true
  · rw [if_pos second] at named
    cases named
  · rw [if_neg second] at named
    have opened := Except.ok.inj named
    have frame (a : Nat) (other : a ≠ p.created) : r.namespaceURI a = p.namespaceURI a := by
      rw [← opened]
      exact Function.update_of_ne other _ _
    have start (need : Option Tag) (waits : need = if scope opening.prefixName = none then some opening else none) :
        ∃ top, InTag scope p.open_ opening [] (r.waits need) top := by
      refine ⟨_, ⟨(congrArg Parser.open_ opened).symm, rfl, rfl, rfl, rfl, rfl, represents.boundUri _, ?_, ?_, ?_⟩⟩
      · exact fun name other => rfl
      · rw [Parser.waits]
        simp [waits, Scope.declare]
      · change r.namespaceURI p.created = scope opening.prefixName
        rw [← opened]
        exact (Function.update_self _ _ _).trans (represents.boundUri _)
    have need : r.pNeedPrefixNode =
        needBehind p.open_ (if attrs.isEmpty then .content else .attribute) opening p.pNeedPrefixNode :=
      (congrArg Parser.pNeedPrefixNode opened).symm
    rw [quiet, needBehind, represents.boundUri] at need
    cases attrs with
    | nil =>
      cases later
      obtain ⟨top, inTag⟩ := start _ rfl
      refine ⟨_, top, inTag, ?_, by rw [← opened], by rw [← opened], frame⟩
      rw [need]
      cases bound : scope opening.prefixName with
      | some uri => rfl
      | none =>
        have plain : opening.prefixName = none := by
          by_contra prefixed
          exact well.bound prefixed bound
        rw [plain]
        rfl
    | cons attr attrs =>
      obtain ⟨top, inTag⟩ := start r.pNeedPrefixNode (by
        rw [need]
        cases scope opening.prefixName <;> simp)
      obtain ⟨⟨last, inTag'⟩, children, created, frame'⟩ := inTag.run well.once well.prefixed well.first later
      refine ⟨q.pNeedPrefixNode, last, inTag', ?_, children.trans (by rw [← opened]; rfl),
        created.trans (by rw [← opened]; rfl), fun a other => (frame' a other).trans (frame a other)⟩
      rw [inTag'.need, if_neg]
      rintro ⟨unbound, early⟩
      by_cases prefixed : opening.prefixName = none
      · exact List.cons_ne_nil _ _ (early prefixed)
      · exact well.bound prefixed unbound

structure Walked (scope : Scope) (p q : Parser) (added : List Node) : Prop where
  need : q.pNeedPrefixNode = none
  items : q.open_.map Open.item = p.open_.map Open.item
  tree : q.tree = added.foldl Tree.add p.tree
  created : p.created ≤ q.created
  frame : ∀ a < p.created, q.namespaceURI a = p.namespaceURI a
  bound : ∀ uris : Nat → Option (List UInt8), (∀ a < q.created, p.created ≤ a → uris a = q.namespaceURI a) →
    NodesBound uris scope added

theorem Walked.leaf {scope : Scope} {p q r : Parser} {node : Node} {added : List Node} (walked : Walked scope r q added)
    (first : appendNode p node = .ok r)
    (silent : ∀ uris, NodesBound uris scope added → NodesBound uris scope (node :: added)) :
    Walked scope p q (node :: added) := by
  obtain ⟨items, -, uris, created⟩ := appendNode_items first
  refine ⟨walked.need, walked.items.trans items, ?_, created ▸ walked.created, ?_, ?_⟩
  · rw [walked.tree, (appendNode_spec first).2.2]
    rfl
  · rw [← created, ← uris]
    exact walked.frame
  · rw [← created]
    exact fun uris' same => silent uris' (walked.bound uris' same)

theorem Walked.element {scope : Scope} {p q r s t : Parser} {tag : Tag} {attrs : List Attr} {below beside : List Node}
    (started : enterStartTag p tag attrs = .ok q) (represents : Represents p.open_ scope)
    (quiet : p.pNeedPrefixNode = none) (well : TagScoped scope tag.nodeName attrs)
    (children : Walked (scope.declare attrs) q r below) (closed : parserETagVerification r tag.nodeName = .ok s)
    (siblings : Walked scope s t beside) : ∃ node, Walked scope p t (node :: beside) := by
  obtain ⟨need, top, inTag, -, others, created, frame⟩ := enterStartTag_inTag started represents quiet well
  have opened : q.open_ = top :: p.open_ := inTag.opened
  have start : q.tree = ⟨(top.tag, top.attrs, []) :: p.tree.frames, p.tree.children⟩ := by
    rw [Parser.tree, opened, others, ← inTag.children]
    rfl
  have filled := children.tree
  rw [start, Tree.foldl_add, List.nil_append] at filled
  have grown := parserETagVerification_spec closed filled
  obtain ⟨⟨inner, outer, before, items⟩, -, uris, same⟩ := parserETagVerification_items closed
  have deeper := children.items
  rw [before, opened, List.map_cons, List.map_cons] at deeper
  have down := children.created
  have along := siblings.created
  refine ⟨.element top.tag top.attrs below, siblings.need, ?_, ?_, by omega, fun a early => ?_, fun uris' agree => ?_⟩
  · rw [siblings.items, items, (List.cons.inj deeper).2]
  · rw [siblings.tree, grown]
    rfl
  · rw [siblings.frame a (by omega), uris, children.frame a (by omega), frame a (by omega)]
  · rw [NodesBound, Scope.declare_content inTag.attrs]
    refine ⟨?_, ?_, children.bound uris' fun a early late => ?_, siblings.bound uris' fun a early late => ?_⟩
    · rw [inTag.tag_]
      rfl
    · have own : q.namespaceURI p.created = scope.declare attrs (prefixOf tag.nodeName) := inTag.namespaceURI
      rw [inTag.tag_, agree _ (by omega) le_rfl, siblings.frame _ (by omega), uris, children.frame _ (by omega)]
      exact own
    · rw [agree a (by omega) (by omega), siblings.frame a (by omega), uris]
    · exact agree a early (by omega)

theorem walk_bound {nodes : List Node} : ∀ {p q : Parser} {rest : List Event} {scope : Scope},
    walkEvents p (nodesEvents nodes ++ rest) = .ok q → tagState rest = .content → NodesScoped scope nodes →
      Represents p.open_ scope → p.pNeedPrefixNode = none →
      ∃ r added, walkEvents r rest = .ok q ∧ Walked scope p r added := by
  induction nodes using nodesEvents.induct with
  | case1 =>
    intro p q rest scope walked last well represents quiet
    rw [nodesEvents] at walked
    exact ⟨p, [], walked, quiet, rfl, rfl, le_rfl, fun _ _ => rfl, fun _ _ => by rw [NodesBound]; trivial⟩
  | case2 nodeValue siblings ih | case3 nodeValue siblings ih =>
    intro p q rest scope walked last well represents quiet
    rw [NodesScoped] at well
    rw [nodesEvents, List.cons_append, walkEvents] at walked
    change ((appendNode p _).map Parser.built).bind _ = _ at walked
    rw [bind_built fun q => walkEvents_put q _ _] at walked
    obtain ⟨r, first, walked⟩ := bind_ok walked
    obtain ⟨items, need, -⟩ := appendNode_items first
    obtain ⟨s, added, walked, others⟩ := ih walked last well (represents.items items) (need.trans quiet)
    exact ⟨s, _, walked, others.leaf first fun uris bound => by rwa [NodesBound]⟩
  | case4 tag attrs children siblings inner outer =>
    intro p q rest scope walked last well represents quiet
    rw [NodesScoped] at well
    obtain ⟨own, below, beside⟩ := well
    have behind : tagState (nodesEvents children ++ .endTag tag.nodeName :: (nodesEvents siblings ++ rest)) = .content :=
      tagState_nodes children rfl
    rw [nodesEvents, List.cons_append, List.append_assoc, List.append_assoc, List.cons_append,
      walk_startTag tag attrs p behind] at walked
    obtain ⟨r, started, walked⟩ := bind_ok walked
    obtain ⟨need, top, inTag, waits, -⟩ := enterStartTag_inTag started represents quiet own
    have inside : Represents r.open_ (scope.declare attrs) := inTag.represents represents own.bound own.prefixed
    obtain ⟨s, added, walked, children⟩ := inner walked rfl below inside waits
    rw [walkEvents] at walked
    change ((parserETagVerification s tag.nodeName).map Parser.built).bind _ = _ at walked
    rw [bind_built fun q => walkEvents_put q _ _] at walked
    obtain ⟨t, closed, walked⟩ := bind_ok walked
    obtain ⟨⟨top', outer', before, items⟩, need', -⟩ := parserETagVerification_items closed
    have deeper := children.items
    have opened : r.open_ = top :: p.open_ := inTag.opened
    rw [before, opened, List.map_cons, List.map_cons] at deeper
    have outside : Represents t.open_ scope := represents.items (items.trans (List.cons.inj deeper).2)
    obtain ⟨u, more, walked, siblings⟩ := outer walked last beside outside (need'.trans children.need)
    obtain ⟨node, whole⟩ := Walked.element started represents quiet own children closed siblings
    exact ⟨u, node :: more, walked, whole⟩

theorem foldl_add_children (added children : List Node) :
    added.foldl Tree.add ⟨[], children⟩ = ⟨[], children ++ added⟩ := by
  induction added generalizing children with
  | nil => rw [List.foldl_nil, List.append_nil]
  | cons node added ih =>
    rw [List.foldl_cons]
    change added.foldl Tree.add ⟨[], children ++ [node]⟩ = _
    rw [ih, List.append_assoc, List.singleton_append]

/-- In a document where each prefix is bound, no tag declares its own prefix (or without one the default namespace) over
a declaration around it, none with a prefix has `xmlns`, and none without has it behind another attribute, every element
has the URI that the innermost declaration in scope binds to its prefix, or without one to the default namespace; if
there is none it has no URI. -/
theorem ixmlParseBufferEx_bound {errorChar : Int} {buffer : List UInt8} {doc : Document}
    (parsed : ixmlParseBufferEx errorChar buffer = .ok doc) (well : NodesScoped (fun _ => none) doc.children) :
    NodesBound doc.namespaceURI (fun _ => none) doc.children := by
  obtain ⟨last, walked, -, same⟩ := ixmlParseBufferEx_walk parsed
  rw [← List.append_nil (nodesEvents doc.children)] at walked
  obtain ⟨r, added, ended, whole⟩ := walk_bound walked rfl well ⟨rfl, fun _ => rfl⟩ rfl
  cases ended
  have tree := whole.tree
  change Tree.mk (r.open_.map Open.node) r.children = added.foldl Tree.add ⟨[], []⟩ at tree
  rw [foldl_add_children, List.nil_append] at tree
  have children : r.children = added := (Tree.mk.inj tree).2
  rw [same]
  change NodesBound r.namespaceURI _ r.children
  rw [children]
  exact whole.bound _ fun _ _ _ => rfl

/-- The document `<a xmlns="u"></a>` -/
theorem ixmlParseBufferEx_bound_default : ∃ doc,
    ixmlParseBufferEx 0 (bytes "<a xmlns=\"u\"></a>") = .ok doc ∧ NodesBound doc.namespaceURI (fun _ => none) doc.children := by
  obtain ⟨doc, tag, attr, parsed, listed, name, -⟩ :=
    @parsed_only 0 (bytes "<a xmlns=\"u\"></a>") (bytes "a") (bytes "xmlns", bytes "u") (by decide +kernel)
  refine ⟨doc, parsed, ixmlParseBufferEx_bound parsed ?_⟩
  rw [listed, NodesScoped, NodesScoped, NodesScoped, name]
  have plain : prefixOf (bytes "a") = none := by decide
  exact ⟨⟨fun prefixed => absurd plain prefixed, fun _ _ _ => rfl, fun prefixed => absurd plain prefixed,
    fun _ _ later => by cases later⟩, trivial, trivial⟩

end Pupnp.Ixml
