import Pupnp.Ixml.Events

/-!
What a document is built of does not depend on its text: the parser keeps what a walk over the finished tree gives.
The text shows in one place only, a start tag that is not closed, where an element waits for a declaration in vain.
-/

namespace Pupnp.Ixml
open CString

def tagState : List Event → ParserState
  | .attribute .. :: _ => .attribute
  | _ => .content

def walkEvents (p : Parser) : List Event → Except Stop Parser
  | [] => .ok p.built
  | event :: rest => (enterEvent (tagState rest) p event).bind (walkEvents · rest)

theorem walkEvents_put (p : Parser) (place : Place) (events : List Event) :
    walkEvents (p.put place) events = walkEvents p events := by
  cases events with
  | nil => rfl
  | cons event rest => rw [walkEvents, walkEvents, enterEvent_put]

/-! ### A walk beside a run -/

def Parser.waits (p : Parser) (need : Option Tag) : Parser := { p with pNeedPrefixNode := need }

@[simp] theorem Parser.waits_open (p : Parser) (need : Option Tag) : (p.waits need).open_ = p.open_ := rfl

/-- The walk has built the same. It may wait for another element, as long as no declaration can end the wait in the
run: there an element without a prefix waits whose start tag was left. -/
structure Follows (p w : Parser) (rest : List Event) : Prop where
  same : w = p.waits w.pNeedPrefixNode
  need : w.pNeedPrefixNode = p.pNeedPrefixNode ∨ ∃ left, p.pNeedPrefixNode = some left ∧ left.prefixName = none ∧
    (parserSetNodePrefixAndLocalName left.nodeName).1 = none ∧
    (tagState rest = .attribute → ∀ top outer, p.open_ = top :: outer → left.nodeName ≠ top.item.element)
  undeclared : ∀ left, p.pNeedPrefixNode = some left → left.prefixName = none →
    parserHasDefaultNamespace p.open_ = none

theorem Follows.equal {p : Parser} {rest : List Event}
    (undeclared : ∀ left, p.pNeedPrefixNode = some left → left.prefixName = none →
      parserHasDefaultNamespace p.open_ = none) : Follows p p rest :=
  ⟨rfl, .inl rfl, undeclared⟩

theorem hasDefaultNamespace_items {open_ open_' : List Open} (same : open_'.map Open.item = open_.map Open.item) :
    parserHasDefaultNamespace open_' = parserHasDefaultNamespace open_ := by
  induction open_ generalizing open_' with
  | nil =>
    rw [List.map_nil, List.map_eq_nil_iff] at same
    rw [same]
  | cons top outer ih =>
    cases open_' with
    | nil => cases same
    | cons top' outer' =>
      rw [List.map_cons, List.map_cons] at same
      obtain ⟨item, others⟩ := List.cons.inj same
      rw [parserHasDefaultNamespace, parserHasDefaultNamespace, item, ih others]

theorem hasDefaultNamespace_outer {top : Open} {outer : List Open}
    (none_ : parserHasDefaultNamespace (top :: outer) = none) : parserHasDefaultNamespace outer = none := by
  rw [parserHasDefaultNamespace] at none_
  split at none_
  next => cases none_
  next => exact none_

/-! ### Events that do not look at the waiting element -/

theorem appendNode_waits (p : Parser) (need : Option Tag) (node : Node) :
    appendNode (p.waits need) node = (appendNode p node).map (·.waits need) := by
  unfold appendNode
  rw [Parser.waits_open]
  split <;> rfl

theorem parserETagVerification_waits (p : Parser) (need : Option Tag) (nodeName : List UInt8) :
    parserETagVerification (p.waits need) nodeName = (parserETagVerification p nodeName).map (·.waits need) := by
  unfold parserETagVerification
  rw [Parser.waits_open]
  split
  next => rfl
  next top outer opened =>
    split
    next => rfl
    next =>
      have added := appendNode_waits { p with open_ := outer } need (.element top.tag top.attrs top.children)
      change Except.map _ (appendNode (Parser.waits { p with open_ := outer } need) _) = _
      rw [added]
      cases appendNode { p with open_ := outer } (.element top.tag top.attrs top.children) <;> rfl

theorem appendNode_items {p q : Parser} {node : Node} (added : appendNode p node = .ok q) :
    q.open_.map Open.item = p.open_.map Open.item ∧ q.pNeedPrefixNode = p.pNeedPrefixNode ∧
      q.namespaceURI = p.namespaceURI ∧ q.created = p.created := by
  unfold appendNode at added
  split at added
  next =>
    cases added
    exact ⟨rfl, rfl, rfl, rfl⟩
  next => cases added
  next top outer opened =>
    cases added
    rw [opened]
    exact ⟨rfl, rfl, rfl, rfl⟩

theorem parserETagVerification_items {p q : Parser} {nodeName : List UInt8}
    (closed : parserETagVerification p nodeName = .ok q) :
    (∃ top outer, p.open_ = top :: outer ∧ q.open_.map Open.item = outer.map Open.item) ∧
      q.pNeedPrefixNode = p.pNeedPrefixNode ∧ q.namespaceURI = p.namespaceURI ∧ q.created = p.created := by
  unfold parserETagVerification at closed
  split at closed
  next => cases closed
  next top outer opened =>
    split at closed
    next => cases closed
    next =>
      obtain ⟨r, added, rfl⟩ := map_ok closed
      obtain ⟨items, same⟩ := appendNode_items added
      exact ⟨⟨top, outer, opened, items⟩, same⟩

theorem Follows.keep {p w q : Parser} {event : Event} {rest : List Event} (follows : Follows p w (event :: rest))
    (need : q.pNeedPrefixNode = p.pNeedPrefixNode) (outside : tagState rest ≠ .attribute)
    (undeclared : parserHasDefaultNamespace p.open_ = none → parserHasDefaultNamespace q.open_ = none) :
    Follows q (q.waits w.pNeedPrefixNode) rest := by
  refine ⟨rfl, ?_, ?_⟩
  · rcases follows.need with same | ⟨left, waiting, noPrefix, plain, -⟩
    · exact .inl (same.trans need.symm)
    · exact .inr ⟨left, need.trans waiting, noPrefix, plain, fun inside => absurd inside outside⟩
  · intro left waiting noPrefix
    exact undeclared (follows.undeclared left (need.symm.trans waiting) noPrefix)

/-! ### Start tags -/

def boundUri (open_ : List Open) : Option (List UInt8) → Option (List UInt8)
  | some name => (parserElementPrefixDefined name open_).map (·.getD [])
  | none => parserHasDefaultNamespace open_

def needBehind (open_ : List Open) (state : ParserState) (tag : Tag) (need : Option Tag) : Option Tag :=
  if (boundUri open_ tag.prefixName).isSome then need
  else if tag.prefixName.isSome || state = .attribute then some tag else need

theorem parserProcessElementName_eq (p : Parser) (nodeName localName : List UInt8) (prefixName : Option (List UInt8)) :
    parserProcessElementName p nodeName prefixName localName =
      if p.bHasTopLevel && p.open_.isEmpty then .error .syntaxErr
      else .ok { p with
        bHasTopLevel := true
        savePtr := p.curPtr
        pNeedPrefixNode := needBehind p.open_ p.state ⟨p.created, nodeName, prefixName, localName⟩ p.pNeedPrefixNode
        namespaceURI := Function.update p.namespaceURI p.created (boundUri p.open_ prefixName)
        created := p.created + 1
        open_ := ⟨⟨p.created, nodeName, prefixName, localName⟩, [], [],
          ⟨nodeName, prefixName, boundUri p.open_ prefixName, []⟩⟩ :: p.open_ } := by
  unfold parserProcessElementName needBehind
  cases prefixName with
  | some name => cases found : parserElementPrefixDefined name p.open_ <;> simp [boundUri, found]
  | none => cases found : parserHasDefaultNamespace p.open_ <;> simp [boundUri, found]

theorem hasDefaultNamespace_start {p : Parser} {state : ParserState} {tag left : Tag}
    (undeclared : ∀ left, p.pNeedPrefixNode = some left → left.prefixName = none →
      parserHasDefaultNamespace p.open_ = none)
    (waiting : needBehind p.open_ state tag p.pNeedPrefixNode = some left) (noPrefix : left.prefixName = none) :
    parserHasDefaultNamespace (⟨tag, [], [], ⟨tag.nodeName, tag.prefixName, boundUri p.open_ tag.prefixName, []⟩⟩ ::
      p.open_) = none := by
  have outside : parserHasDefaultNamespace p.open_ = none := by
    unfold needBehind at waiting
    split at waiting
    next => exact undeclared left waiting noPrefix
    next unbound =>
      split at waiting
      next =>
        cases waiting
        rw [noPrefix] at unbound
        simpa [boundUri] using unbound
      next => exact undeclared left waiting noPrefix
  rw [parserHasDefaultNamespace]
  split
  next uri noPrefix_ bound =>
    dsimp only at noPrefix_ bound
    rw [noPrefix_, boundUri, outside] at bound
    cases bound
  next => exact outside

theorem Follows.startTag {p w q : Parser} {state : ParserState} {nodeName : List UInt8} {rest : List Event}
    (follows : Follows p w (.startTag nodeName :: rest)) (entered : enterEvent state p (.startTag nodeName) = .ok q)
    (goesOn : tagState rest = .attribute → state = .attribute) :
    ∃ v, enterEvent (tagState rest) w (.startTag nodeName) = .ok v ∧ Follows q v rest := by
  obtain ⟨same, need, undeclared⟩ := follows
  let tag : Tag := ⟨p.created, nodeName, (parserSetNodePrefixAndLocalName nodeName).1,
    (parserSetNodePrefixAndLocalName nodeName).2⟩
  unfold enterEvent at entered ⊢
  rw [same]
  dsimp only [Parser.waits] at entered ⊢
  rw [parserProcessElementName_eq] at entered ⊢
  dsimp only at entered ⊢
  split at entered
  next => cases entered
  next first =>
    rw [if_neg first]
    cases entered
    refine ⟨_, rfl, rfl, ?_, fun left waiting noPrefix => hasDefaultNamespace_start undeclared waiting noPrefix⟩
    change needBehind p.open_ (tagState rest) tag w.pNeedPrefixNode = needBehind p.open_ state tag p.pNeedPrefixNode ∨
      ∃ left, needBehind p.open_ state tag p.pNeedPrefixNode = some left ∧ _
    unfold needBehind
    split
    next bound =>
      rcases need with equal | ⟨left, waiting, noPrefix, plain, -⟩
      · exact .inl equal
      · refine .inr ⟨left, waiting, noPrefix, plain, fun _ top outer opened named => ?_⟩
        obtain ⟨rfl, -⟩ := List.cons.inj opened
        change left.nodeName = nodeName at named
        change (boundUri p.open_ (parserSetNodePrefixAndLocalName nodeName).1).isSome at bound
        rw [← named, plain, boundUri, undeclared left waiting noPrefix] at bound
        cases bound
    next =>
      cases prefixed : tag.prefixName with
      | some name => exact .inl rfl
      | none =>
        by_cases more : tagState rest = .attribute
        · exact .inl (by simp [more, goesOn more])
        · by_cases inside : state = .attribute
          · refine .inr ⟨tag, by simp [inside], prefixed, prefixed, fun isAttribute => absurd isAttribute more⟩
          · simp only [Option.isSome_none, Bool.false_or, more, inside, decide_false, Bool.false_eq_true, if_false]
            rcases need with equal | ⟨left, waiting, noPrefix, plain, -⟩
            · exact .inl equal
            · exact .inr ⟨left, waiting, noPrefix, plain, False.elim⟩

/-! ### Attributes -/

theorem parserAddNamespace_need {p q : Parser} {pNode : Tag} {pCur : ElementStack}
    (added : parserAddNamespace p pNode pCur = .ok q) :
    q.pNeedPrefixNode = none ∨ pNode.prefixName ≠ none ∧ q.pNeedPrefixNode = p.pNeedPrefixNode := by
  unfold parserAddNamespace at added
  split at added
  next =>
    split at added
    next => cases added
    next =>
      cases added
      exact .inl rfl
  next name prefixed =>
    split at added
    next => cases added
    next =>
      split at added
      next => cases added
      next =>
        split at added
        next =>
          cases added
          exact .inl rfl
        next =>
          cases added
          exact .inr ⟨by rw [prefixed]; nofun, rfl⟩

theorem parserAddNamespace_left {p : Parser} {pNode : Tag} {pCur : ElementStack} (noPrefix : pNode.prefixName = none)
    (other : pNode.nodeName ≠ pCur.element) : parserAddNamespace p pNode pCur = .error .failed := by
  unfold parserAddNamespace
  rw [noPrefix]
  exact if_pos other

theorem definedIn_names (newNode : Attr) (pCur : ElementStack) :
    (definedIn newNode pCur).2.element = pCur.element ∧ (definedIn newNode pCur).2.prefixName = pCur.prefixName := by
  unfold definedIn
  split
  next => exact ⟨rfl, rfl⟩
  next =>
    split
    next =>
      dsimp only
      split <;> exact ⟨rfl, rfl⟩
    next => exact ⟨rfl, rfl⟩

theorem parserProcessAttributeName_need {p q : Parser} {attr : Attr} (processed : parserProcessAttributeName p attr = .ok q) :
    q.pNeedPrefixNode = p.pNeedPrefixNode := by
  unfold parserProcessAttributeName at processed
  split at processed
  next => cases processed
  next =>
    split at processed
    next => cases processed
    next =>
      cases processed
      rfl

def Attr.bare (attr : Attr) : Attr := ⟨attr.nodeName, attr.nodeValue, none, none⟩

/-- The innermost element takes the declaration that an attribute makes, if it makes one. -/
def Parser.declaring (p : Parser) (top : Open) (outer : List Open) (attr : Attr) : Parser :=
  { p with open_ := { top with item := (definedIn attr.bare top.item).2 } :: outer }

theorem map_bind {α β γ δ : Type} (result : Except δ α) (f : α → β) (next : β → Except δ γ) :
    (result.map f).bind next = result.bind (next ∘ f) := by
  cases result <;> rfl

theorem enterAttribute_eq {p : Parser} {top : Open} {outer : List Open} (opened : p.open_ = top :: outer) (attr : Attr) :
    enterAttribute p attr =
      (match p.pNeedPrefixNode with
      | none => Except.ok (p.declaring top outer attr)
      | some pNode => parserAddNamespace (p.declaring top outer attr) pNode (definedIn attr.bare top.item).2).bind
        fun q => parserProcessAttributeName q (definedIn attr.bare top.item).1 := by
  unfold enterAttribute
  rw [opened]
  dsimp only
  rw [parserXmlNamespace_eq]
  exact map_bind _ _ _

theorem bind_ok {α β γ : Type} {result : Except γ α} {next : α → Except γ β} {b : β} (bound : result.bind next = .ok b) :
    ∃ a, result = .ok a ∧ next a = .ok b := by
  cases result with
  | error stop => cases bound
  | ok a => exact ⟨a, rfl, bound⟩

/-- What an attribute does to the waiting element; it fails where the wait is in vain. -/
theorem enterAttribute_need {p q : Parser} {attr : Attr} (entered : enterAttribute p attr = .ok q) :
    (∀ left, q.pNeedPrefixNode = some left → left.prefixName ≠ none) ∧
      ∀ left, p.pNeedPrefixNode = some left → left.prefixName = none →
        ∃ top outer, p.open_ = top :: outer ∧ left.nodeName = top.item.element := by
  cases opened : p.open_ with
  | nil =>
    unfold enterAttribute at entered
    rw [opened] at entered
    cases entered
  | cons top outer =>
    rw [enterAttribute_eq opened] at entered
    obtain ⟨r, added, processed⟩ := bind_ok entered
    have kept := parserProcessAttributeName_need processed
    cases waiting : p.pNeedPrefixNode with
    | none =>
      rw [waiting] at added
      cases added
      have idle : q.pNeedPrefixNode = none := kept.trans waiting
      exact ⟨fun left more => absurd (idle.symm.trans more) nofun, nofun⟩
    | some pNode =>
      rw [waiting] at added
      change parserAddNamespace (p.declaring top outer attr) pNode _ = .ok r at added
      constructor
      · intro left more
        rw [kept] at more
        rcases parserAddNamespace_need added with idle | ⟨prefixed, same⟩
        · exact absurd (idle.symm.trans more) nofun
        · have here : p.pNeedPrefixNode = some left := same.symm.trans more
          rw [waiting] at here
          cases here
          exact prefixed
      · rintro left ⟨⟩ noPrefix
        refine ⟨top, outer, rfl, ?_⟩
        by_contra other
        have unlike : pNode.nodeName ≠ (definedIn attr.bare top.item).2.element := by
          rw [(definedIn_names _ _).1]
          exact other
        rw [parserAddNamespace_left noPrefix unlike] at added
        cases added

/-! ### The walk builds what the run builds -/

theorem Follows.attribute {p w q : Parser} {state : ParserState} {nodeName nodeValue : List UInt8} {rest : List Event}
    (follows : Follows p w (.attribute nodeName nodeValue :: rest))
    (entered : enterEvent state p (.attribute nodeName nodeValue) = .ok q) :
    enterEvent (tagState rest) w (.attribute nodeName nodeValue) = .ok q ∧ Follows q q rest := by
  unfold enterEvent at entered ⊢
  obtain ⟨r, made, rfl⟩ := map_ok entered
  obtain ⟨idle, names⟩ := enterAttribute_need made
  have equal : w = p := by
    rw [follows.same]
    rcases follows.need with equal | ⟨left, waiting, noPrefix, -, unlike⟩
    · rw [equal]
      rfl
    · obtain ⟨top, outer, opened, named⟩ := names left waiting noPrefix
      exact absurd named (unlike rfl top outer opened)
  rw [equal]
  exact ⟨entered, .equal fun left more noPrefix => absurd noPrefix (idle left more)⟩

theorem Follows.leaf {p w r : Parser} {node : Node} {event : Event} {rest : List Event}
    (follows : Follows p w (event :: rest)) (outside : tagState rest ≠ .attribute) (made : appendNode p node = .ok r) :
    ∃ v, (appendNode w node).map Parser.built = .ok v ∧ Follows r.built v rest := by
  obtain ⟨items, need, -⟩ := appendNode_items made
  have walked := appendNode_waits p w.pNeedPrefixNode node
  rw [← follows.same, made] at walked
  rw [walked]
  refine ⟨_, rfl, @Follows.keep p w r.built event rest follows need outside fun none_ => ?_⟩
  exact (hasDefaultNamespace_items items).trans none_

theorem Follows.step {p w q : Parser} {state : ParserState} {event : Event} {rest : List Event}
    (follows : Follows p w (event :: rest)) (entered : enterEvent state p event = .ok q)
    (goesOn : tagState rest = .attribute → staysInTag state event = true) :
    ∃ v, enterEvent (tagState rest) w event = .ok v ∧ Follows q v rest := by
  cases event with
  | startTag nodeName => exact follows.startTag entered fun more => of_decide_eq_true (goesOn more)
  | «attribute» nodeName nodeValue => exact ⟨q, follows.attribute entered⟩
  | endTag nodeName =>
    unfold enterEvent at entered ⊢
    obtain ⟨r, made, rfl⟩ := map_ok entered
    obtain ⟨⟨top, outer, opened, items⟩, need, -⟩ := parserETagVerification_items made
    have walked := parserETagVerification_waits p w.pNeedPrefixNode nodeName
    rw [← follows.same, show parserETagVerification p nodeName = .ok r from made] at walked
    dsimp only
    rw [walked]
    refine ⟨_, rfl, follows.keep need (fun more => absurd (goesOn more) nofun) fun none_ => ?_⟩
    change parserHasDefaultNamespace r.open_ = none
    rw [hasDefaultNamespace_items items]
    exact hasDefaultNamespace_outer (opened ▸ none_)
  | text nodeValue | cdataSection nodeValue =>
    unfold enterEvent at entered ⊢
    obtain ⟨r, made, rfl⟩ := map_ok entered
    exact follows.leaf (fun more => absurd (goesOn more) nofun) made

theorem Follows.run {events : List (ParserState × Event)} {p w q : Parser} {inTag : Bool}
    (follows : Follows p w (events.map Prod.snd)) (entered : enterEvents p events = .ok q) (orderly : Orderly inTag events) :
    ∃ v, walkEvents w (events.map Prod.snd) = .ok v ∧ Follows q v [] := by
  induction events generalizing p w inTag with
  | nil =>
    cases entered
    have same : w.built = p.built.waits w.built.pNeedPrefixNode := by
      rw [follows.same]
      rfl
    refine ⟨w.built, rfl, same, ?_, follows.undeclared⟩
    rcases follows.need with equal | ⟨left, waiting, noPrefix, plain, -⟩
    · exact .inl equal
    · exact .inr ⟨left, waiting, noPrefix, plain, fun more => absurd more (by decide)⟩
  | cons first rest ih =>
    obtain ⟨state, event⟩ := first
    rw [enterEvents] at entered
    obtain ⟨r, made, later⟩ := bind_ok entered
    have goesOn : tagState (rest.map Prod.snd) = .attribute → staysInTag state event = true := by
      intro more
      cases rest with
      | nil => cases more
      | cons second rest =>
        obtain ⟨state', event'⟩ := second
        apply orderly.2.1
        cases event' with
        | «attribute» => rfl
        | startTag | endTag | text | cdataSection => cases more
    obtain ⟨u, one, beside⟩ := follows.step made goesOn
    obtain ⟨v, walked, beside⟩ := ih beside later orderly.2
    refine ⟨v, ?_, beside⟩
    rw [List.map_cons, walkEvents, one]
    exact walked

theorem ixmlParseBufferEx_walk {errorChar : Int} {buffer : List UInt8} {doc : Document}
    (parsed : ixmlParseBufferEx errorChar buffer = .ok doc) :
    ∃ last, walkEvents (parserInit []) (nodesEvents doc.children) = .ok last ∧ last.open_ = [] ∧
      doc = ⟨last.children, last.namespaceURI⟩ := by
  obtain ⟨events, last, entered, orderly, closed, rfl, listed⟩ := ixmlParseBufferEx_events parsed
  obtain ⟨v, walked, follows⟩ := Follows.run (.equal fun left more => absurd (more : none = some left) nofun) entered orderly
  rw [listed]
  refine ⟨v, walked, ?_⟩
  rw [follows.same]
  exact ⟨closed, rfl⟩

end Pupnp.Ixml
