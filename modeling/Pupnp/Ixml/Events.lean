import Pupnp.Ixml.Built

/-!
The events of a run of the parser: the tags, attributes and texts that it reads, in the order of the text. The tree
that it builds has just these events in document order.
-/

namespace Pupnp.Ixml
open CString

inductive Event where
  | startTag (nodeName : List UInt8)
  | attribute (nodeName nodeValue : List UInt8)
  | endTag (nodeName : List UInt8)
  | text (nodeValue : List UInt8)
  | cdataSection (nodeValue : List UInt8)
  deriving DecidableEq, Repr

def Event.isAttribute : Event → Bool
  | .attribute .. => true
  | _ => false

def Attr.event (attr : Attr) : Event := .attribute attr.nodeName attr.nodeValue

def nodesEvents : List Node → List Event
  | [] => []
  | .text nodeValue :: rest => .text nodeValue :: nodesEvents rest
  | .cdataSection nodeValue :: rest => .cdataSection nodeValue :: nodesEvents rest
  | .element tag attrs children :: rest =>
      .startTag tag.nodeName :: (attrs.map Attr.event ++ nodesEvents children ++ .endTag tag.nodeName :: nodesEvents rest)

theorem nodesEvents_append (nodes more : List Node) :
    nodesEvents (nodes ++ more) = nodesEvents nodes ++ nodesEvents more := by
  induction nodes with
  | nil => rw [nodesEvents, List.nil_append, List.nil_append]
  | cons node nodes ih =>
    cases node with
    | element tag attrs children =>
      simp only [List.cons_append, nodesEvents, ih, List.append_assoc]
    | text nodeValue | cdataSection nodeValue => simp only [List.cons_append, nodesEvents, ih]

/-! ### The events of a tree under construction -/

def frameEvents (frame : Tag × List Attr × List Node) : List Event :=
  .startTag frame.1.nodeName :: (frame.2.1.map Attr.event ++ nodesEvents frame.2.2)

def Tree.events (t : Tree) : List Event := nodesEvents t.children ++ t.frames.reverse.flatMap frameEvents

theorem Tree.events_cons (frame : Tag × List Attr × List Node) (outer : List (Tag × List Attr × List Node))
    (children : List Node) :
    Tree.events ⟨frame :: outer, children⟩ = Tree.events ⟨outer, children⟩ ++ frameEvents frame := by
  simp [Tree.events]

theorem Tree.events_add (t : Tree) (node : Node) : (t.add node).events = t.events ++ nodesEvents [node] := by
  obtain ⟨frames, children⟩ := t
  cases frames with
  | nil => simp [Tree.add, Tree.events, nodesEvents_append]
  | cons frame outer =>
    obtain ⟨tag, attrs, nodes⟩ := frame
    change Tree.events ⟨(tag, attrs, nodes ++ [node]) :: outer, children⟩ = _
    rw [Tree.events_cons, Tree.events_cons, frameEvents, frameEvents, nodesEvents_append, List.append_assoc,
      List.cons_append, List.append_assoc]

/-! ### What a round reads -/

/-- The reader's part of a round: the place changes, and an attribute takes effect on the namespaces. -/
inductive Found (p : Parser) : NewNode → Parser → Prop where
  | none (place : Place) (stays : place.state = .attribute → p.state = .attribute) : Found p .none (p.put place)
  | startTag (place : Place) (nodeName : List UInt8) :
      Found p (.startTag nodeName (parserSetNodePrefixAndLocalName nodeName).1
        (parserSetNodePrefixAndLocalName nodeName).2) (p.put place)
  | endTag (place : Place) (nodeName : List UInt8) : Found p (.endTag nodeName) (p.put place)
  | text (place : Place) (nodeValue : List UInt8) (content : place.state = .content) :
      Found p (.text nodeValue) (p.put place)
  | cdataSection (place : Place) (nodeValue : List UInt8) (content : place.state = .content) :
      Found p (.cdataSection nodeValue) (p.put place)
  | attribute (place : Place) (nodeName nodeValue : List UInt8) {attr : Attr} {top : Open} {outer : List Open}
      {q : Parser} (inside : p.state = .attribute) (opened : p.open_ = top :: outer)
      (named : parserXmlNamespace p ⟨nodeName, nodeValue, none, none⟩ top outer = .ok (attr, q)) :
      Found p (.attribute attr) (q.put place)

theorem Found.moved {p p' : Parser} {place : Place} {node : NewNode} (same : place.state = p.state)
    (found : Found (p.put place) node p') : Found p node p' := by
  cases found with
  | none after stays => exact .none after fun inside => same ▸ stays inside
  | startTag after nodeName => exact .startTag after nodeName
  | endTag after nodeName => exact .endTag after nodeName
  | text after nodeValue content => exact .text after nodeValue content
  | cdataSection after nodeValue content => exact .cdataSection after nodeValue content
  | «attribute» after nodeName nodeValue inside opened named =>
    rw [parserXmlNamespace_put] at named
    obtain ⟨⟨attr, q⟩, defined, both⟩ := map_ok named
    obtain ⟨rfl, rfl⟩ := Prod.mk.inj both
    have found : Found p (.attribute attr) (q.put after) :=
      .attribute after nodeName nodeValue (same ▸ inside) opened defined
    exact found

section Reads
variable {errorChar : Int} {p p' : Parser} {node : NewNode}

theorem parserProcessSTag_found (read : parserProcessSTag errorChar p = .ok (node, p')) :
    ∃ place nodeName, node = .startTag nodeName (parserSetNodePrefixAndLocalName nodeName).1
      (parserSetNodePrefixAndLocalName nodeName).2 ∧ p' = p.put place := by
  unfold parserProcessSTag at read
  obtain ⟨n, curPtr, tokenBuf, savePtr, -, same⟩ := @tokenStep_spec errorChar p
  simp only [parserGetNextToken_eq, same, bind, Except.bind] at read
  split at read
  next => cases read
  next =>
    obtain ⟨n', curPtr', tokenBuf', savePtr', -, same'⟩ := @tokenStep_spec errorChar
      { p with curPtr := curPtr, tokenBuf := tokenBuf, savePtr := curPtr, lastElem := tokenBuf }
    simp only [same'] at read
    split at read
    next => cases read
    next =>
      cases read
      refine ⟨?_, tokenBuf, rfl, ?_⟩
      · exact
          if tokenBuf' = bytes "/>" then ⟨savePtr', savePtr', tokenBuf, tokenBuf', .element⟩
          else if tokenBuf' = bytes ">" then ⟨curPtr', savePtr', tokenBuf, tokenBuf', .content⟩
          else ⟨savePtr', savePtr', tokenBuf, tokenBuf', .attribute⟩
      · split_ifs <;> rfl

theorem parserProcessETag_found (read : parserProcessETag errorChar p = .ok (node, p')) :
    ∃ place nodeName, node = .endTag nodeName ∧ p' = p.put place := by
  unfold parserProcessETag at read
  obtain ⟨n, curPtr, tokenBuf, savePtr, -, same⟩ := @tokenStep_spec errorChar p
  simp only [parserGetNextToken_eq, same, bind, Except.bind] at read
  split at read
  next => cases read
  next =>
    obtain ⟨n', curPtr', tokenBuf', savePtr', -, same'⟩ := @tokenStep_spec errorChar
      { p with curPtr := parserSkipWhiteSpaces curPtr, tokenBuf := tokenBuf, savePtr := savePtr }
    simp only [same'] at read
    split at read
    next => cases read
    next =>
      cases read
      exact ⟨⟨curPtr', savePtr', p.lastElem, tokenBuf', p.state⟩, tokenBuf, rfl, rfl⟩

theorem parserProcessContent_found (content : p.state = .content)
    (read : parserProcessContent errorChar p = .ok (node, p')) : Found p node p' := by
  have other : p.state ≠ .attribute := by rw [content]; decide
  unfold parserProcessContent at read
  dsimp only at read
  split at read
  next =>
    cases read
    exact .none ⟨_, p.curPtr, p.lastElem, p.tokenBuf, p.state⟩ id
  next =>
    split at read
    next =>
      split at read
      next =>
        split at read
        next => cases read
        next nodeValue pEnd _ =>
          cases read
          exact .cdataSection ⟨pEnd, p.curPtr, p.lastElem, p.tokenBuf, p.state⟩ nodeValue content
      next =>
        split at read
        next =>
          split at read
          next => cases read
          next pEnd _ =>
            cases read
            exact .none ⟨pEnd, p.curPtr, p.lastElem, p.tokenBuf, p.state⟩ id
        next =>
          split at read
          next =>
            split at read
            next => cases read
            next pEnd _ =>
              cases read
              exact .none ⟨pEnd, p.curPtr, p.lastElem, p.tokenBuf, p.state⟩ id
          next =>
            cases read
            exact .none ⟨_, p.curPtr, p.lastElem, p.tokenBuf, .element⟩ nofun
    next =>
      split at read
      next => cases read
      next =>
        simp only [bind, Except.bind] at read
        split at read
        next => cases read
        next copied run =>
          obtain ⟨done, p₁⟩ := copied
          obtain ⟨text, rfl, -⟩ := parserCopyToken_spec run
          dsimp only at read
          split at read
          next => cases read
          next =>
            cases read
            exact .text ⟨_, p.curPtr, p.lastElem, text, p.state⟩ text content

theorem attributeAhead_put {attr : Attr} (read : attributeAhead errorChar p attr = .ok (node, p')) :
    ∃ place, node = .attribute attr ∧ p' = p.put place := by
  unfold attributeAhead at read
  obtain ⟨n, curPtr, tokenBuf, savePtr, -, same⟩ := @tokenStep_spec errorChar { p with savePtr := p.curPtr }
  simp only [parserGetNextToken_eq, same, bind, Except.bind] at read
  split_ifs at read
  · cases read
    exact ⟨⟨savePtr, savePtr, p.lastElem, tokenBuf, p.state⟩, rfl, rfl⟩
  · cases read
    exact ⟨⟨curPtr, savePtr, p.lastElem, tokenBuf, .content⟩, rfl, rfl⟩

theorem parserProcessAttribute_found {top : Open} {outer : List Open} (inside : p.state = .attribute)
    (opened : p.open_ = top :: outer) (read : parserProcessAttribute errorChar p top outer = .ok (node, p')) :
    Found p node p' := by
  unfold parserProcessAttribute at read
  dsimp only at read
  split at read
  next => cases read
  next =>
    obtain ⟨n, curPtr, tokenBuf, savePtr, -, same⟩ := @tokenStep_spec errorChar p
    simp only [parserGetNextToken_eq, same, bind, Except.bind] at read
    split at read
    next => cases read
    next =>
      obtain ⟨n', curPtr', tokenBuf', savePtr', -, same'⟩ := @tokenStep_spec errorChar
        { p with curPtr := curPtr, tokenBuf := tokenBuf, savePtr := savePtr }
      simp only [same'] at read
      split at read
      next => cases read
      next =>
        split at read
        next => cases read
        next p₁ value =>
          obtain ⟨behind, text, -, rfl⟩ := attributeValue_spec value
          split at read
          next => cases read
          next named namespaces =>
            obtain ⟨attr, p₂⟩ := named
            let place : Place := ⟨behind, savePtr', p.lastElem, text, p.state⟩
            have defined : parserXmlNamespace (p.put place) ⟨p.tokenBuf, text, none, none⟩ top outer = .ok (attr, p₂) :=
              namespaces
            rw [parserXmlNamespace_put] at defined
            obtain ⟨⟨attr', q⟩, named_, same⟩ := map_ok defined
            obtain ⟨rfl, rfl⟩ := Prod.mk.inj same
            have ahead : attributeAhead errorChar (q.put place) attr' = .ok (node, p') := read
            obtain ⟨after, rfl, rfl⟩ := attributeAhead_put ahead
            have found : Found p (.attribute attr') (q.put after) := .attribute after p.tokenBuf text inside opened named_
            exact found

theorem parserGetNextNode_found (more : node ≠ .fileDone) (read : parserGetNextNode errorChar p = .ok (node, p')) :
    Found p node p' := by
  unfold parserGetNextNode at read
  split at read
  next =>
    cases read
    exact absurd rfl more
  next =>
    split at read
    next content => exact parserProcessContent_found content read
    next =>
      obtain ⟨n, curPtr, tokenBuf, savePtr, -, same⟩ := @tokenStep_spec errorChar
        { p with curPtr := parserSkipWhiteSpaces p.curPtr }
      simp only [parserGetNextToken_eq, same, bind, Except.bind] at read
      let place : Place := ⟨curPtr, savePtr, p.lastElem, tokenBuf, p.state⟩
      split at read
      next =>
        cases read
        exact .none place id
      next =>
        split at read
        next => cases read
        next =>
          split at read
          next =>
            cases read
            exact .none place id
          next =>
            split at read
            next =>
              obtain ⟨after, nodeName, rfl, rfl⟩ := parserProcessETag_found read
              exact .endTag after nodeName
            next =>
              split at read
              next =>
                obtain ⟨after, nodeName, rfl, rfl⟩ := parserProcessSTag_found read
                exact .startTag after nodeName
              next =>
                split at read
                next =>
                  split at read
                  next => cases read
                  next =>
                    cases read
                    exact .endTag place p.lastElem
                next =>
                  split at read
                  next => cases read
                  next top outer opened =>
                    split at read
                    next inside =>
                      split at read
                      next => cases read
                      next found =>
                        cases read
                        exact (parserProcessAttribute_found (p := p.put place) inside opened found).moved rfl
                    next => cases read

/-! ### Runs -/

def Parser.built (p : Parser) : Parser := p.put ⟨[], [], [], [], .element⟩

/-- What the document loop makes of an event; `state` is the one behind a start tag. -/
def enterEvent (state : ParserState) (p : Parser) (event : Event) : Except Stop Parser :=
  (match event with
  | .startTag nodeName => parserProcessElementName { p with state := state } nodeName
      (parserSetNodePrefixAndLocalName nodeName).1 (parserSetNodePrefixAndLocalName nodeName).2
  | .attribute nodeName nodeValue => enterAttribute p ⟨nodeName, nodeValue, none, none⟩
  | .endTag nodeName => parserETagVerification p nodeName
  | .text nodeValue => appendNode p (.text nodeValue)
  | .cdataSection nodeValue => appendNode p (.cdataSection nodeValue)).map Parser.built

theorem map_built {result : Except Stop Parser} {f : Parser → Parser} (same : ∀ q, (f q).built = q.built) :
    (result.map f).map Parser.built = result.map Parser.built := by
  cases result with
  | error stop => rfl
  | ok q => exact congrArg Except.ok (same q)

theorem enterAttribute_put (p : Parser) (place : Place) (attr : Attr) :
    enterAttribute (p.put place) attr = (enterAttribute p attr).map (·.put place) := by
  unfold enterAttribute
  rw [Parser.put_open]
  split
  next => rfl
  next top outer _ =>
    rw [parserXmlNamespace_put]
    cases parserXmlNamespace p ⟨attr.nodeName, attr.nodeValue, none, none⟩ top outer with
    | error stop => rfl
    | ok named => exact parserProcessAttributeName_put named.2 place named.1

theorem enterEvent_put (state : ParserState) (p : Parser) (place : Place) (event : Event) :
    enterEvent state (p.put place) event = enterEvent state p event := by
  unfold enterEvent
  cases event with
  | startTag nodeName =>
    have moved := parserProcessElementName_put p { place with state := state } nodeName
      (parserSetNodePrefixAndLocalName nodeName).2 (parserSetNodePrefixAndLocalName nodeName).1
    exact (congrArg (Except.map Parser.built) moved).trans (map_built fun _ => rfl)
  | «attribute» nodeName nodeValue =>
    exact (congrArg (Except.map Parser.built) (enterAttribute_put p place _)).trans (map_built fun _ => rfl)
  | endTag nodeName =>
    exact (congrArg (Except.map Parser.built) (parserETagVerification_put p place nodeName)).trans (map_built fun _ => rfl)
  | text nodeValue | cdataSection nodeValue =>
    exact (congrArg (Except.map Parser.built) (appendNode_put p place _)).trans (map_built fun _ => rfl)

def enterEvents (p : Parser) : List (ParserState × Event) → Except Stop Parser
  | [] => .ok p.built
  | (state, event) :: rest => (enterEvent state p event).bind (enterEvents · rest)

theorem enterEvents_put (p : Parser) (place : Place) (events : List (ParserState × Event)) :
    enterEvents (p.put place) events = enterEvents p events := by
  cases events with
  | nil => rfl
  | cons first rest => rw [enterEvents, enterEvents, enterEvent_put]

def staysInTag (state : ParserState) : Event → Bool
  | .startTag _ => state = .attribute
  | .attribute .. => true
  | _ => false

/-- Attributes only stand where a tag goes on. -/
def Orderly : Bool → List (ParserState × Event) → Prop
  | _, [] => True
  | inTag, (state, event) :: rest => (event.isAttribute = true → inTag = true) ∧ Orderly (staysInTag state event) rest

theorem Orderly.mono {inTag inTag' : Bool} {events : List (ParserState × Event)} (orderly : Orderly inTag events)
    (more : inTag = true → inTag' = true) : Orderly inTag' events := by
  cases events with
  | nil => trivial
  | cons first rest => exact ⟨fun isAttribute => more (orderly.1 isAttribute), orderly.2⟩

theorem parserRound_event (round : parserRound errorChar p = .ok (some p')) :
    (p'.built = p.built ∧ (p'.state = .attribute → p.state = .attribute)) ∨
    ∃ state event, enterEvent state p event = .ok p'.built ∧ (event.isAttribute = true → p.state = .attribute) ∧
      (p'.state = .attribute → staysInTag state event = true) := by
  unfold parserRound at round
  cases read : parserGetNextNode errorChar p with
  | error stop =>
    rw [read] at round
    cases round
  | ok result =>
    obtain ⟨node, q⟩ := result
    rw [read] at round
    by_cases done : node = .fileDone
    · subst done
      cases round
    · cases parserGetNextNode_found done read with
      | none place stays =>
        cases round
        exact .inl ⟨rfl, stays⟩
      | startTag place nodeName =>
        have entered := map_some_ok round
        have moved := parserProcessElementName_put p place nodeName (parserSetNodePrefixAndLocalName nodeName).2
          (parserSetNodePrefixAndLocalName nodeName).1
        rw [moved] at entered
        obtain ⟨r, made, rfl⟩ := map_ok entered
        refine .inr ⟨place.state, .startTag nodeName, ?_, nofun, fun inside => decide_eq_true inside⟩
        exact congrArg (Except.map Parser.built) made
      | endTag place nodeName =>
        have entered := map_some_ok round
        rw [parserETagVerification_put] at entered
        obtain ⟨r, made, rfl⟩ := map_ok entered
        refine .inr ⟨.element, .endTag nodeName, ?_, nofun, nofun⟩
        exact congrArg (Except.map Parser.built) made
      | text place nodeValue content =>
        have entered := map_some_ok round
        rw [appendNode_put] at entered
        obtain ⟨r, made, rfl⟩ := map_ok entered
        refine .inr ⟨.element, .text nodeValue, ?_, nofun, fun inside => ?_⟩
        · exact congrArg (Except.map Parser.built) made
        · exact absurd (content.symm.trans inside) (by decide)
      | cdataSection place nodeValue content =>
        have entered := map_some_ok round
        rw [appendNode_put] at entered
        obtain ⟨r, made, rfl⟩ := map_ok entered
        refine .inr ⟨.element, .cdataSection nodeValue, ?_, nofun, fun inside => ?_⟩
        · exact congrArg (Except.map Parser.built) made
        · exact absurd (content.symm.trans inside) (by decide)
      | «attribute» place nodeName nodeValue inside opened named =>
        have entered := map_some_ok round
        rw [parserProcessAttributeName_put] at entered
        obtain ⟨r, made, rfl⟩ := map_ok entered
        refine .inr ⟨.element, .attribute nodeName nodeValue, ?_, fun _ => inside, fun _ => rfl⟩
        have whole : enterAttribute p ⟨nodeName, nodeValue, none, none⟩ = .ok r := by
          unfold enterAttribute
          rw [opened]
          dsimp only
          rw [named]
          exact made
        exact congrArg (Except.map Parser.built) whole

theorem parserLoop_events {last : Parser} (run : parserLoop errorChar p = .ok last) :
    ∃ events, enterEvents p events = .ok last.built ∧ Orderly (p.state = .attribute) events := by
  induction p using parserLoop.induct errorChar with
  | case1 p stop failed =>
    rw [parserLoop_stop failed] at run
    cases run
  | case2 p ended =>
    rw [parserLoop_done ended] at run
    cases run
    exact ⟨[], rfl, trivial⟩
  | case3 p p' round ih =>
    rw [parserLoop_step round] at run
    obtain ⟨events, entered, orderly⟩ := ih run
    have goesOn : enterEvents p'.built events = .ok last.built := (enterEvents_put p' _ events).trans entered
    rcases parserRound_event round with ⟨same, stays⟩ | ⟨state, event, made, inside, stays⟩
    · rw [same] at goesOn
      refine ⟨events, (enterEvents_put p _ events).symm.trans goesOn, orderly.mono ?_⟩
      simpa using stays
    · refine ⟨(state, event) :: events, ?_, by simpa using inside, orderly.mono (by simpa using stays)⟩
      rw [enterEvents, made]
      exact goesOn

end Reads

/-! ### Every event becomes a part of the tree -/

/-- An event is the next one of the tree; an attribute is, as long as its element has no children. -/
theorem enterEvent_events {state : ParserState} {p q : Parser} {event : Event} (entered : enterEvent state p event = .ok q)
    (early : event.isAttribute = true → ∀ top outer, p.open_ = top :: outer → top.children = []) :
    q.tree.events = p.tree.events ++ [event] := by
  unfold enterEvent at entered
  obtain ⟨r, made, rfl⟩ := map_ok entered
  change r.tree.events = _
  cases event with
  | startTag nodeName =>
    obtain ⟨tag, name, grown⟩ := parserProcessElementName_tree made
    rw [grown, Tree.events_cons, frameEvents, name]
    change p.tree.events ++ _ = _
    rw [List.map_nil, List.nil_append, nodesEvents]
  | «attribute» nodeName nodeValue =>
    have opened : p.open_ ≠ [] := by
      intro none
      unfold enterAttribute at made
      rw [none] at made
      cases made
    obtain ⟨top, outer, opened⟩ := List.exists_cons_of_ne_nil opened
    have start : p.tree = ⟨(top.tag, top.attrs, top.children) :: outer.map Open.node, p.children⟩ := by
      rw [Parser.tree, opened, List.map_cons]
      rfl
    obtain ⟨added, same, grown⟩ := enterAttribute_spec made start
    obtain ⟨name, value⟩ := Prod.mk.inj same
    have event_ : added.event = .attribute nodeName nodeValue := by rw [Attr.event, name, value]
    rw [grown, start, Tree.events_cons, Tree.events_cons, frameEvents, frameEvents, early rfl top outer opened]
    simp [nodesEvents, event_]
  | endTag nodeName =>
    change parserETagVerification p nodeName = .ok r at made
    unfold parserETagVerification at made
    split at made
    next => cases made
    next top outer opened =>
      split at made
      next => cases made
      next named =>
        obtain ⟨s, added, rfl⟩ := map_ok made
        have name : top.tag.nodeName = nodeName := by
          simp only [Bool.or_eq_true, decide_eq_true_eq, not_or, ne_eq, not_not] at named
          exact named.2
        have start : p.tree = ⟨(top.tag, top.attrs, top.children) :: outer.map Open.node, p.children⟩ := by
          rw [Parser.tree, opened, List.map_cons]
          rfl
        change s.tree.events = _
        rw [(appendNode_spec added).2.2, start, Tree.events_add, Tree.events_cons]
        change Tree.events ⟨outer.map Open.node, p.children⟩ ++ _ = _
        simp [frameEvents, nodesEvents, name]
  | text nodeValue | cdataSection nodeValue =>
    rw [(appendNode_spec made).2.2, Tree.events_add, nodesEvents, nodesEvents]

theorem open_children {p : Parser} {tag : Tag} {attrs : List Attr} {nodes : List Node}
    {frames : List (Tag × List Attr × List Node)} {children : List Node}
    (tree : p.tree = ⟨(tag, attrs, nodes) :: frames, children⟩) {top : Open} {outer : List Open}
    (opened : p.open_ = top :: outer) : top.children = nodes := by
  rw [Parser.tree, opened, List.map_cons] at tree
  exact congrArg (fun frame : Tag × List Attr × List Node => frame.2.2) (List.cons.inj (Tree.mk.inj tree).1).1

theorem enterEvent_inTag {state : ParserState} {p q : Parser} {event : Event} (entered : enterEvent state p event = .ok q)
    (early : event.isAttribute = true → ∀ top outer, p.open_ = top :: outer → top.children = [])
    (stays : staysInTag state event = true) : ∀ top outer, q.open_ = top :: outer → top.children = [] := by
  intro last others opened
  unfold enterEvent at entered
  obtain ⟨r, made, rfl⟩ := map_ok entered
  cases event with
  | startTag nodeName =>
    obtain ⟨tag, name, grown⟩ := parserProcessElementName_tree made
    exact open_children grown opened
  | «attribute» nodeName nodeValue =>
    cases before : p.open_ with
    | nil =>
      unfold enterAttribute at made
      rw [before] at made
      cases made
    | cons top outer =>
      have start : p.tree = ⟨(top.tag, top.attrs, top.children) :: outer.map Open.node, p.children⟩ := by
        rw [Parser.tree, before, List.map_cons]
        rfl
      obtain ⟨added, same, grown⟩ := enterAttribute_spec made start
      exact (open_children grown opened).trans (early rfl top outer before)
  | endTag nodeName | text nodeValue | cdataSection nodeValue => cases stays

theorem enterEvents_events {events : List (ParserState × Event)} {p q : Parser} {inTag : Bool}
    (entered : enterEvents p events = .ok q) (orderly : Orderly inTag events)
    (early : inTag = true → ∀ top outer, p.open_ = top :: outer → top.children = []) :
    q.tree.events = p.tree.events ++ events.map Prod.snd := by
  induction events generalizing p inTag with
  | nil =>
    cases entered
    exact (List.append_nil _).symm
  | cons first rest ih =>
    obtain ⟨state, event⟩ := first
    obtain ⟨inside, later⟩ := orderly
    rw [enterEvents] at entered
    cases made : enterEvent state p event with
    | error stop =>
      rw [made] at entered
      cases entered
    | ok r =>
      rw [made] at entered
      have empty := fun isAttribute => early (inside isAttribute)
      rw [ih entered later (enterEvent_inTag made empty), enterEvent_events made empty, List.append_assoc]
      rfl

theorem ixmlParseBufferEx_events {errorChar : Int} {buffer : List UInt8} {doc : Document}
    (parsed : ixmlParseBufferEx errorChar buffer = .ok doc) :
    ∃ events last, enterEvents (parserInit []) events = .ok last ∧ Orderly false events ∧ last.open_ = [] ∧
      doc = ⟨last.children, last.namespaceURI⟩ ∧ nodesEvents doc.children = events.map Prod.snd := by
  unfold ixmlParseBufferEx parserParseDocument at parsed
  split at parsed
  next => cases parsed
  next =>
    split at parsed
    next => cases parsed
    next curPtr prolog =>
      cases run : parserLoop errorChar (parserInit curPtr) with
      | error stop =>
        rw [run] at parsed
        cases parsed
      | ok last =>
        rw [run] at parsed
        simp only [bind, Except.bind] at parsed
        split at parsed
        next => cases parsed
        next closed =>
          cases parsed
          obtain ⟨events, entered, orderly⟩ := parserLoop_events run
          have start : enterEvents (parserInit []) events = .ok last.built :=
            (enterEvents_put (parserInit []) ⟨curPtr, [], [], [], .element⟩ events).symm.trans entered
          have none : last.open_ = [] := by simpa using closed
          have listed := enterEvents_events start orderly nofun
          refine ⟨events, last.built, start, orderly, none, rfl, ?_⟩
          have tree : last.tree = ⟨[], last.children⟩ := by rw [Parser.tree, none, List.map_nil]
          have first : (parserInit []).tree.events = [] := by
            simp [parserInit, Parser.tree, Tree.events, nodesEvents]
          have whole : last.tree.events = events.map Prod.snd := by
            rw [first] at listed
            exact listed
          rw [tree, Tree.events] at whole
          simpa using whole

end Pupnp.Ixml
