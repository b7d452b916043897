import Pupnp.Ixml.PrintedNodes

/-!
Reading a printed node again. The rounds over its text do what they would do over the node itself, walked in
document order: `enterSiblings` is this walk.
-/

namespace Pupnp.Ixml
open CString

def enterAttribute (p : Parser) (attr : Attr) : Except Stop Parser :=
  match p.open_ with
  | [] => .error .syntaxErr
  | top :: outer =>
      (parserXmlNamespace p ⟨attr.nodeName, attr.nodeValue, none, none⟩ top outer).bind fun named =>
        parserProcessAttributeName named.2 named.1

def enterStartTag (p : Parser) (tag : Tag) (attrs : List Attr) : Except Stop Parser :=
  let parts := parserSetNodePrefixAndLocalName tag.nodeName
  let state := if attrs.isEmpty then ParserState.content else .attribute
  (parserProcessElementName { p with state := state } tag.nodeName parts.1 parts.2).bind fun p =>
    attrs.foldlM enterAttribute p

/-- A node and its siblings, as far as they are printed and not passed over as white space. -/
def enterSiblings (p : Parser) : List Node → Except Stop Parser
  | [] => .ok p
  | .text nodeValue :: _ =>
      if nodeValue.all WHITESPACE.contains then .ok p else appendNode p (.text nodeValue)
  | .cdataSection nodeValue :: _ => appendNode p (.cdataSection nodeValue)
  | .element tag attrs children :: siblings =>
      (enterStartTag p tag attrs).bind fun p =>
        (enterSiblings p children).bind fun p =>
          (parserETagVerification p tag.nodeName).bind fun p => enterSiblings p siblings

structure AttrRead (errorChar : Int) (attr : Attr) : Prop where
  name : NameText attr.nodeName
  value : ReadValue errorChar attr.nodeValue

def NodesRead (errorChar : Int) : List Node → Prop
  | [] => True
  | .text nodeValue :: rest => ReadValue errorChar nodeValue ∧ NodesRead errorChar rest
  | .cdataSection nodeValue :: rest => CData nodeValue ∧ NodesRead errorChar rest
  | .element tag attrs children :: rest =>
      NameText tag.nodeName ∧ (∀ attr ∈ attrs, AttrRead errorChar attr) ∧ NodesRead errorChar children ∧
        NodesRead errorChar rest

/-! ### What is built does not depend on where the parser reads -/

theorem parserProcessElementName_put (p : Parser) (place : Place) (nodeName localName : List UInt8)
    (prefixName : Option (List UInt8)) :
    parserProcessElementName (p.put place) nodeName prefixName localName =
      (parserProcessElementName { p with state := place.state } nodeName prefixName localName).map
        (·.put { place with savePtr := place.curPtr }) := by
  unfold parserProcessElementName
  dsimp only
  have same : (p.put place).bHasTopLevel = p.bHasTopLevel ∧ (p.put place).open_ = p.open_ := ⟨rfl, rfl⟩
  rw [same.1, same.2]
  split <;> rfl

theorem parserProcessAttributeName_put (p : Parser) (place : Place) (attr : Attr) :
    parserProcessAttributeName (p.put place) attr = (parserProcessAttributeName p attr).map (·.put place) := by
  unfold parserProcessAttributeName
  rw [Parser.put_open]
  split
  next => rfl
  next => split <;> rfl

theorem appendNode_put (p : Parser) (place : Place) (node : Node) :
    appendNode (p.put place) node = (appendNode p node).map (·.put place) := by
  unfold appendNode
  rw [Parser.put_open]
  split <;> rfl

theorem parserETagVerification_put (p : Parser) (place : Place) (nodeName : List UInt8) :
    parserETagVerification (p.put place) nodeName =
      (parserETagVerification p nodeName).map (·.put { place with state := .content }) := by
  unfold parserETagVerification
  rw [Parser.put_open]
  split
  next => rfl
  next top outer opened =>
    split
    next => rfl
    next =>
      have added := appendNode_put { p with open_ := outer } place (.element top.tag top.attrs top.children)
      change Except.map _ (appendNode (Parser.put { p with open_ := outer } place) _) = _
      rw [added]
      cases appendNode { p with open_ := outer } (.element top.tag top.attrs top.children) <;> rfl

section Runs
variable {errorChar : Int}

def Leads (errorChar : Int) (p : Parser) (built : Except Stop Parser) (arrived : Place → Prop) : Prop :=
  match built with
  | .error _ => ∃ stop, parserLoop errorChar p = .error stop
  | .ok q => ∃ place, arrived place ∧ parserLoop errorChar p = parserLoop errorChar (q.put place)

theorem Leads.here {q : Parser} {place : Place} {arrived : Place → Prop} (there : arrived place) :
    Leads errorChar (q.put place) (.ok q) arrived :=
  ⟨place, there, rfl⟩

theorem Leads.along {p p' : Parser} {built : Except Stop Parser} {arrived : Place → Prop}
    (same : parserLoop errorChar p = parserLoop errorChar p') (leads : Leads errorChar p' built arrived) :
    Leads errorChar p built arrived := by
  unfold Leads at leads ⊢
  rw [same]
  exact leads

theorem Leads.bind {p : Parser} {built : Except Stop Parser} {next : Parser → Except Stop Parser}
    {middle arrived : Place → Prop} (first : Leads errorChar p built middle)
    (second : ∀ q place, middle place → Leads errorChar (q.put place) (next q) arrived) :
    Leads errorChar p (built.bind next) arrived := by
  cases built with
  | error stop => exact first
  | ok q =>
    obtain ⟨place, there, same⟩ := first
    exact .along same (second q place there)

theorem Leads.round {p : Parser} {built : Except Stop Parser} (place : Place) {arrived : Place → Prop}
    (round : parserRound errorChar p = (built.map (·.put place)).map some) (there : arrived place) :
    Leads errorChar p built arrived := by
  cases built with
  | error stop => exact ⟨stop, parserLoop_stop round⟩
  | ok q => exact ⟨place, there, parserLoop_step round⟩

theorem round_none {p : Parser} {curPtr : List UInt8} {state : ParserState}
    (found : Finds (parserGetNextNode errorChar p) .none p curPtr state) :
    ∃ place : Place, place.curPtr = curPtr ∧ place.state = state ∧
      parserLoop errorChar p = parserLoop errorChar (p.put place) := by
  obtain ⟨place, text, at_, read⟩ := found
  refine ⟨place, text, at_, parserLoop_step ?_⟩
  unfold parserRound
  rw [read]

/-! ### The pieces of a printed element -/

theorem leads_startName {p : Parser} {place : Place} {name tail curPtr : List UInt8} {state : ParserState}
    (markup : place.state ≠ .content) (text : NameText name) (goesOn : TagGoesOn tail curPtr state)
    (here : place.curPtr = 60 :: (name ++ tail)) :
    Leads errorChar (p.put place)
      (parserProcessElementName { p with state := state } name (parserSetNodePrefixAndLocalName name).1
        (parserSetNodePrefixAndLocalName name).2)
      fun after => after.curPtr = curPtr ∧ after.state = state := by
  obtain ⟨after, behind, at_, read⟩ := @parserGetNextNode_start errorChar (p.put place) (name ++ tail)
    (startTagOf name) curPtr state markup here (nameText_head text tail)
    fun q start => parserProcessSTag_printed text goesOn start
  have entered := parserProcessElementName_put p after name (parserSetNodePrefixAndLocalName name).2
    (parserSetNodePrefixAndLocalName name).1
  rw [at_] at entered
  refine .round { after with savePtr := after.curPtr, state := state } ?_ ⟨behind, rfl⟩
  unfold parserRound
  rw [read]
  exact congrArg (Except.map some) entered

theorem leads_valueRead {p : Parser} {place : Place} {attr : Attr} {behind tail curPtr : List UInt8}
    {state : ParserState} (inside : place.state = .attribute) (named : NameText attr.nodeName)
    (read : ∀ q : Parser, q.curPtr = behind →
      attributeValue errorChar q [34] = .ok { q with curPtr := tail, tokenBuf := attr.nodeValue })
    (goesOn : TagGoesOn tail curPtr state) (here : place.curPtr = 32 :: (attr.nodeName ++ 61 :: 34 :: behind))
    (some : p.open_ ≠ []) :
    Leads errorChar (p.put place) (enterAttribute p attr) fun after => after.curPtr = curPtr ∧ after.state = state := by
  unfold enterAttribute
  cases opened : p.open_ with
  | nil => exact absurd opened some
  | cons top outer =>
    have found := @parserGetNextNode_valueRead errorChar (p.put place) top outer attr.nodeName behind tail curPtr
      attr.nodeValue state inside opened named read goesOn here
    rw [parserXmlNamespace_put] at found
    dsimp only
    cases entered : parserXmlNamespace p ⟨attr.nodeName, attr.nodeValue, none, none⟩ top outer with
    | error stop =>
      rw [entered] at found
      obtain ⟨stop, failed⟩ := found
      refine ⟨stop.recode .failed, parserLoop_stop ?_⟩
      unfold parserRound
      rw [failed]
    | ok result =>
      obtain ⟨defined, q⟩ := result
      rw [entered] at found
      obtain ⟨after, behind, at_, read⟩ := found
      refine .round after ?_ ⟨behind, at_⟩
      unfold parserRound
      rw [read]
      exact congrArg (Except.map Option.some) (parserProcessAttributeName_put q after defined)

theorem leads_attribute {p : Parser} {place : Place} {attr : Attr} {tail curPtr : List UInt8}
    {state : ParserState} (inside : place.state = .attribute) (good : AttrRead errorChar attr)
    (goesOn : TagGoesOn tail curPtr state)
    (here : place.curPtr = 32 :: (attr.nodeName ++ 61 :: 34 :: (copyWithEscape attr.nodeValue ++ 34 :: tail)))
    (some : p.open_ ≠ []) :
    Leads errorChar (p.put place) (enterAttribute p attr) fun after => after.curPtr = curPtr ∧ after.state = state := by
  obtain ⟨chars, value, readable⟩ := good.value
  refine leads_valueRead inside good.name (fun q there => ?_) goesOn here some
  rw [value] at there ⊢
  exact attributeValue_printed readable there

theorem enterAttribute_open {p q : Parser} {attr : Attr} (entered : enterAttribute p attr = .ok q) : q.open_ ≠ [] := by
  unfold enterAttribute at entered
  split at entered
  next => cases entered
  next top outer opened =>
    cases named : parserXmlNamespace p ⟨attr.nodeName, attr.nodeValue, none, none⟩ top outer with
    | error stop =>
      rw [named] at entered
      cases entered
    | ok result =>
      rw [named] at entered
      change parserProcessAttributeName result.2 result.1 = .ok q at entered
      unfold parserProcessAttributeName at entered
      split at entered
      next => cases entered
      next =>
        split at entered
        next => cases entered
        next =>
          cases entered
          exact List.cons_ne_nil _ _

def tagTail (attrs : List Attr) (rest : List UInt8) : List UInt8 :=
  if attrs.isEmpty then 62 :: rest else 32 :: (printAttributes attrs ++ 62 :: rest)

theorem tagTail_cons (attr : Attr) (attrs : List Attr) (rest : List UInt8) :
    tagTail (attr :: attrs) rest =
      32 :: (attr.nodeName ++ 61 :: 34 :: (copyWithEscape attr.nodeValue ++ 34 :: tagTail attrs rest)) := by
  cases attrs with
  | nil => simp [tagTail, printAttributes, bytes]
  | cons next attrs => simp [tagTail, printAttributes, bytes]

theorem tagTail_goesOn {attrs : List Attr} (good : ∀ attr ∈ attrs, AttrRead errorChar attr) (rest : List UInt8) :
    TagGoesOn (tagTail attrs rest) (if attrs.isEmpty then rest else tagTail attrs rest)
      (if attrs.isEmpty then .content else .attribute) := by
  cases attrs with
  | nil => exact .closed rest
  | cons attr attrs =>
    rw [tagTail_cons]
    exact .attribute _ _ 61 (good attr List.mem_cons_self).name (by decide)

theorem leads_attributes {attrs : List Attr} (good : ∀ attr ∈ attrs, AttrRead errorChar attr) {rest : List UInt8}
    {p : Parser} {place : Place} (opened : p.open_ ≠ [])
    (here : place.curPtr = if attrs.isEmpty then rest else tagTail attrs rest)
    (inside : place.state = if attrs.isEmpty then .content else .attribute) :
    Leads errorChar (p.put place) (attrs.foldlM enterAttribute p) fun after =>
      after.curPtr = rest ∧ after.state = .content := by
  induction attrs generalizing p place with
  | nil => exact .here ⟨here, inside⟩
  | cons attr attrs ih =>
    rw [List.isEmpty_cons, if_neg Bool.false_ne_true] at here inside
    rw [tagTail_cons] at here
    have others := fun other member => good other (List.mem_cons_of_mem attr member)
    have first := leads_attribute inside (good attr List.mem_cons_self) (tagTail_goesOn others rest) here opened
    rw [List.foldlM_cons]
    cases entered : enterAttribute p attr with
    | error stop =>
      rw [entered] at first
      exact first
    | ok q =>
      rw [entered] at first
      obtain ⟨after, there, same⟩ := first
      exact .along same (ih others (enterAttribute_open entered) there.1 there.2)

theorem parserProcessElementName_open {p q : Parser} {nodeName localName : List UInt8}
    {prefixName : Option (List UInt8)}
    (entered : parserProcessElementName p nodeName prefixName localName = .ok q) : q.open_ ≠ [] := by
  unfold parserProcessElementName at entered
  dsimp only at entered
  split at entered
  next => cases entered
  next =>
    cases entered
    exact List.cons_ne_nil _ _

theorem leads_startTag {p : Parser} {place : Place} {tag : Tag} {attrs : List Attr} {rest : List UInt8}
    (markup : place.state ≠ .content) (text : NameText tag.nodeName)
    (good : ∀ attr ∈ attrs, AttrRead errorChar attr)
    (here : place.curPtr = 60 :: (tag.nodeName ++ tagTail attrs rest)) :
    Leads errorChar (p.put place) (enterStartTag p tag attrs) fun after =>
      after.curPtr = rest ∧ after.state = .content := by
  have first := @leads_startName errorChar p place tag.nodeName _ _ _ markup text (tagTail_goesOn good rest) here
  unfold enterStartTag
  dsimp only
  cases entered : parserProcessElementName
    { p with state := if attrs.isEmpty then ParserState.content else .attribute } tag.nodeName
    (parserSetNodePrefixAndLocalName tag.nodeName).1 (parserSetNodePrefixAndLocalName tag.nodeName).2 with
  | error stop =>
    rw [entered] at first
    exact first
  | ok q =>
    rw [entered] at first
    obtain ⟨after, there, same⟩ := first
    exact .along same (leads_attributes good (parserProcessElementName_open entered) there.1 there.2)

theorem leads_endTag {p : Parser} {place : Place} {name rest : List UInt8} (markup : place.state = .element)
    (text : NameText name) (here : place.curPtr = 60 :: 47 :: (name ++ 62 :: rest)) :
    Leads errorChar (p.put place) (parserETagVerification p name) fun after =>
      after.curPtr = rest ∧ after.state = .content := by
  obtain ⟨after, behind, -, read⟩ := @parserGetNextNode_end errorChar (p.put place) name rest
    (by change place.state ≠ _; rw [markup]; decide) text here
  refine .round { after with state := .content } ?_ ⟨behind, rfl⟩
  unfold parserRound
  rw [read]
  exact congrArg (Except.map some) (parserETagVerification_put p after name)

theorem getNextNode_content {p : Parser} (more : p.curPtr ≠ []) (content : p.state = .content) :
    parserGetNextNode errorChar p = parserProcessContent errorChar p := by
  unfold parserGetNextNode
  rw [if_neg more, if_pos content]

theorem along_blank {p : Parser} {place : Place} {blank s : List UInt8} {c : UInt8}
    (content : place.state = .content) (white : Blank blank) (noBang : c ≠ 33) (noQuestion : c ≠ 63)
    (here : place.curPtr = blank ++ 60 :: c :: s) :
    ∃ after : Place, after.curPtr = 60 :: c :: s ∧ after.state = .element ∧
      parserLoop errorChar (p.put place) = parserLoop errorChar (p.put after) := by
  have more : (p.put place).curPtr ≠ [] := by
    change place.curPtr ≠ []
    rw [here]
    exact List.append_ne_nil_of_right_ne_nil _ (List.cons_ne_nil _ _)
  have found := @parserProcessContent_markup errorChar (p.put place) blank s c white noBang noQuestion here
  rw [← getNextNode_content more content] at found
  exact round_none found

def childBlank : List Node → List UInt8
  | .element .. :: _ => bytes "\r\n"
  | _ => []

def endBlank : List Node → List UInt8
  | .text _ :: _ => []
  | _ => bytes "\r\n"

theorem printStartTag_eq (tag : Tag) (attrs : List Attr) (children : List Node) (rest : List UInt8) :
    printStartTag tag attrs children ++ rest = 60 :: (tag.nodeName ++ tagTail attrs (childBlank children ++ rest)) := by
  unfold printStartTag tagTail childBlank
  cases attrs with
  | nil =>
    cases children with
    | nil => simp [bytes]
    | cons node nodes => cases node <;> simp [bytes]
  | cons attr attrs =>
    cases children with
    | nil => simp [bytes]
    | cons node nodes => cases node <;> simp [bytes]

theorem printEndTag_eq (tag : Tag) (siblings : List Node) (rest : List UInt8) :
    printEndTag tag siblings ++ rest = 60 :: 47 :: (tag.nodeName ++ 62 :: (endBlank siblings ++ rest)) := by
  unfold printEndTag endBlank
  cases siblings with
  | nil => simp [bytes]
  | cons node nodes => cases node <;> simp [bytes]

theorem blank_lineEnd : Blank (bytes "\r\n") := by
  unfold Blank
  decide

theorem childBlank_blank (children : List Node) : Blank (childBlank children) := by
  unfold childBlank
  split
  next => exact blank_lineEnd
  next => exact .nil

theorem endBlank_blank (siblings : List Node) : Blank (endBlank siblings) := by
  unfold endBlank
  split
  next => exact .nil
  next => exact blank_lineEnd

def AtEnd (s : List UInt8) (place : Place) : Prop :=
  place.state = .content ∧ ∃ blank, Blank blank ∧ place.curPtr = blank ++ 60 :: 47 :: s

structure AtStart (nodes : List Node) (rest : List UInt8) (place : Place) : Prop where
  content : place.state = .content
  text : ∃ blank, Blank blank ∧ (∀ nodeValue more, nodes = .text nodeValue :: more → blank = []) ∧
    place.curPtr = blank ++ (printSiblings nodes ++ rest)

theorem AtStart.children {children : List Node} {rest : List UInt8} {place : Place}
    (here : place.curPtr = childBlank children ++ (printSiblings children ++ rest))
    (content : place.state = .content) : AtStart children rest place where
  content := content
  text := by
    refine ⟨childBlank children, childBlank_blank children, ?_, here⟩
    rintro nodeValue more rfl
    rfl

theorem AtStart.siblings {siblings : List Node} {rest : List UInt8} {place : Place}
    (here : place.curPtr = endBlank siblings ++ (printSiblings siblings ++ rest))
    (content : place.state = .content) : AtStart siblings rest place where
  content := content
  text := by
    refine ⟨endBlank siblings, endBlank_blank siblings, ?_, here⟩
    rintro nodeValue more rfl
    rfl

theorem name_cons {name : List UInt8} (text : NameText name) (rest : List UInt8) :
    ∃ c s, name ++ rest = c :: s ∧ c ≠ 33 ∧ c ≠ 63 := by
  have mark := nameText_mark text
  cases name with
  | nil => exact absurd rfl text.nonempty
  | cons c name =>
    change c ∉ _ at mark
    refine ⟨c, name ++ rest, rfl, ?_, ?_⟩
    · rintro rfl
      exact mark (by decide)
    · rintro rfl
      exact mark (by decide)

theorem leads_element {p : Parser} {place : Place} {tag : Tag} {attrs : List Attr} {children : List Node}
    {rest : List UInt8} (markup : place.state ≠ .content) (text : NameText tag.nodeName)
    (good : ∀ attr ∈ attrs, AttrRead errorChar attr)
    (inner : ∀ q after s, AtStart children (60 :: 47 :: s) after →
      Leads errorChar (q.put after) (enterSiblings q children) (AtEnd s))
    (here : place.curPtr =
      printStartTag tag attrs children ++ (printSiblings children ++ 60 :: 47 :: (tag.nodeName ++ 62 :: rest))) :
    Leads errorChar (p.put place)
      ((enterStartTag p tag attrs).bind fun p =>
        (enterSiblings p children).bind fun p => parserETagVerification p tag.nodeName)
      fun after => after.curPtr = rest ∧ after.state = .content := by
  rw [printStartTag_eq] at here
  apply (leads_startTag markup text good here).bind
  rintro q opened ⟨behind, content⟩
  apply (inner q opened _ (.children behind content)).bind
  rintro r ended ⟨content, blank, white, there⟩
  obtain ⟨closing, closes, element, same⟩ := along_blank (p := r) content white (by decide) (by decide) there
  exact .along same (leads_endTag element text closes)

theorem leads_siblings {nodes : List Node} (good : NodesRead errorChar nodes) :
    ∀ (p : Parser) (place : Place) (s : List UInt8), AtStart nodes (60 :: 47 :: s) place →
      Leads errorChar (p.put place) (enterSiblings p nodes) (AtEnd s) := by
  induction nodes using printSiblings.induct with
  | case1 =>
    intro p place s start
    obtain ⟨blank, white, -, here⟩ := start.text
    rw [printSiblings, List.nil_append] at here
    rw [enterSiblings]
    exact .here ⟨start.content, blank, white, here⟩
  | case2 nodeValue rest =>
    intro p place s start
    obtain ⟨blank, white, tight, here⟩ := start.text
    rw [tight _ _ rfl, List.nil_append, printSiblings] at here
    rw [NodesRead] at good
    obtain ⟨chars, rfl, readable⟩ := good.1
    rw [enterSiblings]
    by_cases blankText : (encode chars).all WHITESPACE.contains
    · rw [if_pos blankText]
      exact .here ⟨start.content, _, copyWithEscape_blank.mpr (List.all_eq_true.mp blankText), here⟩
    · rw [if_neg blankText]
      have visible : ¬Blank (encode chars) := fun white => blankText (List.all_eq_true.mpr white)
      have more : (p.put place).curPtr ≠ [] := by
        change place.curPtr ≠ []
        rw [here]
        exact List.append_ne_nil_of_right_ne_nil _ (List.cons_ne_nil _ _)
      obtain ⟨after, behind, at_, read⟩ := @parserProcessContent_text errorChar (p.put place) chars (47 :: s)
        readable visible here
      rw [← getNextNode_content more start.content] at read
      refine .round after ?_ ⟨at_.trans start.content, [], .nil, behind⟩
      unfold parserRound
      rw [read]
      exact congrArg (Except.map some) (appendNode_put p after _)
  | case3 nodeValue rest =>
    intro p place s start
    obtain ⟨blank, white, -, here⟩ := start.text
    rw [NodesRead] at good
    have more : (p.put place).curPtr ≠ [] := by
      change place.curPtr ≠ []
      rw [here]
      simp
    rw [enterSiblings]
    have here' : place.curPtr = blank ++ (bytes "<![CDATA[" ++ (nodeValue ++ (bytes "]]>" ++ 60 :: 47 :: s))) := by
      rw [here, printSiblings]
      simp only [List.append_assoc]
    obtain ⟨after, behind, at_, read⟩ := @parserProcessContent_cdata errorChar (p.put place) blank nodeValue
      (60 :: 47 :: s) white good.1 here'
    rw [← getNextNode_content more start.content] at read
    refine .round after ?_ ⟨at_.trans start.content, [], .nil, behind⟩
    unfold parserRound
    rw [read]
    exact congrArg (Except.map some) (appendNode_put p after _)
  | case4 tag attrs children siblings inner outer =>
    intro p place s start
    rw [NodesRead] at good
    obtain ⟨text, attributes, below, beside⟩ := good
    obtain ⟨blank, white, -, here⟩ := start.text
    have whole : place.curPtr = blank ++ (printStartTag tag attrs children ++ (printSiblings children ++
        60 :: 47 :: (tag.nodeName ++ 62 :: (endBlank siblings ++ (printSiblings siblings ++ 60 :: 47 :: s))))) := by
      rw [here, printSiblings, ← printEndTag_eq]
      simp only [List.append_assoc]
    rw [printStartTag_eq] at whole
    obtain ⟨c, t, first, noBang, noQuestion⟩ := name_cons text (tagTail attrs (childBlank children ++
      (printSiblings children ++ 60 :: 47 :: (tag.nodeName ++ 62 :: (endBlank siblings ++
        (printSiblings siblings ++ 60 :: 47 :: s))))))
    rw [first] at whole
    obtain ⟨opening, opens, element, same⟩ := along_blank (p := p) start.content white noBang noQuestion whole
    rw [← first, ← printStartTag_eq] at opens
    have read := @leads_element errorChar p opening tag attrs children _ (by rw [element]; decide) text attributes
      (inner below) opens
    rw [enterSiblings]
    have walked := read.bind fun q after there => outer beside q after s (.siblings there.1 there.2)
    refine .along same ?_
    convert walked using 1
    cases enterStartTag p tag attrs with
    | error stop => rfl
    | ok q =>
      change (enterSiblings q children).bind _ = ((enterSiblings q children).bind _).bind _
      cases enterSiblings q children <;> rfl

end Runs

end Pupnp.Ixml
