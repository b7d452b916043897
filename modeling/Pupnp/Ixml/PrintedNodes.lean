import Pupnp.Ixml.PrintedTokens
import Pupnp.Ixml.Round

/-! The nodes of printed text: what one call of `Parser_getNextNode` finds at each piece of it. -/

namespace Pupnp.Ixml
open CString

theorem nameText_mark {name : List UInt8} (text : NameText name) : name.headD 0 ∉ bytes "\"'<=/>!?\n\t\r " := by
  have head := @nameText_head 0 name text []
  rw [List.append_nil] at head
  exact name_head head

section Nodes
variable {errorChar : Int}

/-- The parser finds a node and goes on behind it in a known state. -/
def Finds (result : Except Stop (NewNode × Parser)) (node : NewNode) (p : Parser) (curPtr : List UInt8)
    (state : ParserState) : Prop :=
  ∃ place : Place, place.curPtr = curPtr ∧ place.state = state ∧ result = .ok (node, p.put place)

/-- What stands behind a name or an attribute of a tag, where the parser goes on from it, and its state there:
it looks ahead for one token and stays in front of an attribute. -/
inductive TagGoesOn : List UInt8 → List UInt8 → ParserState → Prop where
  | closed (rest : List UInt8) : TagGoesOn (62 :: rest) rest .content
  | attribute (other rest : List UInt8) (stop : UInt8) (name : NameText other) (ends : EndsName stop) :
      TagGoesOn (32 :: (other ++ stop :: rest)) (32 :: (other ++ stop :: rest)) .attribute

theorem blank_space : Blank [32] := by
  intro c member
  rw [List.mem_singleton.mp member]
  decide

def startTagOf (name : List UInt8) : NewNode :=
  .startTag name (parserSetNodePrefixAndLocalName name).1 (parserSetNodePrefixAndLocalName name).2

theorem parserProcessSTag_printed {p : Parser} {name tail curPtr : List UInt8} {state : ParserState}
    (text : NameText name) (goesOn : TagGoesOn tail curPtr state) (here : p.curPtr = name ++ tail) :
    Finds (parserProcessSTag errorChar p) (startTagOf name) p curPtr state := by
  have some : name.length ≠ 0 := (List.length_pos_iff.mpr text.nonempty).ne'
  unfold parserProcessSTag
  cases goesOn with
  | closed rest =>
    have first := @tokenStep_name errorChar p [] name curPtr 62 .nil text (by decide) here
    have second := @tokenStep_mark errorChar
      { p with curPtr := 62 :: curPtr, tokenBuf := name, savePtr := 62 :: curPtr, lastElem := name } [] curPtr 62
      .nil rfl (by decide)
    refine ⟨⟨curPtr, 62 :: curPtr, name, [62], .content⟩, rfl, rfl, ?_⟩
    simp only [parserGetNextToken_eq, first, bind, Except.bind, some, if_false, second]
    rfl
  | «attribute» other rest stop next ends =>
    have first := @tokenStep_name errorChar p [] name _ 32 .nil text (by decide) here
    have someOther : other.length ≠ 0 := (List.length_pos_iff.mpr next.nonempty).ne'
    have second := @tokenStep_name errorChar
      { p with
        curPtr := 32 :: (other ++ stop :: rest)
        tokenBuf := name
        savePtr := 32 :: (other ++ stop :: rest)
        lastElem := name } [32] other rest stop blank_space next ends rfl
    have mark := nameText_mark next
    have noEmpty : other ≠ bytes "/>" := by
      rintro rfl
      exact mark (by decide)
    have noClose : other ≠ bytes ">" := by
      rintro rfl
      exact mark (by decide)
    refine ⟨⟨32 :: (other ++ stop :: rest), 32 :: (other ++ stop :: rest), name, other, .attribute⟩, rfl, rfl, ?_⟩
    simp only [parserGetNextToken_eq, first, bind, Except.bind, some, if_false, second, someOther, noEmpty,
      noClose]
    rfl

theorem parserProcessETag_printed {p : Parser} {name rest : List UInt8} (text : NameText name)
    (here : p.curPtr = name ++ 62 :: rest) :
    Finds (parserProcessETag errorChar p) (.endTag name) p rest p.state := by
  have first := @tokenStep_name errorChar p [] name rest 62 .nil text (by decide) here
  have some : name.length ≠ 0 := (List.length_pos_iff.mpr text.nonempty).ne'
  have skipped : parserSkipWhiteSpaces (62 :: rest) = 62 :: rest := parserSkipWhiteSpaces_head (by
    change WHITESPACE.contains 62 = false
    decide)
  have second := @tokenStep_mark errorChar { p with curPtr := 62 :: rest, tokenBuf := name } [] rest 62 .nil rfl
    (by decide)
  refine ⟨⟨rest, p.savePtr, p.lastElem, [62], p.state⟩, rfl, rfl, ?_⟩
  unfold parserProcessETag
  simp only [parserGetNextToken_eq, first, bind, Except.bind, some, if_false, skipped, second]
  rfl

theorem parserGetNextNode_start {p : Parser} {s : List UInt8} {node : NewNode} {curPtr : List UInt8}
    {state : ParserState} (markup : p.state ≠ .content) (here : p.curPtr = 60 :: s)
    (name : parserIsNameChar (parserUTF8ToInt errorChar s).1 false = true)
    (tag : ∀ q : Parser, q.curPtr = s → Finds (parserProcessSTag errorChar q) node q curPtr state) :
    Finds (parserGetNextNode errorChar p) node p curPtr state := by
  have skipped : parserSkipWhiteSpaces p.curPtr = 60 :: s := by
    rw [here]
    exact parserSkipWhiteSpaces_head (by change WHITESPACE.contains 60 = false; decide)
  have token := @tokenStep_less errorChar { p with curPtr := parserSkipWhiteSpaces p.curPtr } s name skipped
  obtain ⟨place, text, at_, found⟩ := tag { p with curPtr := s, tokenBuf := [60] } rfl
  refine ⟨place, text, at_, ?_⟩
  unfold parserGetNextNode
  rw [if_neg (by rw [here]; exact List.cons_ne_nil _ _), if_neg markup]
  simp only [parserGetNextToken_eq, token, bind, Except.bind, if_false, List.cons_ne_nil, List.headD_cons]
  exact found

theorem parserGetNextNode_end {p : Parser} {name rest : List UInt8} (markup : p.state ≠ .content)
    (text : NameText name) (here : p.curPtr = 60 :: 47 :: (name ++ 62 :: rest)) :
    Finds (parserGetNextNode errorChar p) (.endTag name) p rest p.state := by
  have skipped : parserSkipWhiteSpaces p.curPtr = 60 :: 47 :: (name ++ 62 :: rest) := by
    rw [here]
    exact parserSkipWhiteSpaces_head (by change WHITESPACE.contains 60 = false; decide)
  have token := @tokenStep_close errorChar { p with curPtr := parserSkipWhiteSpaces p.curPtr } _ skipped
  obtain ⟨place, behind, at_, found⟩ := @parserProcessETag_printed errorChar
    { p with curPtr := name ++ 62 :: rest, tokenBuf := [60, 47] } name rest text rfl
  refine ⟨place, behind, at_, ?_⟩
  unfold parserGetNextNode
  rw [if_neg (by rw [here]; exact List.cons_ne_nil _ _), if_neg markup]
  simp only [parserGetNextToken_eq, token, bind, Except.bind, if_false, List.cons_ne_nil, List.headD_cons]
  exact found

/-! ### Attributes -/

theorem attributeValue_found {p : Parser} {text tail : List UInt8} (noQuote : 34 ∉ text) (noLess : 60 ∉ text)
    (here : p.curPtr = text ++ 34 :: tail) :
    attributeValue errorChar p [34] = (copyLoop errorChar p.curPtr text.length []).bind fun copied =>
      if !copied.1 then .error .syntaxErr else .ok { p with curPtr := tail, tokenBuf := copied.2 } := by
  have open_ : text.contains 60 = false := by
    rw [Bool.eq_false_iff]
    exact fun member => noLess (List.contains_iff_mem.mp member)
  have quote : strstr [34] p.curPtr = some text.length := by
    rw [here]
    have found := @strstr_sep 34 [] text List.not_mem_nil noQuote [] tail
    rwa [if_pos ⟨List.nil_suffix, List.nil_prefix⟩] at found
  have behind : p.curPtr.drop (text.length + 1) = tail := by
    rw [here, List.drop_append]
    simp
  unfold attributeValue
  rw [quote]
  dsimp only
  rw [here, List.take_left, open_, ← here, behind, if_neg Bool.false_ne_true]
  by_cases empty : text.length = 0
  · rw [empty, copyLoop_done]
    rfl
  · rw [if_pos empty]
    unfold parserCopyToken
    rw [if_neg empty]
    cases copyLoop errorChar p.curPtr text.length [] with
    | error stop => rfl
    | ok copied => cases copied.1 <;> rfl

theorem attributeValue_printed {p : Parser} {chars : List Int} {tail : List UInt8}
    (readable : ∀ c ∈ chars, Readable errorChar c) (here : p.curPtr = copyWithEscape (encode chars) ++ 34 :: tail) :
    attributeValue errorChar p [34] = .ok { p with curPtr := tail, tokenBuf := encode chars } := by
  have clean := copyWithEscape_clean (encode chars)
  rw [attributeValue_found (fun member => (clean 34 member).2.2.2 rfl) (fun member => (clean 60 member).1 rfl) here, here,
    copyLoop_escaped readable]
  rfl

theorem attributeAhead_printed {p : Parser} {attr : Attr} {tail curPtr : List UInt8} {state : ParserState}
    (goesOn : TagGoesOn tail curPtr state) (here : p.curPtr = tail) (inside : p.state = .attribute) :
    Finds (attributeAhead errorChar p attr) (.attribute attr) p curPtr state := by
  unfold attributeAhead
  cases goesOn with
  | closed rest =>
    have next := @tokenStep_mark errorChar { p with savePtr := p.curPtr } [] curPtr 62 .nil here (by decide)
    refine ⟨⟨curPtr, p.curPtr, p.lastElem, [62], .content⟩, rfl, rfl, ?_⟩
    simp only [parserGetNextToken_eq, next, bind, Except.bind]
    rfl
  | «attribute» other rest stop name ends =>
    have next := @tokenStep_name errorChar { p with savePtr := p.curPtr } [32] other rest stop blank_space name
      ends here
    have some : other.length ≠ 0 := (List.length_pos_iff.mpr name.nonempty).ne'
    have mark := nameText_mark name
    have noLess : other ≠ bytes "<" := by
      rintro rfl
      exact mark (by decide)
    have noClose : other ≠ bytes ">" := by
      rintro rfl
      exact mark (by decide)
    refine ⟨⟨32 :: (other ++ stop :: rest), p.curPtr, p.lastElem, other, p.state⟩, rfl, inside, ?_⟩
    simp only [parserGetNextToken_eq, next, bind, Except.bind, some, if_false, noLess, ne_eq, noClose,
      not_false_eq_true, if_true]
    rw [here]
    rfl

/-! The namespaces do not depend on where the parser reads. -/

theorem parserAddNamespace_put (p : Parser) (place : Place) (pNode : Tag) (pCur : ElementStack) :
    parserAddNamespace (p.put place) pNode pCur = (parserAddNamespace p pNode pCur).map (·.put place) := by
  unfold parserAddNamespace
  split
  next => split <;> rfl
  next =>
    split
    next => rfl
    next =>
      split
      next => rfl
      next => split <;> rfl

def definedIn (newNode : Attr) (pCur : ElementStack) : Attr × ElementStack :=
  if newNode.nodeName = bytes "xmlns" then (newNode, { pCur with namespaceUri := some newNode.nodeValue })
  else if startsWith newNode.nodeName (bytes "xmlns:") then
    let parts := parserSetNodePrefixAndLocalName newNode.nodeName
    let attr := { newNode with prefixName := parts.1, localName := some parts.2 }
    if pCur.prefixName = some parts.2 then (attr, { pCur with namespaceUri := some newNode.nodeValue })
    else (attr, { pCur with pNsURI := defineNs pCur.pNsURI parts.2 newNode.nodeValue })
  else (newNode, pCur)

theorem parserXmlNamespace_eq (p : Parser) (newNode : Attr) (top : Open) (outer : List Open) :
    parserXmlNamespace p newNode top outer =
      (match p.pNeedPrefixNode with
      | none => Except.ok { p with open_ := { top with item := (definedIn newNode top.item).2 } :: outer }
      | some pNode => parserAddNamespace
          { p with open_ := { top with item := (definedIn newNode top.item).2 } :: outer } pNode
          (definedIn newNode top.item).2).map fun q => ((definedIn newNode top.item).1, q) := by
  unfold parserXmlNamespace
  change (match p.pNeedPrefixNode with
    | none => pure ((definedIn newNode top.item).1,
        { p with open_ := { top with item := (definedIn newNode top.item).2 } :: outer })
    | some pNode => parserAddNamespace { p with open_ := { top with item := (definedIn newNode top.item).2 } :: outer }
        pNode (definedIn newNode top.item).2 >>= fun q => pure ((definedIn newNode top.item).1, q)) = _
  cases p.pNeedPrefixNode with
  | none => rfl
  | some pNode =>
    dsimp only
    cases parserAddNamespace { p with open_ := { top with item := (definedIn newNode top.item).2 } :: outer } pNode
      (definedIn newNode top.item).2 <;> rfl

theorem parserXmlNamespace_put (p : Parser) (place : Place) (attr : Attr) (top : Open) (outer : List Open) :
    parserXmlNamespace (p.put place) attr top outer =
      (parserXmlNamespace p attr top outer).map fun named => (named.1, named.2.put place) := by
  rw [parserXmlNamespace_eq, parserXmlNamespace_eq]
  have need : (p.put place).pNeedPrefixNode = p.pNeedPrefixNode := rfl
  rw [need]
  cases p.pNeedPrefixNode with
  | none => rfl
  | some pNode =>
    let waiting : Parser :=
      { p with
        pNeedPrefixNode := some pNode
        open_ := { top with item := (definedIn attr top.item).2 } :: outer }
    have added := parserAddNamespace_put waiting place pNode (definedIn attr top.item).2
    change Except.map _ (parserAddNamespace (waiting.put place) pNode (definedIn attr top.item).2) =
      Except.map _ (Except.map _ (parserAddNamespace waiting pNode (definedIn attr top.item).2))
    rw [added]
    cases parserAddNamespace waiting pNode (definedIn attr top.item).2 <;> rfl

def FindsAttribute (errorChar : Int) (p : Parser) (curPtr : List UInt8) (state : ParserState) :
    Except Stop (Attr × Parser) → Prop
  | .error _ => ∃ stop, parserGetNextNode errorChar p = .error stop
  | .ok named => Finds (parserGetNextNode errorChar p) (.attribute named.1) named.2 curPtr state

theorem parserGetNextNode_value {p : Parser} {top : Open} {outer : List Open} {name behind : List UInt8}
    (inside : p.state = .attribute) (opened : p.open_ = top :: outer) (text : NameText name)
    (here : p.curPtr = 32 :: (name ++ 61 :: 34 :: behind)) :
    parserGetNextNode errorChar p =
      ((attributeValue errorChar { p with curPtr := behind, tokenBuf := [34] } [34]).bind fun q =>
        (parserXmlNamespace q ⟨name, q.tokenBuf, none, none⟩ top outer).bind fun named =>
          attributeAhead errorChar named.2 named.1).mapError (Stop.recode · .syntaxErr) := by
  have head := @nameText_head errorChar name text (61 :: 34 :: behind)
  have skipped : parserSkipWhiteSpaces p.curPtr = name ++ 61 :: 34 :: behind := by
    rw [here]
    exact parserSkipWhiteSpaces_blank blank_space (name_dark head)
  have token := @tokenStep_name errorChar { p with curPtr := parserSkipWhiteSpaces p.curPtr } [] name _ 61 .nil text
    (by decide) skipped
  have equals := @tokenStep_mark errorChar { p with curPtr := 61 :: 34 :: behind, tokenBuf := name } [] _ 61 .nil rfl
    (by decide)
  have quote := @tokenStep_mark errorChar { p with curPtr := 34 :: behind, tokenBuf := [61] } [] _ 34 .nil rfl
    (by decide)
  have mark := nameText_mark text
  have some : name.length ≠ 0 := (List.length_pos_iff.mpr text.nonempty).ne'
  have first := @nameText_head errorChar name text []
  rw [List.append_nil] at first
  have apart {d : UInt8} (member : d ∈ bytes "\"'<=/>!?\n\t\r ") : name.headD 0 ≠ d := by
    rintro rfl
    exact mark member
  have noEnd : name ≠ bytes "</" := by
    rintro rfl
    exact mark (by decide)
  have noEmpty : name ≠ bytes "/>" := by
    rintro rfl
    exact mark (by decide)
  have reached : parserGetNextNode errorChar p =
      (parserProcessAttribute errorChar { p with curPtr := 61 :: 34 :: behind, tokenBuf := name } top outer).mapError
        (Stop.recode · .syntaxErr) := by
    unfold parserGetNextNode
    rw [if_neg (by rw [here]; exact List.cons_ne_nil _ _), if_neg (by rw [inside]; decide)]
    simp only [parserGetNextToken_eq, token, bind, Except.bind, some, decide_false, Bool.false_and,
      Bool.false_eq_true, if_false, text.nonempty, apart (by decide : (62 : UInt8) ∈ _), noEnd,
      apart (by decide : (60 : UInt8) ∈ _), noEmpty]
    rw [opened, inside]
    dsimp only
    rw [if_pos rfl]
    generalize parserProcessAttribute errorChar _ top outer = done
    cases done <;> rfl
  rw [reached]
  congr 1
  unfold parserProcessAttribute
  simp only [parserGetNextToken_eq, text.nonempty, first, equals, quote, bind, Except.bind, decide_false,
    Bool.false_or, Bool.not_true, Bool.false_eq_true, if_false, Nat.one_ne_zero, List.headD_cons, ne_eq,
    not_true_eq_false, Bool.or_self]
  rfl

theorem parserGetNextNode_valueRead {p : Parser} {top : Open} {outer : List Open} {name behind tail curPtr text : List UInt8}
    {state : ParserState} (inside : p.state = .attribute) (opened : p.open_ = top :: outer) (named : NameText name)
    (read : ∀ q : Parser, q.curPtr = behind →
      attributeValue errorChar q [34] = .ok { q with curPtr := tail, tokenBuf := text })
    (goesOn : TagGoesOn tail curPtr state) (here : p.curPtr = 32 :: (name ++ 61 :: 34 :: behind)) :
    FindsAttribute errorChar p curPtr state (parserXmlNamespace p ⟨name, text, none, none⟩ top outer) := by
  have moved := parserXmlNamespace_put p ⟨tail, p.savePtr, p.lastElem, text, p.state⟩ ⟨name, text, none, none⟩ top outer
  change parserXmlNamespace { p with curPtr := tail, tokenBuf := text } _ _ _ = _ at moved
  unfold FindsAttribute
  rw [parserGetNextNode_value inside opened named here, read _ rfl]
  dsimp only [Except.bind]
  rw [moved]
  cases parserXmlNamespace p ⟨name, text, none, none⟩ top outer with
  | error stop => exact ⟨_, rfl⟩
  | ok found =>
    obtain ⟨attr, q⟩ := found
    obtain ⟨place, behind, at_, ahead⟩ := @attributeAhead_printed errorChar
      (q.put ⟨tail, p.savePtr, p.lastElem, text, p.state⟩) attr tail curPtr state goesOn rfl inside
    refine ⟨place, behind, at_, ?_⟩
    dsimp only [Except.map, Except.bind]
    rw [ahead]
    rfl

/-! ### Content -/

theorem parserProcessContent_markup {p : Parser} {blank s : List UInt8} {c : UInt8} (white : Blank blank)
    (noBang : c ≠ 33) (noQuestion : c ≠ 63) (here : p.curPtr = blank ++ 60 :: c :: s) :
    Finds (parserProcessContent errorChar p) .none p (60 :: c :: s) .element := by
  have skipped : parserSkipWhiteSpaces p.curPtr = 60 :: c :: s := by
    rw [here]
    exact parserSkipWhiteSpaces_blank white (by change WHITESPACE.contains 60 = false; decide)
  have second {k : UInt8} (key : List UInt8) (noNul : 0 ∉ 60 :: k :: key) (other : c ≠ k) :
      startsWith (60 :: c :: s) (60 :: k :: key) = false := by
    rw [Bool.eq_false_iff, ne_eq, startsWith_iff noNul]
    intro start
    exact other (List.cons_prefix_cons.mp (List.cons_prefix_cons.mp start).2).1.symm
  have cdata : startsWith (60 :: c :: s) (bytes "<![CDATA[") = false := second _ (by decide) noBang
  have comment : startsWith (60 :: c :: s) BEGIN_COMMENT = false := second _ (by decide) noBang
  have instruction : startsWith (60 :: c :: s) BEGIN_PI = false := second _ (by decide) noQuestion
  refine ⟨⟨60 :: c :: s, p.curPtr, p.lastElem, p.tokenBuf, .element⟩, rfl, rfl, ?_⟩
  unfold parserProcessContent
  simp only [skipped, cdata, comment, instruction, List.headD_cons]
  rfl

theorem parserProcessContent_end {p : Parser} (white : Blank p.curPtr) :
    Finds (parserProcessContent errorChar p) .none p [] p.state := by
  have skipped : parserSkipWhiteSpaces p.curPtr = [] := by
    have whole := parserSkipWhiteSpaces_blank white (s := []) (by decide)
    rwa [List.append_nil] at whole
  refine ⟨⟨[], p.curPtr, p.lastElem, p.tokenBuf, p.state⟩, rfl, rfl, ?_⟩
  unfold parserProcessContent
  simp only [skipped]
  rfl

theorem copyWithEscape_blank {value : List UInt8} : Blank (copyWithEscape value) ↔ Blank value := by
  have one (b : UInt8) : (∀ c ∈ escapeOctet b, WHITESPACE.contains c = true) ↔ WHITESPACE.contains b = true := by
    revert b
    apply forall_byte
    decide +kernel
  constructor
  · intro white b member
    exact (one b).mp fun c inside => white c (List.mem_flatMap.mpr ⟨b, member, inside⟩)
  · intro white c member
    obtain ⟨b, inside, here⟩ := List.mem_flatMap.mp member
    exact (one b).mpr (white b inside) c here

theorem contentEnd_clean {text : List UInt8} (noLess : 60 ∉ text) (noGreater : 62 ∉ text) (s : List UInt8) :
    contentEnd (text ++ 60 :: s) = 60 :: s := by
  induction text with
  | nil =>
    rw [List.nil_append, contentEnd]
    rfl
  | cons c text ih =>
    have noEnd : startsWith (c :: (text ++ 60 :: s)) (bytes "]]>") = false := by
      rw [Bool.eq_false_iff, ne_eq, startsWith_iff (by decide)]
      intro start
      have inside := (@prefix_sep 60 (bytes "]]>") (c :: text) (by decide) s).mp start
      have greater : (62 : UInt8) ∈ bytes "]]>" := by decide
      exact noGreater (inside.subset greater)
    have other : c ≠ 60 := fun less => noLess (less ▸ List.mem_cons_self)
    rw [List.cons_append, contentEnd, noEnd]
    simp only [other, decide_false, Bool.or_self, Bool.false_eq_true, if_false]
    exact ih (fun member => noLess (List.mem_cons_of_mem _ member))
      (fun member => noGreater (List.mem_cons_of_mem _ member))

theorem dropWhile_head {α : Type} {f : α → Bool} {s : List α} (some : ¬∀ c ∈ s, f c = true) (t : List α) :
    ∃ c rest, (s ++ t).dropWhile f = c :: rest ∧ c ∈ s ∧ f c = false := by
  induction s with
  | nil => exact absurd (by simp) some
  | cons d s ih =>
    cases test : f d with
    | false => exact ⟨d, s ++ t, by simp [test], List.mem_cons_self, test⟩
    | true =>
      have later : ¬∀ c ∈ s, f c = true := by
        intro all
        refine some (fun c member => ?_)
        cases member with
        | head => exact test
        | tail _ inside => exact all c inside
      obtain ⟨c, rest, found, inside, stops⟩ := ih later
      exact ⟨c, rest, by simpa [test] using found, List.mem_cons_of_mem _ inside, stops⟩

theorem parserProcessContent_text {p : Parser} {chars : List Int} {s : List UInt8}
    (readable : ∀ c ∈ chars, Readable errorChar c) (visible : ¬Blank (encode chars))
    (here : p.curPtr = copyWithEscape (encode chars) ++ 60 :: s) :
    Finds (parserProcessContent errorChar p) (.text (encode chars)) p (60 :: s) p.state := by
  have dark : ¬Blank (copyWithEscape (encode chars)) := fun white => visible (copyWithEscape_blank.mp white)
  obtain ⟨c, rest, skipped, member, -⟩ := dropWhile_head dark (60 :: s)
  change parserSkipWhiteSpaces (copyWithEscape (encode chars) ++ 60 :: s) = c :: rest at skipped
  rw [← here] at skipped
  have noLess : c ≠ 60 := (copyWithEscape_clean _ c member).1
  have stop : contentEnd p.curPtr = 60 :: s := by
    have clean := copyWithEscape_clean (encode chars)
    rw [here]
    exact contentEnd_clean (fun member => (clean 60 member).1 rfl) (fun member => (clean 62 member).2.1 rfl) s
  have noEnd : startsWith (60 :: s) (bytes "]]>") = false := by
    rw [Bool.eq_false_iff, ne_eq, startsWith_iff (by decide)]
    intro start
    exact absurd (List.cons_prefix_cons.mp start).1 (by decide)
  have size : p.curPtr.length - (60 :: s).length = (copyWithEscape (encode chars)).length := by
    rw [here, List.length_append, Nat.add_sub_cancel]
  have some : (copyWithEscape (encode chars)).length ≠ 0 := by
    intro empty
    rw [List.length_eq_zero_iff.mp empty] at dark
    exact dark .nil
  have value : encode chars ≠ [] := by
    intro empty
    rw [empty] at visible
    exact visible .nil
  have copies := @copyLoop_escaped errorChar chars readable (60 :: s) []
  rw [← here, List.nil_append] at copies
  have behind : p.curPtr.drop (copyWithEscape (encode chars)).length = 60 :: s := by
    rw [here, List.drop_left]
  refine ⟨⟨60 :: s, p.curPtr, p.lastElem, encode chars, p.state⟩, rfl, rfl, ?_⟩
  unfold parserProcessContent
  simp only [skipped, List.cons_ne_nil, if_false, List.headD_cons, noLess, stop, noEnd, Bool.false_eq_true, size,
    parserCopyToken, some, copies, bind, Except.bind, pure, Except.pure, Bool.not_true, value, decide_false,
    Bool.or_self, behind]
  rfl

structure CData (value : List UInt8) : Prop where
  nonempty : value ≠ []
  ascii : ∀ b ∈ value, (b ≤ 127 && parserIsXmlChar b.toNat) = true
  open_ : ¬bytes "]]>" <:+: value

theorem endMark_outside {c : UInt8} {value : List UInt8} (open_ : ¬bytes "]]>" <:+: c :: value) (s : List UInt8) :
    ¬bytes "]]>" <+: c :: (value ++ (bytes "]]>" ++ s)) := by
  intro start
  cases value with
  | nil => exact absurd start (by simp [bytes, List.cons_prefix_cons])
  | cons d value =>
    cases value with
    | nil => exact absurd start (by simp [bytes, List.cons_prefix_cons])
    | cons e value =>
      have first := List.cons_prefix_cons.mp start
      have second := List.cons_prefix_cons.mp first.2
      have third := List.cons_prefix_cons.mp second.2
      refine open_ ?_
      rw [← first.1, ← second.1, ← third.1]
      exact ⟨[], value, rfl⟩

theorem cdataEnd_printed {value : List UInt8}
    (ascii : ∀ b ∈ value, (b ≤ 127 && parserIsXmlChar b.toNat) = true) (open_ : ¬bytes "]]>" <:+: value)
    (s : List UInt8) : cdataEnd (value ++ (bytes "]]>" ++ s)) = bytes "]]>" ++ s := by
  induction value with
  | nil => rfl
  | cons c value ih =>
    have noEnd : startsWith (c :: (value ++ (bytes "]]>" ++ s))) (bytes "]]>") = false := by
      rw [Bool.eq_false_iff, ne_eq, startsWith_iff (by decide)]
      exact endMark_outside open_ s
    rw [List.cons_append, cdataEnd, noEnd, ascii c List.mem_cons_self]
    exact ih (fun d member => ascii d (List.mem_cons_of_mem _ member))
      fun inside => open_ (inside.trans (List.suffix_cons c value).isInfix)

theorem parserProcessContent_cdata {p : Parser} {blank value s : List UInt8} (white : Blank blank)
    (cdata : CData value) (here : p.curPtr = blank ++ (bytes "<![CDATA[" ++ (value ++ (bytes "]]>" ++ s)))) :
    Finds (parserProcessContent errorChar p) (.cdataSection value) p s p.state := by
  have skipped : parserSkipWhiteSpaces p.curPtr = bytes "<![CDATA[" ++ (value ++ (bytes "]]>" ++ s)) := by
    rw [here]
    exact parserSkipWhiteSpaces_blank white (by change WHITESPACE.contains 60 = false; decide)
  have start : startsWith (bytes "<![CDATA[" ++ (value ++ (bytes "]]>" ++ s))) (bytes "<![CDATA[") = true :=
    (startsWith_iff (by decide) _).mpr (List.prefix_append _ _)
  have section_ : parserProcessCDSect (bytes "<![CDATA[" ++ (value ++ (bytes "]]>" ++ s))) = .ok (value, s) := by
    have some : 0 < value.length := List.length_pos_iff.mpr cdata.nonempty
    have size : (value ++ (bytes "]]>" ++ s)).length - (bytes "]]>" ++ s).length = value.length := by
      rw [List.length_append, Nat.add_sub_cancel]
    unfold parserProcessCDSect
    rw [List.drop_left]
    dsimp only
    rw [cdataEnd_printed cdata.ascii cdata.open_, size, List.take_left]
    have long : ¬(bytes "]]>" ++ s).length < 3 := by
      rw [List.length_append]
      change ¬3 + s.length < 3
      omega
    rw [if_neg long, if_pos (by simp [some, bytes])]
    rfl
  refine ⟨⟨s, p.curPtr, p.lastElem, p.tokenBuf, p.state⟩, rfl, rfl, ?_⟩
  unfold parserProcessContent
  simp only [skipped, start, section_]
  rfl

end Nodes

end Pupnp.Ixml
