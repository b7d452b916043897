import Pupnp.Ixml.Root
import Pupnp.Ixml.ValidNames
import Pupnp.Ixml.Walk

/-!
A document that was parsed, printed and parsed again. It is the same one, with its namespaces, exactly if the printer
loses none of its nodes.
-/

namespace Pupnp.Ixml
open CString

def PRINTED_XMLDECL : List UInt8 := bytes "<?xml version=\"1.0\"?>\r\n"

def ixmlPrintDocument (doc : Document) : List UInt8 := PRINTED_XMLDECL ++ printSiblings doc.children

/-! ### The walk over the printed nodes -/

theorem bind_built {result : Except Stop Parser} {next : Parser → Except Stop Parser}
    (same : ∀ q, next q.built = next q) : (result.map Parser.built).bind next = result.bind next := by
  cases result with
  | error stop => rfl
  | ok q => exact same q

theorem walk_attributes (attrs : List Attr) (p : Parser) (rest : List Event) :
    walkEvents p (attrs.map Attr.event ++ rest) = (attrs.foldlM enterAttribute p).bind (walkEvents · rest) := by
  induction attrs generalizing p with
  | nil => rfl
  | cons attr attrs ih =>
    rw [List.map_cons, List.cons_append, walkEvents, List.foldlM_cons]
    change ((enterAttribute p attr).map Parser.built).bind _ = ((enterAttribute p attr).bind _).bind _
    rw [bind_built fun q => walkEvents_put q _ _]
    cases enterAttribute p attr with
    | error stop => rfl
    | ok q => exact ih q

theorem tagState_attributes {attrs : List Attr} {rest : List Event} (last : tagState rest = .content) :
    tagState (attrs.map Attr.event ++ rest) = if attrs.isEmpty then .content else .attribute := by
  cases attrs with
  | nil => exact last
  | cons attr attrs => rfl

theorem tagState_nodes (nodes : List Node) {rest : List Event} (last : tagState rest = .content) :
    tagState (nodesEvents nodes ++ rest) = .content := by
  cases nodes with
  | nil =>
    rw [nodesEvents]
    exact last
  | cons node nodes =>
    rw [nodesEvents.eq_def]
    cases node <;> rfl

theorem walk_startTag (tag : Tag) (attrs : List Attr) (p : Parser) {rest : List Event} (last : tagState rest = .content) :
    walkEvents p (.startTag tag.nodeName :: (attrs.map Attr.event ++ rest)) =
      (enterStartTag p tag attrs).bind (walkEvents · rest) := by
  rw [walkEvents, tagState_attributes last]
  unfold enterStartTag enterEvent
  dsimp only
  rw [bind_built fun q => walkEvents_put q _ _]
  cases parserProcessElementName { p with state := if attrs.isEmpty then ParserState.content else .attribute } tag.nodeName
    (parserSetNodePrefixAndLocalName tag.nodeName).1 (parserSetNodePrefixAndLocalName tag.nodeName).2 with
  | error stop => rfl
  | ok q => exact walk_attributes attrs q rest

theorem walk_siblings {nodes : List Node} (printable : Printable (nodesContent nodes)) :
    ∀ (p : Parser) {rest : List Event}, tagState rest = .content →
      walkEvents p (nodesEvents nodes ++ rest) = (enterSiblings p nodes).bind (walkEvents · rest) := by
  induction nodes using printSiblings.induct with
  | case1 =>
    intro p rest last
    rw [nodesEvents, enterSiblings]
    rfl
  | case2 nodeValue siblings =>
    intro p rest last
    rw [nodesContent, Printable] at printable
    obtain ⟨visible, alone⟩ := printable
    have none : siblings = [] := by
      cases siblings with
      | nil => rfl
      | cons node nodes => cases node <;> simp [nodesContent] at alone
    have visible' : ¬nodeValue.all WHITESPACE.contains = true := fun white => visible (List.all_eq_true.mp white)
    rw [none, nodesEvents, nodesEvents, enterSiblings, if_neg visible', List.singleton_append, walkEvents]
    exact bind_built fun q => walkEvents_put q _ _
  | case3 nodeValue siblings =>
    intro p rest last
    rw [nodesContent, Printable] at printable
    have none : siblings = [] := by
      cases siblings with
      | nil => rfl
      | cons node nodes => cases node <;> simp [nodesContent] at printable
    rw [none, nodesEvents, nodesEvents, enterSiblings, List.singleton_append, walkEvents]
    exact bind_built fun q => walkEvents_put q _ _
  | case4 tag attrs children siblings inner outer =>
    intro p rest last
    rw [nodesContent, Printable] at printable
    have behind : tagState (nodesEvents children ++ .endTag tag.nodeName :: (nodesEvents siblings ++ rest)) = .content :=
      tagState_nodes children rfl
    rw [nodesEvents, enterSiblings, List.cons_append, List.append_assoc, List.append_assoc, List.cons_append,
      walk_startTag tag attrs p behind]
    cases enterStartTag p tag attrs with
    | error stop => rfl
    | ok q =>
      change walkEvents q _ = ((enterSiblings q children).bind _).bind _
      rw [inner printable.1 q rfl]
      cases enterSiblings q children with
      | error stop => rfl
      | ok r =>
        change walkEvents r (.endTag tag.nodeName :: (nodesEvents siblings ++ rest)) =
          ((parserETagVerification r tag.nodeName).bind _).bind _
        rw [walkEvents]
        change ((parserETagVerification r tag.nodeName).map Parser.built).bind _ = _
        rw [bind_built fun q => walkEvents_put q _ _]
        cases parserETagVerification r tag.nodeName with
        | error stop => rfl
        | ok s => exact outer printable.2 s last

/-! ### The printed declaration -/

theorem parserSkipXMLDecl_printed (s : List UInt8) :
    parserSkipXMLDecl (PRINTED_XMLDECL ++ s) = (true, parserSkipWhiteSpaces (bytes "\r\n" ++ s)) := by
  have text : PRINTED_XMLDECL =
      [60, 63, 120, 109, 108, 32, 118, 101, 114, 115, 105, 111, 110, 61, 34, 49, 46, 48, 34, 63, 62, 13, 10] := by decide
  have key : END_PI = [63, 62] := by decide
  have lineEnd : bytes "\r\n" = [13, 10] := by decide
  rw [text, lineEnd]
  unfold parserSkipXMLDecl
  rw [key]
  rfl

theorem parserSkipProlog_printed {s : List UInt8} (head : WHITESPACE.contains (s.headD 0) = false)
    (noBom : startsWith s UTF8_BOM = false) (noDecl : startsWith s XMLDECL = false) :
    parserSkipProlog (PRINTED_XMLDECL ++ s) = parserSkipProlog s := by
  have lineEnd : Blank (bytes "\r\n") := blank_lineEnd
  have declared : startsWith (PRINTED_XMLDECL ++ s) XMLDECL = true :=
    (startsWith_iff (by decide) _).mpr (List.IsPrefix.trans (by decide) (List.prefix_append PRINTED_XMLDECL s))
  have bom : parserSkipBom (PRINTED_XMLDECL ++ s) = PRINTED_XMLDECL ++ s := by
    unfold parserSkipBom
    rw [if_neg]
    rw [startsWith_iff (by decide)]
    intro start
    have text : PRINTED_XMLDECL = 60 :: PRINTED_XMLDECL.tail := by decide
    rw [text] at start
    exact absurd (List.cons_prefix_cons.mp start).1 (by decide)
  have first : parserSkipWhiteSpaces (PRINTED_XMLDECL ++ s) = PRINTED_XMLDECL ++ s :=
    parserSkipWhiteSpaces_head (by
      have text : PRINTED_XMLDECL = 60 :: PRINTED_XMLDECL.tail := by decide
      rw [text]
      change WHITESPACE.contains 60 = false
      decide)
  have space : parserSkipWhiteSpaces s = s := parserSkipWhiteSpaces_head head
  have bom' : parserSkipBom s = s := by
    unfold parserSkipBom
    rw [noBom]
    rfl
  have behind : parserSkipWhiteSpaces (bytes "\r\n" ++ s) = s := parserSkipWhiteSpaces_blank lineEnd head
  unfold parserSkipProlog
  simp only [bom, first, declared, if_true, parserSkipXMLDecl_printed, behind, bom', space, noDecl, Bool.false_eq_true,
    if_false]

/-! ### Documents -/

theorem nodesEvents_content {nodes nodes' : List Node} (same : nodesContent nodes = nodesContent nodes') :
    nodesEvents nodes = nodesEvents nodes' := by
  induction nodes using nodesEvents.induct generalizing nodes' with
  | case1 =>
    cases nodes' with
    | nil => rfl
    | cons node others => cases node <;> simp [nodesContent] at same
  | case2 nodeValue rest ih | case3 nodeValue rest ih =>
    cases nodes' with
    | nil => simp [nodesContent] at same
    | cons node others =>
      cases node <;>
        simp only [nodesContent, List.cons.injEq, reduceCtorEq, false_and, Content.text.injEq,
          Content.cdataSection.injEq] at same
      rw [nodesEvents, nodesEvents, same.1, ih same.2]
  | case4 tag attrs children rest inner outer =>
    cases nodes' with
    | nil => simp [nodesContent] at same
    | cons node others =>
      cases node <;> simp only [nodesContent, List.cons.injEq, reduceCtorEq, false_and, Content.element.injEq] at same
      next tag' attrs' children' =>
        obtain ⟨⟨name, attributes, below⟩, beside⟩ := same
        have events : attrs.map Attr.event = attrs'.map Attr.event := by
          have mapped := congrArg (List.map fun pair : List UInt8 × List UInt8 => Event.attribute pair.1 pair.2) attributes
          rwa [List.map_map, List.map_map] at mapped
        rw [nodesEvents, nodesEvents, name, events, inner below, outer beside]

section Documents
variable {errorChar : Int} {buffer : List UInt8} {doc : Document}

theorem ixmlParseBufferEx_printed_tag {c : UInt8} {s : List UInt8} (noQuestion : c ≠ 63) :
    ixmlParseBufferEx errorChar (PRINTED_XMLDECL ++ 60 :: c :: s) = ixmlParseBufferEx errorChar (60 :: c :: s) := by
  have noDecl : startsWith (60 :: c :: s) XMLDECL = false := by
    rw [Bool.eq_false_iff, ne_eq, startsWith_iff (by decide)]
    intro start
    exact noQuestion (List.cons_prefix_cons.mp (List.cons_prefix_cons.mp start).2).1.symm
  have noBom : startsWith (60 :: c :: s) UTF8_BOM = false := by
    rw [Bool.eq_false_iff, ne_eq, startsWith_iff (by decide)]
    exact fun start => absurd (List.cons_prefix_cons.mp start).1 (by decide)
  have skipped := @parserSkipProlog_printed (60 :: c :: s) (by change WHITESPACE.contains 60 = false; decide) noBom noDecl
  unfold ixmlParseBufferEx parserParseDocument
  rw [if_neg (by simp [PRINTED_XMLDECL, bytes]), if_neg (List.cons_ne_nil _ _), skipped]

theorem ixmlParseBufferEx_empty (parsed : ixmlParseBufferEx errorChar buffer = .ok doc) (none_ : doc.children = []) :
    doc = ⟨[], fun _ => none⟩ := by
  obtain ⟨last, walked, -, rfl⟩ := ixmlParseBufferEx_walk parsed
  change last.children = [] at none_
  dsimp only at walked
  rw [none_, nodesEvents] at walked
  cases walked
  rfl

theorem ixmlPrintDocument_empty (errorChar : Int) :
    ixmlParseBufferEx errorChar (ixmlPrintDocument ⟨[], fun _ => none⟩) = .ok ⟨[], fun _ => none⟩ := by
  have skipped := @parserSkipProlog_printed [] (by decide) (by decide) (by decide)
  have none_ : parserSkipProlog [] = some [] := by decide +kernel
  have stop : parserLoop errorChar (parserInit []) = .ok (parserInit []) := by
    apply parserLoop_done
    unfold parserRound parserGetNextNode
    rw [if_pos (by rfl)]
  unfold ixmlPrintDocument ixmlParseBufferEx parserParseDocument
  dsimp only
  rw [printSiblings, if_neg (by simp [PRINTED_XMLDECL, bytes]), skipped, none_]
  dsimp only
  rw [stop]
  rfl

def onlyElement (nodeName : List UInt8) («attribute» : List UInt8 × List UInt8) (doc : Document) : Bool :=
  match doc.children with
  | [.element tag [attr] []] => tag.nodeName = nodeName && attr.content = «attribute»
  | _ => false

theorem parsed_only {nodeName : List UInt8} {«attribute» : List UInt8 × List UInt8}
    (plain : (ixmlParseBufferEx errorChar buffer).toOption.any (onlyElement nodeName «attribute») = true) :
    ∃ doc tag attr, ixmlParseBufferEx errorChar buffer = .ok doc ∧ doc.children = [.element tag [attr] []] ∧
      tag.nodeName = nodeName ∧ attr.content = «attribute» := by
  cases parsed : ixmlParseBufferEx errorChar buffer with
  | error stop =>
    rw [parsed] at plain
    cases plain
  | ok doc =>
    rw [parsed] at plain
    change onlyElement nodeName «attribute» doc = true at plain
    unfold onlyElement at plain
    split at plain
    next tag attr listed =>
      rw [Bool.and_eq_true, decide_eq_true_eq, decide_eq_true_eq] at plain
      exact ⟨doc, tag, attr, rfl, listed, plain⟩
    next => cases plain

theorem ixmlPrintDocument_walked (char_ : errorChar ≤ 127) (parsed : ixmlParseBufferEx errorChar buffer = .ok doc) :
    (∀ stop, enterSiblings (parserInit []) doc.children = .error stop →
      ∃ stop', ixmlParseBufferEx errorChar (ixmlPrintDocument doc) = .error stop') ∧
    ∀ q, enterSiblings (parserInit []) doc.children = .ok q →
      ixmlParseBufferEx errorChar (ixmlPrintDocument doc) = .ok ⟨q.children, q.namespaceURI⟩ ∧
        nodesContent q.children = kept (nodesContent doc.children) := by
  obtain ⟨few, elements⟩ := ixmlParseBufferEx_root parsed
  have readable := ixmlParseBufferEx_read char_ parsed
  cases listed : doc.children with
  | nil =>
    rw [ixmlParseBufferEx_empty parsed listed, enterSiblings, ixmlPrintDocument_empty]
    refine ⟨fun _ ended => (by cases ended), ?_⟩
    rintro q ⟨⟩
    exact ⟨rfl, by simp [parserInit, nodesContent, kept]⟩
  | cons node more =>
    have alone : more = [] := by
      rw [listed, List.length_cons] at few
      exact List.eq_nil_of_length_eq_zero (by omega)
    subst alone
    have element := elements node (by rw [listed]; exact List.mem_singleton_self node)
    cases node with
    | text nodeValue | cdataSection nodeValue => cases element
    | element tag attrs children =>
      rw [listed] at readable
      have text : NameText tag.nodeName := by
        rw [NodesRead] at readable
        exact readable.1
      have whole : printSiblings [.element tag attrs children] = printStartTag tag attrs children ++
          (printSiblings children ++ 60 :: 47 :: (tag.nodeName ++ 62 :: bytes "\r\n")) := by
        simp [printSiblings, printEndTag, bytes]
      obtain ⟨c, s, first, -, noQuestion⟩ := name_cons text (tagTail attrs (childBlank children ++
        (printSiblings children ++ 60 :: 47 :: (tag.nodeName ++ 62 :: bytes "\r\n"))))
      have head : printSiblings [.element tag attrs children] = 60 :: c :: s := by
        rw [whole, printStartTag_eq, first]
      have print : ixmlParseBufferEx errorChar (ixmlPrintDocument doc) =
          ixmlParseBufferEx errorChar (printSiblings [.element tag attrs children]) := by
        rw [ixmlPrintDocument, listed, head]
        exact ixmlParseBufferEx_printed_tag noQuestion
      rw [print]
      exact element_parsed readable blank_lineEnd whole

theorem ixmlPrintDocument_content (char_ : errorChar ≤ 127) (parsed : ixmlParseBufferEx errorChar buffer = .ok doc)
    {doc' : Document} (again : ixmlParseBufferEx errorChar (ixmlPrintDocument doc) = .ok doc') :
    nodesContent doc'.children = kept (nodesContent doc.children) := by
  obtain ⟨fails, succeeds⟩ := ixmlPrintDocument_walked char_ parsed
  cases entered : enterSiblings (parserInit []) doc.children with
  | error stop =>
    obtain ⟨stop', failed⟩ := fails stop entered
    rw [failed] at again
    cases again
  | ok q =>
    obtain ⟨read, left⟩ := succeeds q entered
    rw [read] at again
    cases again
    exact left

theorem ixmlPrintDocument_printable (char_ : errorChar ≤ 127) (parsed : ixmlParseBufferEx errorChar buffer = .ok doc)
    (printable : Printable (nodesContent doc.children)) :
    ixmlParseBufferEx errorChar (ixmlPrintDocument doc) = .ok doc := by
  obtain ⟨last, walked, -, same⟩ := ixmlParseBufferEx_walk parsed
  have beside := @walk_siblings _ printable (parserInit []) [] rfl
  rw [List.append_nil, walked] at beside
  obtain ⟨q, entered, ended⟩ := bind_ok beside.symm
  rw [((ixmlPrintDocument_walked char_ parsed).2 q entered).1]
  cases ended
  rw [same]
  rfl

/-- A parsed document is what its own print is parsed to, exactly if no text in it is blank and no node stands behind
a text or a CDATA section among its siblings. -/
theorem ixmlPrintDocument_parsed (char_ : errorChar ≤ 127) (parsed : ixmlParseBufferEx errorChar buffer = .ok doc) :
    ixmlParseBufferEx errorChar (ixmlPrintDocument doc) = .ok doc ↔ Printable (nodesContent doc.children) :=
  ⟨fun again => (kept_eq_iff _).mp (ixmlPrintDocument_content char_ parsed again).symm,
    ixmlPrintDocument_printable char_ parsed⟩

/-- The document `<a x="1"></a>`, printed and parsed again. -/
theorem ixmlPrintDocument_parsed_element : ∃ doc,
    ixmlParseBufferEx 0 (bytes "<a x=\"1\"></a>") = .ok doc ∧ ixmlParseBufferEx 0 (ixmlPrintDocument doc) = .ok doc := by
  obtain ⟨doc, tag, attr, parsed, listed, -⟩ :=
    @parsed_only 0 (bytes "<a x=\"1\"></a>") (bytes "a") (bytes "x", bytes "1") (by decide +kernel)
  exact ⟨doc, parsed, (ixmlPrintDocument_parsed (by decide) parsed).mpr (by simp [listed, nodesContent, Printable])⟩

theorem kept_printable (nodes : List Content) : Printable (kept nodes) := by
  induction nodes using kept.induct with
  | case1 => simp [kept, Printable]
  | case2 nodeValue rest white => simp [kept, Printable, white]
  | case3 nodeValue rest visible =>
    rw [kept, if_neg visible, Printable]
    exact ⟨fun blank => visible (List.all_eq_true.mpr blank), rfl⟩
  | case4 nodeValue rest => simp [kept, Printable]
  | case5 nodeName attributes childNodes rest inner outer => simp [kept, Printable, inner, outer]

/-- The print loses something once at most: what it is parsed to is what the print of that is parsed to. -/
theorem ixmlPrintDocument_stable (char_ : errorChar ≤ 127) (parsed : ixmlParseBufferEx errorChar buffer = .ok doc)
    {doc' : Document} (again : ixmlParseBufferEx errorChar (ixmlPrintDocument doc) = .ok doc') :
    ixmlParseBufferEx errorChar (ixmlPrintDocument doc') = .ok doc' := by
  have content := ixmlPrintDocument_content char_ parsed again
  exact ixmlPrintDocument_printable char_ again (content ▸ kept_printable _)

theorem ixmlPrintDocument_stable_element : ∃ doc doc', ixmlParseBufferEx 0 (bytes "<a x=\"1\"></a>") = .ok doc ∧
    ixmlParseBufferEx 0 (ixmlPrintDocument doc) = .ok doc' ∧ ixmlParseBufferEx 0 (ixmlPrintDocument doc') = .ok doc' := by
  obtain ⟨doc, tag, attr, parsed, listed, -⟩ :=
    @parsed_only 0 (bytes "<a x=\"1\"></a>") (bytes "a") (bytes "x", bytes "1") (by decide +kernel)
  have again := @ixmlPrintDocument_printable 0 _ doc (by decide) parsed (by simp [listed, nodesContent, Printable])
  exact ⟨doc, doc, parsed, again, ixmlPrintDocument_stable (by decide) parsed again⟩

/-- Two texts with the same elements, attributes, texts and CDATA sections are parsed to the same document, whatever else
is in them: its nodes are created in the same order and have the same namespaces. -/
theorem ixmlParseBufferEx_content {errorChar' : Int} {buffer' : List UInt8} {doc' : Document}
    (parsed : ixmlParseBufferEx errorChar buffer = .ok doc) (parsed' : ixmlParseBufferEx errorChar' buffer' = .ok doc')
    (same : nodesContent doc.children = nodesContent doc'.children) : doc = doc' := by
  obtain ⟨last, walked, -, whole⟩ := ixmlParseBufferEx_walk parsed
  obtain ⟨last', walked', -, whole'⟩ := ixmlParseBufferEx_walk parsed'
  rw [nodesEvents_content same, walked'] at walked
  rw [whole, whole', Except.ok.inj walked]

/-- The document `<a x="1"></a>`, and another text for it. -/
theorem ixmlParseBufferEx_content_declared : ∃ doc doc',
    ixmlParseBufferEx 0 (bytes "<a x=\"1\"></a>") = .ok doc ∧
      ixmlParseBufferEx 0 (bytes " <a x = '&#49;' />") = .ok doc' ∧ doc = doc' := by
  obtain ⟨doc, tag, attr, parsed, listed, name, value⟩ :=
    @parsed_only 0 (bytes "<a x=\"1\"></a>") (bytes "a") (bytes "x", bytes "1") (by decide +kernel)
  obtain ⟨doc', tag', attr', parsed', listed', name', value'⟩ :=
    @parsed_only 0 (bytes " <a x = '&#49;' />") (bytes "a") (bytes "x", bytes "1") (by decide +kernel)
  refine ⟨doc, doc', parsed, parsed', ixmlParseBufferEx_content parsed parsed' ?_⟩
  simp [listed, listed', nodesContent, name, name', value, value']

end Documents

end Pupnp.Ixml
