import Pupnp.Ixml.Token

/-! What one round of the parser can do: to its text, to the nodes and to the open elements. -/

namespace Pupnp.Ixml
open CString

/-- The part of an open element that becomes its node. -/
def Open.node (o : Open) : Tag × List Attr × List Node := (o.tag, o.attrs, o.children)

structure SameNodes (p p' : Parser) : Prop where
  suffix : p'.curPtr <:+ p.curPtr
  nodes : p'.open_.map Open.node = p.open_.map Open.node
  children : p'.children = p.children
  created : p'.created = p.created
  topLevel : p'.bHasTopLevel = p.bHasTopLevel

theorem SameNodes.trans {p q r : Parser} (first : SameNodes p q) (second : SameNodes q r) : SameNodes p r where
  suffix := second.suffix.trans first.suffix
  nodes := second.nodes.trans first.nodes
  children := second.children.trans first.children
  created := second.created.trans first.created
  topLevel := second.topLevel.trans first.topLevel

theorem SameNodes.moved (p : Parser) {curPtr : List UInt8} (later : curPtr <:+ p.curPtr)
    (savePtr lastElem tokenBuf : List UInt8) (state : ParserState) :
    SameNodes p { p with
      curPtr := curPtr
      savePtr := savePtr
      lastElem := lastElem
      tokenBuf := tokenBuf
      state := state } :=
  ⟨later, rfl, rfl, rfl, rfl⟩

section Reads
variable {errorChar : Int}

theorem parserProcessSTag_spec {p p' : Parser} {node : NewNode}
    (read : parserProcessSTag errorChar p = .ok (node, p')) :
    SameNodes p p' ∧ p'.curPtr.length < p.curPtr.length ∧
      ∃ nodeName prefixName localName, node = .startTag nodeName prefixName localName := by
  unfold parserProcessSTag at read
  obtain ⟨n, curPtr, tokenBuf, savePtr, name, same⟩ := @tokenStep_spec errorChar p
  simp only [parserGetNextToken_eq, same, bind, Except.bind] at read
  split at read
  next => cases read
  next some =>
    obtain ⟨n', curPtr', tokenBuf', savePtr', next, same'⟩ := @tokenStep_spec errorChar
      { p with curPtr := curPtr, tokenBuf := tokenBuf, savePtr := curPtr, lastElem := tokenBuf }
    simp only [same'] at read
    split at read
    next => cases read
    next =>
      have back : savePtr' <:+ curPtr := by
        cases next.saved with
        | inl kept => exact kept ▸ List.suffix_refl _
        | inr moved => exact moved
      have shorter := name.shorter
      have inside := back.length_le
      have inside' := next.suffix.length_le
      dsimp only at inside'
      cases read
      split_ifs
      · exact ⟨.moved p (back.trans name.suffix) _ _ _ _, by dsimp only; omega, _, _, _, rfl⟩
      · exact ⟨.moved p (next.suffix.trans name.suffix) _ _ _ _, by dsimp only; omega, _, _, _, rfl⟩
      · exact ⟨.moved p (back.trans name.suffix) _ _ _ _, by dsimp only; omega, _, _, _, rfl⟩

theorem parserProcessETag_spec {p p' : Parser} {node : NewNode}
    (read : parserProcessETag errorChar p = .ok (node, p')) :
    SameNodes p p' ∧ p'.curPtr.length < p.curPtr.length ∧ ∃ nodeName, node = .endTag nodeName := by
  unfold parserProcessETag at read
  obtain ⟨n, curPtr, tokenBuf, savePtr, name, same⟩ := @tokenStep_spec errorChar p
  simp only [parserGetNextToken_eq, same, bind, Except.bind] at read
  split at read
  next => cases read
  next some =>
    have skipped := parserSkipWhiteSpaces_suffix curPtr
    obtain ⟨n', curPtr', tokenBuf', savePtr', next, same'⟩ := @tokenStep_spec errorChar
      { p with curPtr := parserSkipWhiteSpaces curPtr, tokenBuf := tokenBuf, savePtr := savePtr }
    simp only [same'] at read
    split at read
    next => cases read
    next =>
      have shorter := name.shorter
      have inside := skipped.length_le
      have inside' := next.suffix.length_le
      dsimp only at inside'
      cases read
      exact ⟨.moved p ((next.suffix.trans skipped).trans name.suffix) _ _ _ _, by dsimp only; omega, _, rfl⟩

theorem parserProcessETag_none {p : Parser} (none : (tokenStep errorChar p).1 = 0) :
    parserProcessETag errorChar p = .error .syntaxErr := by
  unfold parserProcessETag
  simp only [parserGetNextToken_eq, bind, Except.bind, none, if_true]

theorem contentEnd_split (s : List UInt8) : ∃ chunk, s = chunk ++ contentEnd s ∧ 60 ∉ chunk := by
  induction s with
  | nil => exact ⟨[], rfl, by simp⟩
  | cons c rest ih =>
    unfold contentEnd
    split
    next => exact ⟨[], rfl, by simp⟩
    next more =>
      obtain ⟨chunk, whole, inside⟩ := ih
      simp only [Bool.or_eq_true, decide_eq_true_eq, not_or] at more
      refine ⟨c :: chunk, by rw [List.cons_append, ← whole], ?_⟩
      simp only [List.mem_cons, not_or]
      exact ⟨Ne.symm more.1, inside⟩

theorem cdataEnd_suffix (s : List UInt8) : cdataEnd s <:+ s := by
  induction s with
  | nil => exact List.suffix_refl _
  | cons c rest ih =>
    unfold cdataEnd
    split
    next => exact List.suffix_refl _
    next => exact ih.trans (List.suffix_cons c rest)

theorem parserProcessCDSect_spec {src nodeValue rest : List UInt8}
    (read : parserProcessCDSect src = .ok (nodeValue, rest)) :
    rest <:+ src ∧ rest.length < src.length := by
  unfold parserProcessCDSect at read
  dsimp only at read
  have start := List.drop_suffix (bytes "<![CDATA[").length src
  have inside := cdataEnd_suffix (src.drop (bytes "<![CDATA[").length)
  split at read
  next some =>
    simp only [Bool.and_eq_true, decide_eq_true_eq] at some
    split at read
    next => cases read
    next =>
      cases read
      have whole := start.length_le
      refine ⟨(List.drop_suffix _ _).trans (inside.trans start), ?_⟩
      rw [List.length_drop]
      omega
  next => cases read

theorem parserSkipPI_spec {s rest : List UInt8} (start : startsWith s BEGIN_PI = true)
    (skipped : parserSkipPI s = some rest) : rest <:+ s ∧ rest.length < s.length := by
  obtain ⟨t, whole⟩ := (startsWith_iff (by decide) s).mp start
  have cased : startsCaseWith s BEGIN_PI = true := by
    rw [← whole]
    rfl
  unfold parserSkipPI at skipped
  rw [cased] at skipped
  split at skipped
  next => cases skipped
  next =>
    rw [if_pos rfl] at skipped
    split at skipped
    next => cases skipped
    next pEnd found =>
      split at skipped
      next =>
        cases skipped
        have some : 0 < s.length := by
          rw [← whole, List.length_append]
          exact Nat.lt_of_lt_of_le Nat.two_pos (Nat.le_add_right _ _)
        refine ⟨List.drop_suffix _ _, ?_⟩
        rw [List.length_drop]
        change _ - (pEnd + 2) < _
        omega
      next => cases skipped

theorem parserCopyToken_spec {p p' : Parser} {src : List UInt8} {len : Nat} {done : Bool}
    (copied : parserCopyToken errorChar p src len = .ok (done, p')) :
    ∃ text, p' = { p with tokenBuf := text } ∧
      (done = true → len ≠ 0 ∧ copyLoop errorChar src len p.tokenBuf = .ok (true, text)) := by
  unfold parserCopyToken at copied
  split at copied
  next =>
    cases copied
    exact ⟨p.tokenBuf, rfl, nofun⟩
  next some =>
    cases run : copyLoop errorChar src len p.tokenBuf with
    | error stop =>
      rw [run] at copied
      cases copied
    | ok result =>
      rw [run] at copied
      cases copied
      exact ⟨result.2, rfl, fun success => ⟨some, by rw [← success]⟩⟩

def Parser.measure (p : Parser) : Nat := 2 * p.curPtr.length + if p.state = .content then 1 else 0

def CopiedText (errorChar : Int) (s rest nodeValue : List UInt8) : Prop :=
  ∃ chunk, s = chunk ++ rest ∧ 60 ∉ chunk ∧ copyLoop errorChar s chunk.length [] = .ok (true, nodeValue)

theorem parserProcessContent_spec {p p' : Parser} {node : NewNode} (more : p.curPtr ≠ [])
    (content : p.state = .content) (read : parserProcessContent errorChar p = .ok (node, p')) :
    SameNodes p p' ∧ p'.measure < p.measure ∧
      (node = .none ∨ (∃ nodeValue, node = .cdataSection nodeValue) ∨
        ∃ nodeValue, node = .text nodeValue ∧ CopiedText errorChar p.curPtr p'.curPtr nodeValue) := by
  have skipped := parserSkipWhiteSpaces_suffix p.curPtr
  have inside := skipped.length_le
  have positive := List.length_pos_iff.mpr more
  unfold parserProcessContent at read
  dsimp only at read
  split at read
  next ended =>
    cases read
    refine ⟨.moved p skipped _ _ _ _, ?_, .inl rfl⟩
    simp only [Parser.measure, ended, content, List.length_nil]
    omega
  next some =>
    split at read
    next less =>
      split at read
      next cdata =>
        split at read
        next => cases read
        next nodeValue rest section_ =>
          cases read
          obtain ⟨later, shorter⟩ := parserProcessCDSect_spec section_
          refine ⟨.moved p (later.trans skipped) _ _ _ _, ?_, .inr (.inl ⟨_, rfl⟩)⟩
          simp only [Parser.measure]
          omega
      next =>
        split at read
        next comment =>
          split at read
          next => cases read
          next rest section_ =>
            cases read
            obtain ⟨later, shorter⟩ := parserSkipComment_suffix section_
            refine ⟨.moved p (later.trans skipped) _ _ _ _, ?_, .inl rfl⟩
            simp only [Parser.measure]
            omega
        next =>
          split at read
          next instruction =>
            split at read
            next => cases read
            next rest section_ =>
              cases read
              obtain ⟨later, shorter⟩ := parserSkipPI_spec instruction section_
              refine ⟨.moved p (later.trans skipped) _ _ _ _, ?_, .inl rfl⟩
              simp only [Parser.measure]
              omega
          next =>
            cases read
            refine ⟨.moved p skipped _ _ _ _, ?_, .inl rfl⟩
            simp only [Parser.measure, content, if_true, reduceCtorEq, if_false]
            omega
    next =>
      split at read
      next => cases read
      next =>
        obtain ⟨chunk, whole, outside⟩ := contentEnd_split p.curPtr
        have size : p.curPtr.length - (contentEnd p.curPtr).length = chunk.length := by
          have sum := congrArg List.length whole
          rw [List.length_append] at sum
          omega
        rw [size] at read
        simp only [bind, Except.bind] at read
        split at read
        next => cases read
        next copied run =>
          obtain ⟨done, p₁⟩ := copied
          obtain ⟨text, rfl, success⟩ := parserCopyToken_spec run
          dsimp only at read success
          split at read
          next => cases read
          next good =>
            simp only [Bool.or_eq_true, Bool.not_eq_true', decide_eq_true_eq, not_or,
              Bool.not_eq_false] at good
            obtain ⟨some, copies⟩ := success good.1
            have behind : p.curPtr.drop chunk.length = contentEnd p.curPtr := by
              conv_lhs => rw [whole]
              exact List.drop_left
            cases read
            refine ⟨.moved p (List.drop_suffix _ _) _ _ _ _, ?_, .inr (.inr ⟨_, rfl, chunk, ?_, outside, copies⟩)⟩
            · simp only [Parser.measure, List.length_drop]
              omega
            · dsimp only
              rw [behind]
              exact whole

theorem parserAddNamespace_spec {p p' : Parser} {pNode : Tag} {pCur : ElementStack}
    (added : parserAddNamespace p pNode pCur = .ok p') :
    ∃ uris need, p' = { p with namespaceURI := uris, pNeedPrefixNode := need } := by
  unfold parserAddNamespace at added
  split at added
  next =>
    split at added
    next => cases added
    next =>
      cases added
      exact ⟨_, _, rfl⟩
  next =>
    split at added
    next => cases added
    next =>
      split at added
      next => cases added
      next =>
        split at added
        next =>
          cases added
          exact ⟨_, _, rfl⟩
        next =>
          cases added
          exact ⟨p.namespaceURI, p.pNeedPrefixNode, rfl⟩

theorem parserXmlNamespace_spec {p p' : Parser} {newNode attr : Attr} {top : Open} {outer : List Open}
    (read : parserXmlNamespace p newNode top outer = .ok (attr, p')) :
    ∃ item uris need, p' = { p with
      open_ := { top with item := item } :: outer
      namespaceURI := uris
      pNeedPrefixNode := need } := by
  unfold parserXmlNamespace at read
  dsimp only at read
  split at read
  next =>
    cases read
    exact ⟨_, _, _, rfl⟩
  next pNode waits =>
    simp only [bind, Except.bind] at read
    split at read
    next => cases read
    next p₁ added =>
      obtain ⟨uris, need, rfl⟩ := parserAddNamespace_spec added
      cases read
      exact ⟨_, uris, need, rfl⟩

theorem attributeValue_spec {p p' : Parser} {mark : List UInt8}
    (read : attributeValue errorChar p mark = .ok p') :
    ∃ curPtr tokenBuf, curPtr <:+ p.curPtr ∧ p' = { p with curPtr := curPtr, tokenBuf := tokenBuf } := by
  unfold attributeValue at read
  split at read
  next => cases read
  next strEndQuote found =>
    split at read
    next => cases read
    next =>
      simp only [bind, Except.bind] at read
      split at read
      next => cases read
      next copied run =>
        split at read
        next => cases read
        next =>
          cases read
          split at run
          next =>
            obtain ⟨text, same, -⟩ := parserCopyToken_spec run
            rw [same]
            exact ⟨_, _, List.drop_suffix _ _, rfl⟩
          next =>
            cases run
            exact ⟨_, _, List.drop_suffix _ _, rfl⟩

theorem attributeAhead_spec {p p' : Parser} {attr : Attr} {node : NewNode}
    (read : attributeAhead errorChar p attr = .ok (node, p')) :
    SameNodes p p' ∧ node = .attribute attr := by
  unfold attributeAhead at read
  obtain ⟨n, curPtr, tokenBuf, savePtr, next, same⟩ := @tokenStep_spec errorChar
    { p with savePtr := p.curPtr }
  simp only [parserGetNextToken_eq, same, bind, Except.bind] at read
  have back : savePtr <:+ p.curPtr := by
    cases next.saved with
    | inl kept => exact kept ▸ List.suffix_refl _
    | inr moved => exact moved
  split_ifs at read
  · cases read
    exact ⟨.moved p back _ _ _ _, rfl⟩
  · cases read
    exact ⟨.moved p next.suffix _ _ _ _, rfl⟩

theorem parserProcessAttribute_spec {p p' : Parser} {node : NewNode} {top : Open} {outer : List Open}
    (opened : p.open_ = top :: outer) (read : parserProcessAttribute errorChar p top outer = .ok (node, p')) :
    SameNodes p p' ∧ p'.curPtr.length < p.curPtr.length ∧ ∃ attr, node = .attribute attr := by
  unfold parserProcessAttribute at read
  dsimp only at read
  split at read
  next => cases read
  next =>
    obtain ⟨n, curPtr, tokenBuf, savePtr, equals, same⟩ := @tokenStep_spec errorChar p
    simp only [parserGetNextToken_eq, same, bind, Except.bind] at read
    split at read
    next => cases read
    next some =>
      obtain ⟨n', curPtr', tokenBuf', savePtr', quote, same'⟩ := @tokenStep_spec errorChar
        { p with curPtr := curPtr, tokenBuf := tokenBuf, savePtr := savePtr }
      simp only [same'] at read
      split at read
      next => cases read
      next =>
        split at read
        next => cases read
        next p₁ value =>
          obtain ⟨behind, text, later, rfl⟩ := attributeValue_spec value
          split at read
          next => cases read
          next named namespaces =>
            obtain ⟨attr, p₂⟩ := named
            obtain ⟨item, uris, need, rfl⟩ := parserXmlNamespace_spec namespaces
            obtain ⟨moved, rfl⟩ := attributeAhead_spec read
            have start : behind <:+ p.curPtr := (later.trans quote.suffix).trans equals.suffix
            have kept : SameNodes p { p with
                curPtr := behind
                savePtr := savePtr'
                tokenBuf := text
                open_ := { top with item := item } :: outer
                namespaceURI := uris
                pNeedPrefixNode := need } :=
              ⟨start, by rw [opened]; rfl, rfl, rfl, rfl⟩
            refine ⟨kept.trans moved, ?_, attr, rfl⟩
            have first := moved.suffix.length_le
            have second := later.length_le
            have third := quote.suffix.length_le
            have shorter := equals.shorter
            simp only [Bool.or_eq_true, decide_eq_true_eq, not_or] at some
            dsimp only at first second third
            omega

structure Reads (errorChar : Int) (p : Parser) (node : NewNode) (p' : Parser) : Prop where
  same : SameNodes p p'
  progress : p'.measure < p.measure
  more : node ≠ .fileDone
  ended : ∀ nodeName, node = .endTag nodeName → p'.curPtr.length < p.curPtr.length
  text : ∀ nodeValue, node = .text nodeValue → CopiedText errorChar p.curPtr p'.curPtr nodeValue

theorem Reads.shorter {p p' : Parser} {node : NewNode} (same : SameNodes p p')
    (less : p'.curPtr.length < p.curPtr.length) (more : node ≠ .fileDone)
    (noText : ∀ nodeValue, node ≠ .text nodeValue) : Reads errorChar p node p' where
  same := same
  progress := by
    unfold Parser.measure
    split_ifs <;> omega
  more := more
  ended := fun _ _ => less
  text := fun nodeValue isText => absurd isText (noText nodeValue)

theorem parserGetNextNode_spec {p p' : Parser} {node : NewNode}
    (read : parserGetNextNode errorChar p = .ok (node, p')) :
    (node = .fileDone ∧ p' = p ∧ p.curPtr = []) ∨ Reads errorChar p node p' := by
  unfold parserGetNextNode at read
  split at read
  next atEnd =>
    cases read
    exact .inl ⟨rfl, rfl, atEnd⟩
  next some =>
    right
    split at read
    next content =>
      obtain ⟨same, progress, kinds⟩ := parserProcessContent_spec some content read
      rcases kinds with rfl | ⟨_, rfl⟩ | ⟨_, rfl, copied⟩
      · exact ⟨same, progress, nofun, nofun, nofun⟩
      · exact ⟨same, progress, nofun, nofun, nofun⟩
      · refine ⟨same, progress, nofun, nofun, fun nodeValue isText => ?_⟩
        cases isText
        exact copied
    next markup =>
      have skipped := parserSkipWhiteSpaces_suffix p.curPtr
      have inside := skipped.length_le
      have positive := List.length_pos_iff.mpr some
      obtain ⟨n, curPtr, tokenBuf, savePtr, token, same⟩ := @tokenStep_spec errorChar
        { p with curPtr := parserSkipWhiteSpaces p.curPtr }
      have start : curPtr <:+ p.curPtr := token.suffix.trans skipped
      have shorter := token.shorter
      simp only [parserGetNextToken_eq, same, bind, Except.bind] at read
      dsimp only at shorter
      have moved := SameNodes.moved p start savePtr p.lastElem tokenBuf p.state
      split at read
      next ended =>
        cases read
        simp only [Bool.and_eq_true, decide_eq_true_eq] at ended
        refine ⟨moved, ?_, nofun, nofun, nofun⟩
        simp only [Parser.measure, markup, ended.2, if_false, List.length_nil]
        omega
      next =>
        split at read
        next => cases read
        next token_ =>
          by_cases none : n = 0
          · obtain ⟨text, again⟩ := (token.none none).resolve_left token_
            have failed := again { p with curPtr := curPtr, tokenBuf := tokenBuf, savePtr := savePtr } rfl
            have noClose : ¬tokenBuf.headD 0 = 62 := by
              rw [text]
              decide
            rw [if_neg noClose, if_pos (by rw [text]; rfl), parserProcessETag_none failed] at read
            cases read
          · have less : curPtr.length < p.curPtr.length := by omega
            split at read
            next =>
              cases read
              exact .shorter moved less nofun nofun
            next =>
              split at read
              next =>
                obtain ⟨same', less', nodeName, rfl⟩ := parserProcessETag_spec read
                exact .shorter (moved.trans same') (Nat.lt_trans less' less) nofun nofun
              next =>
                split at read
                next =>
                  obtain ⟨same', less', _, _, _, rfl⟩ := parserProcessSTag_spec read
                  exact .shorter (moved.trans same') (Nat.lt_trans less' less) nofun nofun
                next =>
                  split at read
                  next =>
                    split at read
                    next => cases read
                    next =>
                      cases read
                      exact .shorter moved less nofun nofun
                  next =>
                    split at read
                    next => cases read
                    next top outer opened =>
                      split at read
                      next =>
                        split at read
                        next => cases read
                        next found =>
                          cases read
                          obtain ⟨same', less', attr, rfl⟩ := parserProcessAttribute_spec (by exact opened) found
                          exact .shorter (moved.trans same') (Nat.lt_trans less' less) nofun nofun
                      next => cases read

end Reads

end Pupnp.Ixml
