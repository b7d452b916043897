import Pupnp.Ixml.Kept

/-! Every node that the parser builds is one that it reads back from its print. -/

namespace Pupnp.Ixml
open CString

section Tokens
variable {errorChar : Int}

inductive TokenKind (errorChar : Int) : List UInt8 → List UInt8 → Prop where
  | none (curPtr : List UInt8) : TokenKind errorChar [] curPtr
  | mark (c : UInt8) (curPtr : List UInt8) (marks : c ∈ bytes "\"'=>") : TokenKind errorChar [c] curPtr
  | less (curPtr : List UInt8) (name : parserIsNameChar (parserUTF8ToInt errorChar curPtr).1 false = true) :
      TokenKind errorChar [60] curPtr
  | close (curPtr : List UInt8) : TokenKind errorChar [60, 47] curPtr
  | empty (curPtr : List UInt8) : TokenKind errorChar [47, 62] curPtr
  | name (text curPtr : List UInt8) (name : NameText text) : TokenKind errorChar text curPtr

theorem TokenKind.tag {text curPtr : List UInt8} (kind : TokenKind errorChar text curPtr) (less : text.headD 0 = 60)
    (noClose : text ≠ bytes "</") : parserIsNameChar (parserUTF8ToInt errorChar curPtr).1 false = true := by
  cases kind with
  | none => cases less
  | mark c _ marks =>
    change c = 60 at less
    rw [less] at marks
    exact absurd marks (by decide)
  | less _ name => exact name
  | close => exact absurd rfl noClose
  | empty => cases less
  | name _ _ name =>
    have mark := nameText_mark name
    rw [less] at mark
    exact absurd (by decide) mark

theorem TokenKind.named {text curPtr : List UInt8} (kind : TokenKind errorChar text curPtr)
    (first : parserIsNameChar (parserUTF8ToInt errorChar text).1 false = true) : NameText text := by
  have head := name_head first
  cases kind with
  | none => exact absurd first (by rw [parserUTF8ToInt_ascii (by decide)]; decide +kernel)
  | mark c _ marks =>
    have wider : ∀ d ∈ bytes "\"'=>", d ∈ bytes "\"'<=/>!?\n\t\r " := by decide
    exact absurd (wider c marks) head
  | less => exact absurd (by decide) head
  | close => exact absurd (by decide) head
  | empty => exact absurd (by decide) head
  | name _ _ name => exact name

theorem tokenCopy_eq {s : List UInt8} {copied : Bool × List UInt8}
    (run : copyLoop errorChar s (tokenAt errorChar s).1 [] = .ok copied) : tokenCopy errorChar s = copied := by
  unfold tokenCopy
  rw [run]

theorem tokenCopy_kind (char_ : errorChar ≤ 127) (s : List UInt8) :
    TokenKind errorChar (tokenCopy errorChar s).2
      (if (tokenCopy errorChar s).1 && (tokenAt errorChar s).1 ≠ 0 then s.drop (tokenAt errorChar s).1 else s) := by
  have single {c : UInt8} (head : s.headD 0 = c) (plain : isPlain c = true) (one : (tokenAt errorChar s).1 = 1) :
      tokenCopy errorChar s = (true, [c]) := by
    have whole := headD_cons head (by rintro rfl; exact absurd plain (by decide))
    apply tokenCopy_eq
    rw [one, whole, copyLoop_plain plain, copyLoop_done]
    rfl
  have nothing (zero : (tokenAt errorChar s).1 = 0) : tokenCopy errorChar s = (true, []) := by
    apply tokenCopy_eq
    rw [zero, copyLoop_done]
  by_cases quote : s.headD 0 = 34 ∨ s.headD 0 = 39
  · have one : (tokenAt errorChar s).1 = 1 := by
      unfold tokenAt
      rw [if_pos (by simpa using quote)]
    have facts : isPlain (s.headD 0) = true ∧ s.headD 0 ∈ bytes "\"'=>" := by
      rcases quote with head | head <;> rw [head] <;> decide
    rw [single rfl facts.1 one]
    exact .mark _ _ facts.2
  have noQuote : ¬(decide (s.headD 0 = 34) || decide (s.headD 0 = 39)) = true := by simpa using quote
  by_cases less : s.headD 0 = 60
  · have token : tokenAt errorChar s =
        if (parserUTF8ToInt errorChar s.tail).1 = 47 then (2, false)
        else if parserIsNameChar (parserUTF8ToInt errorChar s.tail).1 false then (1, false) else (0, false) := by
      unfold tokenAt
      dsimp only
      rw [if_neg noQuote, if_pos less]
    by_cases slash : (parserUTF8ToInt errorChar s.tail).1 = 47
    · rw [if_pos slash] at token
      obtain ⟨done, found, -⟩ := copyLoop_endTag less slash
      have copied : tokenCopy errorChar s = (done, [60, 47]) := tokenCopy_eq (by rw [token]; exact found)
      rw [copied]
      exact .close _
    · rw [if_neg slash] at token
      by_cases name : parserIsNameChar (parserUTF8ToInt errorChar s.tail).1 false = true
      · rw [if_pos name] at token
        rw [single less (by decide) (by rw [token]), token]
        refine .less _ ?_
        change parserIsNameChar (parserUTF8ToInt errorChar (s.drop 1)).1 false = true
        rw [List.drop_one]
        exact name
      · rw [if_neg name] at token
        rw [nothing (by rw [token])]
        exact .none _
  by_cases equals : s.headD 0 = 61
  · have one : (tokenAt errorChar s).1 = 1 := by
      unfold tokenAt
      dsimp only
      rw [if_neg noQuote, if_neg less, if_pos equals]
    rw [single equals (by decide) one]
    exact .mark _ _ (by decide)
  by_cases solidus : s.headD 0 = 47
  · have token : tokenAt errorChar s = if s.tail.headD 0 = 62 then (2, true) else (0, false) := by
      unfold tokenAt
      dsimp only
      rw [if_neg noQuote, if_neg less, if_neg equals, if_pos solidus]
    by_cases close : s.tail.headD 0 = 62
    · rw [if_pos close] at token
      have whole := headD_cons solidus (by decide)
      have behind := headD_cons close (by decide)
      have copied : tokenCopy errorChar s = (true, [47, 62]) := by
        apply tokenCopy_eq
        rw [token, whole, behind, copyLoop_plain (by decide), copyLoop_plain (by decide), copyLoop_done]
        rfl
      rw [copied]
      exact .empty _
    · rw [if_neg close] at token
      rw [nothing (by rw [token])]
      exact .none _
  by_cases greater : s.headD 0 = 62
  · have one : (tokenAt errorChar s).1 = 1 := by
      unfold tokenAt
      dsimp only
      rw [if_neg noQuote, if_neg less, if_neg equals, if_neg solidus, if_pos greater]
    rw [single greater (by decide) one]
    exact .mark _ _ (by decide)
  have token : tokenAt errorChar s = (nameLength errorChar false s, false) := by
    unfold tokenAt
    dsimp only
    rw [if_neg noQuote, if_neg less, if_neg equals, if_neg solidus, if_neg greater]
  obtain ⟨chars, copied, name, nonempty⟩ := @copyLoop_nameChars errorChar char_ s false []
  rw [List.nil_append] at copied
  by_cases some : nameLength errorChar false s = 0
  · rw [nothing (by rw [token]; exact some)]
    exact .none _
  · have found : tokenCopy errorChar s = (true, encode chars) := tokenCopy_eq (by rw [token]; exact copied)
    rw [found]
    obtain ⟨c, more, rfl⟩ := List.exists_cons_of_ne_nil (nonempty some)
    exact .name _ _ ⟨c, more, rfl, name⟩

theorem tokenStep_kind (char_ : errorChar ≤ 127) (p : Parser) :
    TokenKind errorChar (tokenStep errorChar p).2.tokenBuf (tokenStep errorChar p).2.curPtr := by
  unfold tokenStep
  split
  next => exact .none _
  next =>
    split
    next => exact .none _
    next =>
      have kind := tokenCopy_kind char_ (parserSkipMisc p.curPtr).2
      dsimp only
      split
      next done => rwa [if_pos done] at kind
      next undone => rwa [if_neg undone] at kind

theorem tokenStep_nameAt (char_ : errorChar ≤ 127) {p : Parser}
    (name : parserIsNameChar (parserUTF8ToInt errorChar p.curPtr).1 false = true) :
    ∃ n text curPtr, n ≠ 0 ∧ NameText text ∧
      tokenStep errorChar p = (n, { p with curPtr := curPtr, tokenBuf := text }) := by
  obtain ⟨chars, copied, letters, nonempty⟩ := @copyLoop_nameChars errorChar char_ p.curPtr false []
  have some : nameLength errorChar false p.curPtr ≠ 0 := by
    have long := parserUTF8ToInt_length (parserIsNameChar_pos name)
    rw [nameLength, dif_pos name]
    omega
  obtain ⟨c, more, rfl⟩ := List.exists_cons_of_ne_nil (nonempty some)
  have skipped := @name_skipped errorChar [] p.curPtr .nil name
  rw [List.nil_append] at skipped copied
  exact ⟨_, _, _, some, ⟨c, more, rfl, letters⟩, tokenStep_at skipped (tokenAt_name name) copied some⟩

/-! ### Nodes -/

def NewNode.Read (errorChar : Int) : NewNode → Prop
  | .startTag nodeName _ _ => NameText nodeName
  | .text nodeValue => ReadValue errorChar nodeValue
  | .cdataSection nodeValue => CData nodeValue
  | .attribute attr => AttrRead errorChar attr
  | _ => True

theorem parserProcessSTag_read (char_ : errorChar ≤ 127) {p p' : Parser} {node : NewNode}
    (name : parserIsNameChar (parserUTF8ToInt errorChar p.curPtr).1 false = true)
    (read : parserProcessSTag errorChar p = .ok (node, p')) : node.Read errorChar := by
  obtain ⟨n, text, curPtr, some, good, same⟩ := tokenStep_nameAt char_ name
  unfold parserProcessSTag at read
  simp only [parserGetNextToken_eq, same, bind, Except.bind, some, if_false] at read
  split at read
  next => cases read
  next =>
    cases read
    exact good

theorem cdataEnd_split (s : List UInt8) : ∃ value, s = value ++ cdataEnd s ∧
    (∀ b ∈ value, (b ≤ 127 && parserIsXmlChar b.toNat) = true) ∧ ¬bytes "]]>" <:+: value := by
  induction s with
  | nil => exact ⟨[], rfl, by simp, by simp [bytes]⟩
  | cons c rest ih =>
    unfold cdataEnd
    split
    next => exact ⟨[], rfl, by simp, by simp [bytes]⟩
    next more =>
      obtain ⟨value, whole, ascii, open_⟩ := ih
      simp only [Bool.or_eq_true, Bool.not_eq_true', not_or, Bool.not_eq_false, Bool.not_eq_true] at more
      refine ⟨c :: value, by rw [List.cons_append, ← whole], ?_, ?_⟩
      · intro b member
        cases member with
        | head => exact more.1
        | tail _ later => exact ascii b later
      · intro inside
        cases List.infix_cons_iff.mp inside with
        | inl here =>
          have start : startsWith (c :: rest) (bytes "]]>") = true := by
            rw [startsWith_iff (by decide), whole]
            exact here.trans (List.prefix_append (c :: value) _)
          rw [more.2] at start
          cases start
        | inr later => exact open_ later

theorem parserProcessCDSect_read {src nodeValue rest : List UInt8}
    (read : parserProcessCDSect src = .ok (nodeValue, rest)) : CData nodeValue := by
  unfold parserProcessCDSect at read
  dsimp only at read
  generalize src.drop (bytes "<![CDATA[").length = start at read
  obtain ⟨value, whole, ascii, open_⟩ := cdataEnd_split start
  have size : start.length - (cdataEnd start).length = value.length := by
    have sum := congrArg List.length whole
    rw [List.length_append] at sum
    omega
  have taken : start.take value.length = value := by
    conv_lhs => rw [whole]
    exact List.take_left
  rw [size, taken] at read
  split at read
  next some =>
    simp only [Bool.and_eq_true, decide_eq_true_eq] at some
    split at read
    next => cases read
    next =>
      cases read
      exact ⟨List.length_pos_iff.mp some.1, ascii, open_⟩
  next => cases read

theorem parserCopyToken_read (char_ : errorChar ≤ 127) {p p' : Parser} {src : List UInt8} {len : Nat}
    (empty : p.tokenBuf = []) (copied : parserCopyToken errorChar p src len = .ok (true, p')) :
    ReadValue errorChar p'.tokenBuf := by
  obtain ⟨text, rfl, success⟩ := parserCopyToken_spec copied
  obtain ⟨-, run⟩ := success rfl
  obtain ⟨value, same, readable⟩ := copyLoop_readable char_ run
  rw [empty, List.nil_append] at same
  exact same ▸ readable

theorem parserProcessContent_read (char_ : errorChar ≤ 127) {p p' : Parser} {node : NewNode}
    (read : parserProcessContent errorChar p = .ok (node, p')) : node.Read errorChar := by
  unfold parserProcessContent at read
  dsimp only at read
  split at read
  next => cases read; trivial
  next =>
    split at read
    next =>
      split at read
      next =>
        split at read
        next => cases read
        next section_ =>
          cases read
          exact parserProcessCDSect_read section_
      next =>
        split at read
        next =>
          split at read
          next => cases read
          next => cases read; trivial
        next =>
          split at read
          next =>
            split at read
            next => cases read
            next => cases read; trivial
          next => cases read; trivial
    next =>
      split at read
      next => cases read
      next =>
        simp only [bind, Except.bind] at read
        split at read
        next => cases read
        next copied run =>
          obtain ⟨done, p₁⟩ := copied
          dsimp only at read
          split at read
          next => cases read
          next good =>
            simp only [Bool.or_eq_true, Bool.not_eq_true', decide_eq_true_eq, not_or, Bool.not_eq_false] at good
            cases read
            rw [good.1] at run
            exact parserCopyToken_read char_ rfl run

theorem attributeValue_read (char_ : errorChar ≤ 127) {p p' : Parser} {mark : List UInt8}
    (read : attributeValue errorChar p mark = .ok p') : ReadValue errorChar p'.tokenBuf := by
  unfold attributeValue at read
  split at read
  next => cases read
  next strEndQuote found =>
    split at read
    next => cases read
    next =>
      simp only [bind, Except.bind] at read
      split at read
      next => cases read
      next copied run =>
        obtain ⟨done, p₁⟩ := copied
        split at read
        next => cases read
        next success =>
          simp only [Bool.not_eq_true', Bool.not_eq_false] at success
          cases read
          split at run
          next =>
            change ReadValue errorChar p₁.tokenBuf
            rw [success] at run
            exact parserCopyToken_read char_ rfl run
          next =>
            cases run
            exact ⟨[], rfl, by simp⟩

theorem parserProcessAttribute_read (char_ : errorChar ≤ 127) {p p' : Parser} {node : NewNode} {top : Open}
    {outer : List Open} (name : NameText p.tokenBuf)
    (read : parserProcessAttribute errorChar p top outer = .ok (node, p')) : node.Read errorChar := by
  unfold parserProcessAttribute at read
  dsimp only at read
  split at read
  next => cases read
  next =>
    simp only [parserGetNextToken_eq, bind, Except.bind] at read
    split at read
    next => cases read
    next =>
      split at read
      next => cases read
      next =>
        split at read
        next => cases read
        next p₁ value =>
          split at read
          next => cases read
          next named namespaces =>
            obtain ⟨attr, p₂⟩ := named
            have same := parserXmlNamespace_content namespaces
            obtain ⟨-, rfl⟩ := attributeAhead_spec read
            have readable := attributeValue_read char_ value
            change AttrRead errorChar attr
            refine ⟨?_, ?_⟩
            · rw [(Prod.mk.inj same).1]
              exact name
            · rw [(Prod.mk.inj same).2]
              exact readable

theorem parserProcessAttribute_first {p : Parser} {done : NewNode × Parser} {top : Open} {outer : List Open}
    (read : parserProcessAttribute errorChar p top outer = .ok done) :
    parserIsNameChar (parserUTF8ToInt errorChar p.tokenBuf).1 false = true := by
  unfold parserProcessAttribute at read
  dsimp only at read
  split at read
  next => cases read
  next name =>
    simp only [Bool.or_eq_true, Bool.not_eq_true', not_or, Bool.not_eq_false] at name
    exact name.2

theorem parserGetNextNode_read (char_ : errorChar ≤ 127) {p p' : Parser} {node : NewNode}
    (read : parserGetNextNode errorChar p = .ok (node, p')) : node.Read errorChar := by
  unfold parserGetNextNode at read
  split at read
  next => cases read; trivial
  next =>
    split at read
    next => exact parserProcessContent_read char_ read
    next =>
      have kind := tokenStep_kind char_ { p with curPtr := parserSkipWhiteSpaces p.curPtr }
      simp only [parserGetNextToken_eq, bind, Except.bind] at read
      generalize (tokenStep errorChar { p with curPtr := parserSkipWhiteSpaces p.curPtr }) = token at *
      split at read
      next => cases read; trivial
      next =>
        split at read
        next => cases read
        next some =>
          split at read
          next => cases read; trivial
          next noGreater =>
            split at read
            next =>
              obtain ⟨-, -, nodeName, rfl⟩ := parserProcessETag_spec read
              trivial
            next noClose =>
              split at read
              next less =>
                exact parserProcessSTag_read char_ (kind.tag less noClose) read
              next noLess =>
                split at read
                next =>
                  split at read
                  next => cases read
                  next => cases read; trivial
                next noEmpty =>
                  split at read
                  next => cases read
                  next top outer opened =>
                    split at read
                    next =>
                      split at read
                      next => cases read
                      next found =>
                        cases read
                        refine parserProcessAttribute_read char_ (kind.named ?_) found
                        exact parserProcessAttribute_first found
                    next => cases read

/-! ### Documents -/

theorem NodesRead.append {nodes more : List Node} (first : NodesRead errorChar nodes)
    (second : NodesRead errorChar more) : NodesRead errorChar (nodes ++ more) := by
  induction nodes with
  | nil => exact second
  | cons node nodes ih =>
    rw [List.cons_append]
    cases node with
    | element tag attrs children =>
      rw [NodesRead] at first ⊢
      exact ⟨first.1, first.2.1, first.2.2.1, ih first.2.2.2⟩
    | text nodeValue =>
      rw [NodesRead] at first ⊢
      exact ⟨first.1, ih first.2⟩
    | cdataSection nodeValue =>
      rw [NodesRead] at first ⊢
      exact ⟨first.1, ih first.2⟩

structure Tree.Read (errorChar : Int) (t : Tree) : Prop where
  frames : ∀ frame ∈ t.frames, NameText frame.1.nodeName ∧ (∀ attr ∈ frame.2.1, AttrRead errorChar attr) ∧
    NodesRead errorChar frame.2.2
  children : NodesRead errorChar t.children

theorem Tree.Read.add {t : Tree} (read : t.Read errorChar) {node : Node} (good : NodesRead errorChar [node]) :
    (t.add node).Read errorChar := by
  obtain ⟨frames, children⟩ := t
  cases frames with
  | nil => exact ⟨read.frames, read.children.append good⟩
  | cons frame outer =>
    obtain ⟨tag, attrs, nodes⟩ := frame
    have top := read.frames _ List.mem_cons_self
    refine ⟨fun frame member => ?_, read.children⟩
    cases member with
    | head => exact ⟨top.1, top.2.1, top.2.2.append good⟩
    | tail _ later => exact read.frames frame (List.mem_cons_of_mem _ later)

theorem parserRound_read (char_ : errorChar ≤ 127) {p p' : Parser} (good : p.tree.Read errorChar)
    (round : parserRound errorChar p = .ok (some p')) : p'.tree.Read errorChar := by
  unfold parserRound at round
  cases read : parserGetNextNode errorChar p with
  | error stop =>
    rw [read] at round
    cases round
  | ok found =>
    obtain ⟨node, q⟩ := found
    rw [read] at round
    have readable := parserGetNextNode_read char_ read
    cases parserGetNextNode_spec read with
    | inl done =>
      obtain ⟨rfl, -⟩ := done
      cases round
    | inr reads =>
      have here : q.tree.Read errorChar := reads.same.tree ▸ good
      cases node with
      | fileDone => exact absurd rfl reads.more
      | none =>
        cases round
        exact here
      | startTag nodeName prefixName localName =>
        obtain ⟨tag, name, grown⟩ := parserProcessElementName_tree (map_some_ok round)
        rw [grown]
        refine ⟨fun frame member => ?_, here.children⟩
        cases member with
        | head => exact ⟨name ▸ readable, by simp, by rw [NodesRead]; trivial⟩
        | tail _ later => exact here.frames frame later
      | endTag nodeName =>
        have closed := map_some_ok round
        cases opened : q.open_ with
        | nil =>
          unfold parserETagVerification at closed
          rw [opened] at closed
          cases closed
        | cons top outer =>
          have whole : q.tree = ⟨top.node :: outer.map Open.node, q.children⟩ := by
            rw [Parser.tree, opened, List.map_cons]
          rw [parserETagVerification_spec closed whole]
          rw [whole] at here
          have element := here.frames _ List.mem_cons_self
          have outside : Tree.Read errorChar ⟨outer.map Open.node, q.children⟩ :=
            ⟨fun frame member => here.frames frame (List.mem_cons_of_mem _ member), here.children⟩
          refine outside.add ?_
          rw [NodesRead, NodesRead]
          exact ⟨element.1, element.2.1, element.2.2, trivial⟩
      | text nodeValue =>
        rw [(appendNode_spec (map_some_ok round)).2.2]
        refine here.add ?_
        rw [NodesRead, NodesRead]
        exact ⟨readable, trivial⟩
      | cdataSection nodeValue =>
        rw [(appendNode_spec (map_some_ok round)).2.2]
        refine here.add ?_
        rw [NodesRead, NodesRead]
        exact ⟨readable, trivial⟩
      | «attribute» attr =>
        have processed := map_some_ok round
        unfold parserProcessAttributeName at processed
        split at processed
        next => cases processed
        next top outer opened =>
          split at processed
          next => cases processed
          next =>
            cases processed
            have whole : q.tree = ⟨top.node :: outer.map Open.node, q.children⟩ := by
              rw [Parser.tree, opened, List.map_cons]
            rw [whole] at here
            have element := here.frames _ List.mem_cons_self
            refine ⟨fun frame member => ?_, here.children⟩
            cases member with
            | head =>
              refine ⟨element.1, fun other member => ?_, element.2.2⟩
              cases List.mem_append.mp member with
              | inl old => exact element.2.1 other old
              | inr new =>
                rw [List.mem_singleton.mp new]
                exact readable
            | tail _ later => exact here.frames frame (List.mem_cons_of_mem _ later)

theorem ixmlParseBufferEx_read (char_ : errorChar ≤ 127) {buffer : List UInt8} {doc : Document}
    (parsed : ixmlParseBufferEx errorChar buffer = .ok doc) : NodesRead errorChar doc.children := by
  unfold ixmlParseBufferEx parserParseDocument at parsed
  split at parsed
  next => cases parsed
  next =>
    split at parsed
    next => cases parsed
    next curPtr prolog =>
      cases run : parserLoop errorChar (parserInit curPtr) with
      | error stop =>
        rw [run] at parsed
        cases parsed
      | ok last =>
        rw [run] at parsed
        have start : (parserInit curPtr).tree.Read errorChar := by
          refine ⟨by simp [parserInit, Parser.tree], ?_⟩
          change NodesRead errorChar []
          rw [NodesRead]
          trivial
        have kept := parserLoop_invariant (fun p => p.tree.Read errorChar)
          (fun p p' good round => parserRound_read char_ good round) start run
        dsimp only [bind, Except.bind] at parsed
        split at parsed
        next => cases parsed
        next =>
          cases parsed
          exact kept.children

end Tokens

end Pupnp.Ixml
