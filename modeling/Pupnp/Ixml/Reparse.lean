import Pupnp.Ixml.Built

/-!
A node that has been printed and is parsed again, as `SoapSendAction` does with the answer of a device. The
declarations of its ancestors are gone, so its prefixes may be unbound, and the parser then refuses it.
-/

namespace Pupnp.Ixml
open CString

section Documents
variable {errorChar : Int}

theorem parserSkipProlog_tag {c : UInt8} {s : List UInt8} (noBang : c ≠ 33) (noQuestion : c ≠ 63) :
    parserSkipProlog (60 :: c :: s) = some (60 :: c :: s) := by
  have dark : WHITESPACE.contains 60 = false := by decide
  have second {k : UInt8} (key : List UInt8) (noNul : 0 ∉ 60 :: k :: key) (other : c ≠ k) :
      startsWith (60 :: c :: s) (60 :: k :: key) = false := by
    rw [Bool.eq_false_iff, ne_eq, startsWith_iff noNul]
    intro start
    exact other (List.cons_prefix_cons.mp (List.cons_prefix_cons.mp start).2).1.symm
  have decl : startsWith (60 :: c :: s) XMLDECL = false := second _ (by decide) noQuestion
  have doctype : startsWith (60 :: c :: s) BEGIN_DOCTYPE = false := second _ (by decide) noBang
  have bom : parserSkipBom (60 :: c :: s) = 60 :: c :: s := by
    unfold parserSkipBom
    rw [if_neg]
    rw [startsWith_iff (by decide)]
    exact fun start => absurd (List.cons_prefix_cons.mp start).1 (by decide)
  have misc : parserSkipMisc (60 :: c :: s) = (true, 60 :: c :: s) :=
    parserSkipMisc_blank .nil dark fun _ => ⟨noBang, noQuestion⟩
  have space : parserSkipWhiteSpaces (60 :: c :: s) = 60 :: c :: s := parserSkipWhiteSpaces_head dark
  unfold parserSkipProlog
  simp only [bom, space, decl, misc, doctype, Bool.false_eq_true, if_false, Bool.not_true, Option.bind_some, if_true]

theorem ixmlParseBufferEx_tag {c : UInt8} {s : List UInt8} (noBang : c ≠ 33) (noQuestion : c ≠ 63) :
    ixmlParseBufferEx errorChar (60 :: c :: s) = (parserLoop errorChar (parserInit (60 :: c :: s))).bind fun p =>
      if !p.open_.isEmpty then .error .syntaxErr else .ok ⟨p.children, p.namespaceURI⟩ := by
  unfold ixmlParseBufferEx parserParseDocument
  rw [if_neg (List.cons_ne_nil _ _), parserSkipProlog_tag noBang noQuestion]
  rfl

theorem parserLoop_end {p : Parser} {place : Place} (content : place.state = .content)
    (white : Blank place.curPtr) : ∃ after, parserLoop errorChar (p.put place) = .ok (p.put after) := by
  have done (after : Place) (ended : after.curPtr = []) :
      parserLoop errorChar (p.put after) = .ok (p.put after) := by
    apply parserLoop_done
    unfold parserRound parserGetNextNode
    rw [if_pos (by exact ended)]
  by_cases ended : place.curPtr = []
  · exact ⟨place, done place ended⟩
  · have found := @parserProcessContent_end errorChar (p.put place) white
    rw [← getNextNode_content ended content] at found
    obtain ⟨after, text, -, same⟩ := round_none found
    exact ⟨after, same.trans (done after text)⟩

/-- The element that is alone in its document is accepted: no prefix of it waits for a declaration when the
parser needs one. -/
def Standalone (tag : Tag) (attrs : List Attr) (children : List Node) : Prop :=
  ∃ q, enterSiblings (parserInit []) [.element tag attrs children] = .ok q

theorem enterSiblings_element (p : Parser) (tag : Tag) (attrs : List Attr) (children : List Node) :
    enterSiblings p [.element tag attrs children] =
      (enterStartTag p tag attrs).bind fun p =>
        (enterSiblings p children).bind fun p => parserETagVerification p tag.nodeName := by
  rw [enterSiblings]
  cases enterStartTag p tag attrs with
  | error stop => rfl
  | ok q =>
    change (enterSiblings q children).bind _ = (enterSiblings q children).bind _
    cases enterSiblings q children with
    | error stop => rfl
    | ok r =>
      change (parserETagVerification r tag.nodeName).bind _ = parserETagVerification r tag.nodeName
      cases closed : parserETagVerification r tag.nodeName with
      | error stop => rfl
      | ok s =>
        change enterSiblings s [] = .ok s
        rw [enterSiblings]

theorem element_parsed {tag : Tag} {attrs : List Attr} {children : List Node} {blank buffer : List UInt8}
    (good : NodesRead errorChar [.element tag attrs children]) (white : Blank blank)
    (whole : buffer = printStartTag tag attrs children ++
      (printSiblings children ++ 60 :: 47 :: (tag.nodeName ++ 62 :: blank))) :
    (∀ stop, enterSiblings (parserInit []) [.element tag attrs children] = .error stop →
      ∃ stop', ixmlParseBufferEx errorChar buffer = .error stop') ∧
    ∀ q, enterSiblings (parserInit []) [.element tag attrs children] = .ok q →
      ixmlParseBufferEx errorChar buffer = .ok ⟨q.children, q.namespaceURI⟩ ∧
        nodesContent q.children = kept (nodesContent [.element tag attrs children]) := by
  rw [NodesRead] at good
  obtain ⟨text, attributes, below, -⟩ := good
  obtain ⟨c, s, first, noBang, noQuestion⟩ := name_cons text (tagTail attrs (childBlank children ++
    (printSiblings children ++ 60 :: 47 :: (tag.nodeName ++ 62 :: blank))))
  have head : buffer = 60 :: c :: s := by
    rw [whole, printStartTag_eq, first]
  have parse := (congrArg (ixmlParseBufferEx errorChar) head).trans (ixmlParseBufferEx_tag noBang noQuestion)
  have walked := @leads_element errorChar (parserInit []) ⟨60 :: c :: s, [], [], [], .element⟩ tag attrs children
    blank (by simp) text attributes (leads_siblings below) (head.symm.trans whole)
  rw [← enterSiblings_element] at walked
  change Leads errorChar (parserInit (60 :: c :: s)) _ _ at walked
  constructor
  · intro stop entered
    rw [entered] at walked
    obtain ⟨stop', failed⟩ := walked
    rw [parse, failed]
    exact ⟨stop', rfl⟩
  · intro q entered
    rw [entered] at walked
    obtain ⟨place, ⟨behind, content⟩, same⟩ := walked
    obtain ⟨after, ended⟩ := @parserLoop_end errorChar q place content (by rw [behind]; exact white)
    obtain ⟨added, left, grown⟩ := enterSiblings_spec entered
    have single : ∃ node, added = [node] := by
      rw [nodesContent, nodesContent, kept, kept] at left
      cases added with
      | nil =>
        rw [nodesContent] at left
        cases left
      | cons node more =>
        cases more with
        | nil => exact ⟨node, rfl⟩
        | cons other more =>
          exfalso
          cases node <;> cases other <;> simp [nodesContent] at left
    obtain ⟨node, rfl⟩ := single
    have tree : q.tree = ⟨[], [node]⟩ := grown
    have closed : q.open_ = [] := List.map_eq_nil_iff.mp (congrArg Tree.frames tree)
    have children_ : q.children = [node] := congrArg Tree.children tree
    rw [children_]
    refine ⟨?_, left⟩
    rw [parse, same, ended]
    change (if !q.open_.isEmpty then Except.error Stop.syntaxErr else
      Except.ok (⟨q.children, q.namespaceURI⟩ : Document)) = _
    rw [closed, children_]
    rfl

/-- A printed element is read back as what is kept of it, unless it cannot stand alone. -/
theorem ixmlPrintNode_parsed {tag : Tag} {attrs : List Attr} {children : List Node}
    (good : NodesRead errorChar [.element tag attrs children]) :
    (∀ doc, ixmlParseBufferEx errorChar (ixmlPrintNode (.element tag attrs children)) = .ok doc →
      Standalone tag attrs children ∧
        nodesContent doc.children = kept (nodesContent [.element tag attrs children])) ∧
    (Standalone tag attrs children →
      ∃ doc, ixmlParseBufferEx errorChar (ixmlPrintNode (.element tag attrs children)) = .ok doc) := by
  have printed : ixmlPrintNode (.element tag attrs children) = printStartTag tag attrs children ++
      (printSiblings children ++ 60 :: 47 :: (tag.nodeName ++ 62 :: bytes "\r\n")) := by
    simp [ixmlPrintNode, bytes]
  obtain ⟨fails, succeeds⟩ := element_parsed good blank_lineEnd printed
  constructor
  · intro doc parsed
    cases entered : enterSiblings (parserInit []) [.element tag attrs children] with
    | error stop =>
      obtain ⟨stop', failed⟩ := fails stop entered
      rw [failed] at parsed
      cases parsed
    | ok q =>
      obtain ⟨read, left⟩ := succeeds q entered
      rw [read] at parsed
      cases parsed
      exact ⟨⟨q, entered⟩, left⟩
  · intro alone
    obtain ⟨q, entered⟩ := alone
    exact ⟨_, (succeeds q entered).1⟩

end Documents

end Pupnp.Ixml
