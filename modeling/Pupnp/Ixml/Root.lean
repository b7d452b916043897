import Pupnp.Ixml.Document

/-! A document that the parser accepts has one element at its top, and nothing else. -/

namespace Pupnp.Ixml

def Node.isElement : Node → Bool
  | .element .. => true
  | _ => false

structure TopLevel (p : Parser) : Prop where
  before : p.bHasTopLevel = false → p.open_ = [] ∧ p.children = []
  inside : p.open_ ≠ [] → p.children = []
  atMost : p.children.length ≤ 1
  elements : ∀ node ∈ p.children, node.isElement = true

section Rounds
variable {errorChar : Int} {p q : Parser}

theorem TopLevel.same (top : TopLevel p) (same : SameNodes p q) : TopLevel q := by
  have opened : q.open_ = [] ↔ p.open_ = [] := by
    rw [← List.map_eq_nil_iff, same.nodes, List.map_eq_nil_iff]
  refine ⟨fun none => ?_, fun more => ?_, ?_, ?_⟩
  · obtain ⟨closed, empty⟩ := top.before (same.topLevel ▸ none)
    exact ⟨opened.mpr closed, same.children ▸ empty⟩
  · rw [same.children]
    exact top.inside fun closed => more (opened.mpr closed)
  · rw [same.children]
    exact top.atMost
  · rw [same.children]
    exact top.elements

theorem parserProcessElementName_topLevel {nodeName localName : List UInt8} {prefixName : Option (List UInt8)}
    (top : TopLevel p) (processed : parserProcessElementName p nodeName prefixName localName = .ok q) : TopLevel q := by
  unfold parserProcessElementName at processed
  split at processed
  next => cases processed
  next first =>
    cases processed
    have empty : p.children = [] := by
      by_cases closed : p.open_ = []
      · refine (top.before ?_).2
        simpa [closed] using first
      · exact top.inside closed
    exact ⟨fun none => Bool.noConfusion none, fun _ => empty, by simp [empty], by simp [empty]⟩

theorem TopLevel.started (top : TopLevel p) (more : p.open_ ≠ []) : p.bHasTopLevel = true := by
  by_contra not
  exact more (top.before (Bool.not_eq_true _ ▸ not)).1

theorem appendNode_topLevel {node : Node} (top : TopLevel p) (content : node.isElement = false)
    (added : appendNode p node = .ok q) : TopLevel q := by
  unfold appendNode at added
  split at added
  next => cases content
  next => cases added
  next first outer opened =>
    cases added
    have more : p.open_ ≠ [] := by rw [opened]; exact List.cons_ne_nil _ _
    refine ⟨fun none => ?_, fun _ => top.inside more, top.atMost, top.elements⟩
    exact absurd (none.symm.trans (top.started more)) (by decide)

/-- The element that is closed goes into the one around it, or is the element of the document. -/
theorem parserETagVerification_topLevel {nodeName : List UInt8} (top : TopLevel p)
    (closed : parserETagVerification p nodeName = .ok q) : TopLevel q := by
  unfold parserETagVerification at closed
  split at closed
  next => cases closed
  next first outer opened =>
    have more : p.open_ ≠ [] := by rw [opened]; exact List.cons_ne_nil _ _
    have started := top.started more
    have empty := top.inside more
    split at closed
    next => cases closed
    next =>
      cases outer with
      | nil =>
        cases closed
        refine ⟨fun none => ?_, fun again => absurd rfl again, by simp [empty], by simp [empty, Node.isElement]⟩
        exact absurd (none.symm.trans started) (by decide)
      | cons second outer =>
        cases closed
        refine ⟨fun none => ?_, fun _ => empty, top.atMost, top.elements⟩
        exact absurd (none.symm.trans started) (by decide)

theorem parserProcessAttributeName_topLevel {attr : Attr} (top : TopLevel p)
    (processed : parserProcessAttributeName p attr = .ok q) : TopLevel q := by
  unfold parserProcessAttributeName at processed
  split at processed
  next => cases processed
  next first outer opened =>
    have more : p.open_ ≠ [] := by rw [opened]; exact List.cons_ne_nil _ _
    split at processed
    next => cases processed
    next =>
      cases processed
      refine ⟨fun none => ?_, fun _ => top.inside more, top.atMost, top.elements⟩
      exact absurd (none.symm.trans (top.started more)) (by decide)

theorem parserRound_topLevel (top : TopLevel p) (round : parserRound errorChar p = .ok (some q)) : TopLevel q := by
  unfold parserRound at round
  cases read : parserGetNextNode errorChar p with
  | error stop =>
    rw [read] at round
    cases round
  | ok found =>
    obtain ⟨node, after⟩ := found
    rw [read] at round
    cases parserGetNextNode_spec read with
    | inl done =>
      obtain ⟨rfl, -⟩ := done
      cases round
    | inr reads =>
      have here : TopLevel after := top.same reads.same
      cases node with
      | fileDone => exact absurd rfl reads.more
      | none =>
        cases round
        exact here
      | startTag nodeName prefixName localName =>
        exact parserProcessElementName_topLevel here (map_some_ok round)
      | endTag nodeName => exact parserETagVerification_topLevel here (map_some_ok round)
      | text nodeValue => exact appendNode_topLevel here rfl (map_some_ok round)
      | cdataSection nodeValue => exact appendNode_topLevel here rfl (map_some_ok round)
      | «attribute» attr => exact parserProcessAttributeName_topLevel here (map_some_ok round)

theorem ixmlParseBufferEx_root {buffer : List UInt8} {doc : Document}
    (parsed : ixmlParseBufferEx errorChar buffer = .ok doc) :
    doc.children.length ≤ 1 ∧ ∀ node ∈ doc.children, node.isElement = true := by
  unfold ixmlParseBufferEx parserParseDocument at parsed
  split at parsed
  next => cases parsed
  next =>
    split at parsed
    next => cases parsed
    next curPtr prolog =>
      cases run : parserLoop errorChar (parserInit curPtr) with
      | error stop =>
        rw [run] at parsed
        cases parsed
      | ok last =>
        rw [run] at parsed
        have start : TopLevel (parserInit curPtr) :=
          ⟨fun _ => ⟨rfl, rfl⟩, fun _ => rfl, Nat.zero_le 1, fun node none => absurd none List.not_mem_nil⟩
        have kept := parserLoop_invariant TopLevel (fun _ _ => parserRound_topLevel) start run
        dsimp only [bind, Except.bind] at parsed
        split at parsed
        next => cases parsed
        next =>
          cases parsed
          exact ⟨kept.atMost, kept.elements⟩

end Rounds

end Pupnp.Ixml
