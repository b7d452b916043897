import Pupnp.Ixml.Round

/-!
The document loop. What has been built is the path of open elements with the children of the document, a
round lets it grow by one node at most.
-/

namespace Pupnp.Ixml
open CString

structure Tree where
  frames : List (Tag × List Attr × List Node)
  children : List Node

def Parser.tree (p : Parser) : Tree := ⟨p.open_.map Open.node, p.children⟩

/-- A node becomes the last child of the innermost element, or of the document. -/
def Tree.add (t : Tree) (node : Node) : Tree :=
  match t.frames with
  | [] => { t with children := t.children ++ [node] }
  | (tag, attrs, nodes) :: outer => { t with frames := (tag, attrs, nodes ++ [node]) :: outer }

/-- What a round does to the tree; the values of text nodes are limited to `copied`. -/
inductive Grows (copied : List UInt8 → Prop) : Tree → Tree → Prop where
  | stay (t : Tree) : Grows copied t t
  | push (t : Tree) (tag : Tag) : Grows copied t { t with frames := (tag, [], []) :: t.frames }
  | attribute (tag : Tag) (attrs : List Attr) (nodes : List Node) (outer : List (Tag × List Attr × List Node))
      (children : List Node) (attr : Attr) :
      Grows copied ⟨(tag, attrs, nodes) :: outer, children⟩ ⟨(tag, attrs ++ [attr], nodes) :: outer, children⟩
  | text (t : Tree) (nodeValue : List UInt8) (value : copied nodeValue) : Grows copied t (t.add (.text nodeValue))
  | cdataSection (t : Tree) (nodeValue : List UInt8) : Grows copied t (t.add (.cdataSection nodeValue))
  | close (tag : Tag) (attrs : List Attr) (nodes : List Node) (outer : List (Tag × List Attr × List Node))
      (children : List Node) :
      Grows copied ⟨(tag, attrs, nodes) :: outer, children⟩
        (Tree.add ⟨outer, children⟩ (.element tag attrs nodes))

theorem SameNodes.tree {p p' : Parser} (same : SameNodes p p') : p'.tree = p.tree := by
  unfold Parser.tree
  rw [same.nodes, same.children]

theorem appendNode_spec {p p' : Parser} {node : Node} (added : appendNode p node = .ok p') :
    p'.curPtr = p.curPtr ∧ p'.state = p.state ∧ p'.tree = p.tree.add node := by
  unfold appendNode at added
  split at added
  next tag attrs nodes opened =>
    cases added
    exact ⟨rfl, rfl, by simp [Parser.tree, Tree.add, opened]⟩
  next => cases added
  next top outer opened =>
    cases added
    exact ⟨rfl, rfl, by simp [Parser.tree, Tree.add, opened, Open.node]⟩

theorem parserProcessElementName_spec {p p' : Parser} {nodeName localName : List UInt8}
    {prefixName : Option (List UInt8)}
    (processed : parserProcessElementName p nodeName prefixName localName = .ok p') :
    p'.curPtr = p.curPtr ∧ p'.state = p.state ∧
      ∃ tag, p'.tree = { p.tree with frames := (tag, [], []) :: p.tree.frames } := by
  unfold parserProcessElementName at processed
  dsimp only at processed
  split at processed
  next => cases processed
  next =>
    cases processed
    exact ⟨rfl, rfl, _, rfl⟩

theorem map_some_ok {α β : Type} {result : Except β α} {a : α}
    (mapped : result.map some = .ok (some a)) : result = .ok a := by
  cases result with
  | error stop => cases mapped
  | ok b => cases mapped; rfl

section Rounds
variable {errorChar : Int}

theorem parserRound_spec {p p' : Parser} (round : parserRound errorChar p = .ok (some p')) :
    p'.curPtr <:+ p.curPtr ∧ p'.measure < p.measure ∧
      Grows (CopiedText errorChar p.curPtr p'.curPtr) p.tree p'.tree := by
  unfold parserRound at round
  cases read : parserGetNextNode errorChar p with
  | error stop =>
    rw [read] at round
    cases round
  | ok found =>
    obtain ⟨node, q⟩ := found
    rw [read] at round
    cases parserGetNextNode_spec read with
    | inl done =>
      obtain ⟨rfl, -⟩ := done
      cases round
    | inr reads =>
      have tree := reads.same.tree
      have suffix := reads.same.suffix
      have progress := reads.progress
      cases node with
      | fileDone => exact absurd rfl reads.more
      | none =>
        cases round
        exact ⟨suffix, progress, tree ▸ .stay _⟩
      | startTag nodeName prefixName localName =>
        obtain ⟨text, state, tag, grown⟩ := parserProcessElementName_spec (map_some_ok round)
        refine ⟨text ▸ suffix, ?_, ?_⟩
        · simpa only [Parser.measure, text, state] using progress
        · rw [grown, tree]
          exact .push _ tag
      | endTag nodeName =>
        have shorter := reads.ended nodeName rfl
        have closed := map_some_ok round
        unfold parserETagVerification at closed
        split at closed
        next => cases closed
        next top outer opened =>
          split at closed
          next => cases closed
          next =>
            cases added : appendNode { q with open_ := outer } (.element top.tag top.attrs top.children) with
            | error stop =>
              rw [added] at closed
              cases closed
            | ok r =>
              rw [added] at closed
              cases closed
              obtain ⟨text, -, grown⟩ := appendNode_spec added
              refine ⟨text ▸ suffix, ?_, ?_⟩
              · simp only [Parser.measure, text, if_true]
                split_ifs <;> omega
              · have before : p.tree = ⟨top.node :: outer.map Open.node, q.children⟩ := by
                  rw [← tree, Parser.tree, opened]
                  rfl
                rw [before]
                exact grown ▸ .close _ _ _ _ _
      | text nodeValue =>
        obtain ⟨text, state, grown⟩ := appendNode_spec (map_some_ok round)
        refine ⟨text ▸ suffix, ?_, ?_⟩
        · simpa only [Parser.measure, text, state] using progress
        · rw [grown, tree, text]
          exact .text _ _ (reads.text nodeValue rfl)
      | cdataSection nodeValue =>
        obtain ⟨text, state, grown⟩ := appendNode_spec (map_some_ok round)
        refine ⟨text ▸ suffix, ?_, ?_⟩
        · simpa only [Parser.measure, text, state] using progress
        · rw [grown, tree]
          exact .cdataSection _ _
      | «attribute» attr =>
        have processed := map_some_ok round
        unfold parserProcessAttributeName at processed
        split at processed
        next => cases processed
        next top outer opened =>
          split at processed
          next => cases processed
          next =>
            cases processed
            refine ⟨suffix, progress, ?_⟩
            have before : p.tree = ⟨top.node :: outer.map Open.node, q.children⟩ := by
              rw [← tree, Parser.tree, opened]
              rfl
            rw [before]
            exact .attribute _ _ _ _ _ attr

end Rounds

def parserLoop (errorChar : Int) (p : Parser) : Except Stop Parser :=
  match _round : parserRound errorChar p with
  | .error stop => .error stop
  | .ok none => .ok p
  | .ok (some p') => parserLoop errorChar p'
termination_by p.measure
decreasing_by exact (parserRound_spec _round).2.1

structure Document where
  children : List Node
  namespaceURI : Nat → Option (List UInt8)

def parserParseDocument (errorChar : Int) (buffer : List UInt8) : Except Stop Document :=
  match parserSkipProlog buffer with
  | none => .error .syntaxErr
  | some curPtr => do
      let p ← parserLoop errorChar (parserInit curPtr)
      if !p.open_.isEmpty then .error .syntaxErr else return ⟨p.children, p.namespaceURI⟩

/-- `ixmlParseBufferEx` for a string, with the character of `ixmlRelaxParser`; 0 is its default. -/
def ixmlParseBufferEx (errorChar : Int) (buffer : List UInt8) : Except Stop Document :=
  if buffer = [] then .error .invalidParameter else parserParseDocument errorChar buffer

section Runs
variable {errorChar : Int}

theorem parserLoop_step {p p' : Parser} (round : parserRound errorChar p = .ok (some p')) :
    parserLoop errorChar p = parserLoop errorChar p' := by
  rw [parserLoop]
  split
  next stop failed => cases failed.symm.trans round
  next ended => cases ended.symm.trans round
  next q same => cases same.symm.trans round; rfl

theorem parserLoop_done {p : Parser} (round : parserRound errorChar p = .ok none) :
    parserLoop errorChar p = .ok p := by
  rw [parserLoop]
  split
  next stop failed => cases failed.symm.trans round
  next => rfl
  next q same => cases same.symm.trans round

theorem parserLoop_stop {p : Parser} {stop : Stop} (round : parserRound errorChar p = .error stop) :
    parserLoop errorChar p = .error stop := by
  rw [parserLoop]
  split
  next stop' failed => cases failed.symm.trans round; rfl
  next ended => cases ended.symm.trans round
  next q same => cases same.symm.trans round

theorem parserLoop_invariant (Inv : Parser → Prop)
    (kept : ∀ p p', Inv p → parserRound errorChar p = .ok (some p') → Inv p') {p last : Parser}
    (start : Inv p) (run : parserLoop errorChar p = .ok last) : Inv last := by
  induction p using parserLoop.induct errorChar with
  | case1 p stop failed =>
    rw [parserLoop_stop failed] at run
    cases run
  | case2 p ended =>
    rw [parserLoop_done ended] at run
    cases run
    exact start
  | case3 p p' round ih =>
    rw [parserLoop_step round] at run
    exact ih (kept p p' start round) run

end Runs

end Pupnp.Ixml
