import Pupnp.Http.Identifiers
import Pupnp.Soap.Response

/-! Which node a path of names leads to. -/

namespace Pupnp.Soap
open Pupnp.CString Pupnp.Http
open Pupnp.Gena.Notification (matchstr)
open Pupnp.Ixml (Node)

/-! ### Names -/

/-- A node with a name, which may be behind a prefix. -/
def Named (name : List UInt8) (node : Node) : Prop :=
  nodeName node = name ∨
    ∃ front, Identifier front ∧ Identifier name ∧ nodeName node = front ++ 58 :: name

theorem format_prefixed : format "%s:%s%0" = [.identifier, .char 58, .identifier, .endOfMsg] := by
  decide

theorem colon_not_identifier : isIdentifierChar 58 = false := by decide

theorem matchstr_prefixed {pre name : List UInt8} (first : Identifier pre) (second : Identifier name) :
    ∃ sc, matchstr (pre ++ 58 :: name) "%s:%s%0" =
      (.ok, sc, [.str ⟨0, pre.length⟩, .str ⟨pre.length + 1, name.length⟩]) := by
  have colon : (58 :: name).takeWhile isIdentifierChar = [] :=
    List.takeWhile_cons_of_neg (by simp [colon_not_identifier])
  have token : matchToken ⟨pre ++ 58 :: name, 0, true⟩ .identifier true =
      (.ok, ⟨pre ++ 58 :: name, pre.length, true⟩, [.str ⟨0, pre.length⟩]) := by
    rw [@matchToken_run ⟨pre ++ 58 :: name, 0, true⟩ rfl pre (58 :: name) first rfl colon]
    simp only [Nat.zero_add]
  have char_ : matchChar ⟨pre ++ 58 :: name, pre.length, true⟩ 58 true =
      (.ok, ⟨pre ++ 58 :: name, pre.length + 1, true⟩) := by
    simp [matchChar]
  have here : Scanner.rest ⟨pre ++ 58 :: name, pre.length + 1, true⟩ = name ++ [] := by
    simp [Scanner.rest]
  have last := @matchToken_run ⟨pre ++ 58 :: name, pre.length + 1, true⟩ rfl name [] second here rfl
  refine ⟨⟨pre ++ 58 :: name, pre.length + 1 + name.length, true⟩, ?_⟩
  have ended : pre.length + 1 + name.length = (pre ++ 58 :: name).length := by
    rw [List.length_append, List.length_cons]
    omega
  rw [matchstr, matchFormat, format_prefixed, vfmatch]
  simp only [vfmatchLoop, matchDirective, token, if_true, Directive.nextCase, char_, last, ended, List.nil_append,
    List.append_nil, List.cons_append]

theorem matchstr_prefixed_ok {s : List UInt8} {sc : Scanner} {dummy nameptr : Memptr}
    (matched : matchstr s "%s:%s%0" = (.ok, sc, [.str dummy, .str nameptr])) :
    ∃ pre, Identifier pre ∧ Identifier (nameptr.read s) ∧ s = pre ++ 58 :: nameptr.read s := by
  rw [matchstr, matchFormat, format_prefixed, vfmatch] at matched
  have loop := congrArg Prod.fst matched
  have args := congrArg (fun r : MatchResult => r.2.2) matched
  dsimp only at loop args
  obtain ⟨pre, atColon, first, front, loop, args₁⟩ := vfmatchLoop_identifier rfl loop
  obtain ⟨atName, colon, loop, args₂⟩ := vfmatchLoop_char loop
  have entire : atName.entireMsgLoaded = true := colon.entire.trans front.entire
  obtain ⟨name, atEnd, second, back, loop, args₃⟩ := vfmatchLoop_identifier entire loop
  rw [args₁, args₂, args₃, List.cons.injEq, List.cons.injEq] at args
  have slice : nameptr = ⟨atName.cursor, name.length⟩ := (MatchArg.str.inj args.2.1).symm
  have message : atEnd.msg = s := back.msg.trans (colon.msg.trans front.msg)
  have ended : atEnd.rest = [] := by
    have last : (matchDirective true atEnd .endOfMsg).1 = .ok := (vfmatchLoop_first loop).1
    rw [Scanner.rest]
    apply List.drop_eq_nil_of_le
    by_contra more
    rw [matchDirective, if_neg (by omega)] at last
    cases last
  have text : atName.rest = name := by rw [back.split, ended, List.append_nil]
  have read : nameptr.read s = name := by
    have here : s.drop atName.cursor = name := by
      rw [← text, Scanner.rest, colon.msg.trans front.msg]
    rw [slice, Memptr.read, here, List.take_length]
  refine ⟨pre, first, read.symm ▸ second, ?_⟩
  rw [read]
  have split := front.split
  rw [colon.split, text] at split
  exact split

theorem domCmpName_iff {name : List UInt8} {node : Node} : domCmpName name node = true ↔ Named name node := by
  unfold domCmpName Named
  rw [Bool.or_eq_true, decide_eq_true_eq]
  constructor
  · rintro (same | found)
    · exact .inl same.symm
    · split at found
      next dummy nameptr matched =>
        obtain ⟨pre, first, second, text⟩ := matchstr_prefixed_ok matched
        rw [of_decide_eq_true found] at second text
        exact .inr ⟨pre, first, second, text⟩
      next => cases found
  · rintro (same | ⟨pre, first, second, text⟩)
    · exact .inl same.symm
    · obtain ⟨sc, matched⟩ := matchstr_prefixed first second
      apply Or.inr
      rw [text, matched]
      apply decide_eq_true
      rw [Memptr.read, ← List.drop_drop, List.drop_left, List.drop_one, List.tail_cons, List.take_length]

/-! ### Paths -/

def FirstNamed (name : List UInt8) (startNode node : Node) : Prop :=
  ∃ before after, childNodes startNode = before ++ node :: after ∧ Named name node ∧
    ∀ other ∈ before, ¬Named name other

def FirstPath : List (List UInt8) → Node → Node → Prop
  | [], startNode, node => node = startNode
  | name :: names, startNode, node => ∃ next, FirstNamed name startNode next ∧ FirstPath names next node

theorem domFindNode_iff {name : List UInt8} {startNode node : Node} :
    domFindNode name startNode = some node ↔ FirstNamed name startNode node := by
  have skipped (other : Node) : (!domCmpName name other) = true ↔ ¬Named name other := by
    rw [Bool.not_eq_true', ← domCmpName_iff, Bool.not_eq_true]
  rw [domFindNode, List.find?_eq_some_iff_append, domCmpName_iff]
  simp only [skipped]
  constructor
  · intro found
    obtain ⟨named, before, after, split, others⟩ := found
    exact ⟨before, after, split, named, others⟩
  · intro found
    obtain ⟨before, after, split, named, others⟩ := found
    exact ⟨named, before, after, split, others⟩

theorem domFindDeepNode_iff (first name : List UInt8) (names : List (List UInt8)) {startNode node : Node} :
    domFindDeepNode (first :: name :: names) startNode = some node ↔ FirstPath (name :: names) startNode node := by
  have walk (names : List (List UInt8)) (startNode : Node) :
      names.foldlM (fun node name => domFindNode name node) startNode = some node ↔ FirstPath names startNode node := by
    induction names generalizing startNode with
    | nil =>
      rw [List.foldlM_nil, FirstPath]
      exact ⟨fun same => (Option.some.inj same).symm, fun same => same ▸ rfl⟩
    | cons name names ih =>
      rw [List.foldlM_cons, FirstPath]
      change (domFindNode name startNode).bind _ = _ ↔ _
      rw [Option.bind_eq_some_iff]
      simp only [ih, domFindNode_iff]
  exact walk (name :: names) startNode

theorem FirstPath.unique {names : List (List UInt8)} {startNode node other : Node}
    (path : FirstPath names startNode node) (path' : FirstPath names startNode other) : node = other := by
  induction names generalizing startNode with
  | nil =>
    rw [FirstPath] at path path'
    rw [path, path']
  | cons name names ih =>
    obtain ⟨next, first, path⟩ := path
    obtain ⟨next', first', path'⟩ := path'
    have same := (domFindNode_iff.mpr first).symm.trans (domFindNode_iff.mpr first')
    exact ih path (Option.some.inj same ▸ path')

/-! ### What is found in a document -/

section Read
variable {errorChar : Int}

theorem nodesRead_mem {nodes : List Node} {node : Node} (good : Ixml.NodesRead errorChar nodes)
    (member : node ∈ nodes) : Ixml.NodesRead errorChar [node] := by
  induction nodes with
  | nil => cases member
  | cons first nodes ih =>
    have parts : Ixml.NodesRead errorChar [first] ∧ Ixml.NodesRead errorChar nodes := by
      cases first with
      | element tag attrs children =>
        rw [Ixml.NodesRead] at good ⊢
        exact ⟨⟨good.1, good.2.1, good.2.2.1, by rw [Ixml.NodesRead]; trivial⟩, good.2.2.2⟩
      | text value =>
        rw [Ixml.NodesRead] at good ⊢
        exact ⟨⟨good.1, by rw [Ixml.NodesRead]; trivial⟩, good.2⟩
      | cdataSection value =>
        rw [Ixml.NodesRead] at good ⊢
        exact ⟨⟨good.1, by rw [Ixml.NodesRead]; trivial⟩, good.2⟩
    rw [List.mem_cons] at member
    cases member with
    | inl same => exact same ▸ parts.1
    | inr later => exact ih parts.2 later

theorem nodesRead_childNodes {node : Node} (good : Ixml.NodesRead errorChar [node]) :
    Ixml.NodesRead errorChar (childNodes node) := by
  cases node with
  | element tag attrs children =>
    rw [Ixml.NodesRead] at good
    exact good.2.2.1
  | text value =>
    rw [childNodes, Ixml.NodesRead]
    · trivial
    · rintro _ _ _ ⟨⟩
  | cdataSection value =>
    rw [childNodes, Ixml.NodesRead]
    · trivial
    · rintro _ _ _ ⟨⟩

theorem FirstPath.nodesRead {names : List (List UInt8)} {startNode node : Node}
    (path : FirstPath names startNode node) (good : Ixml.NodesRead errorChar [startNode]) :
    Ixml.NodesRead errorChar [node] := by
  induction names generalizing startNode with
  | nil =>
    rw [FirstPath] at path
    exact path ▸ good
  | cons name names ih =>
    obtain ⟨next, ⟨before, after, split, -⟩, path⟩ := path
    apply ih path
    apply nodesRead_mem (nodesRead_childNodes good)
    rw [split]
    exact List.mem_append_right before List.mem_cons_self

end Read

/-- The names of text and of CDATA sections end otherwise than that of an element that is looked for. -/
theorem Named.element {name : List UInt8} {c : UInt8} {node : Node} (named : Named name node)
    (last : name.getLast? = some c) (noText : c ≠ 116) (noSection : c ≠ 110) :
    ∃ tag attrs children, node = .element tag attrs children := by
  have ends : (nodeName node).getLast? = some c := by
    cases named with
    | inl same => rw [same, last]
    | inr behind =>
      obtain ⟨pre, -, -, text⟩ := behind
      rw [text, List.getLast?_append, List.getLast?_cons, last]
      rfl
  cases node with
  | element tag attrs children => exact ⟨tag, attrs, children, rfl⟩
  | text value =>
    have text : (bytes "#text").getLast? = some 116 := by decide
    rw [nodeName, text] at ends
    exact absurd (Option.some.inj ends).symm noText
  | cdataSection value =>
    have text : (bytes "#cdata-section").getLast? = some 110 := by decide
    rw [nodeName, text] at ends
    exact absurd (Option.some.inj ends).symm noSection

theorem FirstPath.named {first : List UInt8} {names : List (List UInt8)} {name : List UInt8} {startNode node : Node}
    (path : FirstPath (first :: names) startNode node) (last : (first :: names).getLast? = some name) :
    Named name node := by
  induction names generalizing first startNode with
  | nil =>
    obtain ⟨next, ⟨-, -, -, named, -⟩, same⟩ := path
    rw [List.getLast?_singleton] at last
    rw [FirstPath] at same
    rw [same, ← Option.some.inj last]
    exact named
  | cons second names ih =>
    obtain ⟨next, -, path⟩ := path
    rw [List.getLast?_cons_cons] at last
    exact ih path last

end Pupnp.Soap
