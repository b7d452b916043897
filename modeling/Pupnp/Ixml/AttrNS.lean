import Pupnp.Ixml.AttrRuns

/-!
The searches for an attribute by its namespace and its local name, and for one like a given node: they do what
they are asked for exactly when every string that they compare on the way is there.
-/

namespace Pupnp.Ixml.Dom
open Pupnp.Cells Pupnp.Linked Pupnp.CString

abbrev uriOf (memory : Memory Cell) := field (·.namespaceURI) memory
abbrev localOf (memory : Memory Cell) := field (·.localName) memory

def hasName (memory : Memory Cell) (namespaceURI localName : List UInt8) (a : Nat) : Bool :=
  decide (uriOf memory a = some namespaceURI) && decide (localOf memory a = some localName)

/-- The attribute that is asked for, if there is one. -/
def asked (memory : Memory Cell) (attrs : List Nat) (namespaceURI localName : Option (List UInt8)) : Option Nat :=
  namespaceURI.bind fun namespaceURI => localName.bind fun localName =>
    attrs.find? (hasName memory namespaceURI localName)

def UpTo (attrs : List Nat) (isIt : Nat → Bool) (holds : Nat → Prop) : Prop :=
  ∀ before b after, attrs = before ++ b :: after → (∀ a ∈ before, isIt a = false) → holds b

/-- Up to the attribute that is asked for, all have a local name, and those with the one asked for a namespace. -/
def Comparable (memory : Memory Cell) (attrs : List Nat) (namespaceURI localName : Option (List UInt8)) : Prop :=
  ∀ u ∈ namespaceURI, ∀ n ∈ localName, UpTo attrs (hasName memory u n) fun b =>
    localOf memory b ≠ none ∧ (localOf memory b = some n → uriOf memory b ≠ none)

/-! ### Searches -/

section Matches
variable {isIt : Nat → Option Bool} {p : Nat → Bool} {attrs : List Nat}

theorem UpTo.cons {a : Nat} {holds : Nat → Prop} :
    UpTo (a :: attrs) p holds ↔ holds a ∧ (p a = false → UpTo attrs p holds) := by
  constructor
  · intro upTo
    refine ⟨upTo [] a attrs rfl fun _ member => absurd member List.not_mem_nil, fun other before b after split skipped => ?_⟩
    exact upTo (a :: before) b after (by rw [split, List.cons_append]) (List.forall_mem_cons.mpr ⟨other, skipped⟩)
  · rintro ⟨here, later⟩ before b after split skipped
    cases before with
    | nil =>
      obtain ⟨rfl, -⟩ := List.cons.inj split
      exact here
    | cons c before =>
      obtain ⟨rfl, behind⟩ := List.cons.inj split
      obtain ⟨other, skipped⟩ := List.forall_mem_cons.mp skipped
      exact later other before b after behind skipped

/-- A search finds what it looks for, if the comparisons up to there can be made, and else does not return. -/
theorem firstMatch_finds (agrees : ∀ a x, isIt a = some x → x = p a) :
    (firstMatch isIt attrs = some (attrs.find? p) ∧ UpTo attrs p fun b => isIt b ≠ none) ∨
      (firstMatch isIt attrs = none ∧ ¬UpTo attrs p fun b => isIt b ≠ none) := by
  induction attrs with
  | nil => exact .inl ⟨rfl, fun before b after split => absurd split.symm (by simp)⟩
  | cons a rest ih =>
    rw [UpTo.cons, firstMatch]
    cases compared : isIt a with
    | none => exact .inr ⟨rfl, fun upTo => upTo.1 rfl⟩
    | some found =>
      have same := agrees a found compared
      rw [Option.bind_some]
      cases found with
      | true =>
        rw [if_pos rfl, List.find?_cons_of_pos same.symm, ← same]
        exact .inl ⟨rfl, by simp, fun other => by cases other⟩
      | false =>
        rw [if_neg Bool.false_ne_true, List.find?_cons_of_neg (by simp [← same])]
        rcases ih with ⟨searched, upTo⟩ | ⟨searched, notUpTo⟩
        · exact .inl ⟨searched, by simp, fun _ => upTo⟩
        · exact .inr ⟨searched, fun upTo => notUpTo (upTo.2 same.symm)⟩

end Matches

section Comparisons

theorem strcmpEq_agrees {s1 s2 : Option (List UInt8)} {x : Bool} (compared : strcmpEq s1 s2 = some x) :
    x = decide (s1 = s2) := by
  cases s1 with
  | none => cases compared
  | some s1 =>
    cases s2 with
    | none => cases compared
    | some s2 =>
      have same : decide (s1 = s2) = x := Option.some.inj compared
      simp [← same]

theorem both_agrees {left right : Option Bool} {p q : Prop} [Decidable p] [Decidable q]
    (first : ∀ {x}, left = some x → x = decide p) (second : ∀ {x}, right = some x → x = decide q) {x : Bool}
    (compared : both left right = some x) : x = decide (p ∧ q) := by
  obtain ⟨holds, left, rest⟩ := Option.bind_eq_some_iff.mp compared
  have isFirst := first left
  cases holds with
  | false =>
    have other : ¬p := of_decide_eq_false isFirst.symm
    have same : false = x := Option.some.inj rest
    rw [← same, decide_eq_false fun pair => other pair.1]
  | true =>
    have this : p := of_decide_eq_true isFirst.symm
    rw [second rest]
    simp [this]

variable {memory : Memory Cell} {namespaceURI localName : List UInt8} {a : Nat}

theorem compareNS_agrees {x : Bool}
    (compared : compareAt memory (fun _ => nameIsNS (some namespaceURI) (some localName)) a = some x) :
    x = hasName memory namespaceURI localName a := by
  obtain ⟨cell, found, compared⟩ := Option.bind_eq_some_iff.mp compared
  rw [both_agrees strcmpEq_agrees strcmpEq_agrees compared, hasName, uriOf, localOf, field_found found,
    field_found found, Bool.decide_and, Bool.and_comm]

theorem compareNS_none :
    compareAt memory (fun _ => nameIsNS (some namespaceURI) (some localName)) a ≠ none ↔
      localOf memory a ≠ none ∧ (localOf memory a = some localName → uriOf memory a ≠ none) := by
  cases found : memory.lookup a with
  | none => simp [compareAt, found, localOf, field]
  | some cell =>
    rw [compareAt, found, Option.bind_some, localOf, field_found found, uriOf, field_found found, nameIsNS, both]
    cases cell.localName with
    | none => simp [strcmpEq]
    | some name =>
      by_cases same : name = localName
      · cases cell.namespaceURI <;> simp [strcmpEq, same]
      · simp [strcmpEq, same]

end Comparisons

section Calls
variable {memory : Memory Cell} {element : Nat} {attrs : List Nat}

/-- A search by a namespace and a local name finds what is asked for, or a string that it compares is missing. -/
theorem Listed.searchedNS (listed : Listed memory element attrs) (namespaceURI localName : List UInt8) :
    (searchAttrs memory (fun _ => nameIsNS (some namespaceURI) (some localName)) element =
        some (asked memory attrs (some namespaceURI) (some localName)) ∧
      Comparable memory attrs (some namespaceURI) (some localName)) ∨
    (searchAttrs memory (fun _ => nameIsNS (some namespaceURI) (some localName)) element = none ∧
      ¬Comparable memory attrs (some namespaceURI) (some localName)) := by
  have comparable : Comparable memory attrs (some namespaceURI) (some localName) ↔
      UpTo attrs (hasName memory namespaceURI localName) fun b =>
        compareAt memory (fun _ => nameIsNS (some namespaceURI) (some localName)) b ≠ none := by
    simp only [compareNS_none]
    exact ⟨fun all => all _ rfl _ rfl, fun upTo u isU n isN => Option.some.inj isU ▸ Option.some.inj isN ▸ upTo⟩
  rw [listed.searched, comparable]
  exact firstMatch_finds fun _ _ => compareNS_agrees

variable (namespaceURI localName : Option (List UInt8))

theorem asked_cases : (∃ u n, namespaceURI = some u ∧ localName = some n) ∨
    ((namespaceURI = none ∨ localName = none) ∧ asked memory attrs namespaceURI localName = none ∧
      Comparable memory attrs namespaceURI localName) := by
  cases namespaceURI with
  | none => exact .inr ⟨.inl rfl, rfl, fun _ given => by cases given⟩
  | some u =>
    cases localName with
    | none => exact .inr ⟨.inr rfl, rfl, fun _ _ _ given => by cases given⟩
    | some n => exact .inl ⟨u, n, rfl, rfl⟩

theorem getAttributeNodeNS_iff (listed : Listed memory element attrs) :
    getAttributeNodeNS memory (some element) namespaceURI localName = some (asked memory attrs namespaceURI localName) ↔
      Comparable memory attrs namespaceURI localName := by
  rcases @asked_cases memory attrs namespaceURI localName with ⟨u, n, rfl, rfl⟩ | ⟨missing, nothing, comparable⟩
  · rw [getAttributeNodeNS]
    rcases listed.searchedNS u n with ⟨searched, comparable⟩ | ⟨searched, not⟩
    · simp [searched, comparable]
    · simp [searched, not]
  · rcases missing with rfl | rfl
    · simp [getAttributeNodeNS, nothing, comparable]
    · cases namespaceURI <;> simp [getAttributeNodeNS, nothing, comparable]

variable {namespaceURI localName} in
theorem asked_mem {b : Nat} (isAsked : asked memory attrs namespaceURI localName = some b) : b ∈ attrs := by
  obtain ⟨u, -, isAsked⟩ := Option.bind_eq_some_iff.mp isAsked
  obtain ⟨n, -, isAsked⟩ := Option.bind_eq_some_iff.mp isAsked
  exact List.mem_of_find?_eq_some isAsked

theorem getAttributeNS_iff (listed : Listed memory element attrs) :
    getAttributeNS memory (some element) namespaceURI localName =
        some ((asked memory attrs namespaceURI localName).bind (valueOf memory)) ↔
      Comparable memory attrs namespaceURI localName := by
  rcases @asked_cases memory attrs namespaceURI localName with ⟨u, n, rfl, rfl⟩ | ⟨missing, nothing, comparable⟩
  · rw [getAttributeNS]
    rcases listed.searchedNS u n with ⟨searched, comparable⟩ | ⟨searched, not⟩
    · rw [searched, Option.bind_eq_bind, Option.bind_some]
      cases isAsked : asked memory attrs (some u) (some n) with
      | none => simp [comparable]
      | some b =>
        obtain ⟨cell, found⟩ := Option.isSome_iff_exists.mp (listed.allocated b (asked_mem isAsked))
        simp [found, valueOf, field_found found, comparable]
    · simp [searched, not]
  · rcases missing with rfl | rfl
    · simp [getAttributeNS, nothing, comparable]
    · cases namespaceURI <;> simp [getAttributeNS, nothing, comparable]

def codeNS (namespaceURI localName : Option (List UInt8)) : AttrCode :=
  if namespaceURI.isSome && localName.isSome then .success else .invalidParameter

/-- The memory with a change of the attribute that is asked for, if there is one. -/
def changed (memory : Memory Cell) (a : Option Nat) (change : Cell → Cell) : Memory Cell :=
  (storeAt memory a change).getD memory

theorem removeAttributeNS_iff (listed : Listed memory element attrs) :
    removeAttributeNS memory (some element) namespaceURI localName =
        some (codeNS namespaceURI localName,
          changed memory (asked memory attrs namespaceURI localName) ({ · with nodeValue := none })) ↔
      Comparable memory attrs namespaceURI localName := by
  rcases @asked_cases memory attrs namespaceURI localName with ⟨u, n, rfl, rfl⟩ | ⟨missing, nothing, comparable⟩
  · rw [removeAttributeNS]
    rcases listed.searchedNS u n with ⟨searched, comparable⟩ | ⟨searched, not⟩
    · rw [searched, Option.bind_eq_bind, Option.bind_some]
      cases isAsked : asked memory attrs (some u) (some n) with
      | none => simp [comparable, changed, storeAt, codeNS]
      | some b =>
        obtain ⟨memory', ran, -⟩ :=
          store_stored (listed.allocated b (asked_mem isAsked)) ({ · with nodeValue := none })
        simp [ran, comparable, changed, storeAt, codeNS]
    · simp [searched, not]
  · rcases missing with rfl | rfl
    · simp [removeAttributeNS, nothing, comparable, changed, storeAt, codeNS]
    · cases namespaceURI <;> simp [removeAttributeNS, nothing, comparable, changed, storeAt, codeNS]

/-! ### One like a given node -/

def comparedOf (memory : Memory Cell) (a : Nat) : Option Content :=
  (contentOf memory a).map fun content => { content with tagName := none }

/-- The node itself, or one with the same contents, the namespace and the local name among them. -/
def isNode (memory : Memory Cell) (oldAttr a : Nat) : Bool :=
  decide (a = oldAttr) || decide (comparedOf memory a = comparedOf memory oldAttr)

theorem compareContents_agrees {srcNode destNode : Content} {x : Bool}
    (compared : compareContents srcNode destNode = some x) :
    x = decide (({ srcNode with tagName := none } : Content) = { destNode with tagName := none }) := by
  have type {x : Bool} (compared : some (decide (srcNode.nodeType = destNode.nodeType)) = some x) :
      x = decide (srcNode.nodeType = destNode.nodeType) := (Option.some.inj compared).symm
  have all := both_agrees strcmpEq_agrees (both_agrees strcmpEq_agrees (both_agrees type
    (both_agrees strcmpEq_agrees (both_agrees strcmpEq_agrees strcmpEq_agrees)))) compared
  rw [all, decide_eq_decide, Content.mk.injEq]
  tauto

theorem sameNode_agrees {oldAttr a : Nat} {x : Bool} (compared : sameNode memory oldAttr a = some x) :
    x = isNode memory oldAttr a := by
  obtain ⟨dest, foundOld, compared⟩ := Option.bind_eq_some_iff.mp compared
  obtain ⟨cell, found, compared⟩ := Option.bind_eq_some_iff.mp compared
  change ixmlNodeCompare a oldAttr cell dest = some x at compared
  rw [ixmlNodeCompare] at compared
  rw [isNode]
  by_cases same : a = oldAttr
  · rw [if_pos same] at compared
    rw [decide_eq_true same, Bool.true_or, Option.some.inj compared]
  · rw [if_neg same] at compared
    rw [decide_eq_false same, Bool.false_or, compareContents_agrees compared, comparedOf, comparedOf, contentOf,
      field_found found, field_found foundOld, Option.map_some, Option.map_some, decide_eq_decide, Option.some.injEq]

/-- `ixmlElement_removeAttributeNode` finds the node or one with its contents, or a string that it compares is
missing. -/
theorem removeAttributeNode_iff (listed : Listed memory element attrs) {oldAttr : Nat}
    (allocated : (memory.lookup oldAttr).isSome) :
    (∃ memory', removeAttributeNode memory (some element) (some oldAttr) true =
        some (if (attrs.find? (isNode memory oldAttr)).isSome then .success else .notFoundErr,
          attrs.find? (isNode memory oldAttr), memory')) ↔
      UpTo attrs (isNode memory oldAttr) fun b => sameNode memory oldAttr b ≠ none := by
  rw [removeAttributeNode, listed.searchedNode allocated]
  rcases @firstMatch_finds (sameNode memory oldAttr) (isNode memory oldAttr) attrs fun _ _ => sameNode_agrees with
    ⟨searched, upTo⟩ | ⟨searched, not⟩
  · rw [searched, Option.bind_eq_bind, Option.bind_some]
    refine iff_of_true ?_ upTo
    cases isFound : attrs.find? (isNode memory oldAttr) with
    | none => exact ⟨memory, rfl⟩
    | some b =>
      rw [isFound] at searched
      obtain ⟨memory', ran, -⟩ :=
        listed.removes (List.mem_of_find?_eq_some isFound) ((listed.searchedNode allocated).trans searched)
      rw [removeAttributeNode, listed.searchedNode allocated, searched] at ran
      exact ⟨memory', ran⟩
  · refine iff_of_false ?_ not
    rintro ⟨memory', ran⟩
    rw [searched] at ran
    cases ran

/-! ### A value set -/

def refusalNS (namespaceURI qualifiedName value : Option (List UInt8)) : Option AttrCode :=
  match namespaceURI, qualifiedName, value with
  | some namespaceURI, some qualifiedName, some _ =>
      if !parserIsValidXmlName qualifiedName then some .invalidCharacterErr
      else if namespaceError (parserSetNodePrefixAndLocalName qualifiedName).1 namespaceURI qualifiedName then
        some .namespaceErr
      else none
  | _, _, _ => some .invalidParameter

def prefixOf (qualifiedName : List UInt8) : Option (List UInt8) := (parserSetNodePrefixAndLocalName qualifiedName).1

def localPart (qualifiedName : List UInt8) : List UInt8 := (parserSetNodePrefixAndLocalName qualifiedName).2

def contentNS (namespaceURI qualifiedName value : List UInt8) : Content where
  nodeType := .attribute
  nodeName := some qualifiedName
  nodeValue := some value
  namespaceURI := some namespaceURI
  prefixName := prefixOf qualifiedName
  localName := some (localPart qualifiedName)

/-- The attribute with this namespace and this local name is changed, or else there is a new one behind the others,
for which the element needs a document. -/
structure SetsNS (memory : Memory Cell) (element : Nat) (attrs : List Nat) (namespaceURI qualifiedName value : List UInt8)
    (result : AttrCode × Memory Cell) : Prop where
  found : ∀ b ∈ asked memory attrs (some namespaceURI) (some (localPart qualifiedName)), result =
    (.success, changed memory (some b) ({ · with prefixName := prefixOf qualifiedName, nodeValue := some value }))
  missing : asked memory attrs (some namespaceURI) (some (localPart qualifiedName)) = none →
    documentOf memory element = none → result = (.invalidParameter, memory)
  added : asked memory attrs (some namespaceURI) (some (localPart qualifiedName)) = none →
    documentOf memory element ≠ none → result.1 = .success ∧ ∃ new, memory.lookup new = none ∧
      attrList result.2 element = attrs ++ [new] ∧
        contentOf result.2 new = some (contentNS namespaceURI qualifiedName value) ∧
          ∀ c, c ≠ new → contentOf result.2 c = contentOf memory c

section Setting
variable {malloc : Malloc Cell} {u q v : List UInt8}

theorem setAttributeNS_refused {namespaceURI qualifiedName value : Option (List UInt8)} {code : AttrCode}
    (refused : refusalNS namespaceURI qualifiedName value = some code) :
    setAttributeNS malloc memory (some element) namespaceURI qualifiedName value = some (code, memory) := by
  rw [refusalNS.eq_def] at refused
  split at refused
  next u q v =>
    rw [setAttributeNS]
    split at refused
    next invalid =>
      rw [if_pos invalid, ← Option.some.inj refused]
    next valid =>
      rw [if_neg valid]
      split at refused
      next reserved =>
        rw [← Option.some.inj refused]
        exact if_pos reserved
      next => cases refused
  next incomplete =>
    rw [setAttributeNS.eq_def, ← Option.some.inj refused]
    split
    next u q v same => exact absurd rfl (incomplete _ _ _ rfl rfl)
    next => rfl

def cellNS (doc : Nat) (namespaceURI qualifiedName value : List UInt8) : Cell where
  toContent := contentNS namespaceURI qualifiedName value
  toLinks := {}
  ownerDocument := some doc

theorem createAttributeNSEx_created (malloc : Malloc Cell) (memory : Memory Cell) (doc : Nat) (u q v : List UInt8) :
    ∃ new memory₂ memory₃, createAttributeNSEx malloc memory (some doc) u q = some (.success, some new, memory₂) ∧
      store memory₂ new ({ · with nodeValue := some v }) = some memory₃ ∧ memory.lookup new = none ∧
        memory₃.lookup new = some (cellNS doc u q v) ∧ ∀ c, c ≠ new → memory₃.lookup c = memory.lookup c := by
  have absent := malloc.fresh memory
  set new := malloc.address memory with address
  set attr : Cell := { nodeType := .attribute, nodeName := some q, ownerDocument := some doc } with isAttr
  have created : createAttributeEx malloc memory (some doc) q = some (new, memory.insert new attr) := rfl
  have found : (memory.insert new attr).lookup new = some attr := AList.lookup_insert memory
  obtain ⟨memory₁, ran₁, found₁, kept₁⟩ := store_found found ({ · with namespaceURI := some u })
  obtain ⟨memory₂, ran₂, found₂, kept₂⟩ := store_found found₁ (setNodeName · q)
  obtain ⟨memory₃, ran₃, found₃, kept₃⟩ := store_found found₂ ({ · with nodeValue := some v })
  refine ⟨new, memory₂, memory₃, ?_, ran₃, absent, found₃, fun c other => ?_⟩
  · simp only [createAttributeNSEx, created, Option.bind_eq_bind, Option.bind_some, ran₁, ran₂]
  · rw [kept₃ c other, kept₂ c other, kept₁ c other]
    exact AList.lookup_insert_ne other

theorem Listed.addsNS (listed : Listed memory element attrs) {e : Cell} (owner : memory.lookup element = some e) {doc new : Nat}
    (document : e.ownerDocument = some doc) {memory₃ : Memory Cell} (absent : memory.lookup new = none)
    (found : memory₃.lookup new = some (cellNS doc u q v)) (kept : ∀ c, c ≠ new → memory₃.lookup c = memory.lookup c)
    (searched : searchAttrs memory (fun _ => nameIsNS (some u) (some (localPart q))) element = some none) :
    ∃ memory₅, setAttributeNodeNS memory₃ (some element) (some new) true = some (.success, none, memory₅) ∧
      attrList memory₅ element = attrs ++ [new] ∧ contentOf memory₅ = contentOf memory₃ := by
  have notNew {c : Nat} (allocated : (memory.lookup c).isSome) : c ≠ new := by
    rintro rfl
    rw [absent] at allocated
    cases allocated
  have notElement : element ≠ new := notNew listed.owner
  have outside : new ∉ attrs := fun member => notNew (listed.allocated new member) rfl
  have owner₃ : memory₃.lookup element = some e := (kept element notElement).trans owner
  obtain ⟨memory₄, taken⟩ := Taken.exists_taken found owner₃ document.symm
  have same₄ (c : Nat) (other : c ≠ new) : memory₄.lookup c = memory.lookup c := by
    rw [taken.stored c, if_neg fun here => other (Option.some.inj here).symm, kept c other]
  have sameListed (c : Nat) (inside : c = element ∨ c ∈ attrs) : memory₄.lookup c = memory.lookup c := by
    apply same₄
    rcases inside with rfl | member
    · exact notElement
    · exact notNew (listed.allocated c member)
  have listed₄ : Listed memory₄ element attrs := by
    apply listed.of_lookup sameListed
    intro c allocated
    rwa [same₄ c (notNew allocated)]
  have searched₄ : searchAttrs memory₄ (fun _ => nameIsNS (some u) (some (localPart q))) element = some none := by
    rw [listed.searched] at searched
    rw [listed₄.searched, ← searched]
    apply firstMatch_congr
    intro c member
    rw [compareAt, compareAt, sameListed c (.inr member)]
  have new₄ : (memory₄.lookup new).isSome := by
    rw [taken.stored.isSome, found]
    rfl
  have last : nextOf memory₄ new = none := (congrFun taken.links.2 new).trans (field_found found)
  have nodup : (attrs ++ [new]).Nodup := listed.nodup.append (List.nodup_singleton new) (by simpa using outside)
  have contents₄ : contentOf memory₄ = contentOf memory₃ := taken.stored.field_same fun _ => rfl
  have allocated₄ : ∀ c ∈ attrs ++ [new], (memory₄.lookup c).isSome := by
    intro c member
    rcases List.mem_append.mp member with inside | inside
    · exact listed₄.allocated c inside
    · exact List.mem_singleton.mp inside ▸ new₄
  obtain ⟨memory₅, ran₅, allocated₅, contents₅, first₅, follows₅⟩ : ∃ memory₅,
      appendAttr memory₄ element new false = some memory₅ ∧
        (∀ c, (memory₅.lookup c).isSome = (memory₄.lookup c).isSome) ∧ contentOf memory₅ = contentOf memory₄ ∧
          firstOf memory₅ element = (attrs ++ [new]).head? ∧ Follows (nextOf memory₅) (attrs ++ [new]) := by
    by_cases empty : attrs = []
    · obtain rfl := empty
      obtain ⟨memory₅, ran₅, allocated₅, contents₅, first₅, -, next₅⟩ := listed₄.appendsFirst new₄ false
      exact ⟨memory₅, ran₅, allocated₅, contents₅, first₅, next₅, trivial⟩
    · obtain ⟨p, memory₅, isLast, ran₅, allocated₅, contents₅, first₅, next₅, -⟩ :=
        listed₄.appendsLast empty new₄ false
      refine ⟨memory₅, ran₅, allocated₅, contents₅, ?_, ?_⟩
      · rw [first₅, listed₄.first, List.head?_append_of_ne_nil _ empty]
      · rw [next₅, ← isLast]
        exact listed₄.follows.concat nodup last
  refine ⟨memory₅, taken.appendsNS (.inl rfl) searched₄ ran₅ true, ?_, contents₅.trans contents₄⟩
  apply attrList_eq first₅ follows₅ nodup
  intro c member
  rw [allocated₅]
  exact allocated₄ c member

theorem setAttributeNS_iff (listed : Listed memory element attrs) (accepted : refusalNS (some u) (some q) (some v) = none) :
    (∃ result, setAttributeNS malloc memory (some element) (some u) (some q) (some v) = some result ∧
      SetsNS memory element attrs u q v result) ↔ Comparable memory attrs (some u) (some (localPart q)) := by
  obtain ⟨valid, free⟩ : parserIsValidXmlName q = true ∧ namespaceError (prefixOf q) u q = false := by
    simp only [refusalNS] at accepted
    split at accepted
    next => cases accepted
    next valid =>
      split at accepted
      next => cases accepted
      next free => exact ⟨by simpa using valid, Bool.eq_false_of_not_eq_true free⟩
  rw [prefixOf] at free
  simp only [setAttributeNS, valid, Bool.not_true, Bool.false_eq_true, if_false, free]
  rcases listed.searchedNS u (localPart q) with ⟨searched, comparable⟩ | ⟨searched, not⟩
  · rw [localPart] at searched
    refine iff_of_true ?_ comparable
    rw [searched, Option.bind_eq_bind, Option.bind_some]
    cases isAsked : asked memory attrs (some u) (some (parserSetNodePrefixAndLocalName q).2) with
    | some b =>
      obtain ⟨memory', ran, -⟩ := store_stored (listed.allocated b (asked_mem isAsked))
        ({ · with prefixName := prefixOf q, nodeValue := some v })
      refine ⟨(.success, memory'), ?_, fun c here => ?_, fun none_ => ?_, fun none_ => ?_⟩
      · rw [prefixOf] at ran
        dsimp only
        rw [ran]
        rfl
      · have same : b = c := Option.some.inj (isAsked.symm.trans here)
        rw [← same, changed, storeAt, ran]
        rfl
      · rw [localPart, isAsked] at none_
        cases none_
      · rw [localPart, isAsked] at none_
        cases none_
    | none =>
      obtain ⟨e, foundElement⟩ := Option.isSome_iff_exists.mp listed.owner
      have owned : documentOf memory element = e.ownerDocument := field_found foundElement
      have notFound : ∀ b ∈ asked memory attrs (some u) (some (localPart q)), False := by
        intro b here
        rw [localPart, isAsked] at here
        cases here
      simp only [foundElement, Option.bind_eq_bind, Option.bind_some]
      cases document : e.ownerDocument with
      | none =>
        refine ⟨(.invalidParameter, memory), rfl, fun b here => (notFound b here).elim, fun _ _ => rfl, ?_⟩
        intro _ given
        rw [owned] at given
        exact absurd document given
      | some doc =>
        obtain ⟨new, memory₂, memory₃, created, ran₃, absent, found, kept⟩ :=
          createAttributeNSEx_created malloc memory doc u q v
        rw [isAsked] at searched
        obtain ⟨memory₅, ran₅, list₅, contents₅⟩ := listed.addsNS foundElement document absent found kept searched
        refine ⟨(.success, memory₅), ?_, fun b here => (notFound b here).elim, ?_, ?_⟩
        · simp only [created, Option.bind_some, ran₃, ran₅, ne_eq, not_true_eq_false, if_false]
        · intro _ missing
          rw [owned, document] at missing
          cases missing
        · refine fun _ _ => ⟨rfl, new, absent, list₅, ?_, fun c other => ?_⟩
          · rw [contents₅, contentOf, field_found found]
            rfl
          · rw [contents₅, contentOf, field, kept c other]
            rfl
  · rw [localPart] at searched
    refine iff_of_false ?_ not
    rintro ⟨result, ran, -⟩
    rw [searched] at ran
    cases ran

end Setting

/-- Each of the five calls does what it is asked for if and only if no string that it compares is missing. -/
theorem callsNS_iff (listed : Listed memory element attrs) (malloc : Malloc Cell)
    (namespaceURI localName qualifiedName value : Option (List UInt8)) {oldAttr : Nat}
    (allocated : (memory.lookup oldAttr).isSome) :
    (getAttributeNS memory (some element) namespaceURI localName =
        some ((asked memory attrs namespaceURI localName).bind (valueOf memory)) ↔
      Comparable memory attrs namespaceURI localName) ∧
    (getAttributeNodeNS memory (some element) namespaceURI localName =
        some (asked memory attrs namespaceURI localName) ↔
      Comparable memory attrs namespaceURI localName) ∧
    (removeAttributeNS memory (some element) namespaceURI localName =
        some (codeNS namespaceURI localName,
          changed memory (asked memory attrs namespaceURI localName) ({ · with nodeValue := none })) ↔
      Comparable memory attrs namespaceURI localName) ∧
    ((∃ result, setAttributeNS malloc memory (some element) namespaceURI qualifiedName value = some result ∧
        (∀ code ∈ refusalNS namespaceURI qualifiedName value, result = (code, memory)) ∧
          (refusalNS namespaceURI qualifiedName value = none → ∀ u ∈ namespaceURI, ∀ q ∈ qualifiedName, ∀ v ∈ value,
            SetsNS memory element attrs u q v result)) ↔
      (refusalNS namespaceURI qualifiedName value = none →
        Comparable memory attrs namespaceURI (qualifiedName.map localPart))) ∧
    ((∃ memory', removeAttributeNode memory (some element) (some oldAttr) true =
        some (if (attrs.find? (isNode memory oldAttr)).isSome then .success else .notFoundErr,
          attrs.find? (isNode memory oldAttr), memory')) ↔
      UpTo attrs (isNode memory oldAttr) fun b => sameNode memory oldAttr b ≠ none) := by
  refine ⟨getAttributeNS_iff namespaceURI localName listed, getAttributeNodeNS_iff namespaceURI localName listed,
    removeAttributeNS_iff namespaceURI localName listed, ?_, removeAttributeNode_iff listed allocated⟩
  cases refused : refusalNS namespaceURI qualifiedName value with
  | some code =>
      refine iff_of_true ⟨(code, memory), setAttributeNS_refused refused, ?_, (fun other => by cases other)⟩
        (fun other => by cases other)
      exact fun _ given => Option.some.inj given ▸ rfl
  | none =>
      cases namespaceURI with
      | none => cases refused
      | some u =>
          cases qualifiedName with
          | none => cases refused
          | some q =>
              cases value with
              | none => cases refused
              | some v =>
                  have sets := @setAttributeNS_iff memory element attrs malloc u q v listed refused
                  constructor
                  · rintro ⟨result, ran, -, behaves⟩ _
                    exact sets.mp ⟨result, ran, behaves rfl u rfl q rfl v rfl⟩
                  · intro comparable
                    obtain ⟨result, ran, behaves⟩ := sets.mpr (comparable rfl)
                    refine ⟨result, ran, (fun _ other => by cases other), fun _ u' isU q' isQ v' isV => ?_⟩
                    obtain rfl := Option.some.inj isU
                    obtain rfl := Option.some.inj isQ
                    obtain rfl := Option.some.inj isV
                    exact behaves

end Calls

/-- An element with an attribute `n` of the namespace `u`, and behind it a plain attribute `a`. -/
def mixedAttributes : Memory Cell :=
  ((AList.singleton 1 { nodeType := .element, firstAttr := some 2, ownerDocument := some 100 }).insert 2
    { nodeType := .attribute, nodeName := some [112, 58, 110], nodeValue := some [49], namespaceURI := some [117],
      prefixName := some [112], localName := some [110], nextSibling := some 3, ownerDocument := some 100 }).insert 3
    { nodeType := .attribute, nodeName := some [97], nodeValue := some [50], prevSibling := some 2,
      ownerDocument := some 100 }

theorem mixedAttributes_listed : Listed mixedAttributes 1 [2, 3] where
  owner := rfl
  first := rfl
  apart := by decide
  nodup := by decide
  follows := ⟨rfl, rfl, trivial⟩
  allocated := by decide
  before := by decide

/-- The attribute in front is found. -/
theorem callsNS_mixed :
    getAttributeNS mixedAttributes (some 1) (some [117]) (some [110]) = some (some [49]) := by
  have comparable : Comparable mixedAttributes [2, 3] (some [117]) (some [110]) := by
    intro u isU n isN before b after split skipped
    obtain rfl := Option.some.inj isU
    obtain rfl := Option.some.inj isN
    cases before with
    | nil =>
        obtain ⟨rfl, -⟩ := List.cons.inj split
        decide
    | cons c before =>
        obtain ⟨rfl, -⟩ := List.cons.inj split
        exact absurd (skipped 2 List.mem_cons_self) (by decide)
  have found := (callsNS_iff mixedAttributes_listed .behind (some [117]) (some [110]) none none
    (show (mixedAttributes.lookup 3).isSome by decide)).1.mpr comparable
  rw [found]
  rfl

/-- With one plain attribute, set by `ixmlElement_setAttribute`, each of the five calls gives NULL to `strcmp`. -/
theorem callsNS_plain :
    ∃ state, Run.run (attrStep .behind 1) [.setAttribute (some [97]) (some [49])] looseAttribute = some state ∧
      getAttributeNS state.memory (some 1) (some [117]) (some [97]) = none ∧
        getAttributeNodeNS state.memory (some 1) (some [117]) (some [97]) = none ∧
          (removeAttributeNS state.memory (some 1) (some [117]) (some [97])).isNone ∧
            (setAttributeNS .behind state.memory (some 1) (some [117]) (some [97]) (some [50])).isNone ∧
              (removeAttributeNode state.memory (some 1) (some 2) true).isNone := by
  have returns : (Run.run (attrStep .behind 1) [.setAttribute (some [97]) (some [49])] looseAttribute).isSome := by
    decide +kernel
  obtain ⟨state, ran⟩ := Option.isSome_iff_exists.mp returns
  have faults : ∀ t ∈ Run.run (attrStep .behind 1) [.setAttribute (some [97]) (some [49])] looseAttribute,
      getAttributeNS t.memory (some 1) (some [117]) (some [97]) = none ∧
        getAttributeNodeNS t.memory (some 1) (some [117]) (some [97]) = none ∧
          (removeAttributeNS t.memory (some 1) (some [117]) (some [97])).isNone ∧
            (setAttributeNS .behind t.memory (some 1) (some [117]) (some [97]) (some [50])).isNone ∧
              (removeAttributeNode t.memory (some 1) (some 2) true).isNone := by decide +kernel
  exact ⟨state, ran, faults state ran⟩

end Pupnp.Ixml.Dom
