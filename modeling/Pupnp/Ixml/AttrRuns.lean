import Pupnp.Ixml.AttrLists
import Pupnp.Library.Run

/-!
Runs of calls on the attributes of one element, next to a map that every successful call changes. An attribute
that takes the place of another one gets none of its links, so it may stand alone only.
-/

namespace Pupnp.Ixml.Dom
open Pupnp.Cells Pupnp.Linked Nodes

abbrev documentOf (memory : Memory Cell) := field (·.ownerDocument) memory
abbrev elementOf (memory : Memory Cell) := field (·.ownerElement) memory

def follow (memory : Memory Cell) : Nat → Option Nat → List Nat
  | _, none => []
  | 0, some _ => []
  | rounds + 1, some a => a :: follow memory rounds (nextOf memory a)

def attrList (memory : Memory Cell) (element : Nat) : List Nat :=
  follow memory (cellCount memory) (firstOf memory element)

/-! ### The calls -/

inductive AttrCall where
  | setAttribute (name value : Option (List UInt8))
  | setAttributeNode (newAttr : Option Nat) (rtAttr : Bool)
  | setAttributeNodeNS (newAttr : Option Nat) (rtAttr : Bool)
  | removeAttributeNode (oldAttr : Option Nat) (rtAttr : Bool)
  deriving DecidableEq, Repr

structure AttrState where
  memory : Memory Cell
  map : AttrMap

def putNode (memory : Memory Cell) (newAttr : Nat) (map : AttrMap) : AttrMap :=
  (nameOf memory newAttr).elim map fun name => map.put name (valueOf memory newAttr)

def eraseNode (memory : Memory Cell) (oldAttr : Nat) (map : AttrMap) : AttrMap :=
  (nameOf memory oldAttr).elim map map.erase

def eraseReplaced (memory : Memory Cell) (newAttr : Nat) (replaced : Option Nat) (map : AttrMap) : AttrMap :=
  replaced.elim map fun attrNode =>
    if nameOf memory attrNode = nameOf memory newAttr then map else eraseNode memory attrNode map

namespace AttrCall

def apply (malloc : Malloc Cell) (element : Nat) (memory : Memory Cell) :
    AttrCall → Option (AttrCode × Option Nat × Memory Cell)
  | setAttribute name value =>
      (Dom.setAttribute malloc memory (some element) name value).map fun result => (result.1, none, result.2)
  | setAttributeNode newAttr rtAttr => Dom.setAttributeNode memory (some element) newAttr rtAttr
  | setAttributeNodeNS newAttr rtAttr => Dom.setAttributeNodeNS memory (some element) newAttr rtAttr
  | removeAttributeNode oldAttr rtAttr => Dom.removeAttributeNode memory (some element) oldAttr rtAttr

def effect (memory : Memory Cell) (back : Option Nat) (map : AttrMap) : AttrCall → AttrMap
  | setAttribute (some name) value => map.put name value
  | setAttributeNode (some newAttr) _ => putNode memory newAttr map
  | setAttributeNodeNS (some newAttr) _ => putNode memory newAttr (eraseReplaced memory newAttr back map)
  | removeAttributeNode (some oldAttr) _ => eraseNode memory oldAttr map
  | _ => map

end AttrCall

def attrStep (malloc : Malloc Cell) (element : Nat) (call : AttrCall) (state : AttrState) : Option AttrState :=
  (call.apply malloc element state.memory).map fun result =>
    ⟨result.2.2, if result.1 = .success then call.effect state.memory result.2.1 state.map else state.map⟩

/-! ### The calls that fit -/

def IsAttr (memory : Memory Cell) (element a : Nat) : Prop := a ≠ element ∧ nameOf memory a ≠ none

def Discardable (memory : Memory Cell) (element newAttr attrNode : Nat) : Prop :=
  ∃ tree : Placed, tree.head = some attrNode ∧ Stands memory none none tree ∧ tree.alone = tree ∧
    Typed .attribute tree.contents ∧ tree.addresses.Nodup ∧ element ∉ tree.addresses ∧ newAttr ∉ tree.addresses

def FitsName (state : AttrState) (element : Nat) (name : List UInt8) : Prop :=
  parserIsValidXmlName name = true → name ∉ state.map.keys → documentOf state.memory element ≠ none

/-- An attribute that is in the list already is given back. A new one links nowhere, and if it has the name of
another attribute, that is the only one. -/
def FitsNode (memory : Memory Cell) (element newAttr : Nat) (rtAttr : Bool) : Prop :=
  documentOf memory newAttr = documentOf memory element → elementOf memory newAttr = none →
    (newAttr ∈ attrList memory element ∧ rtAttr = true) ∨
      (newAttr ∉ attrList memory element ∧ (attrList memory element ≠ [] → nextOf memory newAttr = none) ∧
        ∀ attrNode ∈ attrList memory element, nameOf memory attrNode = nameOf memory newAttr →
          attrList memory element = [attrNode] ∧ prevOf memory newAttr = none ∧
            (rtAttr = false → Discardable memory element newAttr attrNode))

def sameNS (memory : Memory Cell) (newAttr attrNode : Nat) : Option Bool :=
  (memory.lookup newAttr).bind fun node =>
    compareAt memory (fun _ => nameIsNS node.namespaceURI node.localName) attrNode

/-- The list is empty, or the attribute is found in it by comparisons that can be made, as itself or the only one. -/
def FitsNodeNS (memory : Memory Cell) (element newAttr : Nat) (rtAttr : Bool) : Prop :=
  documentOf memory newAttr = documentOf memory element →
    (elementOf memory newAttr = none ∨ elementOf memory newAttr = some element) →
      attrList memory element = [] ∨ (rtAttr = true ∧
        ∃ before attrNode after, attrList memory element = before ++ attrNode :: after ∧
          (∀ a ∈ before, sameNS memory newAttr a = some false) ∧ sameNS memory newAttr attrNode = some true ∧
            (attrNode = newAttr ∨ (attrList memory element = [attrNode] ∧ prevOf memory newAttr = none ∧
              nextOf memory newAttr = none)))

def sameNode (memory : Memory Cell) (oldAttr attrNode : Nat) : Option Bool :=
  (memory.lookup oldAttr).bind fun dest =>
    compareAt memory (fun attrNode cell => ixmlNodeCompare attrNode oldAttr cell dest) attrNode

def FitsRemove (memory : Memory Cell) (element oldAttr : Nat) (rtAttr : Bool) : Prop :=
  ∀ attrNode ∈ attrList memory element, sameNode memory oldAttr attrNode ≠ none ∧
    (sameNode memory oldAttr attrNode = some true → rtAttr = true)

def AttrCall.Fits (element : Nat) (state : AttrState) : AttrCall → Prop
  | .setAttribute (some name) (some _) => FitsName state element name
  | .setAttributeNode (some newAttr) rtAttr =>
      IsAttr state.memory element newAttr ∧ FitsNode state.memory element newAttr rtAttr
  | .setAttributeNodeNS (some newAttr) rtAttr =>
      IsAttr state.memory element newAttr ∧ FitsNodeNS state.memory element newAttr rtAttr
  | .removeAttributeNode (some oldAttr) rtAttr =>
      IsAttr state.memory element oldAttr ∧ FitsRemove state.memory element oldAttr rtAttr
  | _ => True

/-! ### What a call does -/

theorem follow_list {memory : Memory Cell} {attrs : List Nat} {rounds : Nat} (follows : Follows (nextOf memory) attrs)
    (enough : attrs.length ≤ rounds) : follow memory rounds attrs.head? = attrs := by
  induction attrs generalizing rounds with
  | nil => cases rounds <;> rfl
  | cons a rest ih =>
    cases rounds with
    | zero => cases enough
    | succ rounds =>
      rw [List.head?_cons, follow, follows.1, ih follows.2 (Nat.le_of_succ_le_succ enough)]

theorem attrList_eq {memory : Memory Cell} {element : Nat} {attrs : List Nat} (first : firstOf memory element = attrs.head?)
    (follows : Follows (nextOf memory) attrs) (nodup : attrs.Nodup)
    (allocated : ∀ a ∈ attrs, (memory.lookup a).isSome) : attrList memory element = attrs := by
  rw [attrList, first]
  exact follow_list follows (cellCount_le nodup allocated)

namespace Attributes
variable {memory : Memory Cell} {element : Nat} {attrs : List Nat} {map : AttrMap}

theorem list_eq (attributes : Attributes memory element attrs map) : attrList memory element = attrs :=
  attrList_eq attributes.first attributes.chain.forward attributes.nodup fun _ member => attributes.allocated member

theorem of_entries (attributes : Attributes memory element attrs map) {map' : AttrMap}
    (same : map'.entries = map.entries) : Attributes memory element attrs map' :=
  { attributes with entries := same ▸ attributes.entries }

theorem discarded {newAttr attrNode : Nat} {memory₀ : Memory Cell} (attributes : Attributes memory element [newAttr] map)
    (discardable : Discardable memory₀ element newAttr attrNode)
    (same : ∀ a, a ≠ element → a ≠ newAttr → memory.lookup a = memory₀.lookup a) :
    ∃ memory', ixmlAttrFree memory attrNode = some memory' ∧ Attributes memory' element [newAttr] map := by
  obtain ⟨tree, head, stands, detached, typed, nodup, notElement, notNew⟩ := discardable
  have standsNow : Stands memory none none tree := by
    apply stands.congr
    intro a member cell found
    rwa [same a (ne_of_mem_of_not_mem member notElement) (ne_of_mem_of_not_mem member notNew)]
  have enough : tree.size ≤ cellCount memory := by
    rw [← addresses_length]
    apply cellCount_le nodup
    intro a member
    obtain ⟨cell, found⟩ := standsNow.found member
    rw [found]
    rfl
  obtain ⟨state, ran, frees⟩ := ixmlNodeFree_frees standsNow detached (typed_attrsFlat typed) nodup enough
  refine ⟨state.memory, ?_, attributes.of_lookup fun a inside => frees.kept a ?_⟩
  · rw [ixmlAttrFree, ← head, ran]
    rfl
  · rcases inside with rfl | member
    · exact notElement
    · obtain rfl := List.mem_singleton.mp member
      exact notNew

end Attributes

def Goes (malloc : Malloc Cell) (element : Nat) (call : AttrCall) (state : AttrState) : Prop :=
  ∃ next attrs, attrStep malloc element call state = some next ∧ Attributes next.memory element attrs next.map

section Calls
variable {malloc : Malloc Cell} {element : Nat} {call : AttrCall} {state : AttrState} {attrs : List Nat}
  {memory' : Memory Cell} {back : Option Nat} {code : AttrCode}

theorem Goes.success (applied : call.apply malloc element state.memory = some (.success, back, memory'))
    (agrees : ∃ attrs', Attributes memory' element attrs' (call.effect state.memory back state.map)) :
    Goes malloc element call state := by
  obtain ⟨attrs', attributes⟩ := agrees
  refine ⟨⟨memory', call.effect state.memory back state.map⟩, attrs', ?_, attributes⟩
  rw [attrStep, applied, Option.map_some, if_pos rfl]

theorem Goes.refused (attributes : Attributes state.memory element attrs state.map)
    (applied : call.apply malloc element state.memory = some (code, back, state.memory)) (failed : code ≠ .success) :
    Goes malloc element call state := by
  refine ⟨⟨state.memory, state.map⟩, attrs, ?_, attributes⟩
  rw [attrStep, applied, Option.map_some, if_neg failed]

structure Taken (memory memory₁ : Memory Cell) (element a : Nat) (node e : Cell) : Prop where
  found : memory.lookup a = some node
  owner : memory.lookup element = some e
  document : node.ownerDocument = e.ownerDocument
  ran : store memory a ({ · with ownerElement := some element }) = some memory₁
  stored : Stored memory memory₁ (some a) ({ · with ownerElement := some element })

namespace Taken
variable {memory memory₁ memory₂ : Memory Cell} {a b : Nat} {node e : Cell} {map : AttrMap} {name : List UInt8}

theorem exists_taken (found : memory.lookup a = some node) (owner : memory.lookup element = some e)
    (document : node.ownerDocument = e.ownerDocument) : ∃ memory₁, Taken memory memory₁ element a node e := by
  have allocated : (memory.lookup a).isSome := by
    rw [found]
    rfl
  obtain ⟨memory₁, ran, stored⟩ := store_stored allocated ({ · with ownerElement := some element })
  exact ⟨memory₁, found, owner, document, ran, stored⟩

variable (taken : Taken memory memory₁ element a node e)
include taken

theorem attributes (attributes : Attributes memory element attrs map) : Attributes memory₁ element attrs map :=
  attributes.stored taken.stored (fun _ => rfl) fun _ => rfl

theorem same : shown memory₁ = shown memory := shown_stored taken.stored fun _ => rfl

theorem shows (named : nameOf memory a = some name) :
    nameOf memory₁ a = some name ∧ valueOf memory₁ a = valueOf memory a := by
  obtain ⟨sameName, sameValue⟩ := Prod.mk.inj (congrFun taken.same a)
  exact ⟨sameName.trans named, sameValue⟩

theorem links : prevOf memory₁ = prevOf memory ∧ nextOf memory₁ = nextOf memory :=
  ⟨taken.stored.field_same fun _ => rfl, taken.stored.field_same fun _ => rfl⟩

theorem replaces (unowned : node.ownerElement = none)
    (searched : searchAttrs memory₁ (fun _ => nameIs node.nodeName) element = some (some b))
    (replaced : replaceAttr memory₁ element a b = some memory₂) (rtAttr : Bool) :
    setAttributeNode memory (some element) (some a) rtAttr =
      if rtAttr then some (.success, some b, memory₂)
      else (ixmlAttrFree memory₂ b).map fun memory₃ => (.success, none, memory₃) := by
  simp only [setAttributeNode, taken.found, taken.owner, Option.bind_eq_bind, Option.bind_some]
  rw [if_neg (not_not.mpr taken.document), if_neg (not_not.mpr unowned), taken.ran, Option.bind_some, searched,
    Option.bind_some]
  dsimp only
  rw [replaced, Option.bind_some, Option.map_eq_bind]
  rfl

theorem appends (unowned : node.ownerElement = none)
    (searched : searchAttrs memory₁ (fun _ => nameIs node.nodeName) element = some none)
    (appended : appendAttr memory₁ element a true = some memory₂) (rtAttr : Bool) :
    setAttributeNode memory (some element) (some a) rtAttr = some (.success, none, memory₂) := by
  simp only [setAttributeNode, taken.found, taken.owner, Option.bind_eq_bind, Option.bind_some]
  rw [if_neg (not_not.mpr taken.document), if_neg (not_not.mpr unowned), taken.ran, Option.bind_some, searched,
    Option.bind_some]
  dsimp only
  rw [appended]
  rfl

theorem replacesNS (own : node.ownerElement = none ∨ node.ownerElement = some element)
    (searched : searchAttrs memory₁ (fun _ => nameIsNS node.namespaceURI node.localName) element = some (some b))
    (replaced : replaceAttr memory₁ element a b = some memory₂) :
    setAttributeNodeNS memory (some element) (some a) true = some (.success, some b, memory₂) := by
  simp only [setAttributeNodeNS, taken.found, taken.owner, Option.bind_eq_bind, Option.bind_some]
  rw [if_neg (not_not.mpr taken.document), if_neg (fun other => own.elim other.1 other.2), taken.ran, Option.bind_some,
    searched, Option.bind_some]
  dsimp only
  rw [replaced]
  rfl

theorem appendsNS (own : node.ownerElement = none ∨ node.ownerElement = some element)
    (searched : searchAttrs memory₁ (fun _ => nameIsNS node.namespaceURI node.localName) element = some none)
    (appended : appendAttr memory₁ element a false = some memory₂) (rtAttr : Bool) :
    setAttributeNodeNS memory (some element) (some a) rtAttr = some (.success, none, memory₂) := by
  simp only [setAttributeNodeNS, taken.found, taken.owner, Option.bind_eq_bind, Option.bind_some]
  rw [if_neg (not_not.mpr taken.document), if_neg (fun other => own.elim other.1 other.2), taken.ran, Option.bind_some,
    searched, Option.bind_some]
  dsimp only
  rw [appended]
  rfl

theorem sameNS_eq (c : Nat) :
    sameNS memory a c = compareAt memory₁ (fun _ => nameIsNS node.namespaceURI node.localName) c := by
  rw [sameNS, taken.found, Option.bind_some]
  exact (congrFun (taken.stored.field_same fun _ => rfl) c).symm

end Taken

theorem setAttributeNode_goes (attributes : Attributes state.memory element attrs state.map) (newAttr : Option Nat)
    (rtAttr : Bool) (fits : (AttrCall.setAttributeNode newAttr rtAttr).Fits element state) :
    Goes malloc element (.setAttributeNode newAttr rtAttr) state := by
  cases newAttr with
  | none => exact @Goes.refused _ _ _ _ _ none .invalidParameter attributes rfl (by simp)
  | some a =>
    obtain ⟨⟨apart, isNamed⟩, fits⟩ := fits
    obtain ⟨name, named⟩ := Option.ne_none_iff_exists'.mp isNamed
    obtain ⟨node, found⟩ := Option.isSome_iff_exists.mp (nameOf_isSome named)
    obtain ⟨e, foundElement⟩ := Option.isSome_iff_exists.mp attributes.owner
    rw [FitsNode, documentOf, field_found found, field_found foundElement, elementOf, field_found found,
      attributes.list_eq] at fits
    by_cases document : node.ownerDocument = e.ownerDocument
    swap
    · apply @Goes.refused _ _ _ _ _ none .wrongDocumentErr attributes _ (by simp)
      simp only [AttrCall.apply, setAttributeNode, found, foundElement, Option.bind_eq_bind, Option.bind_some]
      exact if_pos document
    by_cases unowned : node.ownerElement = none
    swap
    · apply @Goes.refused _ _ _ _ _ none .inuseAttributeErr attributes _ (by simp)
      simp only [AttrCall.apply, setAttributeNode, found, foundElement, Option.bind_eq_bind, Option.bind_some]
      rw [if_neg (not_not.mpr document)]
      exact if_pos unowned
    obtain ⟨memory₁, taken⟩ := Taken.exists_taken found foundElement document
    have attributes₁ := taken.attributes attributes
    have nodeName : node.nodeName = some name := (field_found found).symm.trans named
    have shows := taken.shows named
    have put : putNode state.memory a state.map = state.map.put name (valueOf state.memory a) := by
      rw [putNode, named, Option.elim_some]
    rcases fits document unowned with ⟨member, given⟩ | ⟨outside, last, alone⟩
    · obtain ⟨before, after, front, value, rear, stands⟩ := attributes₁.at_of_member member shows.1
      have searched := attributes₁.searched_at stands
      rw [← nodeName] at searched
      obtain ⟨memory₂, ran₂, attributes₂⟩ := attributes₁.replacedItself member
      have applied := taken.replaces unowned searched ran₂ rtAttr
      rw [if_pos given] at applied
      refine Goes.success applied ⟨attrs, ?_⟩
      rw [AttrCall.effect, put]
      apply attributes₂.of_entries
      rw [OrderedMap.put_entry stands.map, stands.map, ← stands.here.2, shows.2]
    by_cases known : name ∈ state.map.keys
    · obtain ⟨before, b, after, front, value, rear, stands⟩ := attributes₁.exists_at known
      have searched := attributes₁.searched_at stands
      rw [← nodeName] at searched
      have sameName : nameOf state.memory b = nameOf state.memory a := by
        rw [named, ← (Prod.mk.inj (congrFun taken.same b)).1, stands.here.1]
      obtain ⟨rfl, loose, discardable⟩ := alone b stands.member sameName
      have loose₁ : prevOf memory₁ a = none ∧ nextOf memory₁ a = none := by
        rw [taken.links.1, taken.links.2]
        exact ⟨loose, last (List.cons_ne_nil b [])⟩
      obtain ⟨memory₂, ran₂, kept, replaced⟩ := attributes₁.replacedOnly apart loose₁ shows
      have entries : (state.map.put name (valueOf state.memory a)).entries = [(name, valueOf state.memory a)] := by
        obtain ⟨rfl, rfl⟩ := stands.alone
        exact OrderedMap.put_entry stands.map _
      have attributes₂ := replaced _ entries
      have applied := taken.replaces unowned searched ran₂ rtAttr
      cases rtAttr with
      | true =>
        refine Goes.success applied ⟨[a], ?_⟩
        rw [AttrCall.effect, put]
        exact attributes₂
      | false =>
        have untouched (c : Nat) (notElement : c ≠ element) (notNew : c ≠ a) :
            memory₂.lookup c = state.memory.lookup c := by
          rw [kept c notElement, taken.stored c, if_neg fun here => notNew (Option.some.inj here).symm]
        obtain ⟨memory₃, ran₃, attributes₃⟩ := attributes₂.discarded (discardable rfl) untouched
        rw [if_neg Bool.false_ne_true, ran₃, Option.map_some] at applied
        refine Goes.success applied ⟨[a], ?_⟩
        rw [AttrCall.effect, put]
        exact attributes₃
    · have searched := attributes₁.searched_fresh known
      rw [← nodeName] at searched
      have last₁ : attrs ≠ [] → nextOf memory₁ a = none := by
        rw [taken.links.2]
        exact last
      obtain ⟨memory₂, ran₂, attributes₂⟩ := attributes₁.appended known outside apart shows last₁
      refine Goes.success (taken.appends unowned searched ran₂ rtAttr) ⟨attrs ++ [a], ?_⟩
      rw [AttrCall.effect, put]
      exact attributes₂

theorem setAttributeNodeNS_goes (attributes : Attributes state.memory element attrs state.map) (newAttr : Option Nat)
    (rtAttr : Bool) (fits : (AttrCall.setAttributeNodeNS newAttr rtAttr).Fits element state) :
    Goes malloc element (.setAttributeNodeNS newAttr rtAttr) state := by
  cases newAttr with
  | none => exact @Goes.refused _ _ _ _ _ none .invalidParameter attributes rfl (by simp)
  | some a =>
    obtain ⟨⟨apart, isNamed⟩, fits⟩ := fits
    obtain ⟨name, named⟩ := Option.ne_none_iff_exists'.mp isNamed
    obtain ⟨node, found⟩ := Option.isSome_iff_exists.mp (nameOf_isSome named)
    obtain ⟨e, foundElement⟩ := Option.isSome_iff_exists.mp attributes.owner
    rw [FitsNodeNS, documentOf, field_found found, field_found foundElement, elementOf, field_found found,
      attributes.list_eq] at fits
    by_cases document : node.ownerDocument = e.ownerDocument
    swap
    · apply @Goes.refused _ _ _ _ _ none .wrongDocumentErr attributes _ (by simp)
      simp only [AttrCall.apply, setAttributeNodeNS, found, foundElement, Option.bind_eq_bind, Option.bind_some]
      exact if_pos document
    by_cases own : node.ownerElement = none ∨ node.ownerElement = some element
    swap
    · apply @Goes.refused _ _ _ _ _ none .inuseAttributeErr attributes _ (by simp)
      simp only [AttrCall.apply, setAttributeNodeNS, found, foundElement, Option.bind_eq_bind, Option.bind_some]
      rw [if_neg (not_not.mpr document)]
      exact if_pos (not_or.mp own)
    obtain ⟨memory₁, taken⟩ := Taken.exists_taken found foundElement document
    have attributes₁ := taken.attributes attributes
    have shows := taken.shows named
    have put (map : AttrMap) : putNode state.memory a map = map.put name (valueOf state.memory a) := by
      rw [putNode, named, Option.elim_some]
    have isSame := funext taken.sameNS_eq
    have whole := attributes₁.searched fun _ => nameIsNS node.namespaceURI node.localName
    rcases fits document own with rfl | ⟨rfl, before, b, after, rfl, skipped, matched, place⟩
    · obtain ⟨memory₂, ran₂, attributes₂⟩ := attributes₁.appendedFirst apart shows false
      refine Goes.success (taken.appendsNS own whole ran₂ rtAttr) ⟨[a], ?_⟩
      rw [AttrCall.effect, eraseReplaced, Option.elim_none, put]
      exact attributes₂
    rw [isSame] at skipped matched
    rw [firstMatch_found skipped matched] at whole
    rcases place with rfl | ⟨only, loose⟩
    · have member : b ∈ before ++ b :: after := List.mem_append_right before List.mem_cons_self
      obtain ⟨memory₂, ran₂, attributes₂⟩ := attributes₁.replacedItself member
      refine Goes.success (taken.replacesNS own whole ran₂) ⟨before ++ b :: after, ?_⟩
      obtain ⟨_, _, front, value, rear, stands⟩ := attributes₁.at_of_member member shows.1
      rw [AttrCall.effect, eraseReplaced, Option.elim_some, if_pos rfl, put]
      apply attributes₂.of_entries
      rw [OrderedMap.put_entry stands.map, stands.map, ← stands.here.2, shows.2]
    · rw [only] at attributes₁
      have loose₁ : prevOf memory₁ a = none ∧ nextOf memory₁ a = none := by
        rw [taken.links.1, taken.links.2]
        exact loose
      obtain ⟨memory₂, ran₂, -, replaced⟩ := attributes₁.replacedOnly apart loose₁ shows
      refine Goes.success (taken.replacesNS own whole ran₂) ⟨[a], replaced _ ?_⟩
      obtain ⟨entry, -, namedOld, -⟩ := attributes₁.named List.mem_cons_self
      obtain ⟨_, _, front, value, rear, stands⟩ := attributes₁.at_of_member List.mem_cons_self namedOld
      obtain ⟨rfl, rfl⟩ := stands.alone
      have oldName : nameOf state.memory b = some entry.1 := by
        rw [← (Prod.mk.inj (congrFun taken.same b)).1, namedOld]
      rw [AttrCall.effect, put, eraseReplaced, Option.elim_some, oldName, named]
      split
      next same =>
        obtain rfl := Option.some.inj same
        exact OrderedMap.put_entry stands.map _
      next =>
        have empty : (state.map.erase entry.1).entries = [] := OrderedMap.erase_entry stands.map
        have fresh : name ∉ (state.map.erase entry.1).keys := by
          rw [OrderedMap.keys, empty]
          exact List.not_mem_nil
        rw [eraseNode, oldName, Option.elim_some, OrderedMap.put_fresh fresh, empty]
        rfl

theorem Listed.searchedNode {memory : Memory Cell} (listed : Listed memory element attrs) {oldAttr : Nat}
    (allocated : (memory.lookup oldAttr).isSome) :
    findAttributeNode memory element oldAttr = firstMatch (sameNode memory oldAttr) attrs := by
  obtain ⟨dest, found⟩ := Option.isSome_iff_exists.mp allocated
  have compares : sameNode memory oldAttr =
      compareAt memory fun attrNode cell => ixmlNodeCompare attrNode oldAttr cell dest := by
    funext b
    rw [sameNode, found, Option.bind_some]
  rw [findAttributeNode, found, Option.bind_eq_bind, Option.bind_some, listed.searched, compares]

theorem sameNode_name {memory : Memory Cell} {oldAttr b : Nat} (same : sameNode memory oldAttr b = some true) :
    nameOf memory oldAttr = nameOf memory b := by
  obtain ⟨dest, found, compared⟩ := Option.bind_eq_some_iff.mp same
  obtain ⟨cell, here, compared⟩ := Option.bind_eq_some_iff.mp compared
  change ixmlNodeCompare b oldAttr cell dest = some true at compared
  rw [ixmlNodeCompare] at compared
  split at compared
  next same => rw [same]
  next =>
    obtain ⟨named, names, later⟩ := Option.bind_eq_some_iff.mp compared
    obtain ⟨s1, left, rest⟩ := Option.bind_eq_some_iff.mp names
    obtain ⟨s2, right, equal⟩ := Option.bind_eq_some_iff.mp rest
    cases named with
    | false => cases later
    | true =>
      have equal : s1 = s2 := by simpa using equal
      rw [nameOf, field_found found, field_found here, right, ← equal]
      exact left.symm

theorem removeAttributeNode_goes (attributes : Attributes state.memory element attrs state.map) (oldAttr : Option Nat)
    (rtAttr : Bool) (fits : (AttrCall.removeAttributeNode oldAttr rtAttr).Fits element state) :
    Goes malloc element (.removeAttributeNode oldAttr rtAttr) state := by
  cases oldAttr with
  | none => exact @Goes.refused _ _ _ _ _ none .invalidParameter attributes rfl (by simp)
  | some old =>
    obtain ⟨⟨-, isNamed⟩, fits⟩ := fits
    obtain ⟨name, named⟩ := Option.ne_none_iff_exists'.mp isNamed
    rw [FitsRemove, attributes.list_eq] at fits
    have whole := attributes.listed.searchedNode (nameOf_isSome named)
    obtain ⟨result, searched⟩ := firstMatch_returns fun b member => (fits b member).1
    rw [searched] at whole
    rcases firstMatch_cases searched with ⟨rfl, -⟩ | ⟨before, b, after, split, rfl, matched, -⟩
    · apply @Goes.refused _ _ _ _ _ none .notFoundErr attributes _ (by simp)
      simp only [AttrCall.apply, removeAttributeNode, whole, Option.bind_eq_bind, Option.bind_some]
    · have member : b ∈ attrs := by
        rw [split]
        exact List.mem_append_right before List.mem_cons_self
      obtain rfl := (fits b member).2 matched
      have sameName := sameNode_name matched
      obtain ⟨before', after', front, value, rear, stands⟩ :=
        attributes.at_of_member member (sameName.symm.trans named)
      obtain ⟨memory', ran, attributes'⟩ := attributes.removed stands whole
      refine Goes.success ran ⟨before' ++ after', ?_⟩
      rw [AttrCall.effect, eraseNode, named, Option.elim_some]
      exact attributes'

theorem created_goes {memory : Memory Cell} {map : AttrMap} (attributes : Attributes memory element attrs map) {e : Cell}
    (owner : memory.lookup element = some e) {doc : Nat} (document : e.ownerDocument = some doc) {name : List UInt8}
    (fresh : name ∉ map.keys) (value : List UInt8) :
    ∃ newAttr memory₁ memory₂ memory₃, createAttributeEx malloc memory (some doc) name = some (newAttr, memory₁) ∧
      store memory₁ newAttr ({ · with nodeValue := some value }) = some memory₂ ∧
        setAttributeNode memory₂ (some element) (some newAttr) false = some (.success, none, memory₃) ∧
          Attributes memory₃ element (attrs ++ [newAttr]) (map.put name (some value)) := by
  have absent := malloc.fresh memory
  set new := malloc.address memory with newAddress
  set attr : Cell := { nodeType := .attribute, nodeName := some name, ownerDocument := some doc } with attrCell
  have created := @AList.lookup_insert _ _ _ new attr memory
  obtain ⟨memory₂, ran₂, found₂, kept₂⟩ := store_found created ({ · with nodeValue := some value })
  have taken (c : Nat) (inside : c = element ∨ c ∈ attrs) : c ≠ new := by
    rintro rfl
    rcases inside with here | member
    · rw [here, owner] at absent
      cases absent
    · have allocated := attributes.allocated member
      rw [absent] at allocated
      cases allocated
  have same (c : Nat) (inside : c = element ∨ c ∈ attrs) : memory₂.lookup c = memory.lookup c := by
    rw [kept₂ c (taken c inside)]
    exact AList.lookup_insert_ne (taken c inside)
  have owner₂ : memory₂.lookup element = some e := by rw [same element (.inl rfl), owner]
  obtain ⟨memory₃, noted⟩ := Taken.exists_taken found₂ owner₂ document.symm
  have attributes₃ := noted.attributes (attributes.of_lookup same)
  have shows := noted.shows (field_found found₂)
  have value₂ : valueOf memory₂ new = some value := field_found found₂
  rw [value₂] at shows
  have next₂ : nextOf memory₂ new = none := field_found found₂
  have last : attrs ≠ [] → nextOf memory₃ new = none := by
    rw [noted.links.2]
    exact fun _ => next₂
  obtain ⟨memory₄, ran₄, attributes₄⟩ := attributes₃.appended fresh
    (fun member => taken new (.inr member) rfl) (taken element (.inl rfl)).symm shows last
  exact ⟨new, _, memory₂, memory₄, rfl, ran₂, noted.appends rfl (attributes₃.searched_fresh fresh) ran₄ false, attributes₄⟩

theorem setAttribute_goes (attributes : Attributes state.memory element attrs state.map) (name value : Option (List UInt8))
    (fits : (AttrCall.setAttribute name value).Fits element state) :
    Goes malloc element (.setAttribute name value) state := by
  cases name with
  | none => exact @Goes.refused _ _ _ _ _ none .invalidParameter attributes rfl (by simp)
  | some name =>
    cases value with
    | none => exact @Goes.refused _ _ _ _ _ none .invalidParameter attributes rfl (by simp)
    | some value =>
      cases valid : parserIsValidXmlName name with
      | false =>
        apply @Goes.refused _ _ _ _ _ none .invalidCharacterErr attributes _ (by simp)
        simp only [AttrCall.apply, setAttribute, valid, Bool.not_false, if_true, Option.map_some]
      | true =>
        by_cases known : name ∈ state.map.keys
        · obtain ⟨before, b, after, front, old, rear, stands⟩ := attributes.exists_at known
          obtain ⟨memory', ran, attributes'⟩ := attributes.valueSet stands (some value)
          refine @Goes.success _ _ _ _ memory' none ?_ ⟨attrs, attributes'⟩
          simp only [AttrCall.apply, setAttribute, valid, Bool.not_true, Bool.false_eq_true, if_false,
            attributes.searched_at stands, Option.bind_eq_bind, Option.bind_some, ran, Option.map_some]
        · obtain ⟨e, foundElement⟩ := Option.isSome_iff_exists.mp attributes.owner
          have hasDocument := fits valid known
          rw [documentOf, field_found foundElement] at hasDocument
          obtain ⟨doc, document⟩ := Option.ne_none_iff_exists'.mp hasDocument
          obtain ⟨new, memory₁, memory₂, memory₃, created, stored, added, attributes'⟩ :=
            @created_goes malloc _ _ _ _ attributes _ foundElement _ document _ known value
          refine @Goes.success _ _ _ _ memory₃ none ?_ ⟨attrs ++ [new], attributes'⟩
          simp only [AttrCall.apply, setAttribute, valid, Bool.not_true, Bool.false_eq_true, if_false,
            attributes.searched_fresh known, Option.bind_eq_bind, Option.bind_some, foundElement, document, created,
            stored, added, ne_eq, not_true_eq_false, Option.map_some]

theorem AttrCall.goes (attributes : Attributes state.memory element attrs state.map) (fits : call.Fits element state) :
    Goes malloc element call state := by
  cases call with
  | setAttribute name value => exact setAttribute_goes attributes name value fits
  | setAttributeNode newAttr rtAttr => exact setAttributeNode_goes attributes newAttr rtAttr fits
  | setAttributeNodeNS newAttr rtAttr => exact setAttributeNodeNS_goes attributes newAttr rtAttr fits
  | removeAttributeNode oldAttr rtAttr => exact removeAttributeNode_goes attributes oldAttr rtAttr fits

/-- Calls that fit return and leave a list that agrees with the map, so every name shows what was set last. -/
theorem attrCalls_agree {calls : List AttrCall} (attributes : Attributes state.memory element attrs state.map)
    (fits : Run.Along (attrStep malloc element) (fun call state => call.Fits element state) calls state) :
    ∃ state' attrs', Run.run (attrStep malloc element) calls state = some state' ∧
      Attributes state'.memory element attrs' state'.map ∧
        ∀ name, getAttribute state'.memory (some element) (some name) = some (state'.map.find name).join := by
  induction calls generalizing state attrs with
  | nil => exact ⟨state, attrs, rfl, attributes, attributes.getAttribute_find⟩
  | cons call calls ih =>
      obtain ⟨fit, later⟩ := fits
      obtain ⟨next, attrs', stepped, attributes'⟩ := call.goes attributes fit
      obtain ⟨state', attrs'', ran, rest⟩ := ih attributes' (later next stepped)
      refine ⟨state', attrs'', ?_, rest⟩
      rw [Run.run, stepped, Option.bind_some, ran]

end Calls

/-- An element of a document, and an attribute `a` that is in no list. -/
def looseAttribute : AttrState where
  memory := (AList.singleton 1 { nodeType := .element, nodeName := some [101], ownerDocument := some 100 }).insert 2
    { nodeType := .attribute, nodeName := some [97], nodeValue := some [49], ownerDocument := some 100 }
  map := .empty

theorem looseAttribute_none : Attributes looseAttribute.memory 1 [] looseAttribute.map :=
  ⟨rfl, rfl, List.not_mem_nil, List.nodup_nil, Chain.nil _ _, rfl⟩

theorem attrCalls_agree_two :
    ∃ state' attrs', Run.run (attrStep .behind 1)
        [.setAttributeNode (some 2) false, .setAttribute (some [98]) (some [50])] looseAttribute = some state' ∧
      Attributes state'.memory 1 attrs' state'.map := by
  have fits : Run.Along (attrStep .behind 1) (fun call state => call.Fits 1 state)
      [.setAttributeNode (some 2) false, .setAttribute (some [98]) (some [50])] looseAttribute := by
    have empty : attrList looseAttribute.memory 1 = [] := rfl
    refine ⟨⟨⟨by decide, by decide⟩, fun _ _ => .inr ⟨?_, ?_, ?_⟩⟩, fun t stepped => ⟨fun _ _ => ?_, fun _ _ => trivial⟩⟩
    · rw [empty]
      exact List.not_mem_nil
    · exact fun some_ => absurd empty some_
    · rw [empty]
      exact fun b member => absurd member List.not_mem_nil
    · have document : ∀ t ∈ attrStep .behind 1 (.setAttributeNode (some 2) false) looseAttribute,
          documentOf t.memory 1 ≠ none := by decide
      exact document t stepped
  obtain ⟨state', attrs', ran, attributes, -⟩ := attrCalls_agree looseAttribute_none fits
  exact ⟨state', attrs', ran, attributes⟩

/-- `a` and `b` are set, and then another `a`. -/
def replacingCalls : List AttrCall :=
  [.setAttribute (some [97]) (some [120]), .setAttribute (some [98]) (some [121]), .setAttributeNode (some 2) true]

/-- The other `a` takes the place of the first one, and `b` is lost. -/
theorem setAttributeNode_loses :
    ∃ state', Run.run (attrStep .behind 1) replacingCalls looseAttribute = some state' ∧
      getAttribute state'.memory (some 1) (some [98]) = some none ∧ state'.map.find [98] = some (some [121]) ∧
        ¬∃ attrs', Attributes state'.memory 1 attrs' state'.map := by
  have returns : (Run.run (attrStep .behind 1) replacingCalls looseAttribute).isSome := by decide +kernel
  obtain ⟨state', ran⟩ := Option.isSome_iff_exists.mp returns
  have lost : ∀ t ∈ Run.run (attrStep .behind 1) replacingCalls looseAttribute,
      getAttribute t.memory (some 1) (some [98]) = some none := by decide +kernel
  have last : ∀ t ∈ Run.run (attrStep .behind 1) replacingCalls looseAttribute,
      t.map.find [98] = some (some [121]) := by decide +kernel
  refine ⟨state', ran, lost state' ran, last state' ran, ?_⟩
  rintro ⟨attrs', attributes⟩
  have told := attributes.getAttribute_find [98]
  rw [lost state' ran, last state' ran] at told
  cases told

end Pupnp.Ixml.Dom
