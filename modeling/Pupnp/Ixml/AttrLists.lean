import Pupnp.Ixml.Attributes
import Pupnp.Library.OrderedMap

/-!
An attribute list against an ordered map from names to values: what each change of the list does to the map, as
long as the links around the new or the removed attribute are right.
-/

namespace Pupnp.Ixml.Dom
open Pupnp.Cells Pupnp.Linked

/-- The names of the attributes of an element, in order, with their values; a value may be NULL. -/
abbrev AttrMap := OrderedMap (List UInt8) (Option (List UInt8))

abbrev prevOf (memory : Memory Cell) := field (·.prevSibling) memory
abbrev nextOf (memory : Memory Cell) := field (·.nextSibling) memory
abbrev firstOf (memory : Memory Cell) := field (·.firstAttr) memory
abbrev nameOf (memory : Memory Cell) := field (·.nodeName) memory
abbrev valueOf (memory : Memory Cell) := field (·.nodeValue) memory

abbrev contentOf (memory : Memory Cell) := field (fun cell => some cell.toContent) memory

def shown (memory : Memory Cell) (a : Nat) : Option (List UInt8) × Option (List UInt8) :=
  (nameOf memory a, valueOf memory a)

def entryShown (entry : List UInt8 × Option (List UInt8)) : Option (List UInt8) × Option (List UInt8) :=
  (some entry.1, entry.2)

/-- The element has these attributes, in a list that is doubly linked, with the names and the values of the map. -/
structure Attributes (memory : Memory Cell) (element : Nat) (attrs : List Nat) (map : AttrMap) : Prop where
  owner : (memory.lookup element).isSome
  first : firstOf memory element = attrs.head?
  apart : element ∉ attrs
  nodup : attrs.Nodup
  chain : Chain (prevOf memory) (nextOf memory) attrs
  entries : attrs.map (shown memory) = map.entries.map entryShown

theorem nameOf_isSome {memory : Memory Cell} {a : Nat} {name : List UInt8} (named : nameOf memory a = some name) :
    (memory.lookup a).isSome := by
  obtain ⟨cell, found, -⟩ := Option.bind_eq_some_iff.mp named
  rw [found]
  rfl

theorem field_found {β : Type} {part : Cell → Option β} {memory : Memory Cell} {a : Nat} {cell : Cell}
    (found : memory.lookup a = some cell) : field part memory a = part cell := by
  rw [field, found]
  rfl

/-! ### Searches -/

/-- The first of the nodes that is the one, unless a comparison on the way cannot be made. -/
def firstMatch (isIt : Nat → Option Bool) : List Nat → Option (Option Nat)
  | [] => some none
  | a :: rest => (isIt a).bind fun found => if found then some (some a) else firstMatch isIt rest

section Matches
variable {isIt : Nat → Option Bool} {before after : List Nat} {b : Nat}

theorem firstMatch_skip (skipped : ∀ a ∈ before, isIt a = some false) :
    firstMatch isIt (before ++ after) = firstMatch isIt after := by
  induction before with
  | nil => rfl
  | cons a rest ih =>
    rw [List.cons_append, firstMatch, skipped a List.mem_cons_self, Option.bind_some, if_neg Bool.false_ne_true]
    exact ih fun c member => skipped c (List.mem_cons_of_mem a member)

theorem firstMatch_absent {attrs : List Nat} (skipped : ∀ a ∈ attrs, isIt a = some false) :
    firstMatch isIt attrs = some none := by
  have whole := @firstMatch_skip isIt attrs [] skipped
  rwa [List.append_nil] at whole

theorem firstMatch_found (skipped : ∀ a ∈ before, isIt a = some false) (found : isIt b = some true) :
    firstMatch isIt (before ++ b :: after) = some (some b) := by
  rw [firstMatch_skip skipped, firstMatch, found, Option.bind_some, if_pos rfl]

theorem firstMatch_congr {other : Nat → Option Bool} {attrs : List Nat} (same : ∀ a ∈ attrs, isIt a = other a) :
    firstMatch isIt attrs = firstMatch other attrs := by
  induction attrs with
  | nil => rfl
  | cons a rest ih =>
    rw [firstMatch, firstMatch, same a List.mem_cons_self, ih fun c member => same c (List.mem_cons_of_mem a member)]

theorem firstMatch_returns {attrs : List Nat} (compares : ∀ a ∈ attrs, isIt a ≠ none) :
    ∃ result, firstMatch isIt attrs = some result := by
  induction attrs with
  | nil => exact ⟨none, rfl⟩
  | cons a rest ih =>
    obtain ⟨found, compared⟩ := Option.ne_none_iff_exists'.mp (compares a List.mem_cons_self)
    rw [firstMatch, compared, Option.bind_some]
    cases found with
    | true => exact ⟨some a, rfl⟩
    | false => exact ih fun c member => compares c (List.mem_cons_of_mem a member)

theorem firstMatch_cases {attrs : List Nat} {result : Option Nat} (searched : firstMatch isIt attrs = some result) :
    (result = none ∧ ∀ a ∈ attrs, isIt a = some false) ∨
      ∃ before b after, attrs = before ++ b :: after ∧ result = some b ∧ isIt b = some true ∧
        ∀ a ∈ before, isIt a = some false := by
  induction attrs with
  | nil =>
    obtain rfl := Option.some.inj searched
    exact .inl ⟨rfl, fun _ member => absurd member List.not_mem_nil⟩
  | cons a rest ih =>
    obtain ⟨found, compared, later⟩ := Option.bind_eq_some_iff.mp searched
    cases found with
    | true =>
      have here : some (some a) = some result := by simpa using later
      exact .inr ⟨[], a, rest, rfl, (Option.some.inj here).symm, compared, fun _ member => absurd member List.not_mem_nil⟩
    | false =>
      have behind : firstMatch isIt rest = some result := by simpa using later
      rcases ih behind with ⟨none, skipped⟩ | ⟨before, b, after, rfl, is, found, skipped⟩
      · exact .inl ⟨none, List.forall_mem_cons.mpr ⟨compared, skipped⟩⟩
      · exact .inr ⟨a :: before, b, after, rfl, is, found, List.forall_mem_cons.mpr ⟨compared, skipped⟩⟩

end Matches

def compareAt (memory : Memory Cell) (isIt : Nat → Cell → Option Bool) (a : Nat) : Option Bool :=
  (memory.lookup a).bind (isIt a)

theorem search_list {memory : Memory Cell} {isIt : Nat → Cell → Option Bool} {attrs : List Nat} {rounds : Nat}
    (follows : Follows (nextOf memory) attrs) (enough : attrs.length ≤ rounds) :
    search memory isIt rounds attrs.head? = firstMatch (compareAt memory isIt) attrs := by
  induction attrs generalizing rounds with
  | nil =>
    cases rounds <;> rfl
  | cons a rest ih =>
    cases rounds with
    | zero => cases enough
    | succ rounds =>
      obtain ⟨next, follows'⟩ := follows
      rw [List.head?_cons, search, firstMatch, compareAt]
      cases found : memory.lookup a with
      | none => rfl
      | some cell =>
        rw [nextOf, field_found found] at next
        simp only [Option.bind_eq_bind, Option.bind_some, next, ih follows' (Nat.le_of_succ_le_succ enough)]

theorem lastAlong_list {memory : Memory Cell} {attrs : List Nat} {rounds fallback : Nat}
    (follows : Follows (nextOf memory) attrs) (allocated : ∀ a ∈ attrs, (memory.lookup a).isSome)
    (enough : attrs.length ≤ rounds) :
    lastAlong (·.nextSibling) rounds memory attrs.head? fallback = some (attrs.getLast?.getD fallback) := by
  induction attrs generalizing rounds fallback with
  | nil => cases rounds <;> rfl
  | cons a rest ih =>
    cases rounds with
    | zero => cases enough
    | succ rounds =>
      obtain ⟨next, follows'⟩ := follows
      obtain ⟨cell, found⟩ := Option.isSome_iff_exists.mp (allocated a List.mem_cons_self)
      rw [nextOf, field_found found] at next
      have later := @ih rounds a follows' (fun c member => allocated c (List.mem_cons_of_mem a member))
        (Nat.le_of_succ_le_succ enough)
      simp only [List.head?_cons, lastAlong, found, Option.bind_eq_bind, Option.bind_some, next, later]
      cases rest with
      | nil => rfl
      | cons c rest => rw [List.getLast?_cons_cons, List.getLast?_cons, Option.getD_some, Option.getD_some]

theorem cellCount_le {memory : Memory Cell} {attrs : List Nat} (nodup : attrs.Nodup)
    (allocated : ∀ a ∈ attrs, (memory.lookup a).isSome) : attrs.length ≤ cellCount memory :=
  length_le_keys nodup allocated

/-! ### Lists of attributes, whatever they are named -/

/-- The element has these attributes, one behind the other. -/
structure Listed (memory : Memory Cell) (element : Nat) (attrs : List Nat) : Prop where
  owner : (memory.lookup element).isSome
  first : firstOf memory element = attrs.head?
  apart : element ∉ attrs
  nodup : attrs.Nodup
  follows : Follows (nextOf memory) attrs
  allocated : ∀ a ∈ attrs, (memory.lookup a).isSome
  before : ∀ a ∈ attrs, ∀ p ∈ prevOf memory a, (memory.lookup p).isSome

namespace Listed
variable {memory : Memory Cell} {element : Nat} {attrs : List Nat}

theorem searched (listed : Listed memory element attrs) (isIt : Nat → Cell → Option Bool) :
    searchAttrs memory isIt element = firstMatch (compareAt memory isIt) attrs := by
  obtain ⟨e, found⟩ := Option.isSome_iff_exists.mp listed.owner
  have first := listed.first
  rw [firstOf, field_found found] at first
  rw [searchAttrs, found, Option.bind_eq_bind, Option.bind_some, first]
  exact search_list listed.follows (cellCount_le listed.nodup listed.allocated)

/-- Only the cells of the element and of its attributes matter, and what is allocated. -/
theorem of_lookup {memory' : Memory Cell} (listed : Listed memory element attrs)
    (same : ∀ a, a = element ∨ a ∈ attrs → memory'.lookup a = memory.lookup a)
    (kept : ∀ a, (memory.lookup a).isSome → (memory'.lookup a).isSome) : Listed memory' element attrs where
  owner := kept element listed.owner
  first := by
    rw [firstOf, field, same element (.inl rfl)]
    exact listed.first
  apart := listed.apart
  nodup := listed.nodup
  follows := by
    apply listed.follows.congr
    intro a member
    simp only [field, same a (.inr member)]
  allocated a member := kept a (listed.allocated a member)
  before a member p link := by
    rw [prevOf, field, same a (.inr member)] at link
    exact kept p (listed.before a member p link)

theorem appendsFirst (listed : Listed memory element []) {a : Nat} (new : (memory.lookup a).isSome) (linkBack : Bool) :
    ∃ memory', appendAttr memory element a linkBack = some memory' ∧
      (∀ c, (memory'.lookup c).isSome = (memory.lookup c).isSome) ∧ contentOf memory' = contentOf memory ∧
        firstOf memory' element = some a ∧ prevOf memory' a = none ∧ nextOf memory' a = none := by
  obtain ⟨e, found⟩ := Option.isSome_iff_exists.mp listed.owner
  have first := listed.first
  rw [firstOf, field_found found] at first
  obtain ⟨memory₁, ran₁, stored₁⟩ := store_stored listed.owner ({ · with firstAttr := some a })
  have new₁ : (memory₁.lookup a).isSome := by rwa [stored₁.isSome]
  obtain ⟨memory₂, ran₂, stored₂⟩ := store_stored new₁ ({ · with prevSibling := none, nextSibling := none })
  have allocated : ∀ c ∈ some a, (memory₁.lookup c).isSome := fun _ here => Option.some.inj here ▸ new₁
  have isNone {link : Nat → Option Nat} {links : Nat → Option Nat} (set : link = setAt (some a) none links) :
      link a = none := by rw [set, setAt_same]
  refine ⟨memory₂, ?_, ?_, ?_, ?_, ?_, ?_⟩
  · simp only [appendAttr, found, Option.bind_eq_bind, Option.bind_some, first, List.head?_nil, ran₁]
    exact ran₂
  · intro c
    rw [stored₂.isSome, stored₁.isSome]
  · rw [contentOf, stored₂.field_same fun _ => rfl, stored₁.field_same fun _ => rfl]
  · rw [firstOf, stored₂.field_same fun _ => rfl,
      stored₁.field_set (fun _ here => Option.some.inj here ▸ listed.owner) fun _ => rfl, setAt_same]
  · exact isNone (stored₂.field_set allocated fun _ => rfl)
  · exact isNone (stored₂.field_set allocated fun _ => rfl)

theorem appendsLast (listed : Listed memory element attrs) (some_ : attrs ≠ []) {a : Nat}
    (new : (memory.lookup a).isSome) (linkBack : Bool) :
    ∃ p memory', attrs.getLast? = some p ∧ appendAttr memory element a linkBack = some memory' ∧
      (∀ c, (memory'.lookup c).isSome = (memory.lookup c).isSome) ∧ contentOf memory' = contentOf memory ∧
        firstOf memory' = firstOf memory ∧ nextOf memory' = setAt (some p) (some a) (nextOf memory) ∧
          prevOf memory' = if linkBack then setAt (some a) (some p) (prevOf memory) else prevOf memory := by
  obtain ⟨e, found⟩ := Option.isSome_iff_exists.mp listed.owner
  have first := listed.first
  rw [firstOf, field_found found] at first
  obtain ⟨head, isHead⟩ : ∃ head, attrs.head? = some head := Option.isSome_iff_exists.mp (by simpa using some_)
  obtain ⟨p, isLast⟩ : ∃ p, attrs.getLast? = some p := Option.isSome_iff_exists.mp (by simpa using some_)
  have along := @lastAlong_list _ _ _ head listed.follows listed.allocated (cellCount_le listed.nodup listed.allocated)
  rw [isHead, isLast, Option.getD_some] at along
  have inside := listed.allocated p (getLast?_mem isLast)
  have allocated : ∀ c ∈ some p, (memory.lookup c).isSome := fun _ here => Option.some.inj here ▸ inside
  obtain ⟨memory₁, ran₁, stored₁⟩ := store_stored inside ({ · with nextSibling := some a })
  have next₁ : nextOf memory₁ = setAt (some p) (some a) (nextOf memory) := stored₁.field_set allocated fun _ => rfl
  have new₁ : (memory₁.lookup a).isSome := by rwa [stored₁.isSome]
  cases linkBack with
  | false =>
    refine ⟨p, memory₁, isLast, ?_, stored₁.isSome, stored₁.field_same fun _ => rfl, stored₁.field_same fun _ => rfl,
      next₁, stored₁.field_same fun _ => rfl⟩
    simp only [appendAttr, found, Option.bind_eq_bind, Option.bind_some, first, isHead, along, ran₁]
    rfl
  | true =>
    obtain ⟨memory₂, ran₂, stored₂⟩ := store_stored new₁ ({ · with prevSibling := some p })
    refine ⟨p, memory₂, isLast, ?_, ?_, ?_, ?_, ?_, ?_⟩
    · simp only [appendAttr, found, Option.bind_eq_bind, Option.bind_some, first, isHead, along, ran₁]
      exact ran₂
    · intro c
      rw [stored₂.isSome, stored₁.isSome]
    · rw [contentOf, stored₂.field_same fun _ => rfl, stored₁.field_same fun _ => rfl]
    · rw [firstOf, stored₂.field_same fun _ => rfl, stored₁.field_same fun _ => rfl]
    · rw [nextOf, stored₂.field_same fun _ => rfl]
      exact next₁
    · rw [prevOf, stored₂.field_set (fun _ here => Option.some.inj here ▸ new₁) fun _ => rfl,
        stored₁.field_same fun _ => rfl, if_pos rfl]

theorem removes (listed : Listed memory element attrs) {b oldAttr : Nat} (member : b ∈ attrs)
    (searched : findAttributeNode memory element oldAttr = some (some b)) :
    ∃ memory', removeAttributeNode memory (some element) (some oldAttr) true = some (.success, some b, memory') ∧
      (∀ c, (memory'.lookup c).isSome = (memory.lookup c).isSome) ∧ contentOf memory' = contentOf memory ∧
        firstOf memory' element = (if attrs.head? = some b then nextOf memory b else attrs.head?) ∧
          nextOf memory' = setAt (some b) none (setAt (prevOf memory b) (nextOf memory b) (nextOf memory)) ∧
            prevOf memory' = setAt (some b) none (setAt (nextOf memory b) (prevOf memory b) (prevOf memory)) := by
  obtain ⟨node, found⟩ := Option.isSome_iff_exists.mp (listed.allocated b member)
  have prev : prevOf memory b = node.prevSibling := field_found found
  have next : nextOf memory b = node.nextSibling := field_found found
  have prevAllocated : ∀ a ∈ node.prevSibling, (memory.lookup a).isSome :=
    fun a here => listed.before b member a (prev.trans here)
  obtain ⟨memory₁, ran₁, stored₁⟩ := storeAt_stored prevAllocated ({ · with nextSibling := node.nextSibling })
  have nextAllocated : ∀ a ∈ node.nextSibling, (memory₁.lookup a).isSome := by
    intro a here
    obtain ⟨before, after, rfl⟩ := List.append_of_mem member
    have inside : after.head? = some a := listed.follows.at.symm.trans (next.trans here)
    rw [stored₁.isSome]
    exact listed.allocated a (List.mem_append_right _ (List.mem_cons_of_mem b (List.mem_of_head? inside)))
  obtain ⟨memory₂, ran₂, stored₂⟩ := storeAt_stored nextAllocated ({ · with prevSibling := node.prevSibling })
  have prev₂ : prevOf memory₂ = setAt node.nextSibling node.prevSibling (prevOf memory) := by
    have set : prevOf memory₂ = setAt node.nextSibling node.prevSibling (prevOf memory₁) :=
      stored₂.field_set nextAllocated fun _ => rfl
    exact set.trans (congrArg _ (stored₁.field_same fun _ => rfl))
  have next₂ : nextOf memory₂ = setAt node.prevSibling node.nextSibling (nextOf memory) :=
    (stored₂.field_same fun _ => rfl).trans (stored₁.field_set prevAllocated fun _ => rfl)
  have owner₂ : (memory₂.lookup element).isSome := by
    rw [stored₂.isSome, stored₁.isSome]
    exact listed.owner
  obtain ⟨e, foundElement⟩ := Option.isSome_iff_exists.mp owner₂
  have first₂ : e.firstAttr = attrs.head? := by
    have same : firstOf memory₂ element = attrs.head? := by
      rw [firstOf, stored₂.field_same fun _ => rfl, stored₁.field_same fun _ => rfl]
      exact listed.first
    rwa [firstOf, field_found foundElement] at same
  obtain ⟨memory₃, ran₃, allocated₃, contents₃, first₃, next₃, prev₃⟩ :
      ∃ memory₃, (if attrs.head? = some b then store memory₂ element ({ · with firstAttr := node.nextSibling })
          else some memory₂) = some memory₃ ∧ (∀ c, (memory₃.lookup c).isSome = (memory₂.lookup c).isSome) ∧
        contentOf memory₃ = contentOf memory₂ ∧
          firstOf memory₃ element = (if attrs.head? = some b then nextOf memory b else attrs.head?) ∧
            nextOf memory₃ = nextOf memory₂ ∧ prevOf memory₃ = prevOf memory₂ := by
    by_cases isFirst : attrs.head? = some b
    · obtain ⟨memory₃, ran₃, stored₃⟩ := store_stored owner₂ ({ · with firstAttr := node.nextSibling })
      have set : firstOf memory₃ = setAt (some element) node.nextSibling (firstOf memory₂) :=
        stored₃.field_set (fun _ here => Option.some.inj here ▸ owner₂) fun _ => rfl
      refine ⟨memory₃, ?_, stored₃.isSome, stored₃.field_same fun _ => rfl, ?_, stored₃.field_same fun _ => rfl,
        stored₃.field_same fun _ => rfl⟩
      · rw [if_pos isFirst, ran₃]
      · rw [if_pos isFirst, set, setAt_same, next]
    · refine ⟨memory₂, if_neg isFirst, fun _ => rfl, rfl, ?_, rfl, rfl⟩
      rw [if_neg isFirst, firstOf, field_found foundElement, first₂]
  have bThere : (memory₃.lookup b).isSome := by
    rw [allocated₃, stored₂.isSome, stored₁.isSome]
    exact listed.allocated b member
  obtain ⟨memory₄, ran₄, stored₄⟩ :=
    store_stored bThere ({ · with parentNode := none, prevSibling := none, nextSibling := none })
  have bAllocated : ∀ c ∈ some b, (memory₃.lookup c).isSome := fun _ here => Option.some.inj here ▸ bThere
  refine ⟨memory₄, ?_, ?_, ?_, ?_, ?_, ?_⟩
  · simp only [removeAttributeNode, searched, Option.bind_eq_bind, Option.bind_some, found, ran₁, ran₂, foundElement, first₂]
    by_cases isFirst : attrs.head? = some b
    · rw [if_pos isFirst] at ran₃ ⊢
      rw [ran₃, Option.bind_some, ran₄]
      rfl
    · rw [if_neg isFirst] at ran₃ ⊢
      obtain rfl := Option.some.inj ran₃
      rw [ran₄]
      rfl
  · intro c
    rw [stored₄.isSome, allocated₃, stored₂.isSome, stored₁.isSome]
  · rw [contentOf, stored₄.field_same fun _ => rfl]
    exact contents₃.trans ((stored₂.field_same fun _ => rfl).trans (stored₁.field_same fun _ => rfl))
  · rw [firstOf, stored₄.field_same fun _ => rfl]
    exact first₃
  · rw [prev, next, ← next₂, ← next₃]
    exact stored₄.field_set bAllocated fun _ => rfl
  · rw [prev, next, ← prev₂, ← prev₃]
    exact stored₄.field_set bAllocated fun _ => rfl

end Listed

theorem shown_contents {memory memory' : Memory Cell} (same : contentOf memory' = contentOf memory) :
    shown memory' = shown memory := by
  have part {β : Type} (f : Content → Option β) (memory : Memory Cell) (a : Nat) :
      field (fun cell => f cell.toContent) memory a = (contentOf memory a).bind f := by
    rw [contentOf, field, field, Option.bind_assoc]
    rfl
  have names (memory : Memory Cell) (a : Nat) : nameOf memory a = (contentOf memory a).bind Content.nodeName :=
    part _ memory a
  have values (memory : Memory Cell) (a : Nat) : valueOf memory a = (contentOf memory a).bind Content.nodeValue :=
    part _ memory a
  funext a
  rw [shown, shown, names, names, values, values, same]

theorem shown_fields {memory memory' : Memory Cell} {a : Nat} (name : nameOf memory' a = nameOf memory a)
    (value : valueOf memory' a = valueOf memory a) : shown memory' a = shown memory a := by
  rw [shown, shown, name, value]

theorem shown_stored {memory memory' : Memory Cell} {pointer : Option Nat} {change : Cell → Cell}
    (stored : Stored memory memory' pointer change) (content : ∀ cell, (change cell).toContent = cell.toContent) :
    shown memory' = shown memory := by
  exact shown_contents (stored.field_same fun cell => congrArg some (content cell))

namespace Attributes
variable {memory memory' : Memory Cell} {element : Nat} {attrs : List Nat} {map : AttrMap} {name : List UInt8}

theorem named (attributes : Attributes memory element attrs map) {a : Nat} (member : a ∈ attrs) :
    ∃ entry ∈ map.entries, nameOf memory a = some entry.1 ∧ valueOf memory a = entry.2 := by
  have inside : shown memory a ∈ attrs.map (shown memory) := List.mem_map_of_mem member
  rw [attributes.entries] at inside
  obtain ⟨entry, inside, same⟩ := List.mem_map.mp inside
  obtain ⟨name, value⟩ := Prod.mk.inj same
  exact ⟨entry, inside, name.symm, value.symm⟩

theorem allocated (attributes : Attributes memory element attrs map) {a : Nat} (member : a ∈ attrs) :
    (memory.lookup a).isSome := by
  obtain ⟨entry, -, named, -⟩ := attributes.named member
  exact nameOf_isSome named

theorem listed (attributes : Attributes memory element attrs map) : Listed memory element attrs where
  owner := attributes.owner
  first := attributes.first
  apart := attributes.apart
  nodup := attributes.nodup
  follows := attributes.chain.forward
  allocated _ member := attributes.allocated member
  before a member p link := by
    obtain ⟨before, after, rfl⟩ := List.append_of_mem member
    have last : before.getLast? = some p := attributes.chain.at.1.symm.trans link
    exact attributes.allocated (List.mem_append_left _ (getLast?_mem last))

theorem searched (attributes : Attributes memory element attrs map) (isIt : Nat → Cell → Option Bool) :
    searchAttrs memory isIt element = firstMatch (compareAt memory isIt) attrs := attributes.listed.searched isIt

theorem compareAt_named {a : Nat} {other : List UInt8} (named : nameOf memory a = some other) :
    compareAt memory (fun _ => nameIs (some name)) a = some (decide (other = name)) := by
  obtain ⟨cell, found, named⟩ := Option.bind_eq_some_iff.mp named
  rw [compareAt, found, Option.bind_some, nameIs, named]
  rfl

theorem searched_fresh (attributes : Attributes memory element attrs map) (fresh : name ∉ map.keys) :
    searchAttrs memory (fun _ => nameIs (some name)) element = some none := by
  rw [attributes.searched]
  apply firstMatch_absent
  intro a member
  obtain ⟨entry, inside, named, -⟩ := attributes.named member
  have other : entry.1 ≠ name := by
    rintro rfl
    exact fresh (List.mem_map_of_mem inside)
  rw [compareAt_named named, decide_eq_false other]

structure At (memory : Memory Cell) (attrs : List Nat) (map : AttrMap) (name : List UInt8) (before : List Nat) (b : Nat)
    (after : List Nat) (front : List (List UInt8 × Option (List UInt8))) (value : Option (List UInt8))
    (rear : List (List UInt8 × Option (List UInt8))) : Prop where
  list : attrs = before ++ b :: after
  map : map.entries = front ++ (name, value) :: rear
  front : before.map (shown memory) = front.map entryShown
  here : nameOf memory b = some name ∧ valueOf memory b = value
  rear : after.map (shown memory) = rear.map entryShown

theorem exists_at (attributes : Attributes memory element attrs map) (known : name ∈ map.keys) :
    ∃ before b after front value rear, At memory attrs map name before b after front value rear := by
  obtain ⟨front, value, rear, split⟩ := OrderedMap.exists_entry known
  have entries := attributes.entries
  rw [split, List.map_append, List.map_cons, List.map_eq_append_iff] at entries
  obtain ⟨before, behind, rfl, frontShown, behindShown⟩ := entries
  obtain ⟨b, after, rfl, hereShown, rearShown⟩ := List.map_eq_cons_iff.mp behindShown
  exact ⟨before, b, after, front, value, rear, rfl, split, frontShown, Prod.mk.inj hereShown, rearShown⟩

section Standing
variable {before after : List Nat} {b : Nat} {front rear : List (List UInt8 × Option (List UInt8))}
  {value : Option (List UInt8)}

theorem At.member (stands : At memory attrs map name before b after front value rear) : b ∈ attrs := by
  rw [stands.list]
  exact List.mem_append_right before List.mem_cons_self

theorem At.alone {c : Nat} (stands : At memory [c] map name before b after front value rear) :
    front = [] ∧ rear = [] := by
  have whole := congrArg List.length stands.list
  have frontLength := congrArg List.length stands.front
  have rearLength := congrArg List.length stands.rear
  simp only [List.length_append, List.length_cons, List.length_map, List.length_nil] at whole frontLength rearLength
  exact ⟨List.length_eq_zero_iff.mp (by omega), List.length_eq_zero_iff.mp (by omega)⟩

theorem searched_at (attributes : Attributes memory element attrs map)
    (stands : At memory attrs map name before b after front value rear) :
    searchAttrs memory (fun _ => nameIs (some name)) element = some (some b) := by
  rw [attributes.searched, stands.list]
  apply firstMatch_found
  · intro a member
    have inside : shown memory a ∈ before.map (shown memory) := List.mem_map_of_mem member
    rw [stands.front] at inside
    obtain ⟨entry, inside, same⟩ := List.mem_map.mp inside
    have other := (OrderedMap.apart_of_entry stands.map).1 entry inside
    rw [compareAt_named (Prod.mk.inj same).1.symm, decide_eq_false other]
  · rw [compareAt_named stands.here.1, decide_eq_true rfl]

theorem at_of_member (attributes : Attributes memory element attrs map) (member : b ∈ attrs)
    (named : nameOf memory b = some name) :
    ∃ before after front value rear, At memory attrs map name before b after front value rear := by
  obtain ⟨before, after, rfl⟩ := List.append_of_mem member
  have entries := attributes.entries
  rw [List.map_append, List.map_cons] at entries
  obtain ⟨front, behind, split, frontShown, behindShown⟩ := List.map_eq_append_iff.mp entries.symm
  obtain ⟨entry, rear, rfl, hereShown, rearShown⟩ := List.map_eq_cons_iff.mp behindShown
  obtain ⟨same, value⟩ := Prod.mk.inj hereShown
  obtain rfl : entry.1 = name := Option.some.inj (same.trans named)
  exact ⟨before, after, front, entry.2, rear, rfl, split, frontShown.symm, ⟨named, value.symm⟩, rearShown.symm⟩

end Standing

theorem getAttribute_find (attributes : Attributes memory element attrs map) (name : List UInt8) :
    getAttribute memory (some element) (some name) = some (map.find name).join := by
  by_cases known : name ∈ map.keys
  · obtain ⟨before, b, after, front, value, rear, stands⟩ := attributes.exists_at known
    obtain ⟨cell, found⟩ := Option.isSome_iff_exists.mp (attributes.allocated stands.member)
    have shows := stands.here.2
    rw [valueOf, field_found found] at shows
    simp only [getAttribute, attributes.searched_at stands, Option.bind_eq_bind, Option.bind_some, found,
      Option.map_some, shows, OrderedMap.find_entry stands.map, Option.join_some]
  · simp only [getAttribute, attributes.searched_fresh known, Option.bind_eq_bind, Option.bind_some,
      OrderedMap.find_fresh known, Option.join_none]

/-! ### Changes -/

theorem of_fields (attributes : Attributes memory element attrs map) (owner : (memory'.lookup element).isSome)
    (first : firstOf memory' element = firstOf memory element)
    (links : ∀ a ∈ attrs, prevOf memory' a = prevOf memory a ∧ nextOf memory' a = nextOf memory a)
    (shows : ∀ a ∈ attrs, shown memory' a = shown memory a) : Attributes memory' element attrs map where
  owner := owner
  first := first.trans attributes.first
  apart := attributes.apart
  nodup := attributes.nodup
  chain := attributes.chain.congr (fun a member => (links a member).1) fun a member => (links a member).2
  entries := (List.map_congr_left shows).trans attributes.entries

theorem of_lookup (attributes : Attributes memory element attrs map)
    (same : ∀ a, a = element ∨ a ∈ attrs → memory'.lookup a = memory.lookup a) :
    Attributes memory' element attrs map := by
  have fields {β : Type} (part : Cell → Option β) (a : Nat) (inside : a = element ∨ a ∈ attrs) :
      field part memory' a = field part memory a := by rw [field, field, same a inside]
  apply attributes.of_fields
  · rw [same element (.inl rfl)]
    exact attributes.owner
  · exact fields _ element (.inl rfl)
  · exact fun a member => ⟨fields _ a (.inr member), fields _ a (.inr member)⟩
  · exact fun a member => shown_fields (fields _ a (.inr member)) (fields _ a (.inr member))

theorem stored (attributes : Attributes memory element attrs map) {pointer : Option Nat} {change : Cell → Cell}
    (stored : Stored memory memory' pointer change) (links : ∀ cell, (change cell).toLinks = cell.toLinks)
    (content : ∀ cell, (change cell).toContent = cell.toContent) : Attributes memory' element attrs map := by
  have prev : prevOf memory' = prevOf memory := stored.field_same fun cell => congrArg Links.prevSibling (links cell)
  have next : nextOf memory' = nextOf memory := stored.field_same fun cell => congrArg Links.nextSibling (links cell)
  have first : firstOf memory' = firstOf memory := stored.field_same fun cell => congrArg Links.firstAttr (links cell)
  apply attributes.of_fields
  · rw [stored.isSome]
    exact attributes.owner
  · rw [first]
  · exact fun a _ => ⟨congrFun prev a, congrFun next a⟩
  · exact fun a _ => congrFun (shown_stored stored content) a

section Changes
variable {before after : List Nat} {a b : Nat} {front rear : List (List UInt8 × Option (List UInt8))}
  {value : Option (List UInt8)}

theorem valueSet (attributes : Attributes memory element attrs map)
    (stands : At memory attrs map name before b after front value rear) (value' : Option (List UInt8)) :
    ∃ memory', store memory b ({ · with nodeValue := value' }) = some memory' ∧
      Attributes memory' element attrs (map.put name value') := by
  obtain ⟨memory', ran, stored⟩ := store_stored (attributes.allocated stands.member) ({ · with nodeValue := value' })
  have names : nameOf memory' = nameOf memory := stored.field_same fun _ => rfl
  have others (a : Nat) (other : a ≠ b) : shown memory' a = shown memory a := by
    apply shown_fields (congrFun names a)
    rw [valueOf, field, stored a, if_neg fun same => other (Option.some.inj same).symm]
    rfl
  have here : shown memory' b = (some name, value') := by
    obtain ⟨cell, found, named⟩ := Option.bind_eq_some_iff.mp stands.here.1
    rw [shown, names, stands.here.1, valueOf, field, stored b, if_pos rfl, found]
    rfl
  have nodup := attributes.nodup
  rw [stands.list, List.nodup_append, List.nodup_cons] at nodup
  obtain ⟨-, ⟨notAfter, -⟩, apart⟩ := nodup
  refine ⟨memory', ran, ?_⟩
  constructor
  · rw [stored.isSome]
    exact attributes.owner
  · rw [firstOf, stored.field_same fun _ => rfl]
    exact attributes.first
  · exact attributes.apart
  · exact attributes.nodup
  · rw [prevOf, nextOf, stored.field_same fun _ => rfl, stored.field_same fun _ => rfl]
    exact attributes.chain
  · have beforeSame : before.map (shown memory') = before.map (shown memory) :=
      List.map_congr_left fun a member => others a (apart a member b List.mem_cons_self)
    have afterSame : after.map (shown memory') = after.map (shown memory) :=
      List.map_congr_left fun a member => others a (ne_of_mem_of_not_mem member notAfter)
    rw [OrderedMap.put_entry stands.map, stands.list, List.map_append, List.map_cons, List.map_append, List.map_cons,
      beforeSame, stands.front, afterSame, stands.rear, here]
    rfl

theorem appendedFirst (attributes : Attributes memory element [] map) (apart : a ≠ element)
    (shows : nameOf memory a = some name ∧ valueOf memory a = value) (linkBack : Bool) :
    ∃ memory', appendAttr memory element a linkBack = some memory' ∧
      Attributes memory' element [a] (map.put name value) := by
  obtain ⟨memory', ran, allocated, contents, first, prev, next⟩ :=
    attributes.listed.appendsFirst (nameOf_isSome shows.1) linkBack
  have entries : [] = map.entries := (List.map_eq_nil_iff.mp attributes.entries.symm).symm
  have fresh : name ∉ map.keys := by
    rw [OrderedMap.keys, ← entries]
    exact List.not_mem_nil
  refine ⟨memory', ran, ?_⟩
  constructor
  · rw [allocated]
    exact attributes.owner
  · exact first
  · simpa using apart.symm
  · exact List.nodup_singleton a
  · exact ⟨⟨next, trivial⟩, ⟨prev, trivial⟩⟩
  · rw [OrderedMap.put_fresh fresh, ← entries, shown_contents contents]
    exact congrArg ([·]) (Prod.ext shows.1 shows.2)

theorem appendedLast (attributes : Attributes memory element attrs map) (some_ : attrs ≠ []) (fresh : name ∉ map.keys)
    (outside : a ∉ attrs) (apart : a ≠ element) (shows : nameOf memory a = some name ∧ valueOf memory a = value)
    (last : nextOf memory a = none) :
    ∃ memory', appendAttr memory element a true = some memory' ∧
      Attributes memory' element (attrs ++ [a]) (map.put name value) := by
  obtain ⟨p, memory', isLast, ran, allocated, contents, first, next, prev⟩ :=
    attributes.listed.appendsLast some_ (nameOf_isSome shows.1) true
  have nodup : (attrs ++ [a]).Nodup := attributes.nodup.append (List.nodup_singleton a) (by simpa using outside)
  refine ⟨memory', ran, ?_⟩
  constructor
  · rw [allocated]
    exact attributes.owner
  · rw [first, attributes.first, List.head?_append_of_ne_nil _ some_]
  · simpa [apart.symm] using attributes.apart
  · exact nodup
  · rw [prev, next, ← isLast]
    exact attributes.chain.concat nodup last
  · rw [OrderedMap.put_fresh fresh, List.map_append, List.map_append, shown_contents contents, attributes.entries]
    exact congrArg (_ ++ [·]) (Prod.ext shows.1 shows.2)

theorem appended (attributes : Attributes memory element attrs map) (fresh : name ∉ map.keys) (outside : a ∉ attrs)
    (apart : a ≠ element) (shows : nameOf memory a = some name ∧ valueOf memory a = value)
    (last : attrs ≠ [] → nextOf memory a = none) :
    ∃ memory', appendAttr memory element a true = some memory' ∧
      Attributes memory' element (attrs ++ [a]) (map.put name value) := by
  cases attrs with
  | nil => exact attributes.appendedFirst apart shows true
  | cons b rest =>
    have notNil : b :: rest ≠ [] := List.cons_ne_nil b rest
    exact attributes.appendedLast notNil fresh outside apart shows (last notNil)

theorem firstAgain (attributes : Attributes memory element attrs map) (first : attrs.head? = some b) :
    ∃ memory', store memory element ({ · with firstAttr := some b }) = some memory' ∧
      Attributes memory' element attrs map := by
  obtain ⟨memory', ran, stored⟩ := store_stored attributes.owner ({ · with firstAttr := some b })
  refine ⟨memory', ran, ?_⟩
  have idle : firstOf memory' = firstOf memory := by
    rw [firstOf, stored.field_set (fun _ here => Option.some.inj here ▸ attributes.owner) fun _ => rfl]
    exact setAt_idle (attributes.first.trans first)
  apply attributes.of_fields
  · rw [stored.isSome]
    exact attributes.owner
  · rw [idle]
  · intro a _
    rw [prevOf, nextOf, stored.field_same fun _ => rfl, stored.field_same fun _ => rfl]
    exact ⟨rfl, rfl⟩
  · exact fun a _ => congrFun (shown_stored stored fun _ => rfl) a

theorem replacedItself (attributes : Attributes memory element attrs map) (member : b ∈ attrs) :
    ∃ memory', replaceAttr memory element b b = some memory' ∧ Attributes memory' element attrs map := by
  obtain ⟨before, after, rfl⟩ := List.append_of_mem member
  obtain ⟨node, found⟩ := Option.isSome_iff_exists.mp (attributes.allocated member)
  obtain ⟨prev, next⟩ := attributes.chain.at
  rw [prevOf, field_found found] at prev
  rw [nextOf, field_found found] at next
  obtain ⟨sameNext, samePrev⟩ := attributes.chain.relink
  have prevAllocated : ∀ a ∈ before.getLast?, (memory.lookup a).isSome :=
    fun a here => attributes.allocated (List.mem_append_left _ (getLast?_mem here))
  have nextAllocated : ∀ a ∈ after.head?, (memory.lookup a).isSome :=
    fun a here => attributes.allocated (List.mem_append_right _ (List.mem_cons_of_mem b (List.mem_of_head? here)))
  obtain ⟨memory₁, ran₁, stored₁⟩ := storeAt_stored prevAllocated ({ · with nextSibling := some b })
  have nextAllocated₁ : ∀ a ∈ after.head?, (memory₁.lookup a).isSome := by
    intro a here
    rw [stored₁.isSome]
    exact nextAllocated a here
  obtain ⟨memory₂, ran₂, stored₂⟩ := storeAt_stored nextAllocated₁ ({ · with prevSibling := some b })
  have nextKept : nextOf memory₂ = nextOf memory := by
    rw [nextOf, stored₂.field_same fun _ => rfl, stored₁.field_set prevAllocated fun _ => rfl]
    exact sameNext
  have prevKept : prevOf memory₂ = prevOf memory := by
    rw [prevOf, stored₂.field_set nextAllocated₁ fun _ => rfl, stored₁.field_same fun _ => rfl]
    exact samePrev
  have kept : Attributes memory₂ element (before ++ b :: after) map := by
    apply attributes.of_fields
    · rw [stored₂.isSome, stored₁.isSome]
      exact attributes.owner
    · rw [firstOf, stored₂.field_same fun _ => rfl, stored₁.field_same fun _ => rfl]
    · exact fun a _ => ⟨congrFun prevKept a, congrFun nextKept a⟩
    · intro a _
      rw [shown_stored stored₂ fun _ => rfl, shown_stored stored₁ fun _ => rfl]
  obtain ⟨e, foundElement⟩ := Option.isSome_iff_exists.mp kept.owner
  have first := kept.first
  rw [firstOf, field_found foundElement] at first
  simp only [replaceAttr, found, Option.bind_eq_bind, Option.bind_some, prev, next, ran₁, ran₂, foundElement]
  split
  next isFirst => exact kept.firstAgain (first.symm.trans isFirst)
  next => exact ⟨memory₂, rfl, kept⟩

theorem replacedOnly (attributes : Attributes memory element [b] map) (apart : a ≠ element)
    (loose : prevOf memory a = none ∧ nextOf memory a = none)
    (shows : nameOf memory a = some name ∧ valueOf memory a = value) :
    ∃ memory', replaceAttr memory element a b = some memory' ∧
      (∀ c, c ≠ element → memory'.lookup c = memory.lookup c) ∧
        ∀ map' : AttrMap, map'.entries = [(name, value)] → Attributes memory' element [a] map' := by
  obtain ⟨node, found⟩ := Option.isSome_iff_exists.mp (attributes.allocated List.mem_cons_self)
  obtain ⟨prev, next⟩ := @Chain.at _ _ _ [] [] b attributes.chain
  rw [prevOf, field_found found] at prev
  rw [nextOf, field_found found] at next
  obtain ⟨e, foundElement⟩ := Option.isSome_iff_exists.mp attributes.owner
  have first := attributes.first
  rw [firstOf, field_found foundElement] at first
  obtain ⟨memory', ran, stored⟩ := store_stored attributes.owner ({ · with firstAttr := some a })
  refine ⟨memory', ?_, ?_, ?_⟩
  · simp only [replaceAttr, found, Option.bind_eq_bind, Option.bind_some, prev, next, List.getLast?_nil, List.head?_nil,
      storeAt, foundElement]
    have isFirst : e.firstAttr = some b := first
    rw [if_pos isFirst]
    exact ran
  · intro c other
    rw [stored c, if_neg fun same => other (Option.some.inj same).symm]
  intro map' entries
  constructor
  · rw [stored.isSome]
    exact attributes.owner
  · rw [firstOf, stored.field_set (fun _ here => Option.some.inj here ▸ attributes.owner) fun _ => rfl, setAt_same]
    rfl
  · simpa using apart.symm
  · exact List.nodup_singleton a
  · rw [prevOf, nextOf, stored.field_same fun _ => rfl, stored.field_same fun _ => rfl]
    exact ⟨⟨loose.2, trivial⟩, ⟨loose.1, trivial⟩⟩
  · rw [entries, shown_stored stored fun _ => rfl]
    exact congrArg ([·]) (Prod.ext shows.1 shows.2)

theorem removed (attributes : Attributes memory element attrs map)
    (stands : At memory attrs map name before b after front value rear) {oldAttr : Nat}
    (found : findAttributeNode memory element oldAttr = some (some b)) :
    ∃ memory', removeAttributeNode memory (some element) (some oldAttr) true = some (.success, some b, memory') ∧
      Attributes memory' element (before ++ after) (map.erase name) := by
  obtain rfl := stands.list
  obtain ⟨memory', ran, allocated, contents, first', next', prev'⟩ := attributes.listed.removes stands.member found
  obtain ⟨prev, next⟩ := attributes.chain.at
  rw [prev, next] at next' prev'
  rw [next] at first'
  have nodup := attributes.nodup
  rw [List.nodup_append, List.nodup_cons] at nodup
  obtain ⟨-, ⟨notAfter, -⟩, apart⟩ := nodup
  have notBefore : b ∉ before := fun inside => apart b inside b List.mem_cons_self rfl
  refine ⟨memory', ran, ?_⟩
  constructor
  · rw [allocated]
    exact attributes.owner
  · rw [first']
    cases before with
    | nil => exact if_pos rfl
    | cons p rest =>
      have other : (p :: rest ++ b :: after).head? ≠ some b := by
        rintro ⟨⟩
        exact notBefore List.mem_cons_self
      rw [if_neg other]
      rfl
  · intro inside
    apply attributes.apart
    rw [List.mem_append] at inside ⊢
    exact inside.imp_right (List.mem_cons_of_mem b)
  · exact attributes.nodup.sublist ((List.sublist_cons_self b after).append_left before)
  · have other (c : Nat) (member : c ∈ before ++ after) : some b ≠ some c := by
      rintro ⟨⟩
      exact (List.mem_append.mp member).elim notBefore notAfter
    rw [prev', next']
    exact (attributes.chain.remove attributes.nodup).congr (fun c member => setAt_other (other c member) _ _)
      fun c member => setAt_other (other c member) _ _
  · rw [shown_contents contents, OrderedMap.erase_entry stands.map, List.map_append, List.map_append, stands.front,
      stands.rear]

end Changes

end Attributes

end Pupnp.Ixml.Dom
