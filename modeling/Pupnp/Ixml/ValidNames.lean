import Pupnp.Ixml.AttrLists
import Pupnp.Ixml.PrintedValues

/-!
The names of attributes. The check in front of a new attribute lets a name through that starts with no letter; where the
name is valid, the attribute is accepted again when it is printed, as far as its value goes.
-/

namespace Pupnp.Ixml

/-! ### Valid names -/

def InTable (c : Int) (tbl : List (Int × Int)) : Prop := ∃ entry ∈ tbl, entry.1 ≤ c ∧ c ≤ entry.2

instance decidableInTable (c : Int) (tbl : List (Int × Int)) : Decidable (InTable c tbl) :=
  inferInstanceAs (Decidable (∃ entry ∈ tbl, _))

def Sorted (tbl : List (Int × Int)) : Prop :=
  (∀ entry ∈ tbl, entry.1 ≤ entry.2) ∧ tbl.IsChain fun entry later => entry.2 < later.1

instance decidableSorted (tbl : List (Int × Int)) : Decidable (Sorted tbl) := inferInstanceAs (Decidable (_ ∧ _))

theorem Sorted.apart {tbl : List (Int × Int)} (sorted : Sorted tbl) {i j : Nat} (less : i < j) (inside : j < tbl.length) :
    tbl[i].2 < tbl[j].1 := by
  have step := List.isChain_iff_getElem.mp sorted.2
  induction j, less using Nat.le_induction with
  | base => exact step i inside
  | succ j less ih =>
    have before := ih (by omega)
    have range := sorted.1 tbl[j] (List.getElem_mem _)
    have next := step j inside
    omega

theorem searchTable_sorted {c : Int} {tbl : List (Int × Int)} (sorted : Sorted tbl) {t b : Int} (low : 0 ≤ t)
    (high : b < tbl.length) {i : Nat} (inside : i < tbl.length) (above : t ≤ i) (below : (i : Int) ≤ b)
    (here : tbl[i].1 ≤ c ∧ c ≤ tbl[i].2) : searchTable c tbl t b = true := by
  induction t, b using searchTable.induct c tbl with
  | case1 t b more m entry less ih =>
    rw [searchTable, if_pos more, if_pos less]
    have short : m.toNat < tbl.length := by omega
    have probe : entry = tbl[m.toNat] := by
      change (tbl[m.toNat]?).getD (0, 0) = _
      rw [List.getElem?_eq_getElem short, Option.getD_some]
    apply ih low (by omega) above
    rw [probe] at less
    by_contra late
    obtain same | later := Nat.eq_or_lt_of_le (by omega : m.toNat ≤ i)
    · simp only [same] at less
      omega
    · have behind := sorted.apart later inside
      have range := sorted.1 _ (List.getElem_mem short)
      omega
  | case2 t b more m entry notLess greater ih =>
    rw [searchTable, if_pos more, if_neg notLess, if_pos greater]
    have short : m.toNat < tbl.length := by omega
    have probe : entry = tbl[m.toNat] := by
      change (tbl[m.toNat]?).getD (0, 0) = _
      rw [List.getElem?_eq_getElem short, Option.getD_some]
    apply ih (by omega) high _ below
    rw [probe] at greater
    by_contra early
    obtain same | earlier := Nat.eq_or_lt_of_le (by omega : i ≤ m.toNat)
    · simp only [← same] at greater
      omega
    · have before := sorted.apart earlier short
      have range := sorted.1 _ (List.getElem_mem short)
      omega
  | case3 t b more m entry notLess notGreater => rw [searchTable, if_pos more, if_neg notLess, if_neg notGreater]
  | case4 t b empty => omega

theorem parserIsCharInTable_iff {tbl : List (Int × Int)} (sorted : Sorted tbl) (c : Int) :
    parserIsCharInTable c tbl = true ↔ InTable c tbl := by
  constructor
  · exact parserIsCharInTable_inside
  · rintro ⟨entry, member, here⟩
    obtain ⟨i, inside, rfl⟩ := List.getElem_of_mem member
    exact searchTable_sorted sorted (Int.le_refl 0) (by omega) inside (Int.natCast_nonneg i) (by omega) here

theorem letter_sorted : Sorted letter := by decide +kernel

theorem nameChar_sorted : Sorted nameChar := by decide +kernel

theorem parserIsNameChar_iff (c : Int) (bNameChar : Bool) :
    parserIsNameChar c bNameChar = true ↔ InTable c letter ∨ bNameChar = true ∧ InTable c nameChar := by
  rw [parserIsNameChar, Bool.or_eq_true, Bool.and_eq_true, parserIsCharInTable_iff letter_sorted,
    parserIsCharInTable_iff nameChar_sorted]

def signedChar (c : UInt8) : Int := if c < 128 then c.toNat else (c.toNat : Int) - 256

/-- The first character is in the table of letters. -/
def StartsName : List UInt8 → Prop
  | [] => False
  | c :: _ => InTable (signedChar c) letter

/-- A letter in front, and letters and other name characters behind it -/
def XmlName : List UInt8 → Prop
  | [] => False
  | c :: rest =>
      InTable (signedChar c) letter ∧
        ∀ d ∈ rest, InTable (signedChar d) letter ∨ InTable (signedChar d) nameChar

instance decidableXmlName : (name : List UInt8) → Decidable (XmlName name)
  | [] => isFalse id
  | _ :: _ => inferInstanceAs (Decidable (_ ∧ _))

theorem signedChar_ascii {c : UInt8} {bNameChar : Bool} (name : parserIsNameChar (signedChar c) bNameChar = true) :
    c ≤ 127 ∧ signedChar c = c.toNat := by
  have positive := parserIsNameChar_pos name
  unfold signedChar at positive ⊢
  split at positive
  next low =>
    rw [if_pos low]
    have below := UInt8.lt_iff_toNat_lt.mp low
    change c.toNat < 128 at below
    refine ⟨UInt8.le_iff_toNat_le.mpr ?_, rfl⟩
    change c.toNat ≤ 127
    omega
  next =>
    have below := UInt8.toNat_lt c
    omega

theorem XmlName.nameText {name : List UInt8} (valid : XmlName name) : NameText name := by
  have behind {rest : List UInt8} (all : ∀ d ∈ rest, parserIsNameChar (signedChar d) true = true) :
      NameChars true (rest.map fun b => (b.toNat : Int)) := by
    induction rest with
    | nil => trivial
    | cons d rest ih =>
      have here := all d List.mem_cons_self
      rw [(signedChar_ascii here).2] at here
      exact ⟨here, ih fun e member => all e (List.mem_cons_of_mem d member)⟩
  cases name with
  | nil => exact absurd valid id
  | cons c rest =>
    obtain ⟨first, others⟩ := valid
    have letter := (parserIsNameChar_iff (signedChar c) false).mpr (.inl first)
    have all : ∀ d ∈ rest, parserIsNameChar (signedChar d) true = true := by
      intro d member
      exact (parserIsNameChar_iff _ true).mpr ((others d member).imp_right fun other => ⟨rfl, other⟩)
    have ascii : ∀ d ∈ c :: rest, d ≤ 127 := by
      intro d member
      rcases List.mem_cons.mp member with rfl | later
      · exact (signedChar_ascii letter).1
      · exact (signedChar_ascii (all d later)).1
    rw [(signedChar_ascii letter).2] at letter
    have whole := (encode_ascii ascii).symm
    rw [List.map_cons] at whole
    exact ⟨_, _, whole, letter, behind all⟩

end Pupnp.Ixml

namespace Pupnp.Ixml.Dom
open CString Pupnp.Cells

/-! ### Names of attributes -/

/-- What the call says of a name: one that starts with no letter is let through, and so is the empty one. -/
theorem parserIsValidXmlName_iff (name : List UInt8) :
    parserIsValidXmlName name = true ↔ (StartsName name → XmlName name) := by
  cases name with
  | nil => exact iff_of_true rfl id
  | cons c rest =>
    change (if parserIsNameChar (signedChar c) false then rest.all fun c => parserIsNameChar (signedChar c) true
      else true) = true ↔ _
    have first := parserIsNameChar_iff (signedChar c) false
    by_cases letter : parserIsNameChar (signedChar c) false = true
    · have starts : InTable (signedChar c) Ixml.letter := by simpa using first.mp letter
      rw [if_pos letter, List.all_eq_true]
      simp only [parserIsNameChar_iff, true_and]
      exact ⟨fun all _ => ⟨starts, all⟩, fun valid => (valid starts).2⟩
    · rw [if_neg letter]
      refine iff_of_true rfl fun starts => ?_
      exact absurd (first.mpr (.inl starts)) letter

theorem parserIsValidXmlName_right (name : List UInt8) :
    (parserIsValidXmlName name = true ↔ XmlName name) ↔ StartsName name := by
  have starts : XmlName name → StartsName name := by
    cases name with
    | nil => exact id
    | cons c rest => exact And.left
  rw [parserIsValidXmlName_iff]
  constructor
  · intro right
    by_contra other
    exact other (starts (right.mp fun letter => absurd letter other))
  · intro letter
    exact ⟨fun valid => valid letter, fun valid _ => valid⟩

/-! ### The attribute that a call creates -/

section Creation
variable {memory memory' : Memory Cell} {isIt : Nat → Cell → Option Bool}

theorem search_extends {rounds rounds' : Nat} {p : Option Nat} (extends_ : Extends memory memory')
    (more : rounds ≤ rounds') (missed : search memory isIt rounds p = some none) :
    search memory' isIt rounds' p = some none := by
  induction rounds generalizing rounds' p with
  | zero =>
    cases p with
    | none => cases rounds' <;> rfl
    | some a => cases missed
  | succ rounds ih =>
    cases p with
    | none => cases rounds' <;> rfl
    | some a =>
      obtain ⟨rounds', rfl⟩ : ∃ n, rounds' = n + 1 := ⟨rounds' - 1, by omega⟩
      rw [search] at missed ⊢
      simp only [Option.bind_eq_bind, Option.bind_eq_some_iff] at missed
      obtain ⟨cell, found, hit, compared, rest⟩ := missed
      split at rest
      next => cases Option.some.inj rest
      next other =>
        simp only [extends_ a cell found, compared, Option.bind_eq_bind, Option.bind_some, other]
        exact ih (Nat.le_of_succ_le_succ more) rest

theorem cellCount_extends (extends_ : Extends memory memory') : cellCount memory ≤ cellCount memory' := by
  apply cellCount_le memory.keys_nodup
  intro a member
  obtain ⟨cell, found⟩ := Option.isSome_iff_exists.mp (AList.lookup_isSome.mpr member)
  rw [extends_ a cell found]
  rfl

def SameContents (memory memory' : Memory Cell) : Prop :=
  ∀ a, (memory'.lookup a).map Cell.toContent = (memory.lookup a).map Cell.toContent

theorem SameContents.trans {memory'' : Memory Cell} (first : SameContents memory memory')
    (second : SameContents memory' memory'') : SameContents memory memory'' :=
  fun a => (second a).trans (first a)

theorem store_contents {a : Nat} {change : Cell → Cell} (stored : store memory a change = some memory')
    (same : ∀ cell, (change cell).toContent = cell.toContent) : SameContents memory memory' := by
  obtain ⟨cell, found, rfl⟩ := Option.map_eq_some_iff.mp stored
  intro b
  by_cases here : b = a
  · rw [here, AList.lookup_insert, found, Option.map_some, Option.map_some, same]
  · rw [AList.lookup_insert_ne here]

theorem appendAttr_contents {element newAttr : Nat} {linkBack : Bool}
    (ran : appendAttr memory element newAttr linkBack = some memory') : SameContents memory memory' := by
  unfold appendAttr at ran
  simp only [Option.bind_eq_bind, Option.bind_eq_some_iff] at ran
  obtain ⟨e, -, ran⟩ := ran
  split at ran
  next first _ =>
    simp only [Option.bind_eq_some_iff] at ran
    obtain ⟨prevAttr, -, memory₁, stored, ran⟩ := ran
    have linked := store_contents stored fun _ => rfl
    split at ran
    next => exact linked.trans (store_contents ran fun _ => rfl)
    next =>
      cases ran
      exact linked
  next =>
    simp only [Option.bind_eq_some_iff] at ran
    obtain ⟨memory₁, stored, ran⟩ := ran
    exact (store_contents stored fun _ => rfl).trans (store_contents ran fun _ => rfl)

theorem store_absent {a b : Nat} {change : Cell → Cell} (stored : store memory b change = some memory')
    (absent : memory.lookup a = none) : memory'.lookup a = none := by
  obtain ⟨cell, found, rfl⟩ := Option.map_eq_some_iff.mp stored
  have apart : a ≠ b := by
    rintro rfl
    rw [absent] at found
    cases found
  rw [AList.lookup_insert_ne apart, absent]

/-- The new attribute, once it has its name and its value, is linked in behind all others. -/
theorem setAttributeNode_created {element new : Nat} {e attr : Cell} {name : List UInt8} {memory₂ memory₃ : Memory Cell}
    {errCode : AttrCode} {rtAttr : Option Nat} (owner : memory.lookup element = some e) (fresh : memory.lookup new = none)
    (searched : searchAttrs memory (fun _ => nameIs (some name)) element = some none)
    (atNew : memory₂.lookup new = some attr) (kept : ∀ b, b ≠ new → memory₂.lookup b = memory.lookup b)
    (named : attr.nodeName = some name) (document : attr.ownerDocument = e.ownerDocument) (loose : attr.ownerElement = none)
    (added : setAttributeNode memory₂ (some element) (some new) false = some (errCode, rtAttr, memory₃)) :
    errCode = .success ∧ ∀ a cell, memory.lookup a = none → memory₃.lookup a = some cell →
      cell.toContent = attr.toContent := by
  have apart : element ≠ new := by
    rintro rfl
    rw [owner] at fresh
    cases fresh
  have owner₂ : memory₂.lookup element = some e := by rw [kept element apart, owner]
  obtain ⟨memory₄, stored, atNew₄, kept₄⟩ := store_found atNew ({ · with ownerElement := some element })
  have extends_ : Extends memory memory₄ := by
    intro b cell found
    have other : b ≠ new := by
      rintro rfl
      rw [fresh] at found
      cases found
    rw [kept₄ b other, kept b other, found]
  have owner₄ := extends_ element e owner
  have searched₄ : searchAttrs memory₄ (fun _ => nameIs attr.nodeName) element = some none := by
    simp only [searchAttrs, owner, owner₄, named, Option.bind_eq_bind, Option.bind_some] at searched ⊢
    exact search_extends extends_ (cellCount_extends extends_) searched
  simp only [setAttributeNode, atNew, owner₂, document, loose, stored, searched₄, ne_eq, not_true_eq_false, if_false,
    Option.bind_eq_bind, Option.bind_some, Option.bind_eq_some_iff] at added
  obtain ⟨memory₅, linked, same⟩ := added
  cases same
  refine ⟨rfl, fun a cell absent found => ?_⟩
  have contents := appendAttr_contents linked a
  rw [found] at contents
  by_cases here : a = new
  · rw [here, atNew₄] at contents
    exact Option.some.inj contents
  · rw [kept₄ a here, kept a here, absent] at contents
    cases contents

theorem setAttribute_created {malloc : Malloc Cell} {element a : Nat} {name value : List UInt8} {cell : Cell}
    (ran : setAttribute malloc memory (some element) (some name) (some value) = some (.success, memory'))
    (absent : memory.lookup a = none) (found : memory'.lookup a = some cell) :
    parserIsValidXmlName name = true ∧ cell.nodeName = some name ∧ cell.nodeValue = some value := by
  cases valid : parserIsValidXmlName name with
  | false =>
    simp only [setAttribute, valid, Bool.not_false, if_true] at ran
    cases ran
  | true =>
    simp only [setAttribute, valid, Bool.not_true, Bool.false_eq_true, if_false, Option.bind_eq_bind,
      Option.bind_eq_some_iff] at ran
    obtain ⟨hit, searched, ran⟩ := ran
    cases hit with
    | some attrNode =>
      simp only [Option.bind_eq_some_iff] at ran
      obtain ⟨memory₁, stored, same⟩ := ran
      cases same
      rw [store_absent stored absent] at found
      cases found
    | none =>
      simp only [Option.bind_eq_some_iff] at ran
      obtain ⟨e, owner, ⟨newAttr, memory₁⟩, created, memory₂, stored, ⟨errCode, rtAttr, memory₃⟩, added, ran⟩ := ran
      obtain ⟨doc, document, same⟩ := Option.map_eq_some_iff.mp created
      obtain ⟨rfl, rfl⟩ := Prod.mk.inj same
      obtain ⟨memory₂', stored', atNew, kept⟩ := store_found (AList.lookup_insert memory)
        ({ · with nodeValue := some value } : Cell → Cell)
      obtain rfl : memory₂ = memory₂' := Option.some.inj (stored.symm.trans stored')
      obtain ⟨rfl, contents⟩ := setAttributeNode_created owner (malloc.fresh memory) searched atNew
        (fun b other => (kept b other).trans (AList.lookup_insert_ne other)) rfl document.symm rfl added
      simp only [ne_eq, not_true_eq_false, if_false] at ran
      cases ran
      have content := contents a cell absent found
      exact ⟨rfl, congrArg Content.nodeName content, congrArg Content.nodeValue content⟩

end Creation

/-! ### Names that are let through -/

def ShowsAttr (cell : Cell) (attr : Attr) : Prop :=
  cell.nodeName = some attr.nodeName ∧ cell.nodeValue = some attr.nodeValue

/-- In the start tag of any element without a prefix the parser accepts the attribute as it is printed. -/
def AcceptedAgain (attr : Attr) : Prop :=
  ∀ tag : Tag, NameText tag.nodeName → 58 ∉ tag.nodeName →
    ∃ doc, ixmlParseBufferEx 0 (ixmlPrintNode (.element tag [attr] [])) = .ok doc

def CreatesAccepted (name value : List UInt8) : Prop :=
  ∀ (malloc : Malloc Cell) (memory memory' : Memory Cell) (element a : Nat) (cell : Cell),
    setAttribute malloc memory (some element) (some name) (some value) = some (.success, memory') →
      memory.lookup a = none → memory'.lookup a = some cell → ∃ attr, ShowsAttr cell attr ∧ AcceptedAgain attr

/-- The call is right about the name, and so the attributes that get it are accepted again. -/
def NameChecked (name value : List UInt8) : Prop :=
  (parserIsValidXmlName name = true ↔ XmlName name) ∧ CreatesAccepted name value

theorem accepted_iff {attr : Attr} (valid : XmlName attr.nodeName) : AcceptedAgain attr ↔ xmlText attr.nodeValue = true := by
  constructor
  · intro accepted
    have named : NameText (bytes "e") := XmlName.nameText (by decide)
    exact (@ixmlPrintNode_accepted ⟨0, bytes "e", none, bytes "e"⟩ attr named (by decide) valid.nameText).mp
      (accepted _ named (by decide))
  · intro readable tag tagName noPrefix
    exact (ixmlPrintNode_accepted tagName noPrefix valid.nameText).mpr readable

/-- An element of a document, without attributes. -/
def loneElement : Memory Cell :=
  AList.singleton 1 { nodeType := .element, nodeName := some [101], ownerDocument := some 100 }

theorem setAttribute_lone {name : List UInt8} (valid : parserIsValidXmlName name = true) (value : List UInt8) :
    ∃ memory' cell, setAttribute .behind loneElement (some 1) (some name) (some value) = some (.success, memory') ∧
      memory'.lookup 2 = some cell := by
  unfold setAttribute
  dsimp only
  rw [valid]
  exact ⟨_, _, rfl, rfl⟩

theorem createsAccepted_iff {name : List UInt8} (letter : StartsName name) (value : List UInt8) :
    CreatesAccepted name value ↔ (XmlName name → xmlText value = true) := by
  have right := (parserIsValidXmlName_right name).mpr letter
  constructor
  · intro creates valid
    obtain ⟨memory', cell, ran, found⟩ := setAttribute_lone (right.mpr valid) value
    obtain ⟨attr, ⟨named, valued⟩, accepted⟩ := creates _ _ _ _ _ _ ran rfl found
    obtain ⟨-, hasName, hasValue⟩ := setAttribute_created ran rfl found
    obtain rfl : attr.nodeName = name := Option.some.inj (named.symm.trans hasName)
    obtain rfl : attr.nodeValue = value := Option.some.inj (valued.symm.trans hasValue)
    exact (accepted_iff valid).mp accepted
  · intro readable malloc memory memory' element a cell ran absent found
    obtain ⟨letThrough, named, valued⟩ := setAttribute_created ran absent found
    have valid := right.mp letThrough
    exact ⟨⟨name, value, none, none⟩, ⟨named, valued⟩, (accepted_iff valid).mpr (readable valid)⟩

/-- The check is enough exactly for a name that starts with a letter, with a value of XML characters where the name is
valid. -/
theorem nameChecked_iff (name value : List UInt8) :
    NameChecked name value ↔ StartsName name ∧ (XmlName name → xmlText value = true) := by
  rw [NameChecked, parserIsValidXmlName_right]
  exact and_congr_right fun letter => createsAccepted_iff letter value

/-- A name may be empty or start with a digit, and then the parser refuses what is printed. -/
theorem nameChecked_digit :
    ¬NameChecked [] (bytes "v") ∧ ¬NameChecked (bytes "1x") (bytes "v") ∧
      (∃ memory', setAttribute .behind loneElement (some 1) (some (bytes "1x")) (some (bytes "v")) =
        some (.success, memory')) ∧
      ¬AcceptedAgain ⟨bytes "1x", bytes "v", none, none⟩ := by
  have letThrough : parserIsValidXmlName (bytes "1x") = true := by decide +kernel
  obtain ⟨memory', cell, ran, -⟩ := setAttribute_lone letThrough (bytes "v")
  refine ⟨fun right => ?_, fun right => ?_, ⟨memory', ran⟩, fun accepted => ?_⟩
  · exact right.1.mp rfl
  · exact absurd (right.1.mp letThrough) (by decide +kernel)
  · obtain ⟨doc, parsed⟩ := accepted ⟨0, bytes "e", none, bytes "e"⟩ (XmlName.nameText (by decide +kernel)) (by decide)
    have refused : (parserRound 0 (parserInit (60 :: 101 :: bytes " 1x=\"v\"></e>\r\n"))).isOk = false := by
      decide +kernel
    cases round : parserRound 0 (parserInit (60 :: 101 :: bytes " 1x=\"v\"></e>\r\n")) with
    | ok q =>
        rw [round] at refused
        cases refused
    | error stop =>
        have start := @ixmlParseBufferEx_tag 0 101 (bytes " 1x=\"v\"></e>\r\n") (by decide) (by decide)
        have printed : ixmlPrintNode (.element ⟨0, bytes "e", none, bytes "e"⟩ [⟨bytes "1x", bytes "v", none, none⟩] []) =
            60 :: 101 :: bytes " 1x=\"v\"></e>\r\n" := by
          simp [ixmlPrintNode, printStartTag, printAttributes, printSiblings, copyWithEscape, escapeOctet, bytes]
        rw [parserLoop_stop round] at start
        rw [printed, start] at parsed
        cases parsed

end Pupnp.Ixml.Dom
