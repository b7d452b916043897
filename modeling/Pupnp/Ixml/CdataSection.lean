import Pupnp.Ixml.Reparse
import Pupnp.Ixml.Utf8

/-!
A CDATA section in an element. The scan of `Parser_processCDSect` takes the octets for characters, so it stops
at the first one outside ASCII, and the three octets behind it are skipped unread.
-/

namespace Pupnp.Ixml
open CString

def cdataText (content : List UInt8) : List UInt8 := bytes "<![CDATA[" ++ (content ++ bytes "]]>")

/-- The section becomes the only child of its element and the parser goes on behind it; a section without content
may also leave no child. -/
structure ReadsSection (errorChar : Int) (content : List UInt8) : Prop where
  document : ∃ doc tag nodes, ixmlParseBufferEx errorChar (bytes "<a>" ++ cdataText content ++ bytes "</a>") = .ok doc ∧
    doc.children = [.element tag [] nodes] ∧ tag.nodeName = bytes "a" ∧
    (nodes = [.cdataSection content] ∨ content = [] ∧ nodes = [])
  goesOn : ∀ (p : Parser) (rest : List UInt8), p.curPtr = cdataText content ++ rest →
    ∃ node q, parserProcessContent errorChar p = .ok (node, q) ∧ q.curPtr = rest ∧
      (node = .cdataSection content ∨ content = [] ∧ node = .none)

section Sections
variable {errorChar : Int} {content : List UInt8}

def sectionTag : Tag := ⟨0, bytes "a", none, bytes "a"⟩

theorem sectionTag_name : NameText sectionTag.nodeName :=
  ⟨97, [], rfl, by decide +kernel, trivial⟩

theorem enterSiblings_section (content : List UInt8) :
    ∃ q, enterSiblings (parserInit []) [.element sectionTag [] [.cdataSection content]] = .ok q ∧
      q.children = [.element sectionTag [] [.cdataSection content]] := by
  have inside (p : Parser) : enterSiblings p [.cdataSection content] = appendNode p (.cdataSection content) := by
    rw [enterSiblings]
  rw [enterSiblings_element]
  simp only [inside]
  apply Exists.intro
  constructor
  · rfl
  · rfl

theorem document_section (cdata : CData content) :
    ∃ doc tag nodes, ixmlParseBufferEx errorChar (bytes "<a>" ++ cdataText content ++ bytes "</a>") = .ok doc ∧
      doc.children = [.element tag [] nodes] ∧ tag.nodeName = bytes "a" ∧
      (nodes = [.cdataSection content] ∨ content = [] ∧ nodes = []) := by
  have good : NodesRead errorChar [.element sectionTag [] [.cdataSection content]] := by
    simp only [NodesRead, List.not_mem_nil, false_implies, implies_true, true_and, and_true]
    exact ⟨sectionTag_name, cdata⟩
  have whole : bytes "<a>" ++ cdataText content ++ bytes "</a>" =
      printStartTag sectionTag [] [.cdataSection content] ++
        (printSiblings [.cdataSection content] ++ 60 :: 47 :: (sectionTag.nodeName ++ 62 :: [])) := by
    rw [printSiblings, cdataText]
    simp only [List.append_assoc]
    rfl
  obtain ⟨q, entered, children⟩ := enterSiblings_section content
  obtain ⟨parsed, -⟩ := (element_parsed good .nil whole).2 q entered
  exact ⟨_, sectionTag, [.cdataSection content], parsed, children, rfl, .inl rfl⟩

theorem goesOn_section (cdata : CData content) (p : Parser) (rest : List UInt8)
    (here : p.curPtr = cdataText content ++ rest) :
    ∃ node q, parserProcessContent errorChar p = .ok (node, q) ∧ q.curPtr = rest ∧
      (node = .cdataSection content ∨ content = [] ∧ node = .none) := by
  have here' : p.curPtr = [] ++ (bytes "<![CDATA[" ++ (content ++ (bytes "]]>" ++ rest))) := by
    rw [here, cdataText]
    simp only [List.append_assoc, List.nil_append]
  obtain ⟨place, behind, -, read⟩ := @parserProcessContent_cdata errorChar p [] content rest .nil cdata here'
  exact ⟨_, _, read, behind, .inl rfl⟩

theorem ReadsSection.cdata (reads : ReadsSection errorChar content) : CData content := by
  have start : parserSkipWhiteSpaces (cdataText content) = cdataText content :=
    parserSkipWhiteSpaces_head (by change WHITESPACE.contains 60 = false; decide)
  have mark : startsWith (cdataText content) (bytes "<![CDATA[") = true :=
    (startsWith_iff (by decide) _).mpr (List.prefix_append _ _)
  have some : cdataText content ≠ [] := List.append_ne_nil_of_left_ne_nil (by decide) _
  have head : (cdataText content).headD 0 = 60 := rfl
  obtain ⟨node, q, read, -, value⟩ := reads.goesOn (parserInit (cdataText content)) [] (List.append_nil _).symm
  unfold parserProcessContent at read
  simp only [parserInit, start, some, head, mark, if_true, if_false] at read
  cases found : parserProcessCDSect (cdataText content) with
  | error stop =>
    rw [found] at read
    cases read
  | ok result =>
    obtain ⟨nodeValue, rest⟩ := result
    rw [found] at read
    cases read
    have cdata := parserProcessCDSect_read found
    obtain same | ⟨-, none⟩ := value
    · cases same
      exact cdata
    · cases none

theorem utf8_ascii {text : List Char} (xml : IsXmlString text) :
    (∀ b ∈ utf8 text, b ≤ 127) ↔ ∀ c ∈ text, c.val.toNat ≤ 127 := by
  constructor
  · intro ascii c member
    have code : (c.val.toNat : Int) ∈ codes text := List.mem_map_of_mem member
    have bounds := parserIsXmlChar_bounds (xml _ code)
    by_contra wide
    obtain ⟨b, rest, octets⟩ := List.exists_cons_of_ne_nil (parserIntToUTF8_some bounds.1 (by omega))
    have here : b ∈ parserIntToUTF8 (c.val.toNat : Int) := by rw [octets]; exact List.mem_cons_self
    have high := parserIntToUTF8_high (by omega) b here
    have low : b ≤ 127 := by
      apply ascii
      rw [utf8_codes]
      exact List.mem_flatMap.mpr ⟨_, code, here⟩
    rw [UInt8.le_iff_toNat_le] at high low
    exact absurd (high.trans low) (by decide)
  · intro ascii b member
    rw [utf8_codes] at member
    obtain ⟨code, inside, here⟩ := List.mem_flatMap.mp member
    obtain ⟨c, listed, rfl⟩ := List.mem_map.mp inside
    have small := ascii c listed
    rw [parserIntToUTF8_ascii (by omega) (by omega), List.mem_singleton] at here
    rw [here, UInt8.le_iff_toNat_le, UInt8.toNat_ofNat']
    change _ ≤ 127
    omega

/-- A CDATA section is read with its content exactly where that is not empty and all ASCII. -/
theorem readsSection_iff {text : List Char} (xml : IsXmlString text) (open_ : ¬bytes "]]>" <:+: utf8 text) :
    ReadsSection errorChar (utf8 text) ↔ text ≠ [] ∧ ∀ c ∈ text, c.val.toNat ≤ 127 := by
  rw [← utf8_ascii xml]
  constructor
  · intro reads
    have cdata := reads.cdata
    refine ⟨?_, ?_⟩
    · rintro rfl
      exact cdata.nonempty rfl
    · intro b member
      have ascii := cdata.ascii b member
      rw [Bool.and_eq_true, decide_eq_true_eq] at ascii
      exact ascii.1
  · intro plain
    have cdata : CData (utf8 text) := by
      refine ⟨utf8_some xml plain.1, ?_, open_⟩
      intro b member
      have ascii := plain.2 b member
      rw [utf8_codes] at member
      rw [Bool.and_eq_true, decide_eq_true_eq]
      exact ⟨ascii, xml _ ((mem_encode xml ascii).mp member)⟩
    exact ⟨document_section cdata, fun p rest => goesOn_section cdata p rest⟩

theorem readsSection_plain : ReadsSection 0 (utf8 ['a', ']', ']']) := by
  have xml : IsXmlString ['a', ']', ']'] := by
    change ∀ c ∈ [(97 : Int), 93, 93], parserIsXmlChar c = true
    decide
  exact (readsSection_iff xml (by decide)).mpr ⟨List.cons_ne_nil _ _, by simp⟩

end Sections

/-- At the letter é the section ends, and three octets are skipped: what is left of the end mark is taken for
text. -/
theorem section_lost :
    parserProcessCDSect (cdataText (utf8 ['a', 'é']) ++ bytes "</a>") = .ok (bytes "a", bytes "]></a>") ∧
      ¬ReadsSection 0 (utf8 ['a', 'é']) := by
  refine ⟨by decide, ?_⟩
  intro reads
  have ascii := reads.cdata.ascii 0xC3 (by decide)
  revert ascii
  decide

end Pupnp.Ixml
