import Pupnp.Ixml.Reparse
import Pupnp.Ixml.Utf8

/-!
Values of any octets as they are printed. What the parser reads of the printed text it would read of the value itself,
so it fails exactly where a character of the value is no XML character.
-/

namespace Pupnp.Ixml
open CString

/-- Whether `Parser_UTF8ToInt` finds XML characters up to the end. -/
def xmlText (s : List UInt8) : Bool :=
  if s = [] then true
  else if _char : parserIsXmlChar (parserUTF8ToInt 0 s).1 = true then xmlText (s.drop (parserUTF8ToInt 0 s).2)
  else false
termination_by s.length
decreasing_by
  have long := parserUTF8ToInt_length (parserIsXmlChar_pos _char)
  rw [List.length_drop]
  omega

/-! ### Octets that go on with a character -/

def goesOn (b : UInt8) : Bool := b.toNat &&& 0xC0 = 0x80

theorem goesOn_wide {b : UInt8} (on : goesOn b = true) : 128 ≤ b := by
  revert on
  revert b
  apply forall_byte
  decide +kernel

theorem isTrail_goesOn (s : List UInt8) (i : Nat) : isTrail s i = goesOn (s.getD i 0) := rfl

section Trails
variable {b : UInt8} {trails s t : List UInt8}

theorem octet_trails {i : Nat} (inside : i ≤ trails.length) :
    octet (b :: (trails ++ s)) i = octet (b :: (trails ++ t)) i := by
  cases i with
  | zero => rfl
  | succ i =>
    unfold octet List.getD
    rw [List.getElem?_cons_succ, List.getElem?_cons_succ, List.getElem?_append_left inside,
      List.getElem?_append_left inside]

theorem octet_behind (ends : goesOn (s.headD 0) = false) :
    ¬octet (b :: (trails ++ s)) (trails.length + 1) &&& 0xC0 = 0x80 := by
  have head : octet (b :: (trails ++ s)) (trails.length + 1) = (s.headD 0).toNat := by
    unfold octet List.getD
    rw [List.getElem?_cons_succ, List.getElem?_append_right (Nat.le_refl _), Nat.sub_self]
    cases s <;> rfl
  rw [head]
  exact of_decide_eq_false ends

theorem parserUTF8ToInt_trails (ends : goesOn (s.headD 0) = false) (ends' : goesOn (t.headD 0) = false) :
    parserUTF8ToInt 0 (b :: (trails ++ s)) = parserUTF8ToInt 0 (b :: (trails ++ t)) := by
  have same (i : Nat) (inside : i ≤ trails.length) := @octet_trails b trails s t i inside
  have stop := @octet_behind b trails s ends
  have stop' := @octet_behind b trails t ends'
  generalize b :: (trails ++ s) = left at same stop
  generalize b :: (trails ++ t) = right at same stop'
  generalize trails.length = n at same stop stop'
  unfold parserUTF8ToInt isTrail trail
  rcases n with _ | _ | _ | _ | _ | n
  all_goals simp (disch := omega) only [same, stop, stop', decide_false, Bool.and_false, Bool.false_and,
    Bool.false_eq_true, if_false]

end Trails

theorem escapeOctet_wide {b : UInt8} (wide : 128 ≤ b) : escapeOctet b = [b] := by
  apply escapeOctet_plain
  intro member
  have ascii : ∀ d ∈ bytes "<>&'\"", d < 128 := by decide
  exact absurd (ascii b member) (UInt8.not_lt.mpr wide)

theorem escaped_plain {b : UInt8} (plain : escapeOctet b = [b]) (s t : List UInt8) :
    copyWithEscape (b :: s) ++ t = b :: (copyWithEscape s ++ t) := by
  change escapeOctet b ++ copyWithEscape s ++ t = _
  rw [plain, List.append_assoc, List.singleton_append]

theorem copyWithEscape_wide {s : List UInt8} (wide : ∀ b ∈ s, 128 ≤ b) : copyWithEscape s = s := by
  apply copyWithEscape_plain
  intro b member low
  have ascii : ∀ d ∈ bytes "<>&'\"", d < 128 := by decide
  exact absurd (ascii b low) (UInt8.not_lt.mpr (wide b member))

theorem escaped_ends {s : List UInt8} (ends : goesOn (s.headD 0) = false) (rest : List UInt8) :
    goesOn ((copyWithEscape s ++ 34 :: rest).headD 0) = false := by
  cases s with
  | nil =>
    change goesOn 34 = false
    decide
  | cons d s =>
    have first : ∀ d, goesOn d = false → ∃ e more, escapeOctet d = e :: more ∧ goesOn e = false := by
      intro d on
      unfold escapeOctet
      split_ifs
      · exact ⟨38, _, rfl, rfl⟩
      · exact ⟨38, _, rfl, rfl⟩
      · exact ⟨38, _, rfl, rfl⟩
      · exact ⟨38, _, rfl, rfl⟩
      · exact ⟨38, _, rfl, rfl⟩
      · exact ⟨d, [], rfl, on⟩
    obtain ⟨e, more, escaped, on⟩ := first d ends
    change goesOn ((escapeOctet d ++ copyWithEscape s ++ 34 :: rest).headD 0) = false
    rw [escaped]
    exact on

theorem parserUTF8ToInt_escaped {b : UInt8} (wide : 128 ≤ b) (s rest : List UInt8) :
    parserUTF8ToInt 0 (copyWithEscape (b :: s) ++ 34 :: rest) = parserUTF8ToInt 0 (b :: s) := by
  have parts : s = s.takeWhile goesOn ++ s.dropWhile goesOn := List.takeWhile_append_dropWhile.symm
  have on : copyWithEscape (s.takeWhile goesOn) = s.takeWhile goesOn :=
    copyWithEscape_wide fun d member => goesOn_wide (List.mem_takeWhile_imp member)
  have ends : goesOn ((s.dropWhile goesOn).headD 0) = false := by
    cases rest : s.dropWhile goesOn with
    | nil => rfl
    | cons d more =>
      have head := List.head?_dropWhile_not goesOn s
      rw [rest] at head
      exact head
  have printed : copyWithEscape (b :: s) ++ 34 :: rest =
      b :: (s.takeWhile goesOn ++ (copyWithEscape (s.dropWhile goesOn) ++ 34 :: rest)) := by
    change escapeOctet b ++ copyWithEscape s ++ 34 :: rest = _
    conv_lhs => rw [parts]
    rw [escapeOctet_wide wide, copyWithEscape_append, on]
    simp only [List.cons_append, List.nil_append, List.append_assoc]
  rw [printed, parserUTF8ToInt_trails (escaped_ends ends rest) ends, ← parts]

theorem parserUTF8ToInt_isTrail {s : List UInt8} (char : 0 < (parserUTF8ToInt 0 s).1) {i : Nat} (some : 0 < i)
    (inside : i < (parserUTF8ToInt 0 s).2) : isTrail s i = true := by
  unfold parserUTF8ToInt at char inside
  dsimp only at char inside
  split_ifs at char inside with one two three four five six
  all_goals simp only [Bool.and_eq_true] at *
  · omega
  · interval_cases i
    exact two.2
  · interval_cases i
    exacts [three.1.2, three.2]
  · interval_cases i
    exacts [four.1.1.2, four.1.2, four.2]
  · interval_cases i
    exacts [five.1.1.1.2, five.1.1.2, five.1.2, five.2]
  · interval_cases i
    exacts [six.1.1.1.1.2, six.1.1.1.2, six.1.1.2, six.1.2, six.2]
  · omega
  · omega

theorem parserUTF8ToInt_take {b : UInt8} {s : List UInt8} (wide : 128 ≤ b) (char : 0 < (parserUTF8ToInt 0 (b :: s)).1) :
    ∀ d ∈ (b :: s).take (parserUTF8ToInt 0 (b :: s)).2, 128 ≤ d := by
  intro d member
  obtain ⟨i, inside, rfl⟩ := List.getElem_of_mem member
  rw [List.length_take] at inside
  rw [List.getElem_take]
  cases i with
  | zero => exact wide
  | succ i =>
    have on := parserUTF8ToInt_isTrail char (Nat.succ_pos i) (by omega)
    rw [isTrail_goesOn, List.getD, List.getElem?_eq_getElem (by omega)] at on
    exact goesOn_wide on

/-! ### A whole value -/

theorem xmlText_nil : xmlText [] = true := by
  rw [xmlText, if_pos rfl]

theorem xmlText_cons (b : UInt8) (s : List UInt8) : xmlText (b :: s) =
    (parserIsXmlChar (parserUTF8ToInt 0 (b :: s)).1 && xmlText ((b :: s).drop (parserUTF8ToInt 0 (b :: s)).2)) := by
  rw [xmlText, if_neg (List.cons_ne_nil b s)]
  split
  next char => rw [char, Bool.true_and]
  next noChar => rw [Bool.eq_false_iff.mpr noChar, Bool.false_and]

theorem parserGetChar_noChar {s : List UInt8} (other : octet s 0 ≠ 38)
    (noChar : parserIsXmlChar (parserUTF8ToInt 0 s).1 = false) : ∃ n, parserGetChar 0 s = some (-1, n) := by
  have noAscii : ¬(0 < octet s 0 && octet s 0 ≤ 127 && parserIsXmlChar (octet s 0)) = true := by
    intro ascii
    simp only [Bool.and_eq_true, decide_eq_true_eq] at ascii
    rw [parserUTF8ToInt_ascii ascii.1.2] at noChar
    rw [noChar] at ascii
    exact Bool.false_ne_true ascii.2
  unfold parserGetChar
  simp only [ne_eq, other, not_false_eq_true, if_true, noChar, Bool.not_false, not_true_eq_false, if_false]
  rw [if_neg noAscii]
  exact ⟨_, rfl⟩

theorem copyLoop_noChar {errorChar c : Int} {s : List UInt8} {len n : Nat} (some : len ≠ 0)
    (read : parserGetChar errorChar s = Option.some (c, n)) (bad : c ≤ 0) (tokenBuf : List UInt8) :
    copyLoop errorChar s len tokenBuf = .ok (false, tokenBuf) := by
  rw [copyLoop, if_neg some]
  split
  next none => cases none.symm.trans read
  next d dl same =>
    cases same.symm.trans read
    rw [dif_pos bad]

theorem parserUTF8ToInt_narrow {b : UInt8} (narrow : ¬128 ≤ b) (s : List UInt8) :
    b.toNat ≤ 127 ∧ parserUTF8ToInt 0 (b :: s) = ((b.toNat : Int), 1) := by
  have below := UInt8.lt_iff_toNat_lt.mp (UInt8.not_le.mp narrow)
  change b.toNat < 128 at below
  have low : b.toNat ≤ 127 := by omega
  exact ⟨low, @parserUTF8ToInt_ascii 0 (b :: s) low⟩

theorem parserGetChar_value {b : UInt8} {s : List UInt8} (char : parserIsXmlChar (parserUTF8ToInt 0 (b :: s)).1 = true)
    (rest : List UInt8) :
    ∃ front c, copyWithEscape (b :: s) = front ++ copyWithEscape ((b :: s).drop (parserUTF8ToInt 0 (b :: s)).2) ∧
      parserGetChar 0 (copyWithEscape (b :: s) ++ 34 :: rest) = some (c, front.length) ∧ 0 < c ∧
        copiedChar c front.length ≠ [] := by
  have encoded {c : Int} (n : Nat) (xml : parserIsXmlChar c = true) : copiedChar c n ≠ [] := by
    have bounds := parserIsXmlChar_bounds xml
    unfold copiedChar
    split
    next => exact List.cons_ne_nil _ _
    next => exact parserIntToUTF8_some bounds.1 (by omega)
  by_cases wide : 128 ≤ b
  · have read := parserUTF8ToInt_escaped wide s rest
    have positive := parserIsXmlChar_pos char
    have inside := (parserUTF8ToInt_length positive).2
    have plain := copyWithEscape_wide (parserUTF8ToInt_take wide positive)
    have other : octet (copyWithEscape (b :: s) ++ 34 :: rest) 0 ≠ 38 := by
      have high := UInt8.le_iff_toNat_le.mp wide
      change 128 ≤ b.toNat at high
      rw [escaped_plain (escapeOctet_wide wide)]
      change b.toNat ≠ 38
      omega
    refine ⟨(b :: s).take (parserUTF8ToInt 0 (b :: s)).2, (parserUTF8ToInt 0 (b :: s)).1, ?_, ?_, positive,
      encoded _ char⟩
    · conv_lhs => rw [← List.take_append_drop (parserUTF8ToInt 0 (b :: s)).2 (b :: s), copyWithEscape_append, plain]
    · rw [parserGetChar_utf8 other (by rw [read]; exact char), read, List.length_take, Nat.min_eq_left inside]
  · obtain ⟨low, read⟩ := parserUTF8ToInt_narrow wide s
    rw [read] at char ⊢
    have escaped : escapeOctet b = escapeChar b.toNat := by
      rw [escapeChar_ascii (Int.natCast_nonneg _) (by omega), Int.toNat_natCast, UInt8.ofNat_toNat]
    have printed : copyWithEscape (b :: s) = escapeChar b.toNat ++ copyWithEscape s := by
      rw [← escaped]
      rfl
    refine ⟨escapeChar b.toNat, b.toNat, printed, ?_, parserIsXmlChar_pos char, encoded _ char⟩
    rw [printed, List.append_assoc]
    exact parserGetChar_escaped (.inl char) _

theorem parserGetChar_noValue {b : UInt8} {s : List UInt8} (noChar : parserIsXmlChar (parserUTF8ToInt 0 (b :: s)).1 = false)
    (rest : List UInt8) : ∃ n, parserGetChar 0 (copyWithEscape (b :: s) ++ 34 :: rest) = some (-1, n) := by
  have notMarked : b ∉ bytes "<>&'\"" := by
    intro member
    have xml : ∀ d ∈ bytes "<>&'\"", d.toNat ≤ 127 ∧ parserIsXmlChar d.toNat = true := by decide
    obtain ⟨ascii, isXml⟩ := xml b member
    have read : parserUTF8ToInt 0 (b :: s) = ((b.toNat : Int), 1) := @parserUTF8ToInt_ascii 0 (b :: s) ascii
    rw [read, isXml] at noChar
    cases noChar
  have printed := escaped_plain (escapeOctet_plain notMarked) s (34 :: rest)
  have read : parserUTF8ToInt 0 (copyWithEscape (b :: s) ++ 34 :: rest) = parserUTF8ToInt 0 (b :: s) := by
    by_cases wide : 128 ≤ b
    · exact parserUTF8ToInt_escaped wide s rest
    · rw [printed, (parserUTF8ToInt_narrow wide _).2, (parserUTF8ToInt_narrow wide s).2]
  apply parserGetChar_noChar
  · rw [printed]
    intro amp
    have same : b = 38 := UInt8.toNat_inj.mp amp
    exact notMarked (by rw [same]; decide)
  · rwa [read]

/-- The printed value copies to its end exactly if all its characters are XML characters. -/
theorem copyLoop_value (value rest tokenBuf : List UInt8) :
    ∃ text, copyLoop 0 (copyWithEscape value ++ 34 :: rest) (copyWithEscape value).length tokenBuf =
      .ok (xmlText value, text) := by
  induction value using xmlText.induct generalizing tokenBuf with
  | case1 =>
    rw [xmlText_nil]
    exact ⟨tokenBuf, copyLoop_done _ _⟩
  | case2 s some char ih =>
    obtain ⟨b, s, rfl⟩ := List.exists_cons_of_ne_nil some
    obtain ⟨front, c, printed, read, positive, encoded⟩ := parserGetChar_value char rest
    obtain ⟨text, later⟩ := ih (tokenBuf ++ copiedChar c front.length)
    refine ⟨text, ?_⟩
    have long : front.length ≤ (copyWithEscape (b :: s)).length := by
      rw [printed, List.length_append]
      exact Nat.le_add_right _ _
    rw [copyLoop_char read positive long encoded, xmlText_cons, char, Bool.true_and, ← later, printed,
      List.append_assoc, List.drop_left, List.length_append, Nat.add_sub_cancel_left]
  | case3 s some noChar =>
    obtain ⟨b, s, rfl⟩ := List.exists_cons_of_ne_nil some
    have bad := Bool.eq_false_iff.mpr noChar
    obtain ⟨n, read⟩ := parserGetChar_noValue bad rest
    have long : (copyWithEscape (b :: s)).length ≠ 0 :=
      (List.length_pos_iff.mpr (copyWithEscape_some (List.cons_ne_nil b s))).ne'
    rw [xmlText_cons, bad, Bool.false_and]
    exact ⟨tokenBuf, copyLoop_noChar long read (by decide) tokenBuf⟩

theorem attributeValue_value (value tail : List UInt8) :
    if xmlText value then
      ∃ text, ∀ p : Parser, p.curPtr = copyWithEscape value ++ 34 :: tail →
        attributeValue 0 p [34] = .ok { p with curPtr := tail, tokenBuf := text }
    else ∀ p : Parser, p.curPtr = copyWithEscape value ++ 34 :: tail → attributeValue 0 p [34] = .error .syntaxErr := by
  have clean := copyWithEscape_clean value
  have found (p : Parser) (here : p.curPtr = copyWithEscape value ++ 34 :: tail) :=
    @attributeValue_found 0 p (copyWithEscape value) tail (fun member => (clean 34 member).2.2.2 rfl)
      (fun member => (clean 60 member).1 rfl) here
  obtain ⟨text, copied⟩ := copyLoop_value value tail []
  cases readable : xmlText value with
  | true =>
    refine ⟨text, fun p here => ?_⟩
    rw [found p here, here, copied, readable]
    rfl
  | false =>
    intro p here
    rw [found p here, here, copied, readable]
    rfl

/-! ### An element with one attribute -/

/-- The element of this name alone is open, and waits for no other namespace than a default one. -/
def Alone (name : List UInt8) (p : Parser) : Prop :=
  ∃ top, p.open_ = [top] ∧ top.attrs = [] ∧ top.tag.nodeName = name ∧ top.item.element = name ∧
    ∀ node ∈ p.pNeedPrefixNode, node.prefixName = none ∧ node.nodeName = name

theorem parserProcessElementName_alone {name : List UInt8} (noPrefix : 58 ∉ name) :
    ∃ q, parserProcessElementName { parserInit [] with state := .attribute } name
      (parserSetNodePrefixAndLocalName name).1 (parserSetNodePrefixAndLocalName name).2 = .ok q ∧ Alone name q := by
  have parts : parserSetNodePrefixAndLocalName name = (none, name) := by
    unfold parserSetNodePrefixAndLocalName
    rw [if_neg fun inside => noPrefix (List.contains_iff_mem.mp inside)]
  rw [parts]
  refine ⟨_, rfl, _, rfl, rfl, rfl, rfl, ?_⟩
  rintro node ⟨⟩
  exact ⟨rfl, rfl⟩

theorem definedIn_element (attr : Attr) (item : ElementStack) : (definedIn attr item).2.element = item.element := by
  unfold definedIn
  split_ifs
  · rfl
  · dsimp only
    split_ifs <;> rfl
  · rfl

theorem parserXmlNamespace_alone {name : List UInt8} {p : Parser} {top : Open} (element : top.item.element = name)
    (waits : ∀ node ∈ p.pNeedPrefixNode, node.prefixName = none ∧ node.nodeName = name) (attr : Attr) :
    ∃ q, parserXmlNamespace p attr top [] = .ok ((definedIn attr top.item).1, q) ∧
      q.open_ = [{ top with item := (definedIn attr top.item).2 }] := by
  rw [parserXmlNamespace_eq]
  cases waiting : p.pNeedPrefixNode with
  | none => exact ⟨_, rfl, rfl⟩
  | some node =>
    obtain ⟨noPrefix, same⟩ := waits node waiting
    dsimp only
    unfold parserAddNamespace
    rw [noPrefix]
    dsimp only
    rw [definedIn_element, element, same, if_neg (not_not_intro rfl)]
    exact ⟨_, rfl, rfl⟩

theorem parserETagVerification_alone {name : List UInt8} {p : Parser} {top : Open} (opened : p.open_ = [top])
    (tagName : top.tag.nodeName = name) (element : top.item.element = name) :
    ∃ q, parserETagVerification p name = .ok q ∧ q.open_ = [] := by
  unfold parserETagVerification
  rw [opened]
  dsimp only
  rw [tagName, element]
  simp only [ne_eq, not_true_eq_false, decide_false, Bool.or_self, Bool.false_eq_true, if_false]
  exact ⟨_, rfl, rfl⟩

theorem enterAttribute_alone {name : List UInt8} {p : Parser} (alone : Alone name p) (attr : Attr) :
    ∃ q r, enterAttribute p attr = .ok q ∧ parserETagVerification q name = .ok r ∧ r.open_ = [] := by
  obtain ⟨top, opened, noAttrs, tagName, element, waits⟩ := alone
  obtain ⟨q, passed, opened'⟩ := parserXmlNamespace_alone element waits ⟨attr.nodeName, attr.nodeValue, none, none⟩
  have entered : ∃ r attrs, enterAttribute p attr = .ok r ∧ r.open_ =
      [{ top with item := (definedIn ⟨attr.nodeName, attr.nodeValue, none, none⟩ top.item).2, attrs := attrs }] := by
    unfold enterAttribute
    rw [opened]
    dsimp only
    rw [passed]
    unfold parserProcessAttributeName
    dsimp only [Except.bind]
    rw [opened']
    dsimp only
    rw [noAttrs]
    exact ⟨_, _, rfl, rfl⟩
  obtain ⟨r, attrs, entered, opened''⟩ := entered
  obtain ⟨s, closed, none⟩ := parserETagVerification_alone opened'' tagName ((definedIn_element _ _).trans element)
  exact ⟨r, s, entered, closed, none⟩

/-- Such an element is accepted by the parser exactly if the characters of the value are XML characters. -/
theorem ixmlPrintNode_accepted {tag : Tag} {attr : Attr} (tagName : NameText tag.nodeName) (noPrefix : 58 ∉ tag.nodeName)
    (name : NameText attr.nodeName) :
    (∃ doc, ixmlParseBufferEx 0 (ixmlPrintNode (.element tag [attr] [])) = .ok doc) ↔
      xmlText attr.nodeValue = true := by
  set close := 60 :: 47 :: (tag.nodeName ++ 62 :: bytes "\r\n") with closeText
  set behind := copyWithEscape attr.nodeValue ++ 34 :: 62 :: close with behindText
  have printed : ixmlPrintNode (.element tag [attr] []) =
      60 :: (tag.nodeName ++ 32 :: (attr.nodeName ++ 61 :: 34 :: behind)) := by
    simp [ixmlPrintNode, printStartTag, printAttributes, printSiblings, bytes, closeText, behindText]
  obtain ⟨c, s, first, noBang, noQuestion⟩ := name_cons tagName (32 :: (attr.nodeName ++ 61 :: 34 :: behind))
  obtain ⟨p, entered, alone⟩ := parserProcessElementName_alone noPrefix
  have opened : p.open_ ≠ [] := by
    obtain ⟨top, opened, -⟩ := alone
    rw [opened]
    exact List.cons_ne_nil _ _
  have started := @leads_startName 0 (parserInit []) ⟨60 :: c :: s, [], [], [], .element⟩ tag.nodeName _ _ _ (by simp)
    tagName (.attribute attr.nodeName (34 :: behind) 61 name (by decide)) (congrArg (60 :: ·) first.symm)
  rw [entered] at started
  obtain ⟨place, ⟨here, inside⟩, same⟩ := started
  change parserLoop 0 (parserInit (60 :: c :: s)) = _ at same
  rw [printed, first, ixmlParseBufferEx_tag noBang noQuestion, same]
  have read := attributeValue_value attr.nodeValue (62 :: close)
  cases readable : xmlText attr.nodeValue with
  | true =>
    rw [readable] at read
    obtain ⟨text, read⟩ := read
    obtain ⟨q, r, added, closed, done⟩ := enterAttribute_alone alone ⟨attr.nodeName, text, none, none⟩
    have walked := @leads_valueRead 0 p place ⟨attr.nodeName, text, none, none⟩ behind (62 :: close) close .content
      inside name read (.closed close) here opened
    rw [added] at walked
    obtain ⟨place₁, ⟨here₁, content⟩, same₁⟩ := walked
    obtain ⟨place₂, here₂, markup, same₂⟩ := @along_blank 0 q place₁ [] (tag.nodeName ++ 62 :: bytes "\r\n") 47 content
      .nil (by decide) (by decide) here₁
    have ended := @leads_endTag 0 q place₂ tag.nodeName (bytes "\r\n") markup tagName here₂
    rw [closed] at ended
    obtain ⟨place₃, ⟨here₃, content₃⟩, same₃⟩ := ended
    obtain ⟨after, ran⟩ := @parserLoop_end 0 r place₃ content₃ (by rw [here₃]; exact blank_lineEnd)
    rw [same₁, same₂, same₃, ran]
    refine iff_of_true ⟨⟨r.children, r.namespaceURI⟩, ?_⟩ rfl
    change (if !r.open_.isEmpty then _ else _) = _
    rw [done]
    rfl
  | false =>
    rw [readable] at read
    obtain ⟨top, alone, -⟩ := alone
    have found := @parserGetNextNode_value 0 (p.put place) top [] attr.nodeName behind inside alone name here
    rw [read _ rfl] at found
    obtain ⟨stop, failed⟩ : ∃ stop, parserRound 0 (p.put place) = .error stop := by
      unfold parserRound
      rw [found]
      exact ⟨_, rfl⟩
    rw [parserLoop_stop failed]
    refine iff_of_false ?_ Bool.false_ne_true
    rintro ⟨doc, accepted⟩
    cases accepted

end Pupnp.Ixml
