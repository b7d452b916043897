import Pupnp.Http.ChunkedBody
import Pupnp.Http.NameTable

/-! Header lines whose values are plain text or quoted strings, and how the parser reads them. -/

namespace Pupnp.Http
open Pupnp.CString

def isTextChar (c : UInt8) : Bool := 32 ≤ c && c ≤ 126 && c ≠ 34

inductive ValueText : List UInt8 → Prop
  | nil : ValueText []
  | char {c : UInt8} {s : List UInt8} (plain : isTextChar c = true) (more : ValueText s) :
      ValueText (c :: s)
  | quoted {inner s : List UInt8} (plain : ∀ c ∈ inner, isTextChar c = true ∧ c ≠ 92)
      (more : ValueText s) : ValueText (34 :: (inner ++ 34 :: s))

/-- A value that a header line gives back as it is. -/
structure HeaderValue (value : List UInt8) : Prop where
  text : ValueText value
  first : value.head? ≠ some SP
  last : value.getLast? ≠ some SP

def LineStart (more : List UInt8) : Prop :=
  ∃ type length, scanToken false more = .ok (type, length) ∧ type ≠ .whitespace

theorem textChar_cases {c : UInt8} (plain : isTextChar c = true) :
    isIdentifierChar c = true ∨ c = SP ∨
      (isIdentifierChar c = false ∧ c ≠ SP ∧ c ≠ TAB ∧ c ≠ CR ∧ c ≠ LF ∧ c ≠ 34 ∧
        isSeparatorChar c = true) := by
  revert plain
  revert c
  apply forall_byte
  decide +kernel

theorem ValueText.of_plain {s : List UInt8} (plain : ∀ c ∈ s, isTextChar c = true) : ValueText s := by
  induction s with
  | nil => exact .nil
  | cons c s ih =>
    exact .char (plain c List.mem_cons_self) (ih fun d member => plain d (List.mem_cons_of_mem c member))

theorem ValueText.append {s s' : List UInt8} (left : ValueText s) (right : ValueText s') :
    ValueText (s ++ s') := by
  induction left with
  | nil => exact right
  | char plain _ ih => exact .char plain ih
  | quoted plain _ ih =>
    rw [List.cons_append, List.append_assoc, List.cons_append]
    exact .quoted plain ih

theorem ValueText.chars {s : List UInt8} (text : ValueText s) :
    ∀ c ∈ s, isTextChar c = true ∨ c = 34 := by
  induction text with
  | nil => simp
  | char plain _ ih =>
    rintro d (_ | ⟨_, member⟩)
    · exact .inl plain
    · exact ih d member
  | quoted plain _ ih =>
    intro d member
    simp only [List.mem_cons, List.mem_append] at member
    obtain rfl | inside | rfl | behind := member
    · exact .inr rfl
    · exact .inl (plain d inside).1
    · exact .inr rfl
    · exact ih d behind

theorem printed_blank {c : UInt8} : isTextChar c = true ∨ c = 34 → isBlank c = true → c = SP := by
  revert c
  apply forall_byte
  decide +kernel

theorem HeaderValue.of_graphic {s : List UInt8} (graphic : ∀ c ∈ s, isTextChar c = true ∧ c ≠ SP) :
    HeaderValue s where
  text := .of_plain fun c member => (graphic c member).1
  first := fun head => (graphic SP (List.mem_of_head? head)).2 rfl
  last := fun last => (graphic SP (List.mem_of_getLast? last)).2 rfl

theorem HeaderValue.noNul {s : List UInt8} (isValue : HeaderValue s) : (0 : UInt8) ∉ s := by
  intro member
  have printed := isValue.text.chars 0 member
  revert printed
  decide

theorem HeaderValue.cstr_eq {s : List UInt8} (isValue : HeaderValue s) : cstr s = s := by
  rw [cstr, List.takeWhile_eq_self_iff]
  intro c member
  simpa using fun nul : c = 0 => isValue.noNul (nul ▸ member)

theorem ValueText.dropWhile {s : List UInt8} (text : ValueText s) {p : UInt8 → Bool}
    (noQuote : p 34 = false) : ValueText (s.drop (s.takeWhile p).length) := by
  rw [drop_takeWhile_length]
  induction text with
  | nil => exact .nil
  | @char c s plain more ih =>
    rw [List.dropWhile_cons]
    split
    · exact ih
    · exact .char plain more
  | quoted plain more =>
    rw [List.dropWhile_cons, if_neg (by simp [noQuote])]
    exact .quoted plain more

theorem scanQuoted_quote (rest : List UInt8) (n : Nat) : scanQuoted (34 :: rest) n = .closed (n + 1) := by
  rw [scanQuoted.eq_def]
  exact if_pos rfl

theorem scanQuoted_char {c : UInt8} (noQuote : c ≠ 34) (noEscape : c ≠ 92)
    (char : isQdtextChar c = true) (rest : List UInt8) (n : Nat) :
    scanQuoted (c :: rest) n = scanQuoted rest (n + 1) := by
  rw [scanQuoted.eq_def]
  simp only [noQuote, noEscape, char, if_false, if_true]

theorem scanQuoted_inner {inner : List UInt8} (plain : ∀ c ∈ inner, isTextChar c = true ∧ c ≠ 92)
    (rest : List UInt8) (n : Nat) : scanQuoted (inner ++ 34 :: rest) n = .closed (n + inner.length + 1) := by
  induction inner generalizing n with
  | nil => exact scanQuoted_quote rest n
  | cons c inner ih =>
    obtain ⟨char, noEscape⟩ := plain c List.mem_cons_self
    have quoted : c ≠ 34 ∧ isQdtextChar c = true := by
      revert char
      revert noEscape
      clear ih plain
      revert c
      apply forall_byte
      decide +kernel
    rw [List.cons_append, scanQuoted_char quoted.1 noEscape quoted.2,
      ih (fun d member => plain d (List.mem_cons_of_mem c member))]
    simp only [List.length_cons, Nat.add_assoc, Nat.add_comm 1]

theorem valueToken {s : List UInt8} (text : ValueText s) (nonempty : s ≠ []) (rest : List UInt8) :
    ∃ type k, scanToken false (s ++ CR :: rest) = .ok (type, k) ∧ type ≠ .crlf ∧
      (type = .whitespace → s.head? = some SP) ∧ 0 < k ∧ k ≤ s.length ∧ ValueText (s.drop k) := by
  have run (p : UInt8 → Bool) (type : TokenType) (c : UInt8) (others : List UInt8)
      (ends : p CR = false) (noQuote : p 34 = false) (more : ValueText others) :
      scanRun false p type (others ++ CR :: rest) = .ok (type, (others.takeWhile p).length + 1) ∧
        (others.takeWhile p).length + 1 ≤ (c :: others).length ∧
          ValueText ((c :: others).drop ((others.takeWhile p).length + 1)) := by
    have inside := (List.takeWhile_prefix p (l := others)).length_le
    have taken : (others ++ CR :: rest).takeWhile p = others.takeWhile p :=
      takeWhile_append_stop others ends rest
    refine ⟨?_, ?_, ?_⟩
    · rw [scanRun, taken, if_neg]
      simp only [List.length_append, List.length_cons, Bool.not_false, Bool.true_and, decide_eq_true_eq]
      omega
    · simpa using inside
    · exact more.dropWhile noQuote
  cases text with
  | nil => exact absurd rfl nonempty
  | @char c others plain more =>
    rw [List.cons_append, scanToken.eq_def]
    dsimp only
    rcases textChar_cases plain with identifier | blank | ⟨other, noBlank, noTab, noCr, noLf, noQuote, separator⟩
    · obtain ⟨scanned, inside, later⟩ := run isIdentifierChar .identifier c others (by decide)
        (by decide) more
      refine ⟨.identifier, _, ?_, by simp, by simp, Nat.succ_pos _, inside, later⟩
      rw [if_pos identifier, scanned]
    · obtain ⟨scanned, inside, later⟩ := run (fun d => d = SP || d = TAB) .whitespace c others
        (by decide) (by decide) more
      have other : isIdentifierChar c = false := by
        rw [blank]
        decide
      refine ⟨.whitespace, _, ?_, by simp, fun _ => congrArg some blank, Nat.succ_pos _, inside, later⟩
      rw [other, if_neg Bool.false_ne_true, if_pos (by simp [blank]), scanned]
    · refine ⟨.separator, 1, ?_, by simp, by simp, Nat.one_pos, by simp, by simpa using more⟩
      simp [other, noBlank, noTab, noCr, noLf, noQuote, separator]
  | @quoted inner others plain more =>
    have quote : isIdentifierChar 34 = false := by decide
    refine ⟨.quotedString, 1 + inner.length + 1, ?_, by simp, by simp, by omega, by simp; omega, ?_⟩
    · have scanned := scanQuoted_inner plain (others ++ CR :: rest) 1
      simp only [List.cons_append, List.append_assoc, scanToken, quote]
      simp [SP, TAB, CR, LF] at scanned ⊢
      rw [scanned]
    · have shape : 34 :: (inner ++ 34 :: others) = (34 :: (inner ++ [34])) ++ others := by simp
      rw [shape, List.drop_left']
      · exact more
      · simp
        omega

theorem rawValueRun_text {sc : Scanner} (more : sc.Open) {s rest : List UInt8}
    (here : sc.rest = s ++ CR :: rest) (text : ValueText s) (n : Nat) :
    rawValueRun sc none n = rawValueRun { sc with cursor := sc.cursor + s.length } none (n + s.length) := by
  induction size : s.length using Nat.strongRecOn generalizing sc s n with
  | _ length ih =>
    subst size
    by_cases nonempty : s = []
    · subst nonempty
      rfl
    · obtain ⟨type, k, scanned, noLine, -, positive, inside, later⟩ := valueToken text nonempty rest
      have token : scannerGetToken sc =
          .ok (⟨type, ⟨sc.cursor, k⟩⟩, { sc with cursor := sc.cursor + k }) := by
        rw [scannerGetToken_rest, more.entire, here, scanned]
      have behind : Scanner.rest { sc with cursor := sc.cursor + k } = s.drop k ++ CR :: rest := by
        have front : (s.take k).length = k := List.length_take_of_le inside
        have advanced := @rest_advance sc (s.take k) (s.drop k ++ CR :: rest) (by
          rw [here, ← List.append_assoc, List.take_append_drop])
        rwa [front] at advanced
      have shorter : (s.drop k).length < s.length := by
        rw [List.length_drop]
        omega
      have go := ih _ shorter ((scannerGetToken_reaches token).opened more) behind later (n + k) rfl
      rw [rawValueRun_token token]
      simp only [noLine, if_false]
      rw [go, List.length_drop]
      simp only [Nat.add_assoc, Nat.add_sub_cancel' inside]

theorem lineStart_end (rest : List UInt8) : LineStart (CR :: LF :: rest) :=
  ⟨.crlf, 2, scanToken_lineEnd rest, nofun⟩

theorem lineStart_name {name : List UInt8} (nonempty : name ≠ [])
    (chars : ∀ c ∈ name, isIdentifierChar c = true) (rest : List UInt8) :
    LineStart (name ++ 58 :: rest) :=
  ⟨.identifier, _, scanToken_run nonempty chars (by decide) rest, nofun⟩

theorem LineStart.token {sc : Scanner} (entire : sc.entireMsgLoaded = false) (start : LineStart sc.rest) :
    ∃ token next, scannerGetToken sc = .ok (token, next) ∧ token.type ≠ .whitespace := by
  obtain ⟨type, length, scanned, noBlank⟩ := start
  exact ⟨_, _, by rw [scannerGetToken_rest, entire, scanned], noBlank⟩

theorem matchRawValue_value {sc : Scanner} (more : sc.Open) {value rest : List UInt8}
    (here : sc.rest = value ++ CR :: LF :: rest) (isValue : HeaderValue value)
    (start : LineStart rest) :
    matchRawValue sc =
      (.ok, { sc with cursor := sc.cursor + value.length }, ⟨sc.cursor, value.length⟩) := by
  set line : Scanner := { sc with cursor := sc.cursor + value.length } with line_eq
  have at_line : line.rest = CR :: LF :: rest := rest_advance here
  have inside : line.cursor ≤ line.msg.length := by
    have length := congrArg List.length here
    rw [Scanner.rest, List.length_drop] at length
    simp only [List.length_append, List.length_cons] at length
    simp only [line_eq]
    omega
  have open_line : line.Open := ⟨more.entire, inside⟩
  have crlf := crlfToken open_line at_line
  have behind : Scanner.rest { line with cursor := line.cursor + 2 } = rest :=
    @rest_advance _ [CR, LF] _ at_line
  obtain ⟨token, next, found, noBlank⟩ : ∃ token next,
      scannerGetToken { line with cursor := line.cursor + 2 } = .ok (token, next) ∧
        token.type ≠ .whitespace := by
    rw [← behind] at start
    exact start.token more.entire
  have run : rawValueRun sc none 0 = (.ok, line, value.length + 2) := by
    rw [rawValueRun_text more here isValue.text 0, Nat.zero_add, rawValueRun_token crlf]
    simp only [if_true]
    rw [rawValueRun_token found]
    simp [noBlank]
  have raw : (Memptr.mk sc.cursor (value.length + 2)).read sc.msg = value ++ [CR, LF] := by
    rw [Memptr.read]
    change sc.rest.take _ = _
    rw [here, show value ++ CR :: LF :: rest = (value ++ [CR, LF]) ++ rest by simp]
    exact List.take_left' (by simp)
  have noBlank : (value ++ [CR, LF]).rdropWhile isBlank = value := by
    have ends (s : List UInt8) (c : UInt8) (blank : isBlank c = true) :
        (s ++ [c]).rdropWhile isBlank = s.rdropWhile isBlank := List.rdropWhile_concat_pos _ _ _ blank
    rw [show value ++ [CR, LF] = (value ++ [CR]) ++ [LF] by simp, ends _ _ (by decide),
      ends _ _ (by decide), List.rdropWhile_eq_self_iff]
    intro some blank
    have printed := isValue.text.chars _ (List.getLast_mem some)
    have space := printed_blank printed blank
    exact isValue.last (by rw [List.getLast?_eq_some_getLast some, space])
  rw [matchRawValue, run]
  simp only [if_true, raw, trimRight, noBlank]

def IsGap (gap : List UInt8) : Prop := gap = [] ∨ gap = [SP]

theorem skipLws_value {sc : Scanner} (more : sc.Open) {value rest : List UInt8}
    (here : sc.rest = value ++ CR :: LF :: rest) (isValue : HeaderValue value)
    (start : LineStart rest) : skipLws sc = (.ok, sc) := by
  have stop : matchLws sc = .inl .ok := by
    by_cases empty : value = []
    · rw [empty, List.nil_append] at here
      have behind : Scanner.rest { sc with cursor := sc.cursor + 2 } = rest :=
        @rest_advance _ [CR, LF] _ here
      rw [← behind] at start
      obtain ⟨token, next, found, noBlank⟩ :=
        @LineStart.token { sc with cursor := sc.cursor + 2 } more.entire start
      simp [matchLws, crlfToken more here, found, noBlank]
    · obtain ⟨type, k, scanned, noLine, noBlank, -⟩ := valueToken isValue.text empty (LF :: rest)
      have token : scannerGetToken sc =
          .ok (⟨type, ⟨sc.cursor, k⟩⟩, { sc with cursor := sc.cursor + k }) := by
        rw [scannerGetToken_rest, more.entire, here, scanned]
      have other : type ≠ .whitespace := fun blank => isValue.first (noBlank blank)
      simp [matchLws, token, noLine, other]
  rw [skipLws_stop stop]
  simp

theorem skipLws_gap {sc : Scanner} (more : sc.Open) {gap value rest : List UInt8} (isGap : IsGap gap)
    (here : sc.rest = gap ++ (value ++ CR :: LF :: rest)) (isValue : HeaderValue value)
    (start : LineStart rest) :
    skipLws sc = (.ok, { sc with cursor := sc.cursor + gap.length }) := by
  obtain rfl | rfl := isGap
  · exact skipLws_value more here isValue start
  · have space : isIdentifierChar SP = false := by decide
    have ends : (value ++ CR :: LF :: rest).takeWhile (fun d => d = SP || d = TAB) = [] := by
      rw [List.takeWhile_eq_nil_iff]
      intro some
      cases value with
      | nil => simp [CR, SP, TAB]
      | cons c value =>
        have noSpace : c ≠ SP := fun same => isValue.first (by rw [same]; rfl)
        have noTab : c ≠ TAB := by
          rintro rfl
          have printed := isValue.text.chars TAB List.mem_cons_self
          revert printed
          decide
        simp [noSpace, noTab]
    have token : scannerGetToken sc =
        .ok (⟨.whitespace, ⟨sc.cursor, 1⟩⟩, { sc with cursor := sc.cursor + 1 }) := by
      rw [scannerGetToken_rest, more.entire, here, List.singleton_append, scanToken.eq_def]
      dsimp only
      rw [space, if_neg Bool.false_ne_true, if_pos (by simp), scanRun, ends]
      simp
    have blank : matchLws sc = .inr { sc with cursor := sc.cursor + 1 } := by
      simp [matchLws, token]
    have behind : Scanner.rest { sc with cursor := sc.cursor + 1 } = value ++ CR :: LF :: rest :=
      @rest_advance _ [SP] _ here
    have open_ := (scannerGetToken_reaches token).opened more
    rw [skipLws_next blank, skipLws_value open_ behind isValue start]
    rfl

structure HeaderLine where
  name : List UInt8
  gap : List UInt8
  value : List UInt8

def HeaderLine.text (line : HeaderLine) : List UInt8 :=
  line.name ++ 58 :: (line.gap ++ (line.value ++ [CR, LF]))

structure HeaderLine.WellFormed (line : HeaderLine) : Prop where
  named : line.name ≠ []
  name : ∀ c ∈ line.name, isIdentifierChar c = true
  gap : IsGap line.gap
  value : HeaderValue line.value

def HttpParser.afterLine (p : HttpParser) (line : HeaderLine) : HttpParser :=
  { p with
    scanner := { p.scanner with cursor := p.scanner.cursor + line.text.length }
    msg := addHeader p.msg line.name line.value }

theorem matchFormat_headerValue {sc : Scanner} (more : sc.Open) {gap value rest : List UInt8}
    (isGap : IsGap gap) (here : sc.rest = 58 :: (gap ++ (value ++ CR :: LF :: rest)))
    (isValue : HeaderValue value) (start : LineStart rest) :
    matchFormat sc " : %R%c" =
      (.ok, { sc with cursor := sc.cursor + 1 + gap.length + value.length + 2 },
        [.str ⟨sc.cursor + 1 + gap.length, value.length⟩]) := by
  have colon : isIdentifierChar 58 = false := by decide
  have separator : isSeparatorChar 58 = true := by decide
  have token : scannerGetToken sc =
      .ok (⟨.separator, ⟨sc.cursor, 1⟩⟩, { sc with cursor := sc.cursor + 1 }) := by
    rw [scannerGetToken_rest, more.entire, here, scanToken.eq_def]
    simp [colon, separator, SP, TAB, CR, LF]
  have noBlank : skipLws sc = (.ok, sc) := by
    have stop : matchLws sc = .inl .ok := by simp [matchLws, token]
    rw [skipLws_stop stop]
    simp
  have char : matchChar sc 58 true = (.ok, { sc with cursor := sc.cursor + 1 }) := by
    have head : sc.msg[sc.cursor]? = some 58 := by
      have first := congrArg List.head? here
      rwa [Scanner.rest, List.head?_drop] at first
    simp [matchChar, head]
  set second : Scanner := { sc with cursor := sc.cursor + 1 } with second_eq
  have open_second := (scannerGetToken_reaches token).opened more
  have at_second : second.rest = gap ++ (value ++ CR :: LF :: rest) := @rest_advance _ [58] _ here
  have gap_skip := skipLws_gap open_second isGap at_second isValue start
  set third : Scanner := { second with cursor := second.cursor + gap.length } with third_eq
  have at_third : third.rest = value ++ CR :: LF :: rest := rest_advance at_second
  have open_third : third.Open := by
    have reached := (skipLws_matched second).reaches
    rw [gap_skip] at reached
    exact reached.opened open_second
  have raw := matchRawValue_value open_third at_third isValue start
  set line : Scanner := { third with cursor := third.cursor + value.length } with line_eq
  have at_line : line.rest = CR :: LF :: rest := rest_advance at_third
  have open_line : line.Open := by
    have reached := (matchRawValue_matched third).reaches
    rw [raw] at reached
    exact reached.opened open_third
  have crlf := crlfToken open_line at_line
  rw [matchFormat, format_headerValue, vfmatch]
  simp [vfmatchLoop, matchDirective, Directive.nextCase, noBlank, char, gap_skip, raw, matchToken, crlf]
  exact ⟨⟨rfl, rfl, rfl⟩, rfl⟩

theorem parseHeaderLine_line {p : HttpParser} (more : p.scanner.Open) {line : HeaderLine}
    (good : line.WellFormed) {rest : List UInt8} (here : p.scanner.rest = line.text ++ rest)
    (start : LineStart rest) : parseHeaderLine p = (.continue1, p.afterLine line) := by
  have shape : p.scanner.rest =
      line.name ++ 58 :: (line.gap ++ (line.value ++ CR :: LF :: rest)) := by
    rw [here, HeaderLine.text]
    simp
  have token : scannerGetToken p.scanner = .ok (⟨.identifier, ⟨p.scanner.cursor, line.name.length⟩⟩,
      { p.scanner with cursor := p.scanner.cursor + line.name.length }) := by
    rw [scannerGetToken_rest, more.entire, shape,
      scanToken_run good.named good.name (by decide)]
    simp [more.entire]
  have behind := rest_advance shape
  have open_next := (scannerGetToken_reaches token).opened more
  have matched := matchFormat_headerValue open_next good.gap behind good.value start
  have name : (Memptr.mk p.scanner.cursor line.name.length).read p.scanner.msg = line.name := by
    change p.scanner.rest.take _ = _
    rw [shape, List.take_left]
  have value : (Memptr.mk (p.scanner.cursor + line.name.length + 1 + line.gap.length)
      line.value.length).read p.scanner.msg = line.value := by
    have ahead : p.scanner.rest.drop (line.name.length + 1 + line.gap.length) =
        line.value ++ CR :: LF :: rest := by
      rw [shape, show line.name ++ 58 :: (line.gap ++ (line.value ++ CR :: LF :: rest)) =
        (line.name ++ 58 :: line.gap) ++ (line.value ++ CR :: LF :: rest) by simp]
      exact List.drop_left' (by simp; omega)
    rw [Scanner.rest, List.drop_drop] at ahead
    rw [Memptr.read, show p.scanner.cursor + line.name.length + 1 + line.gap.length =
      p.scanner.cursor + (line.name.length + 1 + line.gap.length) by omega, ahead, List.take_left]
  have length : line.text.length = line.name.length + 1 + line.gap.length + line.value.length + 2 := by
    simp only [HeaderLine.text, List.length_append, List.length_cons, List.length_nil]
    omega
  rw [parseHeaderLine, token]
  simp only [matched]
  simp [strArg, name, value, HttpParser.afterLine, length]
  omega

/-! ### Blocks of lines -/

def headerBlock (lines : List HeaderLine) : List UInt8 := lines.flatMap HeaderLine.text ++ [CR, LF]

theorem HeaderLine.text_start {line : HeaderLine} (good : line.WellFormed) (rest : List UInt8) :
    LineStart (line.text ++ rest) := by
  rw [HeaderLine.text, List.append_assoc, List.cons_append]
  exact lineStart_name good.named good.name _

theorem parserParseHeaders_front {p : HttpParser} (more : p.scanner.Open) {lines : List HeaderLine}
    (good : ∀ line ∈ lines, line.WellFormed) {rest : List UInt8}
    (here : p.scanner.rest = lines.flatMap HeaderLine.text ++ rest) (start : LineStart rest) :
    parserParseHeaders p = parserParseHeaders (lines.foldl HttpParser.afterLine p) ∧
      p.Advances (lines.foldl HttpParser.afterLine p) ∧
        (lines.foldl HttpParser.afterLine p).scanner.rest = rest := by
  induction lines generalizing p with
  | nil => exact ⟨rfl, .refl p, here⟩
  | cons line lines ih =>
    have good_line := good line List.mem_cons_self
    have good_later := fun other member => good other (List.mem_cons_of_mem line member)
    have shape : p.scanner.rest = line.text ++ (lines.flatMap HeaderLine.text ++ rest) := by
      rw [here, List.flatMap_cons, List.append_assoc]
    have start_here : LineStart (lines.flatMap HeaderLine.text ++ rest) := by
      cases lines with
      | nil => exact start
      | cons next others =>
        rw [List.flatMap_cons, List.append_assoc]
        exact HeaderLine.text_start (good_later next List.mem_cons_self) _
    have step := parseHeaderLine_line more good_line shape start_here
    have advance : p.Advances (p.afterLine line) := by
      have moved := parseHeaderLine_advances p
      rwa [step] at moved
    have behind : (p.afterLine line).scanner.rest = lines.flatMap HeaderLine.text ++ rest := rest_advance shape
    obtain ⟨same, later, at_end⟩ := ih (advance.reaches.opened more) good_later behind
    have again : (parseHeaderLine p).1 = .continue1 := by rw [step]
    have next := parserParseHeaders_next again
    rw [step] at next
    exact ⟨next.trans same, advance.trans later, at_end⟩

theorem parserParseHeaders_lines {p : HttpParser} (more : p.scanner.Open) {lines : List HeaderLine}
    (good : ∀ line ∈ lines, line.WellFormed) {rest : List UInt8}
    (here : p.scanner.rest = headerBlock lines ++ rest) :
    parserParseHeaders p = parserParseHeaders (lines.foldl HttpParser.afterLine p) ∧
      (lines.foldl HttpParser.afterLine p).scanner.Open ∧
        (lines.foldl HttpParser.afterLine p).scanner.rest = CR :: LF :: rest := by
  have shape : p.scanner.rest = lines.flatMap HeaderLine.text ++ CR :: LF :: rest := by
    rw [here, headerBlock, List.append_assoc]
    rfl
  obtain ⟨same, advance, at_end⟩ := parserParseHeaders_front more good shape (lineStart_end rest)
  exact ⟨same, advance.reaches.opened more, at_end⟩

def clash (name later : List UInt8) : Bool :=
  match lookupHeader later with
  | some id => (lookupHeader name).getD .unknown = id
  | none => memptrCmpNocase name later = 0

theorem memptrCmpNocase_eq_zero {name later : List UInt8} (noNul : 0 ∉ later) :
    memptrCmpNocase name later = 0 ↔ SameName name later := by
  have noNul' : 0 ∉ later.map toLower := by
    intro member
    obtain ⟨c, inside, zero⟩ := List.mem_map.mp member
    exact noNul (toLower_eq_zero.mp zero ▸ inside)
  rw [memptrCmpNocase_eq, memptrCmp_eq_zero noNul', cstr_map_toLower, SameName, cstr_eq_self noNul]

theorem lookupHeader_is {name later : List UInt8} {id : HdrId} (known : lookupHeader later = some id) :
    (lookupHeader name).getD .unknown = id ↔ SameName name later := by
  constructor
  · intro same
    cases first : lookupHeader name with
    | none =>
      rw [first] at same
      obtain rfl : .unknown = id := same
      exact absurd known lookupHeader_ne_unknown
    | some other =>
      rw [first] at same
      obtain rfl : other = id := same
      exact lookupHeader_inj first known
  · intro same
    rw [lookupHeader_congr same, known]
    rfl

theorem clash_iff {name later : List UInt8} (noNul : 0 ∉ later) : clash name later = true ↔ SameName name later := by
  rw [clash]
  cases known : lookupHeader later with
  | some id =>
    simp only [decide_eq_true_eq]
    exact lookupHeader_is known
  | none =>
    simp only [decide_eq_true_eq]
    exact memptrCmpNocase_eq_zero noNul

def HeaderLine.header (line : HeaderLine) : HttpHeader :=
  ⟨line.name, (lookupHeader line.name).getD .unknown, if line.value = [] then [0] else line.value⟩

theorem addHeader_fresh {msg : HttpMessage} {before : List HeaderLine} {line : HeaderLine}
    (stored : msg.headers = before.map HeaderLine.header)
    (fresh : ∀ other ∈ before, clash other.name line.name = false)
    (noAction : lookupHeader line.name ≠ some .soapaction) :
    addHeader msg line.name line.value =
      { msg with headers := (before ++ [line]).map HeaderLine.header } := by
  have added : msg.headers ++
      [⟨line.name, (lookupHeader line.name).getD .unknown, if line.value = [] then [0] else line.value⟩] =
        (before ++ [line]).map HeaderLine.header := by
    rw [stored, List.map_append]
    rfl
  cases known : lookupHeader line.name with
  | none =>
    have unseen : msg.headers.find? (fun h => decide (memptrCmpNocase h.name line.name = 0)) = none := by
      rw [stored, List.find?_eq_none]
      intro h member
      obtain ⟨other, inside, rfl⟩ := List.mem_map.mp member
      have apart := fresh other inside
      simp only [clash, known, decide_eq_false_iff_not] at apart
      simp [HeaderLine.header, apart]
    rw [known] at added
    simp only [addHeader, known, reduceCtorEq, if_false, unseen, added]
  | some id =>
    have unseen : msg.headers.find? (fun h => decide (h.nameId = id)) = none := by
      rw [stored, List.find?_eq_none]
      intro h member
      obtain ⟨other, inside, rfl⟩ := List.mem_map.mp member
      have apart := fresh other inside
      simp only [clash, known, decide_eq_false_iff_not] at apart
      simp [HeaderLine.header, apart]
    rw [known] at added noAction
    simp only [addHeader, known, noAction, if_false, unseen, added]

theorem foldl_afterLine {p : HttpParser} {before lines : List HeaderLine}
    (stored : p.msg.headers = before.map HeaderLine.header)
    (fresh : (before ++ lines).Pairwise fun a b => clash a.name b.name = false)
    (noAction : ∀ line ∈ lines, lookupHeader line.name ≠ some .soapaction) :
    lines.foldl HttpParser.afterLine p =
      { p with
        msg := { p.msg with headers := (before ++ lines).map HeaderLine.header }
        scanner := (lines.foldl HttpParser.afterLine p).scanner } := by
  induction lines generalizing p before with
  | nil =>
    rw [List.append_nil, ← stored]
    rfl
  | cons line lines ih =>
    have apart : ∀ other ∈ before, clash other.name line.name = false := by
      intro other member
      exact (List.pairwise_append.mp fresh).2.2 other member line List.mem_cons_self
    have added := addHeader_fresh stored apart (noAction line List.mem_cons_self)
    have later := @ih (p.afterLine line) (before ++ [line]) (by rw [HttpParser.afterLine, added])
      (by simpa using fresh) fun other member => noAction other (List.mem_cons_of_mem line member)
    rw [List.foldl_cons, later, List.append_assoc, List.singleton_append]
    simp only [HttpParser.afterLine, added]

theorem parserParseHeaders_block {p : HttpParser} (more : p.scanner.Open) {lines : List HeaderLine}
    (good : ∀ line ∈ lines, line.WellFormed) {rest : List UInt8}
    (here : p.scanner.rest = headerBlock lines ++ rest) (none : p.msg.headers = [])
    (fresh : lines.Pairwise fun a b => clash a.name b.name = false)
    (noAction : ∀ line ∈ lines, lookupHeader line.name ≠ some .soapaction)
    (noPost : ¬(p.msg.isRequest = true ∧ p.msg.method = .post)) :
    ∃ scanner, scanner.rest = rest ∧ parserParseHeaders p =
      (.ok, { p with
        msg := { p.msg with headers := lines.map HeaderLine.header }
        scanner := scanner
        position := .entity }) := by
  obtain ⟨same, opened, at_end⟩ := parserParseHeaders_lines more good here
  have stored := @foldl_afterLine p [] lines none fresh noAction
  rw [List.nil_append] at stored
  generalize lines.foldl HttpParser.afterLine p = q at same opened at_end stored
  have crlf := crlfToken opened at_end
  have method : (q.msg.isRequest && decide (q.msg.method = .post)) = false := by
    rw [stored]
    simpa using noPost
  have ended : parseHeaderLine q =
      (.ok, { q with scanner := { q.scanner with cursor := q.scanner.cursor + 2 }, position := .entity }) := by
    rw [parseHeaderLine, crlf]
    simp only [method]
    simp
  refine ⟨{ q.scanner with cursor := q.scanner.cursor + 2 }, @rest_advance _ [CR, LF] _ at_end, ?_⟩
  have last : (parseHeaderLine q).1 ≠ .continue1 := by
    rw [ended]
    simp
  rw [same, parserParseHeaders_last last, ended, stored]

theorem findHdr_line {msg : HttpMessage} {lines : List HeaderLine}
    (stored : msg.headers = lines.map HeaderLine.header)
    (fresh : lines.Pairwise fun a b => clash a.name b.name = false) {line : HeaderLine}
    (member : line ∈ lines) {id : HdrId} (known : lookupHeader line.name = some id) :
    httpmsgFindHdr msg id = some line.header := by
  rw [httpmsgFindHdr, stored]
  clear stored
  induction lines with
  | nil => cases member
  | cons first lines ih =>
    obtain ⟨apart, later⟩ := List.pairwise_cons.mp fresh
    rw [List.map_cons, List.find?_cons]
    obtain rfl | behind := List.mem_cons.mp member
    · simp [HeaderLine.header, known]
    · have other := apart line behind
      simp only [clash, known, decide_eq_false_iff_not] at other
      simp only [HeaderLine.header, other, decide_false]
      exact ih later behind

theorem updateFirst_none {p : HttpHeader → Bool} {headers : List HttpHeader}
    (none : ∀ h ∈ headers, p h = false) (f : HttpHeader → HttpHeader) :
    updateFirst p f headers = headers := by
  induction headers with
  | nil => rfl
  | cons h headers ih =>
    rw [updateFirst, none h List.mem_cons_self,
      ih fun other member => none other (List.mem_cons_of_mem h member)]
    rfl

theorem findHdr_none {msg : HttpMessage} {lines : List HeaderLine}
    (stored : msg.headers = lines.map HeaderLine.header) {id : HdrId} (known : id ≠ .unknown)
    (absent : ∀ line ∈ lines, lookupHeader line.name ≠ some id) : httpmsgFindHdr msg id = none := by
  rw [httpmsgFindHdr, stored, List.find?_eq_none]
  intro h member
  obtain ⟨line, inside, rfl⟩ := List.mem_map.mp member
  have other := absent line inside
  cases found : lookupHeader line.name with
  | none => simpa [HeaderLine.header, found] using known.symm
  | some other_id =>
    rw [found] at other
    simpa [HeaderLine.header, found] using other

end Pupnp.Http
