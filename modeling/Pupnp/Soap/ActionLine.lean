import Pupnp.Gena.SubscribeMessage
import Pupnp.Http.Identifiers
import Pupnp.Http.ReadEntity
import Pupnp.Soap.ActionHeader
import Pupnp.Soap.ManHeader

/-! The line of SOAPACTION in a header block, under one name and another. -/

namespace Pupnp.Soap
open Pupnp.CString Pupnp.Uri Pupnp.Http
open Pupnp.Gena.Notification (matchstr)
open Pupnp.Gena.Subscribe (Graphic parserParseRequestline_full)

/-! ### One line under two names -/

theorem headerLine_named {sc : Scanner} (more : sc.Open) {name rest : List UInt8} (identifier : Identifier name)
    (here : sc.rest = name ++ 58 :: rest) :
    ∃ next : Scanner, next.Open ∧ next.rest = 58 :: rest ∧ next.msg = sc.msg ∧
      scannerGetToken sc = .ok (⟨.identifier, ⟨sc.cursor, name.length⟩⟩, next) ∧
      headerLine sc = if (matchFormat next " : %R%c").1 = .ok then
        some (⟨name, (strArg (matchFormat next " : %R%c").2.2 0).read next.msg⟩, (matchFormat next " : %R%c").2.1)
      else none := by
  have token : scannerGetToken sc = .ok (⟨.identifier, ⟨sc.cursor, name.length⟩⟩,
      { sc with cursor := sc.cursor + name.length }) := by
    rw [scannerGetToken_rest, more.entire, here, scanToken_run identifier.nonempty identifier.chars (by decide)]
  have text : (Memptr.mk sc.cursor name.length).read sc.msg = name := by
    change sc.rest.take name.length = name
    rw [here, List.take_left]
  refine ⟨_, (scannerGetToken_reaches token).opened more, rest_advance here, rfl, token, ?_⟩
  rw [headerLine, token]
  simp [text]

theorem headerLine_renamed {sc sc' : Scanner} (more : sc.Open) (more' : sc'.Open) {name name' rest : List UInt8}
    (identifier : Identifier name) (identifier' : Identifier name') (here : sc.rest = name ++ 58 :: rest)
    (here' : sc'.rest = name' ++ 58 :: rest) :
    (headerLine sc = none ∧ headerLine sc' = none) ∨
      ∃ value next next', headerLine sc = some (⟨name, value⟩, next) ∧ headerLine sc' = some (⟨name', value⟩, next') ∧
        next.Alike next' := by
  obtain ⟨colon, opened, ahead, -, -, line⟩ := headerLine_named more identifier here
  obtain ⟨colon', opened', ahead', -, -, line'⟩ := headerLine_named more' identifier' here'
  have alike : colon.Alike colon' := ⟨ahead.trans ahead'.symm, opened.entire.trans opened'.entire.symm⟩
  obtain ⟨status, behind⟩ := matchFormat_alike alike headerValue_relative
  rw [line, line', ← status]
  by_cases matched : (matchFormat colon " : %R%c").1 = .ok
  · rw [if_pos matched, if_pos matched, headerValue_alike alike matched]
    exact .inr ⟨_, _, _, rfl, rfl, behind⟩
  · rw [if_neg matched, if_neg matched]
    exact .inl ⟨rfl, rfl⟩

theorem readHeaders_noLine {p : HttpParser} (more : p.scanner.Open) {name rest : List UInt8}
    (identifier : Identifier name) (here : p.scanner.rest = name ++ 58 :: rest) (noLine : headerLine p.scanner = none) : readHeaders p = none := by
  obtain ⟨colon, -, -, -, token, line⟩ := headerLine_named more identifier here
  have failed : (matchFormat colon " : %R%c").1 ≠ .ok := by
    intro matched
    rw [noLine, if_pos matched] at line
    cases line
  have last := (parseHeaderLine_none noLine).1
  rw [readHeaders, parserParseHeaders_last last, if_neg]
  rw [parseHeaderLine, token]
  simp [failed]

theorem readHeaders_line {p : HttpParser} {line : ReadLine} {next : Scanner}
    (found : headerLine p.scanner = some (line, next)) :
    readHeaders p = readHeaders { p with scanner := next, msg := addLine p.msg line } := by
  have step := parseHeaderLine_some found
  have again : (parseHeaderLine p).1 = .continue1 := by rw [step]
  have later := parserParseHeaders_next again
  rw [step] at later
  rw [readHeaders, readHeaders, later]

theorem readHeaders_eq {p : HttpParser} (good : p.Good) (hasEntity : p.msg.HasEntity) :
    readHeaders p =
      if (trailersEnd p.scanner.rest).isSome then some ((headerLines p.scanner).foldl addLine p.msg) else none := by
  rw [readHeaders, ← parserParseHeaders_msg]
  cases ended : trailersEnd p.scanner.rest with
  | none =>
    rw [if_neg, if_neg (by decide)]
    intro status
    rw [parserParseHeaders_trailersEnd good status] at ended
    cases ended
  | some later =>
    rw [if_pos (parserParseHeaders_of_trailersEnd good hasEntity ended), if_pos (Option.isSome_some)]

/-! ### Where the value starts -/

theorem rawValueRun_taken (sc : Scanner) (crlf : Option Nat) (length : Nat) :
    length ≤ (rawValueRun sc crlf length).2.2 := by
  fun_induction rawValueRun sc crlf length with
  | case1 => exact le_rfl
  | case2 sc length token next found lineEnd ih => exact (Nat.le_add_right _ _).trans ih
  | case3 sc length token next found text ih => exact (Nat.le_add_right _ _).trans ih
  | case4 sc length token next found position blank ih => exact (Nat.le_add_right _ _).trans ih
  | case5 => exact le_rfl

theorem matchRawValue_quote {sc : Scanner} {rest : List UInt8} (here : sc.rest = 34 :: rest)
    (matched : (matchRawValue sc).1 = .ok) : ((matchRawValue sc).2.2.read sc.msg).head? = some 34 := by
  have ended : (rawValueRun sc none 0).1 = .ok := by
    by_contra other
    simp only [matchRawValue, if_neg other] at matched
    exact other matched
  have taken : 0 < (rawValueRun sc none 0).2.2 := by
    cases token : scannerGetToken sc with
    | error status =>
      rw [rawValueRun_error token] at ended
      obtain rfl | rfl := scanToken_error (scannerGetToken_error token) <;> cases ended
    | ok result =>
      obtain ⟨first, next⟩ := result
      obtain ⟨-, -, positive, -⟩ := scannerGetToken_ok token
      rw [rawValueRun_token token]
      dsimp only
      split
      · exact Nat.lt_of_lt_of_le (by omega) (rawValueRun_taken next _ _)
      · exact Nat.lt_of_lt_of_le (by omega) (rawValueRun_taken next _ _)
  have trimmed : trimRight (sc.rest.take (rawValueRun sc none 0).2.2) ≠ 0 := by
    rw [trimRight, Ne, List.length_eq_zero_iff, List.rdropWhile_eq_nil_iff]
    intro blank
    have quote := blank 34 (by
      rw [here, List.mem_take_iff_getElem]
      exact ⟨0, by simp only [List.length_cons]; omega, rfl⟩)
    revert quote
    decide
  have value : (matchRawValue sc).2.2.read sc.msg =
      sc.rest.take (trimRight (sc.rest.take (rawValueRun sc none 0).2.2)) := by
    simp only [matchRawValue, if_pos ended]
    rfl
  obtain ⟨k, length⟩ := Nat.exists_eq_succ_of_ne_zero trimmed
  rw [value, length, here, List.take_succ_cons, List.head?_cons]

theorem skipLws_quote {sc : Scanner} {rest : List UInt8} (here : sc.rest = 34 :: rest) : (skipLws sc).2 = sc := by
  have stop : ∃ status, matchLws sc = .inl status := by
    have quote : isIdentifierChar 34 = false := by decide
    rw [matchLws, scannerGetToken_rest, here, scanToken.eq_def]
    have others : ¬((34 : UInt8) = SP ∨ (34 : UInt8) = TAB) ∧ (34 : UInt8) ≠ CR ∧ (34 : UInt8) ≠ LF := by decide
    simp only [quote, others, Bool.or_eq_true, decide_eq_true_eq, Bool.false_eq_true, if_false, if_true]
    cases scanQuoted rest 1 with
    | closed n => exact ⟨.ok, rfl⟩
    | unclosed => exact ⟨.incomplete, rfl⟩
    | bad => exact ⟨.failure, rfl⟩
  obtain ⟨status, stop⟩ := stop
  rw [skipLws_stop stop]

theorem valueStart_quote {sc : Scanner} (more : sc.Open) {rest : List UInt8}
    (here : sc.rest = 58 :: SP :: 34 :: rest) : (vfmatchLoop true sc valueStart).2.1.rest = 34 :: rest := by
  have colon : scanToken sc.entireMsgLoaded sc.rest = .ok (.separator, 1) := by
    rw [more.entire, here]
    rfl
  have first : skipLws sc = (.ok, sc) := Ssdp.skipLws_token colon (by decide) (by decide)
  have char_ : matchChar sc 58 true = (.ok, { sc with cursor := sc.cursor + 1 }) := by
    have head : sc.msg[sc.cursor]? = some 58 := by
      have first := congrArg List.head? here
      rwa [Scanner.rest, List.head?_drop] at first
    simp [matchChar, head]
  have separator : scannerGetToken sc =
      .ok (⟨.separator, ⟨sc.cursor, 1⟩⟩, { sc with cursor := sc.cursor + 1 }) := by
    rw [scannerGetToken_rest, colon]
  have opened := (scannerGetToken_reaches separator).opened more
  have atBlank : Scanner.rest { sc with cursor := sc.cursor + 1 } = SP :: 34 :: rest := @rest_advance sc [58] _ here
  have token : scannerGetToken { sc with cursor := sc.cursor + 1 } =
      .ok (⟨.whitespace, ⟨sc.cursor + 1, 1⟩⟩, { sc with cursor := sc.cursor + 1 + 1 }) :=
    Gena.Subscribe.blankToken opened (by decide) atBlank
  have blank : matchLws { sc with cursor := sc.cursor + 1 } = .inr { sc with cursor := sc.cursor + 1 + 1 } := by
    simp [matchLws, token]
  have atQuote : Scanner.rest { sc with cursor := sc.cursor + 1 + 1 } = 34 :: rest := @rest_advance _ [SP] _ atBlank
  have last := skipLws_quote atQuote
  rw [← skipLws_next blank] at last
  simp only [valueStart, vfmatchLoop, matchDirective, first, char_, if_true, Directive.nextCase]
  split
  · rw [last, atQuote]
  · rw [last, atQuote]

theorem headerLine_quote {sc next : Scanner} (more : sc.Open) {name value rest : List UInt8}
    (identifier : Identifier name) (here : sc.rest = name ++ 58 :: SP :: 34 :: rest)
    (found : headerLine sc = some (⟨name, value⟩, next)) : value.head? = some 34 := by
  obtain ⟨colon, opened, ahead, -, -, line⟩ := headerLine_named more identifier here
  rw [found] at line
  split at line
  next matched =>
    obtain ⟨-, raw, slice⟩ := headerValue_split matched
    have first := matchRawValue_quote (valueStart_quote opened ahead) raw
    rw [← slice, (vfmatchLoop_matched true colon valueStart).reaches.msg] at first
    cases line
    exact first
  next => cases line

/-! ### The extension of an M-POST -/

theorem format_extension : format "%q%i ; ns = %s" =
    [.quoted, .setCase false, .lws, .char 59, .lws, .char 110, .char 115, .lws, .char 61, .lws, .identifier] := by
  decide

section Extension
variable {suffix : List UInt8}

def manAt (suffix : List UInt8) (cursor : Nat) : Scanner := ⟨manValue ++ suffix, cursor, true⟩

theorem manAt_uri : scannerGetToken (manAt suffix 0) = .ok (⟨.quotedString, ⟨0, 43⟩⟩, manAt suffix 43) := by
  have shape : (manAt suffix 0).rest =
      34 :: (bytes "http://schemas.xmlsoap.org/soap/envelope/" ++ 34 :: (bytes "; ns=01" ++ suffix)) := rfl
  have closed := @scanQuoted_inner (bytes "http://schemas.xmlsoap.org/soap/envelope/") (by decide)
    (bytes "; ns=01" ++ suffix) 1
  have length : 1 + (bytes "http://schemas.xmlsoap.org/soap/envelope/").length + 1 = 43 := by decide
  have quote : isIdentifierChar 34 = false := by decide
  have others : ¬((34 : UInt8) = SP ∨ (34 : UInt8) = TAB) ∧ (34 : UInt8) ≠ CR ∧ (34 : UInt8) ≠ LF := by decide
  rw [scannerGetToken_rest, shape, scanToken.eq_def]
  simp only [quote, others, Bool.or_eq_true, decide_eq_true_eq, Bool.false_eq_true, if_false, if_true, closed, length]
  rfl

theorem manAt_char {cursor : Nat} {c : UInt8} (here : manValue[cursor]? = some c) (caseSensitive : Bool) :
    matchChar (manAt suffix cursor) c caseSensitive = (.ok, manAt suffix (cursor + 1)) := by
  have first : (manAt suffix cursor).msg[cursor]? = some c := by
    have inside := (List.getElem?_eq_some_iff.mp here).1
    exact (List.getElem?_append_left inside).trans here
  have found : (manAt suffix cursor).msg[(manAt suffix cursor).cursor]? = some c := first
  rw [matchChar, found]
  cases caseSensitive <;> simp [manAt]

theorem manAt_noBlank {cursor : Nat} {type : TokenType} {length : Nat}
    (token : scanToken true (manAt suffix cursor).rest = .ok (type, length)) (noLine : type ≠ .crlf)
    (noBlank : type ≠ .whitespace) : skipLws (manAt suffix cursor) = (.ok, manAt suffix cursor) :=
  Ssdp.skipLws_token token noLine noBlank

theorem manValue_match (ends : suffix.takeWhile isIdentifierChar = []) :
    matchstr (manValue ++ suffix) "%q%i ; ns = %s" =
      (.ok, manAt suffix 50, [.str ⟨0, 43⟩, .str ⟨48, 2⟩]) := by
  have uri : matchToken (manAt suffix 0) .quotedString true = (.ok, manAt suffix 43, [.str ⟨0, 43⟩]) := by
    rw [matchToken, manAt_uri]
    rfl
  have semicolon : skipLws (manAt suffix 43) = (.ok, manAt suffix 43) :=
    @manAt_noBlank suffix 43 .separator 1 rfl (by decide) (by decide)
  have blank : skipLws (manAt suffix 44) = (.ok, manAt suffix 45) := by
    have token : scannerGetToken (manAt suffix 44) = .ok (⟨.whitespace, ⟨44, 1⟩⟩, manAt suffix 45) := rfl
    have step : matchLws (manAt suffix 44) = .inr (manAt suffix 45) := by
      simp [matchLws, token]
    rw [skipLws_next step]
    exact @manAt_noBlank suffix 45 .identifier 2 rfl (by decide) (by decide)
  have equals : skipLws (manAt suffix 47) = (.ok, manAt suffix 47) :=
    @manAt_noBlank suffix 47 .separator 1 rfl (by decide) (by decide)
  have digits : Identifier (bytes "01") := ⟨by decide, by decide⟩
  have ns : matchToken (manAt suffix 48) .identifier true = (.ok, manAt suffix 50, [.str ⟨48, 2⟩]) :=
    @matchToken_run (manAt suffix 48) rfl (bytes "01") suffix digits rfl ends
  have number : skipLws (manAt suffix 48) = (.ok, manAt suffix 48) := by
    obtain ⟨token, next, found, type, -⟩ := matchToken_ok (congrArg Prod.fst ns)
    have stop : matchLws (manAt suffix 48) = .inl .ok := by
      simp [matchLws, found, type]
    rw [skipLws_stop stop]
    rfl
  have loop : vfmatchLoop true (manAt suffix 0) (format "%q%i ; ns = %s") =
      (.ok, manAt suffix 50, [.str ⟨0, 43⟩, .str ⟨48, 2⟩]) := by
    rw [format_extension]
    simp only [vfmatchLoop, matchDirective, uri, if_true, Directive.nextCase, semicolon, blank, equals, number, ns,
      @manAt_char suffix 43 59 (by decide), @manAt_char suffix 45 110 (by decide),
      @manAt_char suffix 46 115 (by decide), @manAt_char suffix 47 61 (by decide), List.nil_append, List.append_nil,
      List.cons_append]
  have start : matchstr (manValue ++ suffix) "%q%i ; ns = %s" =
      vfmatch (manAt suffix 0) (format "%q%i ; ns = %s") := rfl
  rw [start, vfmatch, loop]
  rfl

end Extension

end Pupnp.Soap
