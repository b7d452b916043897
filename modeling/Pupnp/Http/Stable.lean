import Pupnp.Http.Entity
import Mathlib.Data.List.TakeWhile

/-!
A matcher that does not run out of bytes reads the same when more bytes follow:
its status, what it stores and where its cursor ends do not change.
-/

namespace Pupnp.Http
open Pupnp.CString

theorem scanQuoted_append {input : List UInt8} {n : Nat} (complete : scanQuoted input n ≠ .unclosed)
    (buf : List UInt8) : scanQuoted (input ++ buf) n = scanQuoted input n := by
  fun_induction scanQuoted input n with
  | case1 => exact absurd rfl complete
  | case2 rest n => rw [List.cons_append, scanQuoted.eq_def]; rfl
  | case3 => exact absurd rfl complete
  | case4 n _ _ rest ih =>
    rw [List.cons_append, List.cons_append, scanQuoted.eq_def]
    exact ih complete
  | case5 c rest n quote escape text ih =>
    rw [List.cons_append, scanQuoted.eq_def]
    simp only [if_neg quote, if_neg escape, if_pos text]
    exact ih complete
  | case6 c rest n quote escape text =>
    rw [List.cons_append, scanQuoted.eq_def]
    simp only [if_neg quote, if_neg escape, if_neg text]

theorem scanRun_append {p : UInt8 → Bool} {type : TokenType} {rest : List UInt8}
    (complete : scanRun false p type rest ≠ .error .incomplete) (buf : List UInt8) :
    scanRun false p type (rest ++ buf) = scanRun false p type rest := by
  have ends : (rest.takeWhile p).length ≠ rest.length := by
    intro whole
    simp [scanRun, whole] at complete
  have shorter : (rest.takeWhile p).length < rest.length :=
    lt_of_le_of_ne (List.takeWhile_prefix p).length_le ends
  have run : (rest ++ buf).takeWhile p = rest.takeWhile p := by
    rw [List.takeWhile_append, if_neg ends]
  simp only [scanRun, run, List.length_append]
  rw [if_neg (by simp; omega), if_neg (by simp; omega)]

theorem scanToken_append {input : List UInt8} (complete : scanToken false input ≠ .error .incomplete)
    (buf : List UInt8) : scanToken false (input ++ buf) = scanToken false input := by
  cases input with
  | nil => exact absurd rfl complete
  | cons c rest =>
    rw [List.cons_append]
    unfold scanToken at complete ⊢
    dsimp only at complete ⊢
    split_ifs at complete ⊢ with ident blank cr lf quote
    · exact scanRun_append complete buf
    · exact scanRun_append complete buf
    · cases rest with
      | nil => exact absurd rfl complete
      | cons d rest => rfl
    · rfl
    · rw [scanQuoted_append]
      intro unclosed
      rw [unclosed] at complete
      exact complete rfl
    all_goals rfl

@[simp] theorem Scanner.extend_cursor (sc : Scanner) (buf : List UInt8) :
    (sc.extend buf).cursor = sc.cursor := rfl

@[simp] theorem Scanner.extend_entire (sc : Scanner) (buf : List UInt8) :
    (sc.extend buf).entireMsgLoaded = sc.entireMsgLoaded := rfl

theorem Scanner.drop_extend {sc : Scanner} (inside : sc.cursor ≤ sc.msg.length) (buf : List UInt8) :
    (sc.extend buf).msg.drop (sc.extend buf).cursor = sc.msg.drop sc.cursor ++ buf :=
  List.drop_append_of_le_length inside

structure Scanner.Open (sc : Scanner) : Prop where
  entire : sc.entireMsgLoaded = false
  inside : sc.cursor ≤ sc.msg.length

theorem Scanner.Reaches.opened {sc next : Scanner} (moved : sc.Reaches next) (more : sc.Open) :
    next.Open := by
  refine ⟨moved.entire.trans more.entire, ?_⟩
  have bound := moved.bound
  have inside := more.inside
  rw [moved.msg]
  omega

theorem scannerGetToken_extend_ok {sc next : Scanner} {token : Token} (more : sc.Open)
    (scanned : scannerGetToken sc = .ok (token, next)) (buf : List UInt8) :
    scannerGetToken (sc.extend buf) = .ok (token, next.extend buf) := by
  unfold scannerGetToken at scanned ⊢
  rw [Scanner.drop_extend more.inside, show (sc.extend buf).entireMsgLoaded = false from more.entire]
  rw [more.entire] at scanned
  split at scanned
  · cases scanned
  · rename_i type length found
    have complete : scanToken false (sc.msg.drop sc.cursor) ≠ .error .incomplete := by
      rw [found]
      nofun
    have same := scanToken_append complete buf
    cases scanned
    rw [same, found]
    rfl

theorem scannerGetToken_extend_error {sc : Scanner} {status : ParseStatus} (more : sc.Open)
    (scanned : scannerGetToken sc = .error status) (complete : status ≠ .incomplete)
    (buf : List UInt8) : scannerGetToken (sc.extend buf) = .error status := by
  have found := scannerGetToken_error scanned
  rw [more.entire] at found
  unfold scannerGetToken
  rw [Scanner.drop_extend more.inside, show (sc.extend buf).entireMsgLoaded = false from more.entire,
    scanToken_append (by rw [found]; simpa using complete), found]

/-! The loops, one round at a time. -/

theorem skipBlankLines_error {sc : Scanner} {status : ParseStatus}
    (found : scannerGetToken sc = .error status) : skipBlankLines sc = (status, sc) := by
  rw [skipBlankLines]
  split <;> simp_all

theorem skipBlankLines_token {sc next : Scanner} {token : Token}
    (found : scannerGetToken sc = .ok (token, next)) :
    skipBlankLines sc =
      if token.type = .whitespace || token.type = .crlf then skipBlankLines next else (.ok, sc) := by
  conv_lhs => rw [skipBlankLines]
  split <;> simp_all

theorem nonWsRun_error {sc : Scanner} {status : ParseStatus}
    (found : scannerGetToken sc = .error status) : nonWsRun sc = (status, sc) := by
  rw [nonWsRun]
  split <;> simp_all

theorem nonWsRun_token {sc next : Scanner} {token : Token}
    (found : scannerGetToken sc = .ok (token, next)) :
    nonWsRun sc =
      if token.type ≠ .whitespace && token.type ≠ .crlf then nonWsRun next else (.ok, sc) := by
  conv_lhs => rw [nonWsRun]
  split <;> simp_all

theorem crlfRun_error {sc : Scanner} {status : ParseStatus}
    (found : scannerGetToken sc = .error status) : crlfRun sc = (status, sc) := by
  rw [crlfRun]
  split <;> simp_all

theorem crlfRun_token {sc next : Scanner} {token : Token}
    (found : scannerGetToken sc = .ok (token, next)) :
    crlfRun sc = if token.type ≠ .crlf then crlfRun next else (.ok, sc) := by
  conv_lhs => rw [crlfRun]
  split <;> simp_all

theorem skipLws_stop {sc : Scanner} {status : ParseStatus} (found : matchLws sc = .inl status) :
    skipLws sc = (if status = .incomplete && sc.entireMsgLoaded then .ok else status, sc) := by
  rw [skipLws]
  split <;> simp_all

theorem skipLws_next {sc next : Scanner} (found : matchLws sc = .inr next) :
    skipLws sc = skipLws next := by
  conv_lhs => rw [skipLws]
  split <;> simp_all

theorem rawValueRun_error {sc : Scanner} {status : ParseStatus} {crlf : Option Nat} {length : Nat}
    (found : scannerGetToken sc = .error status) :
    rawValueRun sc crlf length = (status, sc, length) := by
  rw [rawValueRun]
  split <;> simp_all

theorem rawValueRun_token {sc next : Scanner} {token : Token} {crlf : Option Nat} {length : Nat}
    (found : scannerGetToken sc = .ok (token, next)) :
    rawValueRun sc crlf length =
      match crlf with
      | none =>
        if token.type = .crlf then rawValueRun next (some sc.cursor) (length + token.str.length)
        else rawValueRun next none (length + token.str.length)
      | some position =>
        if token.type = .whitespace then rawValueRun next none (length + token.str.length)
        else (.ok, { sc with cursor := position }, length) := by
  conv_lhs => rw [rawValueRun]
  split
  · simp_all
  · rename_i found'
    rw [found] at found'
    cases found'
    rfl

/-! Every matcher on a longer buffer. -/

theorem skipBlankLines_extend {sc : Scanner} (more : sc.Open)
    (complete : (skipBlankLines sc).1 ≠ .incomplete) (buf : List UInt8) :
    skipBlankLines (sc.extend buf) =
      ((skipBlankLines sc).1, (skipBlankLines sc).2.extend buf) := by
  fun_induction skipBlankLines sc with
  | case1 sc status found =>
    exact skipBlankLines_error (scannerGetToken_extend_error more found complete buf)
  | case2 sc token next found blank ih =>
    rw [skipBlankLines_token (scannerGetToken_extend_ok more found buf), if_pos blank]
    exact ih ((scannerGetToken_reaches found).opened more) complete
  | case3 sc token next found text =>
    rw [skipBlankLines_token (scannerGetToken_extend_ok more found buf), if_neg text]

theorem nonWsRun_extend {sc : Scanner} (more : sc.Open) (complete : (nonWsRun sc).1 ≠ .incomplete)
    (buf : List UInt8) :
    nonWsRun (sc.extend buf) = ((nonWsRun sc).1, (nonWsRun sc).2.extend buf) := by
  fun_induction nonWsRun sc with
  | case1 sc status found =>
    exact nonWsRun_error (scannerGetToken_extend_error more found complete buf)
  | case2 sc token next found text ih =>
    rw [nonWsRun_token (scannerGetToken_extend_ok more found buf), if_pos text]
    exact ih ((scannerGetToken_reaches found).opened more) complete
  | case3 sc token next found blank =>
    rw [nonWsRun_token (scannerGetToken_extend_ok more found buf), if_neg blank]

theorem crlfRun_extend {sc : Scanner} (more : sc.Open) (complete : (crlfRun sc).1 ≠ .incomplete)
    (buf : List UInt8) :
    crlfRun (sc.extend buf) = ((crlfRun sc).1, (crlfRun sc).2.extend buf) := by
  fun_induction crlfRun sc with
  | case1 sc status found =>
    exact crlfRun_error (scannerGetToken_extend_error more found complete buf)
  | case2 sc token next found text ih =>
    rw [crlfRun_token (scannerGetToken_extend_ok more found buf), if_pos text]
    exact ih ((scannerGetToken_reaches found).opened more) complete
  | case3 sc token next found ended =>
    rw [crlfRun_token (scannerGetToken_extend_ok more found buf), if_neg ended]

theorem matchLws_extend_next {sc next : Scanner} (more : sc.Open)
    (found : matchLws sc = .inr next) (buf : List UInt8) :
    matchLws (sc.extend buf) = .inr (next.extend buf) := by
  unfold matchLws at found ⊢
  split at found
  · cases found
  · rename_i token middle first
    rw [scannerGetToken_extend_ok more first buf]
    have later := (scannerGetToken_reaches first).opened more
    dsimp only
    by_cases lineEnd : token.type = .crlf
    · rw [if_pos lineEnd] at found ⊢
      split at found
      · cases found
      · rename_i second
        rw [scannerGetToken_extend_ok later second buf]
        dsimp only
        split_ifs at found ⊢
        cases found
        rfl
    · rw [if_neg lineEnd] at found ⊢
      split_ifs at found ⊢
      cases found
      rfl

theorem matchLws_extend_stop {sc : Scanner} {status : ParseStatus} (more : sc.Open)
    (found : matchLws sc = .inl status) (complete : status ≠ .incomplete) (buf : List UInt8) :
    matchLws (sc.extend buf) = .inl status := by
  unfold matchLws at found ⊢
  split at found
  · rename_i first
    cases found
    rw [scannerGetToken_extend_error more first complete buf]
  · rename_i token middle first
    rw [scannerGetToken_extend_ok more first buf]
    have later := (scannerGetToken_reaches first).opened more
    dsimp only
    by_cases lineEnd : token.type = .crlf
    · rw [if_pos lineEnd] at found ⊢
      split at found
      · rename_i second
        cases found
        rw [scannerGetToken_extend_error later second complete buf]
      · rename_i second
        rw [scannerGetToken_extend_ok later second buf]
        dsimp only
        split_ifs at found ⊢
        exact found
    · rw [if_neg lineEnd] at found ⊢
      split_ifs at found ⊢
      exact found

theorem skipLws_extend {sc : Scanner} (more : sc.Open) (complete : (skipLws sc).1 ≠ .incomplete)
    (buf : List UInt8) : skipLws (sc.extend buf) = ((skipLws sc).1, (skipLws sc).2.extend buf) := by
  fun_induction skipLws sc with
  | case1 sc next found ih =>
    rw [skipLws_next (matchLws_extend_next more found buf)]
    exact ih ((matchLws_reaches found).opened more) complete
  | case2 sc status found =>
    have closed : (status = .incomplete && sc.entireMsgLoaded) = false := by simp [more.entire]
    simp only [closed, Bool.false_eq_true, if_false] at complete ⊢
    rw [skipLws_stop (matchLws_extend_stop more found complete buf),
      Scanner.extend_entire, closed]
    rfl

theorem matchNonWsString_extend {sc : Scanner} (more : sc.Open)
    (complete : (matchNonWsString sc).1 ≠ .incomplete) (buf : List UInt8) :
    matchNonWsString (sc.extend buf) = ((matchNonWsString sc).1,
      (matchNonWsString sc).2.1.extend buf, (matchNonWsString sc).2.2) := by
  have closed (status : ParseStatus) : (status = .incomplete && sc.entireMsgLoaded) = false := by
    simp [more.entire]
  have ran : (nonWsRun sc).1 ≠ .incomplete := by
    intro short
    simp [matchNonWsString, short, more.entire] at complete
  have run := nonWsRun_extend more ran buf
  simp only [matchNonWsString, run, closed, Bool.or_false, Scanner.extend_cursor,
    Scanner.extend_entire]
  split_ifs <;> rfl

theorem rawValueRun_length {sc : Scanner} (crlf : Option Nat) (length : Nat)
    (inside : sc.cursor ≤ sc.msg.length) :
    (rawValueRun sc crlf length).2.2 + sc.cursor ≤ length + sc.msg.length := by
  fun_induction rawValueRun sc crlf length with
  | case1 => dsimp only; omega
  | case2 sc length token next found _ ih =>
    obtain ⟨moved, -, -, bound⟩ := scannerGetToken_ok found
    subst moved
    have rest := ih bound
    dsimp only at rest ⊢
    omega
  | case3 sc length token next found _ ih =>
    obtain ⟨moved, -, -, bound⟩ := scannerGetToken_ok found
    subst moved
    have rest := ih bound
    dsimp only at rest ⊢
    omega
  | case4 sc length token next found position _ ih =>
    obtain ⟨moved, -, -, bound⟩ := scannerGetToken_ok found
    subst moved
    have rest := ih bound
    dsimp only at rest ⊢
    omega
  | case5 => dsimp only; omega

theorem rawValueRun_extend {sc : Scanner} {crlf : Option Nat} {length : Nat} (more : sc.Open)
    (complete : (rawValueRun sc crlf length).1 ≠ .incomplete) (buf : List UInt8) :
    rawValueRun (sc.extend buf) crlf length = ((rawValueRun sc crlf length).1,
      (rawValueRun sc crlf length).2.1.extend buf, (rawValueRun sc crlf length).2.2) := by
  fun_induction rawValueRun sc crlf length with
  | case1 sc crlf length status found =>
    exact rawValueRun_error (scannerGetToken_extend_error more found complete buf)
  | case2 sc length token next found ends ih =>
    rw [rawValueRun_token (scannerGetToken_extend_ok more found buf)]
    dsimp only
    rw [if_pos ends]
    exact ih ((scannerGetToken_reaches found).opened more) complete
  | case3 sc length token next found text ih =>
    rw [rawValueRun_token (scannerGetToken_extend_ok more found buf)]
    dsimp only
    rw [if_neg text]
    exact ih ((scannerGetToken_reaches found).opened more) complete
  | case4 sc length token next found position blank ih =>
    rw [rawValueRun_token (scannerGetToken_extend_ok more found buf)]
    dsimp only
    rw [if_pos blank]
    exact ih ((scannerGetToken_reaches found).opened more) complete
  | case5 sc length token next found position text =>
    rw [rawValueRun_token (scannerGetToken_extend_ok more found buf)]
    dsimp only
    rw [if_neg text]
    rfl

theorem Memptr.read_append {m : Memptr} {msg : List UInt8} (inside : m.buf + m.length ≤ msg.length)
    (buf : List UInt8) : m.read (msg ++ buf) = m.read msg := by
  rw [Memptr.read, Memptr.read, List.drop_append_of_le_length (by omega),
    List.take_append_of_le_length (by rw [List.length_drop]; omega)]

theorem matchRawValue_extend {sc : Scanner} (more : sc.Open)
    (complete : (matchRawValue sc).1 ≠ .incomplete) (buf : List UInt8) :
    matchRawValue (sc.extend buf) =
      ((matchRawValue sc).1, (matchRawValue sc).2.1.extend buf, (matchRawValue sc).2.2) := by
  have ran : (rawValueRun sc none 0).1 ≠ .incomplete := by
    intro short
    simp [matchRawValue, short] at complete
  have bound := rawValueRun_length none 0 more.inside
  have run := rawValueRun_extend more ran buf
  have same : Memptr.read ⟨sc.cursor, (rawValueRun sc none 0).2.2⟩ (sc.msg ++ buf) =
      Memptr.read ⟨sc.cursor, (rawValueRun sc none 0).2.2⟩ sc.msg :=
    Memptr.read_append (by dsimp only; omega) buf
  simp only [matchRawValue, run]
  split_ifs
  · simp only [Scanner.extend, same]
  · rfl

theorem matchChar_extend {sc : Scanner} {c : UInt8} {caseSensitive : Bool}
    (complete : (matchChar sc c caseSensitive).1 ≠ .incomplete) (buf : List UInt8) :
    matchChar (sc.extend buf) c caseSensitive =
      ((matchChar sc c caseSensitive).1, (matchChar sc c caseSensitive).2.extend buf) := by
  cases here : sc.msg[sc.cursor]? with
  | none => simp [matchChar, here] at complete
  | some scanChar =>
    have inside := (List.getElem?_eq_some_iff.mp here).1
    have same : (sc.extend buf).msg[(sc.extend buf).cursor]? = some scanChar := by
      simpa [Scanner.extend, List.getElem?_append_left inside] using here
    simp only [matchChar, here, same]
    split_ifs <;> rfl

theorem matchToken_extend {sc : Scanner} {type : TokenType} {store : Bool} (more : sc.Open)
    (complete : (matchToken sc type store).1 ≠ .incomplete) (buf : List UInt8) :
    matchToken (sc.extend buf) type store = ((matchToken sc type store).1,
      (matchToken sc type store).2.1.extend buf, (matchToken sc type store).2.2) := by
  unfold matchToken at complete ⊢
  split at complete
  · rename_i found
    rw [scannerGetToken_extend_error more found complete buf]
  · rename_i found
    rw [scannerGetToken_extend_ok more found buf]

theorem matchOptionalWs_extend {sc : Scanner} (more : sc.Open)
    (complete : (matchOptionalWs sc).1 ≠ .incomplete) (buf : List UInt8) :
    matchOptionalWs (sc.extend buf) = ((matchOptionalWs sc).1,
      (matchOptionalWs sc).2.1.extend buf, (matchOptionalWs sc).2.2) := by
  unfold matchOptionalWs at complete ⊢
  split at complete
  · rename_i found
    rw [scannerGetToken_extend_error more found complete buf]
  · rename_i found
    rw [scannerGetToken_extend_ok more found buf]
    dsimp only
    split_ifs <;> rfl

theorem isIdentifierChar_numeralByte {c : UInt8} (other : isIdentifierChar c = false) :
    isNumeralByte c = false := by
  revert c
  apply forall_byte
  decide +kernel

theorem isIdentifierChar_not_space {c : UInt8} (text : isIdentifierChar c = true) :
    isSpace c = false := by
  revert c
  apply forall_byte
  decide +kernel

theorem scanToken_identifier {input : List UInt8} {n : Nat}
    (scanned : scanToken false input = .ok (.identifier, n)) :
    ∃ text c rest, input = text ++ c :: rest ∧ text.length = n ∧ text ≠ [] ∧
      (∀ d ∈ text, isIdentifierChar d = true) ∧ isIdentifierChar c = false := by
  cases input with
  | nil => cases scanned
  | cons c rest =>
    unfold scanToken at scanned
    dsimp only at scanned
    split_ifs at scanned with ident blank cr lf quote
    · have complete := scanned
      obtain ⟨-, size⟩ := scanRun_ok scanned
      have ends : (rest.takeWhile isIdentifierChar).length ≠ rest.length := by
        intro whole
        simp [scanRun, whole] at complete
      cases tail : rest.dropWhile isIdentifierChar with
      | nil =>
        have whole := List.takeWhile_append_dropWhile (p := isIdentifierChar) (l := rest)
        rw [tail, List.append_nil] at whole
        exact absurd (congrArg List.length whole) ends
      | cons d rest' =>
        refine ⟨c :: rest.takeWhile isIdentifierChar, d, rest', ?_, by simp [size], by simp, ?_, ?_⟩
        · rw [List.cons_append, ← tail, List.takeWhile_append_dropWhile]
        · intro e member
          rcases List.mem_cons.mp member with rfl | later
          · exact ident
          · exact List.mem_takeWhile_imp later
        · have head := List.head_dropWhile_not isIdentifierChar (w := by rw [tail]; simp)
          simpa [tail] using head
    · have kind := (scanRun_ok scanned).1
      cases kind
    · split at scanned
      · cases scanned
      · split_ifs at scanned <;> cases scanned
    · cases scanned
    · split at scanned <;> cases scanned
    · cases scanned
    · cases scanned

theorem strtol_identifier {base : Nat} (small : base ≤ 36) {text rest : List UInt8} {c : UInt8}
    (some : text ≠ []) (ident : ∀ d ∈ text, isIdentifierChar d = true)
    (stop : isIdentifierChar c = false) : strtol base (text ++ c :: rest) = strtol base text := by
  unfold strtol
  rw [numeral_append_stop small some (fun d member => isIdentifierChar_not_space (ident d member))
    (isIdentifierChar_numeralByte stop)]

theorem matchInt_extend {sc : Scanner} {base : Nat} (small : base ≤ 36) (more : sc.Open)
    (complete : (matchInt sc base).1 ≠ .incomplete) (buf : List UInt8) :
    matchInt (sc.extend buf) base =
      ((matchInt sc base).1, (matchInt sc base).2.1.extend buf, (matchInt sc base).2.2) := by
  unfold matchInt at complete ⊢
  split at complete
  · rename_i found
    rw [scannerGetToken_extend_error more found complete buf]
  · rename_i token next found
    rw [scannerGetToken_extend_ok more found buf]
    dsimp only
    by_cases ident : token.type = .identifier
    · have same : strtol base ((sc.extend buf).msg.drop token.str.buf) =
          strtol base (sc.msg.drop token.str.buf) := by
        obtain ⟨-, start, -, -⟩ := scannerGetToken_ok found
        unfold scannerGetToken at found
        rw [more.entire] at found
        split at found
        · cases found
        · rename_i type length scanned
          cases found
          cases ident
          obtain ⟨text, c, rest, shape, -, some, chars, stop⟩ := scanToken_identifier scanned
          dsimp only at start ⊢
          have longer := Scanner.drop_extend more.inside buf
          rw [Scanner.extend_cursor, shape, List.append_assoc, List.cons_append] at longer
          rw [longer, shape, strtol_identifier small some chars stop,
            strtol_identifier small some chars stop]
      rw [if_pos ident, if_pos ident, same]
      split_ifs <;> rfl
    · rw [if_neg ident, if_neg ident]

def Directive.Appendable : Directive → Prop
  | .endOfMsg => False
  | .int base => base ≤ 36
  | _ => True

theorem matchDirective_extend {caseSensitive : Bool} {sc : Scanner} {d : Directive}
    (appendable : d.Appendable) (more : sc.Open)
    (complete : (matchDirective caseSensitive sc d).1 ≠ .incomplete) (buf : List UInt8) :
    matchDirective caseSensitive (sc.extend buf) d = ((matchDirective caseSensitive sc d).1,
      (matchDirective caseSensitive sc d).2.1.extend buf,
      (matchDirective caseSensitive sc d).2.2) := by
  cases d with
  | rawValue => simp only [matchDirective, matchRawValue_extend more complete buf]
  | identifier => exact matchToken_extend more complete buf
  | crlf => exact matchToken_extend more complete buf
  | int base => simp only [matchDirective, matchInt_extend appendable more complete buf]
  | nonWsString => simp only [matchDirective, matchNonWsString_extend more complete buf]
  | line =>
    simp only [matchDirective, readUntilCrlf] at complete ⊢
    rw [crlfRun_extend more complete buf]
    rfl
  | quoted => exact matchToken_extend more complete buf
  | optionalWs => exact matchOptionalWs_extend more complete buf
  | position => rfl
  | endOfMsg => exact absurd appendable id
  | lws => simp only [matchDirective, skipLws_extend more complete buf]
  | ws => exact matchToken_extend more complete buf
  | char c => simp only [matchDirective, matchChar_extend complete buf]
  | setCase => rfl

theorem vfmatchLoop_extend {caseSensitive : Bool} {sc : Scanner} {fmt : List Directive}
    (appendable : ∀ d ∈ fmt, d.Appendable) (more : sc.Open)
    (complete : (vfmatchLoop caseSensitive sc fmt).1 ≠ .incomplete) (buf : List UInt8) :
    vfmatchLoop caseSensitive (sc.extend buf) fmt = ((vfmatchLoop caseSensitive sc fmt).1,
      (vfmatchLoop caseSensitive sc fmt).2.1.extend buf,
      (vfmatchLoop caseSensitive sc fmt).2.2) := by
  induction fmt generalizing caseSensitive sc with
  | nil => rfl
  | cons d rest ih =>
    have here := appendable d (by simp)
    have later (e : Directive) (member : e ∈ rest) : e.Appendable := appendable e (by simp [member])
    simp only [vfmatchLoop] at complete ⊢
    by_cases first : (matchDirective caseSensitive sc d).1 = .ok
    · rw [if_pos first] at complete ⊢
      have step := matchDirective_extend here more (by rw [first]; simp) buf
      have moved := (matchDirective_matched caseSensitive sc d).reaches
      rw [step, if_pos first]
      dsimp only
      rw [ih later (moved.opened more) complete]
    · rw [if_neg first] at complete ⊢
      rw [matchDirective_extend here more complete buf, if_neg first]

theorem vfmatch_extend {sc : Scanner} {fmt : List Directive} (appendable : ∀ d ∈ fmt, d.Appendable)
    (more : sc.Open) (complete : (vfmatch sc fmt).1 ≠ .incomplete) (buf : List UInt8) :
    vfmatch (sc.extend buf) fmt =
      ((vfmatch sc fmt).1, (vfmatch sc fmt).2.1.extend buf, (vfmatch sc fmt).2.2) := by
  have loop := vfmatchLoop_extend appendable more (show (vfmatchLoop true sc fmt).1 ≠ _ from complete)
    buf
  simp only [vfmatch, loop]
  split_ifs <;> rfl

theorem matchFormat_extend {sc : Scanner} {fmt : String}
    (appendable : ∀ d ∈ format fmt, d.Appendable) (more : sc.Open)
    (complete : (matchFormat sc fmt).1 ≠ .incomplete) (buf : List UInt8) :
    matchFormat (sc.extend buf) fmt = ((matchFormat sc fmt).1,
      (matchFormat sc fmt).2.1.extend buf, (matchFormat sc fmt).2.2) :=
  vfmatch_extend appendable more complete buf

end Pupnp.Http
