import Pupnp.Http.Stable

/-!
The request line is tried against two formats. A buffer that ends between the CR
and the LF of a line without version is too short for the first format and does
not match the second; this is the only place where bytes that come later could
still make the first format match.
-/

namespace Pupnp.Http
open Pupnp.CString

def requestTarget : List Directive := [.identifier, .ws, .nonWsString]

def requestLineStart : List Directive := requestTarget ++ [.ws]

def httpVersion : List Directive :=
  [.setCase false, .char 104, .char 116, .char 116, .char 112, .optionalWs, .char 47, .optionalWs,
    .line, .crlf]

theorem format_simpleGet : format "%s\t%S%w%c" = requestTarget ++ [.optionalWs, .crlf] := by
  decide

theorem format_fullRequest :
    format "%s\t%S\t%ihttp%w/%w%L%c" = requestTarget ++ .ws :: httpVersion := by
  decide

/-- The bytes that the scanner has not read yet. -/
def Scanner.rest (sc : Scanner) : List UInt8 := sc.msg.drop sc.cursor

def EndsInCr (sc : Scanner) : Prop :=
  (skipBlankLines sc).1 = .ok ∧
    (vfmatchLoop true (skipBlankLines sc).2 requestLineStart).1 = .ok ∧
    (vfmatchLoop true (skipBlankLines sc).2 requestLineStart).2.1.rest = [CR]

instance (sc : Scanner) : Decidable (EndsInCr sc) := by
  unfold EndsInCr
  infer_instance

theorem vfmatchLoop_cons {caseSensitive : Bool} {sc : Scanner} {d : Directive}
    (matched : (matchDirective caseSensitive sc d).1 = .ok) (rest : List Directive) :
    vfmatchLoop caseSensitive sc (d :: rest) =
      ((vfmatchLoop (d.nextCase caseSensitive) (matchDirective caseSensitive sc d).2.1 rest).1,
        (vfmatchLoop (d.nextCase caseSensitive) (matchDirective caseSensitive sc d).2.1 rest).2.1,
        (matchDirective caseSensitive sc d).2.2 ++
          (vfmatchLoop (d.nextCase caseSensitive) (matchDirective caseSensitive sc d).2.1 rest).2.2) := by
  simp only [vfmatchLoop, if_pos matched]

theorem vfmatchLoop_stop {caseSensitive : Bool} {sc : Scanner} {d : Directive}
    (failed : (matchDirective caseSensitive sc d).1 ≠ .ok) (rest : List Directive) :
    vfmatchLoop caseSensitive sc (d :: rest) = matchDirective caseSensitive sc d := by
  simp only [vfmatchLoop, if_neg failed]

def caseAfter (caseSensitive : Bool) (fmt : List Directive) : Bool :=
  fmt.foldl (fun c d => d.nextCase c) caseSensitive

theorem vfmatchLoop_append {caseSensitive : Bool} {sc : Scanner} {first : List Directive}
    (matched : (vfmatchLoop caseSensitive sc first).1 = .ok) (second : List Directive) :
    vfmatchLoop caseSensitive sc (first ++ second) =
      let later := vfmatchLoop (caseAfter caseSensitive first)
        (vfmatchLoop caseSensitive sc first).2.1 second
      (later.1, later.2.1, (vfmatchLoop caseSensitive sc first).2.2 ++ later.2.2) := by
  induction first generalizing caseSensitive sc with
  | nil => simp [vfmatchLoop, caseAfter]
  | cons d rest ih =>
    by_cases here : (matchDirective caseSensitive sc d).1 = .ok
    · rw [vfmatchLoop_cons here] at matched ⊢
      rw [List.cons_append, vfmatchLoop_cons here, ih matched]
      simp only [caseAfter, List.foldl_cons, List.append_assoc]
    · rw [vfmatchLoop_stop here] at matched
      exact absurd matched here

theorem vfmatchLoop_append_stop {caseSensitive : Bool} {sc : Scanner} {first : List Directive}
    (failed : (vfmatchLoop caseSensitive sc first).1 ≠ .ok) (second : List Directive) :
    vfmatchLoop caseSensitive sc (first ++ second) = vfmatchLoop caseSensitive sc first := by
  induction first generalizing caseSensitive sc with
  | nil => exact absurd rfl failed
  | cons d rest ih =>
    by_cases here : (matchDirective caseSensitive sc d).1 = .ok
    · rw [vfmatchLoop_cons here] at failed ⊢
      rw [List.cons_append, vfmatchLoop_cons here, ih failed]
    · rw [List.cons_append, vfmatchLoop_stop here, vfmatchLoop_stop here]

theorem vfmatchLoop_target {sc : Scanner} (matched : (vfmatchLoop true sc requestTarget).1 = .ok)
    (second : List Directive) :
    vfmatchLoop true sc (requestTarget ++ second) =
      let later := vfmatchLoop true (vfmatchLoop true sc requestTarget).2.1 second
      (later.1, later.2.1, (vfmatchLoop true sc requestTarget).2.2 ++ later.2.2) :=
  vfmatchLoop_append matched second

theorem matchToken_incomplete {sc : Scanner} {type : TokenType} {store : Bool}
    (short : (matchToken sc type store).1 = .incomplete) :
    scannerGetToken sc = .error .incomplete := by
  unfold matchToken at short
  split at short
  · rename_i found
    rw [found]
    exact congrArg _ short
  · split_ifs at short

theorem matchToken_ok {sc : Scanner} {type : TokenType} {store : Bool}
    (matched : (matchToken sc type store).1 = .ok) :
    ∃ token next, scannerGetToken sc = .ok (token, next) ∧ token.type = type ∧
      (matchToken sc type store).2.1 = next := by
  unfold matchToken at matched ⊢
  split at matched
  · rename_i found
    rcases scanToken_error (scannerGetToken_error found) with rfl | rfl <;> cases matched
  · rename_i token next found
    refine ⟨token, next, found, ?_, rfl⟩
    by_contra other
    rw [if_neg other] at matched
    cases matched

/-- Too few bytes for a token that is no line end: no bytes behind them make it one. -/
theorem scanToken_never_crlf {input : List UInt8} (short : scanToken false input = .error .incomplete)
    (some : input ≠ []) (noCr : input ≠ [CR]) (buf : List UInt8) {type : TokenType} {n : Nat}
    (scanned : scanToken false (input ++ buf) = .ok (type, n)) : type ≠ .crlf := by
  cases input with
  | nil => exact absurd rfl some
  | cons c rest =>
    rw [List.cons_append] at scanned
    unfold scanToken at short scanned
    dsimp only at short scanned
    split_ifs at short scanned with ident blank cr lf quote
    · rw [(scanRun_ok scanned).1]
      decide
    · rw [(scanRun_ok scanned).1]
      decide
    · cases rest with
      | nil => exact absurd (congrArg (· :: []) cr) noCr
      | cons d rest =>
        dsimp only at short
        split_ifs at short
    · split at scanned <;> cases scanned
      decide

theorem scannerGetToken_rest (sc : Scanner) :
    scannerGetToken sc = match scanToken sc.entireMsgLoaded sc.rest with
      | .error status => .error status
      | .ok (type, length) =>
        .ok (⟨type, ⟨sc.cursor, length⟩⟩, { sc with cursor := sc.cursor + length }) := rfl

theorem simpleGet_of_start {sc : Scanner}
    (start : (vfmatchLoop true sc requestLineStart).1 = .ok) :
    (vfmatchLoop true sc (format "%s\t%S%w%c")).1 =
      (matchToken (vfmatchLoop true sc requestLineStart).2.1 .crlf false).1 := by
  by_cases target : (vfmatchLoop true sc requestTarget).1 = .ok
  · rw [requestLineStart, vfmatchLoop_target target] at start ⊢
    rw [format_simpleGet, vfmatchLoop_target target]
    set middle := (vfmatchLoop true sc requestTarget).2.1
    have blank : (matchToken middle .whitespace false).1 = .ok := by
      by_contra other
      have stop := @vfmatchLoop_stop true middle .ws other []
      rw [stop] at start
      exact other start
    obtain ⟨token, next, found, type, moved⟩ := matchToken_ok blank
    have optional : matchOptionalWs middle = (.ok, next, []) := by
      simp [matchOptionalWs, found, type]
    simp only [vfmatchLoop, matchDirective, optional, blank, if_true, moved]
    split_ifs with last
    · exact last.symm
    · rfl
  · rw [requestLineStart, vfmatchLoop_append_stop target] at start
    exact absurd start target

/-- Where the first format is short of bytes and the second is settled, the line has been
read up to the blanks behind the URI and an unfinished token follows. -/
theorem start_of_incomplete {sc : Scanner}
    (short : (vfmatchLoop true sc (format "%s\t%S%w%c")).1 = .incomplete)
    (settled : (vfmatchLoop true sc (format "%s\t%S\t%ihttp%w/%w%L%c")).1 ≠ .incomplete) :
    (vfmatchLoop true sc requestLineStart).1 = .ok ∧
      scannerGetToken (vfmatchLoop true sc requestLineStart).2.1 = .error .incomplete ∧
      (vfmatchLoop true sc requestLineStart).2.1.rest ≠ [] := by
  by_cases target : (vfmatchLoop true sc requestTarget).1 = .ok
  · have start : (vfmatchLoop true sc requestLineStart).1 = .ok ∧
        (vfmatchLoop true sc requestLineStart).2.1.rest ≠ [] := by
      rw [format_simpleGet, vfmatchLoop_target target] at short
      rw [format_fullRequest, vfmatchLoop_target target] at settled
      rw [requestLineStart, vfmatchLoop_target target]
      set middle := (vfmatchLoop true sc requestTarget).2.1
      have blank : (matchToken middle .whitespace false).1 = .ok := by
        cases found : scannerGetToken middle with
        | error status =>
          have optional : matchOptionalWs middle = (status, middle, []) := by
            simp [matchOptionalWs, found]
          have token : matchToken middle .whitespace false = (status, middle, []) := by
            simp [matchToken, found]
          have late : status ≠ .ok := by
            rcases scanToken_error (scannerGetToken_error found) with rfl | rfl <;> decide
          simp only [vfmatchLoop, matchDirective, optional, if_neg late] at short
          simp only [vfmatchLoop, matchDirective, token, if_neg late] at settled
          exact absurd short settled
        | ok pair =>
          by_cases type : pair.1.type = .whitespace
          · simp [matchToken, found, type]
          · have optional : matchOptionalWs middle = (.ok, middle, []) := by
              simp [matchOptionalWs, found, type]
            have lineEnd : (matchToken middle .crlf false).1 ≠ .incomplete := by
              simp only [matchToken, found]
              split_ifs <;> decide
            simp only [vfmatchLoop, matchDirective, optional, if_true] at short
            split_ifs at short
            exact absurd short lineEnd
      simp only [vfmatchLoop, matchDirective, blank, if_true, true_and]
      intro empty
      have out : (matchToken middle .whitespace false).2.1.msg[
          (matchToken middle .whitespace false).2.1.cursor]? = none := by
        rw [← List.head?_drop]
        exact congrArg List.head? empty
      simp [httpVersion, vfmatchLoop, matchDirective, blank, matchChar, out] at settled
    refine ⟨start.1, ?_, start.2⟩
    rw [simpleGet_of_start start.1] at short
    exact matchToken_incomplete short
  · rw [format_simpleGet, vfmatchLoop_append_stop target] at short
    rw [format_fullRequest, vfmatchLoop_append_stop target] at settled
    exact absurd short settled

theorem requestLineStart_appendable : ∀ d ∈ requestLineStart, d.Appendable := by
  simp [requestLineStart, requestTarget, Directive.Appendable]

theorem requestLineStart_extend {sc : Scanner} (more : sc.Open)
    (start : (vfmatchLoop true sc requestLineStart).1 = .ok) (buf : List UInt8) :
    (vfmatchLoop true (sc.extend buf) requestLineStart).1 = .ok ∧
      (vfmatchLoop true (sc.extend buf) requestLineStart).2.1 =
        (vfmatchLoop true sc requestLineStart).2.1.extend buf := by
  rw [vfmatchLoop_extend requestLineStart_appendable more (by rw [start]; decide) buf]
  exact ⟨start, rfl⟩

theorem Scanner.rest_extend {sc : Scanner} (more : sc.Open) (buf : List UInt8) :
    (sc.extend buf).rest = sc.rest ++ buf := Scanner.drop_extend more.inside buf

theorem crlf_token_iff {sc : Scanner} (more : sc.Open) :
    (matchToken sc .crlf false).1 = .ok ↔ ∃ n, scanToken false sc.rest = .ok (.crlf, n) := by
  unfold matchToken
  rw [scannerGetToken_rest, more.entire]
  cases scanned : scanToken false sc.rest with
  | error status =>
    rcases scanToken_error scanned with rfl | rfl <;> simp
  | ok found =>
    obtain ⟨type, n⟩ := found
    by_cases lineEnd : type = .crlf <;> simp [lineEnd]

theorem simpleGet_extend_not_ok {sc : Scanner} (more : sc.Open)
    (short : (vfmatchLoop true sc (format "%s\t%S%w%c")).1 = .incomplete)
    (settled : (vfmatchLoop true sc (format "%s\t%S\t%ihttp%w/%w%L%c")).1 ≠ .incomplete)
    {buf : List UInt8} (smooth : (vfmatchLoop true sc requestLineStart).2.1.rest = [CR] →
      buf.head? ≠ some LF) :
    (vfmatchLoop true (sc.extend buf) (format "%s\t%S%w%c")).1 ≠ .ok := by
  obtain ⟨start, unfinished, some⟩ := start_of_incomplete short settled
  have later := (vfmatchLoop_matched true sc requestLineStart).reaches.opened more
  obtain ⟨start', same⟩ := requestLineStart_extend more start buf
  set after := (vfmatchLoop true sc requestLineStart).2.1
  rw [simpleGet_of_start start', same]
  intro matched
  have opened : (after.extend buf).Open :=
    ⟨later.entire, later.inside.trans (by simp [Scanner.extend])⟩
  obtain ⟨n, scanned⟩ := (crlf_token_iff opened).mp matched
  rw [Scanner.rest_extend later] at scanned
  have out := scannerGetToken_error unfinished
  rw [later.entire] at out
  by_cases cr : after.rest = [CR]
  · rw [cr] at scanned
    cases buf with
    | nil => cases scanned
    | cons d buf =>
      have noLf : d ≠ LF := fun lf => smooth cr (by rw [lf]; rfl)
      have ctrl : scanToken false ([CR] ++ d :: buf) = .ok (.ctrl, 1) := by
        have noText : isIdentifierChar CR = false := by decide
        have noBlank : (CR = SP || CR = TAB) = false := by decide
        simp only [List.cons_append, List.nil_append, scanToken, noText, noBlank, if_pos noLf,
          Bool.false_eq_true, if_false, if_true]
      rw [ctrl] at scanned
      cases scanned
  · exact scanToken_never_crlf out some cr buf scanned rfl

/-- At the cut the buffer settles on neither format, and with the LF the first one matches. -/
theorem formats_at_cut {sc : Scanner} (more : sc.Open)
    (start : (vfmatchLoop true sc requestLineStart).1 = .ok)
    (cr : (vfmatchLoop true sc requestLineStart).2.1.rest = [CR]) :
    (vfmatchLoop true sc (format "%s\t%S%w%c")).1 = .incomplete ∧
      (vfmatchLoop true sc (format "%s\t%S\t%ihttp%w/%w%L%c")).1 = .noMatch ∧
      ∀ buf, buf.head? = some LF →
        (vfmatchLoop true (sc.extend buf) (format "%s\t%S%w%c")).1 = .ok := by
  have later := (vfmatchLoop_matched true sc requestLineStart).reaches.opened more
  refine ⟨?_, ?_, ?_⟩
  · rw [simpleGet_of_start start]
    set after := (vfmatchLoop true sc requestLineStart).2.1
    unfold matchToken
    rw [scannerGetToken_rest, later.entire, cr]
    rfl
  · have target : (vfmatchLoop true sc requestTarget).1 = .ok := by
      by_contra failed
      rw [requestLineStart, vfmatchLoop_append_stop failed] at start
      exact failed start
    rw [requestLineStart, vfmatchLoop_target target] at start cr
    rw [format_fullRequest, vfmatchLoop_target target]
    set middle := (vfmatchLoop true sc requestTarget).2.1
    have blank : (matchDirective true middle .ws).1 = .ok := by
      by_contra failed
      rw [vfmatchLoop_stop failed] at start
      exact failed start
    rw [vfmatchLoop_cons blank] at cr ⊢
    have here : (matchDirective true middle .ws).2.1.msg[
        (matchDirective true middle .ws).2.1.cursor]? = some CR := by
      rw [← List.head?_drop]
      exact congrArg List.head? cr
    have other : toLower 104 ≠ toLower CR := by decide
    simp [httpVersion, Directive.nextCase, vfmatchLoop, matchDirective, matchChar, other,
      show (matchToken middle .whitespace false).2.1.msg[
        (matchToken middle .whitespace false).2.1.cursor]? = some CR from here]
  · intro buf lf
    obtain ⟨start', same⟩ := requestLineStart_extend more start buf
    have opened : ((vfmatchLoop true sc requestLineStart).2.1.extend buf).Open :=
      ⟨later.entire, later.inside.trans (by simp [Scanner.extend])⟩
    rw [simpleGet_of_start start', same, crlf_token_iff opened, Scanner.rest_extend later, cr]
    cases buf with
    | nil => cases lf
    | cons d buf =>
      cases lf
      exact ⟨2, rfl⟩

end Pupnp.Http
