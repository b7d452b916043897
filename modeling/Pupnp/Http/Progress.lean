import Pupnp.Http.Parser

/-!
What any matcher does to the scanner: the buffer stays, the cursor only moves
forward and stays inside the buffer, and the status is one of four.
-/

namespace Pupnp.Http
open Pupnp.CString

/-- `next` is `sc` with the cursor moved forward inside the buffer. -/
structure Scanner.Reaches (sc next : Scanner) : Prop where
  msg : next.msg = sc.msg
  entire : next.entireMsgLoaded = sc.entireMsgLoaded
  forward : sc.cursor ≤ next.cursor
  bound : next.cursor ≤ max sc.cursor sc.msg.length

namespace Scanner.Reaches

theorem refl (sc : Scanner) : sc.Reaches sc := ⟨rfl, rfl, le_rfl, le_max_left _ _⟩

theorem trans {a b c : Scanner} (first : a.Reaches b) (second : b.Reaches c) : a.Reaches c := by
  refine ⟨second.msg.trans first.msg, second.entire.trans first.entire,
    first.forward.trans second.forward, ?_⟩
  have early := first.bound
  have late := second.bound
  rw [first.msg] at late
  omega

theorem remaining {a b : Scanner} (moved : a.Reaches b) : b.remaining ≤ a.remaining := by
  have ahead := moved.forward
  simp only [Scanner.remaining, moved.msg]
  omega

end Scanner.Reaches

def ParseStatus.IsMatch (status : ParseStatus) : Prop :=
  status = .ok ∨ status = .noMatch ∨ status = .incomplete ∨ status = .failure

theorem ParseStatus.IsMatch.only {status : ParseStatus} (range : status.IsMatch) :
    status ≠ .success ∧ status ≠ .continue1 ∧ status ≠ .incompleteEntity := by
  rcases range with rfl | rfl | rfl | rfl <;> decide

theorem scanToken_error {entire : Bool} {input : List UInt8} {status : ParseStatus}
    (scanned : scanToken entire input = .error status) : status = .incomplete ∨ status = .failure := by
  have run (p : UInt8 → Bool) (t : TokenType) (rest : List UInt8)
      (h : scanRun entire p t rest = .error status) : status = .incomplete ∨ status = .failure := by
    simp only [scanRun] at h
    split_ifs at h
    cases h
    exact .inl rfl
  unfold scanToken at scanned
  split at scanned
  · cases scanned; exact .inl rfl
  · split_ifs at scanned
    · exact run _ _ _ scanned
    · exact run _ _ _ scanned
    · split at scanned
      · cases scanned; exact .inl rfl
      · split_ifs at scanned
    · split at scanned <;> cases scanned
      · exact .inl rfl
      · exact .inr rfl
    · cases scanned; exact .inr rfl

theorem scannerGetToken_error {sc : Scanner} {status : ParseStatus}
    (scanned : scannerGetToken sc = .error status) :
    scanToken sc.entireMsgLoaded (sc.msg.drop sc.cursor) = .error status := by
  unfold scannerGetToken at scanned
  split at scanned
  · rename_i found
    cases scanned
    exact found
  · cases scanned

theorem scannerGetToken_isMatch {sc : Scanner} {status : ParseStatus}
    (scanned : scannerGetToken sc = .error status) : status.IsMatch := by
  rcases scanToken_error (scannerGetToken_error scanned) with rfl | rfl
  · exact .inr (.inr (.inl rfl))
  · exact .inr (.inr (.inr rfl))

theorem scannerGetToken_reaches {sc next : Scanner} {token : Token}
    (scanned : scannerGetToken sc = .ok (token, next)) : sc.Reaches next := by
  obtain ⟨moved, -, -, bound⟩ := scannerGetToken_ok scanned
  subst moved
  exact ⟨rfl, rfl, Nat.le_add_right _ _, bound.trans (le_max_right _ _)⟩

/-- A matcher's status is one of the four and its scanner is reached from the one it got. -/
structure Matched (sc : Scanner) (status : ParseStatus) (next : Scanner) : Prop where
  isMatch : status.IsMatch
  reaches : sc.Reaches next

theorem Matched.stay {sc : Scanner} {status : ParseStatus} (isMatch : status.IsMatch) :
    Matched sc status sc := ⟨isMatch, .refl sc⟩

theorem Matched.ok {sc next : Scanner} (moved : sc.Reaches next) : Matched sc .ok next :=
  ⟨.inl rfl, moved⟩

theorem Matched.after {sc middle next : Scanner} {status : ParseStatus} (moved : sc.Reaches middle)
    (matched : Matched middle status next) : Matched sc status next :=
  ⟨matched.isMatch, moved.trans matched.reaches⟩

theorem skipBlankLines_matched (sc : Scanner) :
    Matched sc (skipBlankLines sc).1 (skipBlankLines sc).2 := by
  fun_induction skipBlankLines sc with
  | case1 sc status found => exact .stay (scannerGetToken_isMatch found)
  | case2 sc token next found _ ih => exact .after (scannerGetToken_reaches found) ih
  | case3 sc => exact .ok (.refl sc)

theorem matchLws_reaches {sc next : Scanner} (matched : matchLws sc = .inr next) :
    sc.Reaches next := by
  unfold matchLws at matched
  split at matched
  · cases matched
  · rename_i first
    have step := scannerGetToken_reaches first
    split_ifs at matched
    · split at matched
      · cases matched
      · rename_i second
        split_ifs at matched
        cases matched
        exact step.trans (scannerGetToken_reaches second)
    · cases matched
      exact step

theorem matchLws_isMatch {sc : Scanner} {status : ParseStatus} (matched : matchLws sc = .inl status) :
    status.IsMatch := by
  unfold matchLws at matched
  split at matched
  · rename_i found
    cases matched
    exact scannerGetToken_isMatch found
  · split_ifs at matched
    · split at matched
      · rename_i found
        cases matched
        exact scannerGetToken_isMatch found
      · split_ifs at matched
        cases matched
        exact .inl rfl
    · cases matched
      exact .inl rfl

theorem skipLws_matched (sc : Scanner) : Matched sc (skipLws sc).1 (skipLws sc).2 := by
  fun_induction skipLws sc with
  | case1 sc next found ih => exact .after (matchLws_reaches found) ih
  | case2 sc status found =>
    refine .stay ?_
    split_ifs
    · exact .inl rfl
    · exact matchLws_isMatch found

theorem nonWsRun_matched (sc : Scanner) : Matched sc (nonWsRun sc).1 (nonWsRun sc).2 := by
  fun_induction nonWsRun sc with
  | case1 sc status found => exact .stay (scannerGetToken_isMatch found)
  | case2 sc token next found _ ih => exact .after (scannerGetToken_reaches found) ih
  | case3 sc => exact .ok (.refl sc)

theorem matchNonWsString_matched (sc : Scanner) :
    Matched sc (matchNonWsString sc).1 (matchNonWsString sc).2.1 := by
  have run := nonWsRun_matched sc
  simp only [matchNonWsString]
  split_ifs
  · exact ⟨.inr (.inl rfl), run.reaches⟩
  · exact .ok run.reaches
  · exact .stay run.isMatch

theorem rawValueRun_matched (sc : Scanner) (crlf : Option Nat) (length : Nat) (start : Scanner)
    (reached : start.Reaches sc) (before : ∀ position, crlf = some position →
      start.cursor ≤ position ∧ position ≤ sc.cursor) :
    Matched start (rawValueRun sc crlf length).1 (rawValueRun sc crlf length).2.1 := by
  fun_induction rawValueRun sc crlf length with
  | case1 sc crlf length status found => exact ⟨scannerGetToken_isMatch found, reached⟩
  | case2 sc length token next found _ ih =>
    have step := scannerGetToken_reaches found
    refine ih (reached.trans step) ?_
    rintro position ⟨⟩
    exact ⟨reached.forward, step.forward⟩
  | case3 sc length token next found _ ih =>
    exact ih (reached.trans (scannerGetToken_reaches found)) nofun
  | case4 sc length token next found position _ ih =>
    exact ih (reached.trans (scannerGetToken_reaches found)) nofun
  | case5 sc length token next found position _ =>
    obtain ⟨low, high⟩ := before position rfl
    refine .ok ⟨reached.msg, reached.entire, low, ?_⟩
    have bound := reached.bound
    dsimp only
    omega

theorem matchRawValue_matched (sc : Scanner) :
    Matched sc (matchRawValue sc).1 (matchRawValue sc).2.1 := by
  have run := rawValueRun_matched sc none 0 sc (.refl sc) nofun
  simp only [matchRawValue]
  split_ifs
  · exact .ok run.reaches
  · exact .stay run.isMatch

theorem matchInt_matched (sc : Scanner) (base : Nat) :
    Matched sc (matchInt sc base).1 (matchInt sc base).2.1 := by
  unfold matchInt
  split
  · rename_i found
    exact .stay (scannerGetToken_isMatch found)
  · rename_i found
    dsimp only
    split_ifs
    · exact .stay (.inr (.inl rfl))
    · exact .ok (scannerGetToken_reaches found)
    · exact .stay (.inr (.inl rfl))

theorem crlfRun_matched (sc : Scanner) : Matched sc (crlfRun sc).1 (crlfRun sc).2 := by
  fun_induction crlfRun sc with
  | case1 sc status found => exact .stay (scannerGetToken_isMatch found)
  | case2 sc token next found _ ih => exact .after (scannerGetToken_reaches found) ih
  | case3 sc => exact .ok (.refl sc)

theorem matchChar_matched (sc : Scanner) (c : UInt8) (caseSensitive : Bool) :
    Matched sc (matchChar sc c caseSensitive).1 (matchChar sc c caseSensitive).2 := by
  unfold matchChar
  split
  · exact .stay (.inr (.inr (.inl rfl)))
  · rename_i found
    have inside := (List.getElem?_eq_some_iff.mp found).1
    have moved : sc.Reaches { sc with cursor := sc.cursor + 1 } :=
      ⟨rfl, rfl, Nat.le_succ _, by dsimp only; omega⟩
    dsimp only
    split_ifs
    · exact .ok moved
    · exact ⟨.inr (.inl rfl), moved⟩
    · exact .ok moved
    · exact ⟨.inr (.inl rfl), moved⟩

theorem matchToken_matched (sc : Scanner) (type : TokenType) (store : Bool) :
    Matched sc (matchToken sc type store).1 (matchToken sc type store).2.1 := by
  unfold matchToken
  split
  · rename_i found
    exact .stay (scannerGetToken_isMatch found)
  · rename_i found
    dsimp only
    split_ifs
    · exact .ok (scannerGetToken_reaches found)
    · exact ⟨.inr (.inl rfl), scannerGetToken_reaches found⟩

theorem matchOptionalWs_matched (sc : Scanner) :
    Matched sc (matchOptionalWs sc).1 (matchOptionalWs sc).2.1 := by
  unfold matchOptionalWs
  split
  · rename_i found
    exact .stay (scannerGetToken_isMatch found)
  · rename_i found
    dsimp only
    split_ifs
    · exact .ok (scannerGetToken_reaches found)
    · exact .ok (.refl sc)

theorem matchDirective_matched (caseSensitive : Bool) (sc : Scanner) (d : Directive) :
    Matched sc (matchDirective caseSensitive sc d).1 (matchDirective caseSensitive sc d).2.1 := by
  cases d with
  | rawValue => exact matchRawValue_matched sc
  | identifier => exact matchToken_matched sc _ _
  | crlf => exact matchToken_matched sc _ _
  | int base => exact matchInt_matched sc base
  | nonWsString => exact matchNonWsString_matched sc
  | line => exact crlfRun_matched sc
  | quoted => exact matchToken_matched sc _ _
  | optionalWs => exact matchOptionalWs_matched sc
  | position => exact .ok (.refl sc)
  | endOfMsg =>
    simp only [matchDirective]
    split_ifs
    · exact .ok (.refl sc)
    · exact .stay (.inr (.inl rfl))
  | lws => exact skipLws_matched sc
  | ws => exact matchToken_matched sc _ _
  | char c => exact matchChar_matched sc c caseSensitive
  | setCase => exact .ok (.refl sc)

theorem vfmatchLoop_matched (caseSensitive : Bool) (sc : Scanner) (fmt : List Directive) :
    Matched sc (vfmatchLoop caseSensitive sc fmt).1 (vfmatchLoop caseSensitive sc fmt).2.1 := by
  induction fmt generalizing caseSensitive sc with
  | nil => exact .ok (.refl sc)
  | cons d rest ih =>
    have first := matchDirective_matched caseSensitive sc d
    simp only [vfmatchLoop]
    split_ifs
    · exact .after first.reaches (ih _ _)
    · exact first

theorem vfmatch_matched (sc : Scanner) (fmt : List Directive) :
    Matched sc (vfmatch sc fmt).1 (vfmatch sc fmt).2.1 := by
  have loop := vfmatchLoop_matched true sc fmt
  simp only [vfmatch]
  split_ifs
  · exact ⟨loop.isMatch, loop.reaches⟩
  · exact .stay loop.isMatch

theorem matchFormat_matched (sc : Scanner) (fmt : String) :
    Matched sc (matchFormat sc fmt).1 (matchFormat sc fmt).2.1 := vfmatch_matched sc _

theorem matchFormat_restores {sc : Scanner} {fmt : String} (failed : (matchFormat sc fmt).1 ≠ .ok) :
    (matchFormat sc fmt).2.1 = sc := by
  simp only [matchFormat, vfmatch] at failed ⊢
  rw [if_neg failed]

end Pupnp.Http
