import Pupnp.Http.Resume

/-!
What a matcher does depends on the bytes ahead of the cursor, not on the bytes
behind it: chunk sizes and trailers can be read off a body that has been cut out
of its message.
-/

namespace Pupnp.Http
open Pupnp.CString Pupnp.Stream

structure Scanner.Alike (sc sc' : Scanner) : Prop where
  rest : sc.rest = sc'.rest
  entire : sc.entireMsgLoaded = sc'.entireMsgLoaded

theorem Scanner.alike_init {sc : Scanner} (entire : sc.entireMsgLoaded = false) :
    sc.Alike (scannerInit sc.rest) := ⟨rfl, entire⟩

inductive AlikeTokens (sc sc' : Scanner) : Prop
  | error (status : ParseStatus) (left : scannerGetToken sc = .error status)
      (right : scannerGetToken sc' = .error status)
  | ok (type : TokenType) (length : Nat) (next next' : Scanner)
      (left : scannerGetToken sc = .ok (⟨type, ⟨sc.cursor, length⟩⟩, next))
      (right : scannerGetToken sc' = .ok (⟨type, ⟨sc'.cursor, length⟩⟩, next'))
      (later : next.Alike next')

theorem Scanner.Alike.tokens {sc sc' : Scanner} (alike : sc.Alike sc') : AlikeTokens sc sc' := by
  cases scanned : scanToken sc.entireMsgLoaded sc.rest with
  | error status =>
    refine .error status ?_ ?_
    · rw [scannerGetToken_rest, scanned]
    · rw [scannerGetToken_rest, ← alike.entire, ← alike.rest, scanned]
  | ok found =>
    obtain ⟨type, length⟩ := found
    refine .ok type length { sc with cursor := sc.cursor + length }
      { sc' with cursor := sc'.cursor + length } ?_ ?_ ⟨?_, alike.entire⟩
    · rw [scannerGetToken_rest, scanned]
    · rw [scannerGetToken_rest, ← alike.entire, ← alike.rest, scanned]
    · have ahead := congrArg (List.drop length) alike.rest
      simpa only [Scanner.rest, List.drop_drop] using ahead

theorem matchInt_alike {sc sc' : Scanner} (alike : sc.Alike sc') (base : Nat) :
    (matchInt sc base).1 = (matchInt sc' base).1 ∧
      (matchInt sc base).2.1.Alike (matchInt sc' base).2.1 ∧
      (matchInt sc base).2.2 = (matchInt sc' base).2.2 := by
  cases alike.tokens with
  | error status left right =>
    simp only [matchInt, left, right]
    exact ⟨trivial, alike, trivial⟩
  | ok type length next next' left right later =>
    have input : sc'.msg.drop sc'.cursor = sc.msg.drop sc.cursor := alike.rest.symm
    simp only [matchInt, left, right, input]
    split_ifs
    · exact ⟨rfl, alike, rfl⟩
    · exact ⟨rfl, later, rfl⟩
    · exact ⟨rfl, alike, rfl⟩

theorem crlfRun_alike {sc sc' : Scanner} (alike : sc.Alike sc') :
    (crlfRun sc).1 = (crlfRun sc').1 ∧ (crlfRun sc).2.Alike (crlfRun sc').2 := by
  fun_induction crlfRun sc generalizing sc' with
  | case1 sc status found =>
    cases alike.tokens with
    | error status' left right =>
      rw [found] at left
      cases left
      rw [crlfRun_error right]
      exact ⟨rfl, alike⟩
    | ok type length next next' left right later =>
      rw [found] at left
      cases left
  | case2 sc token next found text ih =>
    cases alike.tokens with
    | error status' left right =>
      rw [found] at left
      cases left
    | ok type length middle middle' left right later =>
      rw [found] at left
      cases left
      rw [crlfRun_token right, if_pos text]
      exact ih later
  | case3 sc token next found ended =>
    cases alike.tokens with
    | error status' left right =>
      rw [found] at left
      cases left
    | ok type length middle middle' left right later =>
      rw [found] at left
      cases left
      rw [crlfRun_token right, if_neg ended]
      exact ⟨rfl, alike⟩

theorem matchToken_alike {sc sc' : Scanner} (alike : sc.Alike sc') (type : TokenType)
    (store : Bool) :
    (matchToken sc type store).1 = (matchToken sc' type store).1 ∧
      (matchToken sc type store).2.1.Alike (matchToken sc' type store).2.1 := by
  cases alike.tokens with
  | error status left right =>
    simp only [matchToken, left, right]
    exact ⟨trivial, alike⟩
  | ok found length next next' left right later =>
    simp only [matchToken, left, right]
    exact ⟨trivial, later⟩

theorem matchLws_alike {sc sc' : Scanner} (alike : sc.Alike sc') :
    (∃ status, matchLws sc = .inl status ∧ matchLws sc' = .inl status) ∨
      ∃ next next', matchLws sc = .inr next ∧ matchLws sc' = .inr next' ∧ next.Alike next' := by
  cases alike.tokens with
  | error status left right =>
    simp only [matchLws, left, right]
    exact .inl ⟨status, rfl, rfl⟩
  | ok type length next next' left right later =>
    simp only [matchLws, left, right]
    by_cases lineEnd : type = .crlf
    · rw [if_pos lineEnd, if_pos lineEnd]
      cases later.tokens with
      | error status left right =>
        simp only [left, right]
        exact .inl ⟨status, rfl, rfl⟩
      | ok blank length after after' left right behind =>
        simp only [left, right]
        split_ifs
        · exact .inr ⟨after, after', rfl, rfl, behind⟩
        · exact .inl ⟨.ok, rfl, rfl⟩
    · rw [if_neg lineEnd, if_neg lineEnd]
      split_ifs
      · exact .inr ⟨next, next', rfl, rfl, later⟩
      · exact .inl ⟨.ok, rfl, rfl⟩

theorem skipLws_alike {sc sc' : Scanner} (alike : sc.Alike sc') :
    (skipLws sc).1 = (skipLws sc').1 ∧ (skipLws sc).2.Alike (skipLws sc').2 := by
  fun_induction skipLws sc generalizing sc' with
  | case1 sc next found ih =>
    rcases matchLws_alike alike with ⟨status, left, right⟩ | ⟨after, after', left, right, later⟩
    · rw [found] at left
      cases left
    · rw [found] at left
      cases left
      rw [skipLws_next right]
      exact ih later
  | case2 sc status found =>
    rcases matchLws_alike alike with ⟨status', left, right⟩ | ⟨after, after', left, right, later⟩
    · rw [found] at left
      cases left
      rw [skipLws_stop right, alike.entire]
      exact ⟨rfl, alike⟩
    · rw [found] at left
      cases left

theorem matchChar_alike {sc sc' : Scanner} (alike : sc.Alike sc') (c : UInt8)
    (caseSensitive : Bool) :
    (matchChar sc c caseSensitive).1 = (matchChar sc' c caseSensitive).1 ∧
      (matchChar sc c caseSensitive).2.Alike (matchChar sc' c caseSensitive).2 := by
  have here : sc.msg[sc.cursor]? = sc'.msg[sc'.cursor]? := by
    rw [← List.head?_drop, ← List.head?_drop]
    exact congrArg List.head? alike.rest
  have later : Scanner.Alike { sc with cursor := sc.cursor + 1 }
      { sc' with cursor := sc'.cursor + 1 } := by
    refine ⟨?_, alike.entire⟩
    have ahead := congrArg (List.drop 1) alike.rest
    simpa only [Scanner.rest, List.drop_drop] using ahead
  unfold matchChar
  rw [here]
  cases sc'.msg[sc'.cursor]? with
  | none => exact ⟨rfl, alike⟩
  | some scanChar =>
    dsimp only
    split_ifs <;> exact ⟨rfl, later⟩

def AlikeCrlf (sc sc' : Scanner) : Option Nat → Option Nat → Prop
  | none, none => True
  | some position, some position' => sc.msg.drop position = sc'.msg.drop position'
  | _, _ => False

theorem rawValueRun_alike {sc sc' : Scanner} (alike : sc.Alike sc') {crlf crlf' : Option Nat}
    (ends : AlikeCrlf sc sc' crlf crlf') (length : Nat) :
    (rawValueRun sc crlf length).1 = (rawValueRun sc' crlf' length).1 ∧
      (rawValueRun sc crlf length).2.1.Alike (rawValueRun sc' crlf' length).2.1 ∧
      (rawValueRun sc crlf length).2.2 = (rawValueRun sc' crlf' length).2.2 := by
  fun_induction rawValueRun sc crlf length generalizing sc' crlf' with
  | case1 sc crlf length status found =>
    cases alike.tokens with
    | error status' left right =>
      rw [found] at left
      cases left
      rw [rawValueRun_error right]
      exact ⟨rfl, alike, rfl⟩
    | ok type size next next' left right later =>
      rw [found] at left
      cases left
  | case2 sc length token next found lineEnd ih =>
    cases crlf' with
    | some position => exact ends.elim
    | none =>
      cases alike.tokens with
      | error status' left right =>
        rw [found] at left
        cases left
      | ok type size middle middle' left right later =>
        rw [found] at left
        cases left
        rw [rawValueRun_token right]
        dsimp only
        rw [if_pos lineEnd]
        refine ih later ?_
        obtain ⟨moved, -, -, -⟩ := scannerGetToken_ok found
        obtain ⟨moved', -, -, -⟩ := scannerGetToken_ok right
        rw [AlikeCrlf, moved, moved']
        exact alike.rest
  | case3 sc length token next found text ih =>
    cases crlf' with
    | some position => exact ends.elim
    | none =>
      cases alike.tokens with
      | error status' left right =>
        rw [found] at left
        cases left
      | ok type size middle middle' left right later =>
        rw [found] at left
        cases left
        rw [rawValueRun_token right]
        dsimp only
        rw [if_neg text]
        have none_ends : AlikeCrlf next middle' none none := trivial
        exact ih later none_ends
  | case4 sc length token next found position blank ih =>
    cases crlf' with
    | none => exact ends.elim
    | some position' =>
      cases alike.tokens with
      | error status' left right =>
        rw [found] at left
        cases left
      | ok type size middle middle' left right later =>
        rw [found] at left
        cases left
        rw [rawValueRun_token right]
        dsimp only
        rw [if_pos blank]
        have none_ends : AlikeCrlf next middle' none none := trivial
        exact ih later none_ends
  | case5 sc length token next found position text =>
    cases crlf' with
    | none => exact ends.elim
    | some position' =>
      cases alike.tokens with
      | error status' left right =>
        rw [found] at left
        cases left
      | ok type size middle middle' left right later =>
        rw [found] at left
        cases left
        rw [rawValueRun_token right]
        dsimp only
        rw [if_neg text]
        exact ⟨rfl, ⟨ends, alike.entire⟩, rfl⟩

theorem matchRawValue_alike {sc sc' : Scanner} (alike : sc.Alike sc') :
    (matchRawValue sc).1 = (matchRawValue sc').1 ∧
      (matchRawValue sc).2.1.Alike (matchRawValue sc').2.1 ∧
      (matchRawValue sc).2.2.read sc.msg = (matchRawValue sc').2.2.read sc'.msg := by
  have ends : AlikeCrlf sc sc' none none := trivial
  obtain ⟨status, later, length⟩ := rawValueRun_alike alike ends 0
  have ahead : sc.msg.drop sc.cursor = sc'.msg.drop sc'.cursor := alike.rest
  simp only [matchRawValue, ← status, ← length, Memptr.read, ahead]
  split_ifs
  · exact ⟨rfl, later, congrArg (List.take _) ahead⟩
  · exact ⟨rfl, alike, congrArg (List.take _) ahead⟩

def Directive.Relative : Directive → Prop
  | .int _ => True
  | .line => True
  | .crlf => True
  | .lws => True
  | .char _ => True
  | .rawValue => True
  | _ => False

theorem matchDirective_alike {sc sc' : Scanner} (alike : sc.Alike sc') {d : Directive}
    (relative : d.Relative) (caseSensitive : Bool) :
    (matchDirective caseSensitive sc d).1 = (matchDirective caseSensitive sc' d).1 ∧
      (matchDirective caseSensitive sc d).2.1.Alike (matchDirective caseSensitive sc' d).2.1 := by
  cases d with
  | int base => exact ⟨(matchInt_alike alike base).1, (matchInt_alike alike base).2.1⟩
  | line => exact crlfRun_alike alike
  | crlf => exact matchToken_alike alike .crlf false
  | lws => exact skipLws_alike alike
  | char c => exact matchChar_alike alike c caseSensitive
  | rawValue =>
    obtain ⟨status, later, -⟩ := matchRawValue_alike alike
    exact ⟨status, later⟩
  | _ => exact relative.elim

theorem vfmatchLoop_alike {sc sc' : Scanner} (alike : sc.Alike sc') {fmt : List Directive}
    (relative : ∀ d ∈ fmt, d.Relative) (caseSensitive : Bool) :
    (vfmatchLoop caseSensitive sc fmt).1 = (vfmatchLoop caseSensitive sc' fmt).1 ∧
      (vfmatchLoop caseSensitive sc fmt).2.1.Alike (vfmatchLoop caseSensitive sc' fmt).2.1 := by
  induction fmt generalizing sc sc' caseSensitive with
  | nil => exact ⟨rfl, alike⟩
  | cons d fmt ih =>
    obtain ⟨status, later⟩ := matchDirective_alike alike (relative d (by simp)) caseSensitive
    by_cases first : (matchDirective caseSensitive sc d).1 = .ok
    · rw [vfmatchLoop_cons first, vfmatchLoop_cons (status ▸ first)]
      exact ih later (fun e member => relative e (by simp [member])) _
    · rw [vfmatchLoop_stop first, vfmatchLoop_stop (status ▸ first)]
      exact ⟨status, later⟩

theorem matchFormat_alike {sc sc' : Scanner} (alike : sc.Alike sc') {fmt : String}
    (relative : ∀ d ∈ format fmt, d.Relative) :
    (matchFormat sc fmt).1 = (matchFormat sc' fmt).1 ∧
      (matchFormat sc fmt).2.1.Alike (matchFormat sc' fmt).2.1 := by
  obtain ⟨status, later⟩ := vfmatchLoop_alike alike relative true
  simp only [matchFormat, vfmatch, ← status]
  refine ⟨trivial, ?_⟩
  split_ifs
  · exact later
  · exact alike

end Pupnp.Http
