import Pupnp.Http.HeaderLines

/-! Names in a text that is loaded as a whole, and the formats that read them. -/

namespace Pupnp.Http
open Pupnp.CString

structure Identifier (s : List UInt8) : Prop where
  nonempty : s ≠ []
  chars : ∀ c ∈ s, isIdentifierChar c = true

theorem matchToken_identifier {sc : Scanner} (entire : sc.entireMsgLoaded = true) :
    if sc.rest.takeWhile isIdentifierChar = [] then (matchToken sc .identifier true).1 ≠ .ok
    else matchToken sc .identifier true =
      (.ok, { sc with cursor := sc.cursor + (sc.rest.takeWhile isIdentifierChar).length },
        [.str ⟨sc.cursor, (sc.rest.takeWhile isIdentifierChar).length⟩]) := by
  split
  next empty =>
    intro matched
    obtain ⟨token, next, found, type, -⟩ := matchToken_ok matched
    rw [scannerGetToken_rest] at found
    cases scanned : scanToken sc.entireMsgLoaded sc.rest with
    | error status =>
      rw [scanned] at found
      cases found
    | ok result =>
      obtain ⟨kind, length⟩ := result
      rw [scanned] at found
      cases found
      cases type
      have bound := scanToken_length scanned
      have chars := scanToken_name scanned
      cases here : sc.rest with
      | nil =>
        rw [here, List.length_nil] at bound
        omega
      | cons c rest =>
        rw [here] at chars empty
        have first : isIdentifierChar c = true := by
          apply chars
          rw [List.mem_take_iff_getElem]
          exact ⟨0, by simp only [List.length_cons]; omega, rfl⟩
        rw [List.takeWhile_cons_of_pos first] at empty
        cases empty
  next some =>
    cases here : sc.rest with
    | nil =>
      rw [here] at some
      exact absurd rfl some
    | cons c rest =>
      have first : isIdentifierChar c = true := by
        by_contra other
        rw [here, List.takeWhile_cons_of_neg other] at some
        exact some rfl
      have scanned : scanToken sc.entireMsgLoaded sc.rest =
          .ok (.identifier, ((c :: rest).takeWhile isIdentifierChar).length) := by
        rw [entire, here, scanToken.eq_def]
        dsimp only
        rw [if_pos first, scanRun, List.takeWhile_cons_of_pos first]
        rfl
      rw [matchToken, scannerGetToken_rest, scanned]
      rfl

theorem Identifier.takeWhile {s : List UInt8} (identifier : Identifier s) (rest : List UInt8)
    (ends : rest.takeWhile isIdentifierChar = []) : (s ++ rest).takeWhile isIdentifierChar = s := by
  rw [List.takeWhile_append_of_pos identifier.chars, ends, List.append_nil]

theorem matchToken_run {sc : Scanner} (entire : sc.entireMsgLoaded = true) {run rest : List UInt8}
    (identifier : Identifier run) (here : sc.rest = run ++ rest) (ends : rest.takeWhile isIdentifierChar = []) :
    matchToken sc .identifier true =
      (.ok, { sc with cursor := sc.cursor + run.length }, [.str ⟨sc.cursor, run.length⟩]) := by
  have matched := matchToken_identifier entire
  rw [here, identifier.takeWhile rest ends, if_neg identifier.nonempty] at matched
  exact matched

structure Behind (sc : Scanner) (text : List UInt8) (next : Scanner) : Prop where
  split : sc.rest = text ++ next.rest
  msg : next.msg = sc.msg
  cursor : next.cursor = sc.cursor + text.length
  entire : next.entireMsgLoaded = sc.entireMsgLoaded

theorem Behind.of_split {sc : Scanner} {text rest : List UInt8} (split : sc.rest = text ++ rest) :
    Behind sc text { sc with cursor := sc.cursor + text.length } :=
  ⟨by rw [rest_advance split, split], rfl, rfl, rfl⟩

theorem vfmatchLoop_identifier {caseSensitive : Bool} {sc : Scanner} (entire : sc.entireMsgLoaded = true)
    {later : List Directive} (loop : (vfmatchLoop caseSensitive sc (.identifier :: later)).1 = .ok) :
    ∃ run next, Identifier run ∧ Behind sc run next ∧
      (vfmatchLoop caseSensitive next later).1 = .ok ∧
      (vfmatchLoop caseSensitive sc (.identifier :: later)).2.2 =
        .str ⟨sc.cursor, run.length⟩ :: (vfmatchLoop caseSensitive next later).2.2 := by
  have head : (matchToken sc .identifier true).1 = .ok := (vfmatchLoop_first loop).1
  have matched := matchToken_identifier entire
  split at matched
  next => exact absurd head matched
  next some =>
    have split := (List.takeWhile_append_dropWhile (p := isIdentifierChar) (l := sc.rest)).symm
    have step := @vfmatchLoop_cons caseSensitive sc .identifier head later
    simp only [matchDirective, matched, Directive.nextCase, List.singleton_append] at step
    rw [step] at loop
    refine ⟨_, _, ⟨some, fun c member => List.mem_takeWhile_imp member⟩, Behind.of_split split, loop, ?_⟩
    rw [step]

theorem vfmatchLoop_char {sc : Scanner} {c : UInt8} {later : List Directive}
    (loop : (vfmatchLoop true sc (.char c :: later)).1 = .ok) :
    ∃ next, Behind sc [c] next ∧ (vfmatchLoop true next later).1 = .ok ∧
      (vfmatchLoop true sc (.char c :: later)).2.2 = (vfmatchLoop true next later).2.2 := by
  have head : (matchChar sc c true).1 = .ok := (vfmatchLoop_first loop).1
  have here : sc.msg[sc.cursor]? = sc.rest.head? := by rw [Scanner.rest, List.head?_drop]
  unfold matchChar at head
  rw [here] at head
  cases text : sc.rest with
  | nil =>
    rw [text] at head
    cases head
  | cons d rest =>
    rw [text] at here head
    by_cases same : c = d
    · subst same
      have matched : matchDirective true sc (.char c) = (.ok, { sc with cursor := sc.cursor + 1 }, []) := by
        simp [matchDirective, matchChar, here]
      have step := vfmatchLoop_cons (congrArg Prod.fst matched) later
      simp only [matched, Directive.nextCase, List.nil_append] at step
      rw [step] at loop
      exact ⟨_, @Behind.of_split sc [c] rest text, loop, by rw [step]; rfl⟩
    · simp [same] at head

end Pupnp.Http
