import Pupnp.Http.RequestCut

/-!
The status line is scanned inside its line, but the numbers in it are skipped
without a length check. The line end behind it and the three numbers that were
scanned keep the skipping inside the line.
-/

namespace Pupnp.Http
open Pupnp.CString Pupnp.Uri

theorem dropWhile_append_of_any {p : UInt8 → Bool} {s : List UInt8} (stops : s.any (!p ·) = true)
    (t : List UInt8) : (s ++ t).dropWhile p = s.dropWhile p ++ t := by
  induction s with
  | nil => cases stops
  | cons c s ih =>
    by_cases skip : p c = true
    · rw [List.cons_append, List.dropWhile_cons_of_pos skip, List.dropWhile_cons_of_pos skip]
      exact ih (by simpa [skip] using stops)
    · rw [List.cons_append, List.dropWhile_cons_of_neg skip, List.dropWhile_cons_of_neg skip,
        List.cons_append]

theorem dropWhile_append_stop {p : UInt8 → Bool} (s : List UInt8) {c : UInt8} (stop : p c = false)
    (t : List UInt8) : (s ++ c :: t).dropWhile p = s.dropWhile p ++ c :: t := by
  induction s with
  | nil => simp [stop]
  | cons d s ih =>
    by_cases skip : p d = true
    · rw [List.cons_append, List.dropWhile_cons_of_pos skip, List.dropWhile_cons_of_pos skip, ih]
    · rw [List.cons_append, List.dropWhile_cons_of_neg skip, List.dropWhile_cons_of_neg skip,
        List.cons_append]

theorem skipNumber_length (s : List UInt8) : (skipNumber s).length ≤ s.length :=
  ((List.dropWhile_suffix _).length_le).trans (List.dropWhile_suffix _).length_le

theorem skipNumber_append {s : List UInt8} (number : s.any isDigit = true) {c : UInt8}
    (stop : isDigit c = false) (t : List UInt8) :
    skipNumber (s ++ c :: t) = skipNumber s ++ c :: t := by
  unfold skipNumber
  rw [dropWhile_append_of_any (by simpa using number), dropWhile_append_stop _ stop]

theorem isSpace_not_digit {c : UInt8} (space : isSpace c = true) : isDigit c = false := by
  revert c
  apply forall_byte
  decide +kernel

theorem skipNumber_skip {c : UInt8} (other : isDigit c = false) (s : List UInt8) :
    skipNumber (c :: s) = skipNumber s := by
  rw [skipNumber, List.dropWhile_cons_of_pos (by simp [other])]
  rfl

theorem skipNumber_skipSpace (s : List UInt8) : skipNumber (skipSpace s) = skipNumber s := by
  induction s with
  | nil => rfl
  | cons c s ih =>
    by_cases space : isSpace c = true
    · rw [skipSpace, List.dropWhile_cons_of_pos space, skipNumber_skip (isSpace_not_digit space)]
      exact ih
    · rw [skipSpace, List.dropWhile_cons_of_neg space]

theorem any_skipSpace {s : List UInt8} (number : (skipSpace s).any isDigit = true) :
    s.any isDigit = true := by
  have split := List.takeWhile_append_dropWhile (p := isSpace) (l := s)
  rw [← split, List.any_append]
  exact Bool.or_eq_true_iff.mpr (.inr number)

theorem skipNumber_digits {ds : List UInt8} (digits : ∀ c ∈ ds, isDigit c = true) (some : ds ≠ [])
    {rest : List UInt8} (ends : ∀ c ∈ rest.head?, isDigit c = false) :
    skipNumber (ds ++ rest) = rest := by
  cases ds with
  | nil => exact absurd rfl some
  | cons d ds =>
    have first := digits d (by simp)
    rw [skipNumber, List.cons_append, List.dropWhile_cons_of_neg (by simp [first]),
      ← List.cons_append, List.dropWhile_append_of_pos digits]
    cases rest with
    | nil => rfl
    | cons c rest => rw [List.dropWhile_cons_of_neg (by simp [ends c rfl])]

theorem skipNumber_prefix {pre : List UInt8} (others : ∀ c ∈ pre, isDigit c = false)
    (s : List UInt8) : skipNumber (pre ++ s) = skipNumber s := by
  induction pre with
  | nil => rfl
  | cons c pre ih =>
    rw [List.cons_append, skipNumber_skip (others c (by simp))]
    exact ih fun d member => others d (by simp [member])

theorem scanInt_skipNumber {s rest : List UInt8} {value : Int} (scanned : scanInt s = some (value, rest)) :
    skipNumber s = rest ∧ s.any isDigit = true := by
  simp only [scanInt, strtol_endOff] at scanned
  cases found : numeral 10 s with
  | none => simp [found] at scanned
  | some n =>
    obtain ⟨blanks, sign, digits, after, whole, blank, signed, some, digit, ends, size, -⟩ :=
      (numeral_decimal found).some
    simp only [found, Option.map_some, Option.getD_some] at scanned
    split_ifs at scanned
    simp only [Option.some.injEq, Prod.mk.injEq] at scanned
    obtain ⟨-, tail⟩ := scanned
    have rest_eq : rest = after := by
      rw [← tail, size, whole, ← List.append_assoc, ← List.append_assoc,
        List.drop_left' (by simp [Nat.add_assoc])]
    have noDigit : ∀ c ∈ sign, isDigit c = false := by
      rcases signed with rfl | rfl | rfl
      · simp
      · decide
      · decide
    constructor
    · rw [whole, skipNumber_prefix fun c member => isSpace_not_digit (blank c member),
        skipNumber_prefix noDigit, rest_eq]
      exact skipNumber_digits digit some ends
    · rw [whole, List.any_eq_true]
      obtain ⟨c, member⟩ := List.exists_mem_of_ne_nil _ some
      exact ⟨c, by simp [member], digit c member⟩

theorem sscanfVersion_length (s : List UInt8) : (sscanfVersion s).1.length ≤ 2 := by
  unfold sscanfVersion
  split
  · simp
  · split
    · split <;> simp
    · simp

theorem sscanfStatus_numbers {s : List UInt8} (scanned : (sscanfStatus s).length = 3) :
    ∃ major dotted minor behind after code tail, scanInt (cstr s) = some (major, dotted) ∧
      skipSpace dotted = 46 :: behind ∧ scanInt (skipSpace behind) = some (minor, after) ∧
      scanInt (skipSpace after) = some (code, tail) := by
  unfold sscanfStatus at scanned
  split at scanned
  · rename_i major minor rest version
    split at scanned
    · simp at scanned
    · rename_i code tail status
      unfold sscanfVersion at version
      split at version
      · simp at version
      · rename_i first dotted number
        split at version
        · rename_i behind dot
          split at version
          · simp at version
          · rename_i second after number'
            simp only [Prod.mk.injEq, List.cons.injEq, and_true] at version
            obtain ⟨-, rfl⟩ := version
            exact ⟨first, dotted, second, behind, after, code, tail, number, dot, number', status⟩
        · simp at version
  · rename_i scanned' rest _ version
    have bound := sscanfVersion_length s
    rw [version] at bound
    dsimp only at bound
    omega

theorem skipNumber_dotted {dotted behind after : List UInt8} {minor : Int} (dot : skipSpace dotted = 46 :: behind)
    (number : scanInt (skipSpace behind) = some (minor, after)) : skipNumber dotted = after := by
  rw [← skipNumber_skipSpace, dot, skipNumber_skip (by decide), ← skipNumber_skipSpace behind]
  exact (scanInt_skipNumber number).1

theorem sscanfStatus_skipNumber {s : List UInt8} (scanned : (sscanfStatus s).length = 3) :
    (cstr s).any isDigit = true ∧ (skipNumber (cstr s)).any isDigit = true ∧
      (skipNumber (skipNumber (cstr s))).any isDigit = true := by
  obtain ⟨major, dotted, minor, behind, after, code, tail, number, dot, number', status⟩ := sscanfStatus_numbers scanned
  have one := scanInt_skipNumber number
  refine ⟨one.2, ?_, ?_⟩
  · rw [one.1]
    refine any_skipSpace ?_
    rw [dot, List.any_cons]
    exact Bool.or_eq_true_iff.mpr (.inr (any_skipSpace (scanInt_skipNumber number').2))
  · rw [one.1, skipNumber_dotted dot number']
    exact any_skipSpace (scanInt_skipNumber status).2

theorem format_statusLine :
    format "%ihttp%w/%w%L%c" =
      [.setCase false, .char 104, .char 116, .char 116, .char 112, .optionalWs, .char 47, .optionalWs] ++
        [.line, .crlf] := by
  decide

theorem scanToken_crlf {entire : Bool} {input : List UInt8} {n : Nat}
    (scanned : scanToken entire input = .ok (.crlf, n)) :
    ∃ c rest, (c = CR ∨ c = LF) ∧ input = c :: rest := by
  cases input with
  | nil => cases scanned
  | cons c rest =>
    refine ⟨c, rest, ?_, rfl⟩
    unfold scanToken at scanned
    dsimp only at scanned
    split_ifs at scanned with ident blank cr lf quote
    · cases (scanRun_ok scanned).1
    · cases (scanRun_ok scanned).1
    · exact .inl cr
    · exact .inr lf
    · split at scanned <;> cases scanned
    · cases scanned
    · cases scanned

theorem crlf_token {sc : Scanner} (matched : (matchToken sc .crlf false).1 = .ok) :
    ∃ c rest, (c = CR ∨ c = LF) ∧ sc.rest = c :: rest := by
  obtain ⟨token, next, found, type, -⟩ := matchToken_ok matched
  rw [scannerGetToken_rest] at found
  split at found
  · cases found
  · rename_i scanned
    cases found
    obtain rfl := type
    exact scanToken_crlf scanned

/-- Formats that end with a line and its end: the line is the slice before a CR or LF. -/
theorem line_before_crlf {sc : Scanner} {first : List Directive}
    (matched : (vfmatchLoop true sc (first ++ [.line, .crlf])).1 = .ok) :
    ∃ line c rest, (vfmatchLoop true sc (first ++ [.line, .crlf])).2.2 =
        (vfmatchLoop true sc first).2.2 ++ [.str line] ∧ (c = CR ∨ c = LF) ∧
      sc.msg.drop line.buf = line.read sc.msg ++ c :: rest := by
  by_cases start : (vfmatchLoop true sc first).1 = .ok
  · rw [vfmatchLoop_append start] at matched ⊢
    have moved := (vfmatchLoop_matched true sc first).reaches
    set middle := (vfmatchLoop true sc first).2.1
    have run := (crlfRun_matched middle).reaches
    by_cases text : (crlfRun middle).1 = .ok
    · by_cases lineEnd : (matchToken (crlfRun middle).2 .crlf false).1 = .ok
      · obtain ⟨c, rest, kind, shape⟩ := crlf_token lineEnd
        refine ⟨⟨middle.cursor, (crlfRun middle).2.cursor - middle.cursor⟩, c, rest, ?_, kind, ?_⟩
        · have noArg : (matchToken (crlfRun middle).2 .crlf false).2.2 = [] := by
            unfold matchToken
            split <;> rfl
          simp [vfmatchLoop, matchDirective, readUntilCrlf, text, lineEnd, noArg]
        · rw [Memptr.read, ← shape, Scanner.rest, run.msg, ← moved.msg]
          have ahead := run.forward
          calc middle.msg.drop middle.cursor
              = (middle.msg.drop middle.cursor).take ((crlfRun middle).2.cursor - middle.cursor) ++
                (middle.msg.drop middle.cursor).drop ((crlfRun middle).2.cursor - middle.cursor) :=
                  (List.take_append_drop _ _).symm
            _ = _ := by rw [List.drop_drop, Nat.add_sub_cancel' ahead]
      · simp [vfmatchLoop, matchDirective, readUntilCrlf, text, lineEnd] at matched
    · simp [vfmatchLoop, matchDirective, readUntilCrlf, text] at matched
  · rw [vfmatchLoop_append_stop start] at matched
    exact absurd matched start

theorem cstr_split (line : List UInt8) {c : UInt8} (stop : isDigit c = false ∧ c ≠ SP ∧ c ≠ TAB)
    (rest : List UInt8) :
    ∃ d tail, isDigit d = false ∧ d ≠ SP ∧ d ≠ TAB ∧ line ++ c :: rest = cstr line ++ d :: tail ∧
      ∀ buf, line ++ c :: (rest ++ buf) = cstr line ++ d :: (tail ++ buf) := by
  have whole := List.takeWhile_append_dropWhile (p := fun d : UInt8 => decide (d ≠ 0)) (l := line)
  cases after : line.dropWhile (fun d => decide (d ≠ 0)) with
  | nil =>
    rw [after, List.append_nil] at whole
    have same : cstr line = line := whole
    exact ⟨c, rest, stop.1, stop.2.1, stop.2.2, by rw [same], fun buf => by rw [same]⟩
  | cons d tail =>
    have nul : d = 0 := by
      have head := dropWhile_head (fun d => decide (d ≠ 0)) line
      rw [after] at head
      simpa using head d rfl
    rw [after] at whole
    have split : line = cstr line ++ d :: tail := whole.symm
    refine ⟨d, tail ++ c :: rest, by rw [nul]; rfl, by rw [nul]; decide, by rw [nul]; decide, ?_, ?_⟩
    · conv_lhs => rw [split]
      simp
    · intro buf
      conv_lhs => rw [split]
      simp

/-- What is read behind the three numbers: the octet there, and the message behind the blanks. -/
def behindNumbers (length : Nat) (memory : List UInt8) : UInt8 × List UInt8 :=
  let rest := skipNumber (skipNumber (skipNumber memory))
  let text := rest.dropWhile fun d => d = SP || d = TAB
  (rest.headD 0, text.take (subSize length (memory.length - text.length)))

theorem behindNumbers_extend {bytes rest : List UInt8} {c : UInt8} (three : (sscanfStatus bytes).length = 3)
    (stop : isDigit c = false ∧ c ≠ SP ∧ c ≠ TAB) (buf : List UInt8) :
    behindNumbers bytes.length (bytes ++ c :: rest ++ buf) = behindNumbers bytes.length (bytes ++ c :: rest) := by
  obtain ⟨d, tail, noDigit, noSp, noTab, split, longer⟩ := cstr_split bytes stop rest
  obtain ⟨one, two, last⟩ := sscanfStatus_skipNumber three
  have skip (t : List UInt8) : skipNumber (skipNumber (skipNumber (cstr bytes ++ d :: t))) =
      skipNumber (skipNumber (skipNumber (cstr bytes))) ++ d :: t := by
    rw [skipNumber_append one noDigit, skipNumber_append two noDigit,
      skipNumber_append last noDigit]
  have extended : bytes ++ c :: rest ++ buf = cstr bytes ++ d :: (tail ++ buf) := by
    rw [List.append_assoc, List.cons_append]
    exact longer buf
  have whole := congrArg List.length split
  unfold behindNumbers
  rw [extended, split]
  dsimp only
  rw [skip, skip]
  have numbers_le : (skipNumber (skipNumber (skipNumber (cstr bytes)))).length ≤ (cstr bytes).length :=
    (skipNumber_length _).trans ((skipNumber_length _).trans (skipNumber_length _))
  generalize skipNumber (skipNumber (skipNumber (cstr bytes))) = numbers at *
  have head : (numbers ++ d :: (tail ++ buf)).headD 0 = (numbers ++ d :: tail).headD 0 := by
    cases numbers <;> rfl
  have blank : (decide (d = SP) || decide (d = TAB)) = false := by simp [noSp, noTab]
  have trim (t : List UInt8) :
      (numbers ++ d :: t).dropWhile (fun e => decide (e = SP) || decide (e = TAB)) =
        numbers.dropWhile (fun e => decide (e = SP) || decide (e = TAB)) ++ d :: t :=
    dropWhile_append_stop numbers blank t
  have message_le := (@List.dropWhile_suffix _ numbers fun e => decide (e = SP) || decide (e = TAB)).length_le
  rw [head, trim, trim]
  generalize numbers.dropWhile (fun e => decide (e = SP) || decide (e = TAB)) = message at *
  have gap : (cstr bytes ++ d :: (tail ++ buf)).length - (message ++ d :: (tail ++ buf)).length =
      (cstr bytes ++ d :: tail).length - (message ++ d :: tail).length := by
    simp only [List.length_append, List.length_cons]
    omega
  have bound : subSize bytes.length
      ((cstr bytes ++ d :: tail).length - (message ++ d :: tail).length) ≤
        (message ++ d :: tail).length := by
    have text_le : (cstr bytes).length ≤ bytes.length := (List.takeWhile_prefix _).length_le
    simp only [List.length_append, List.length_cons] at whole ⊢
    refine (subSize_le (by omega)).trans ?_
    omega
  rw [gap, ← List.cons_append, ← List.append_assoc, List.take_append_of_le_length bound]

theorem parserParseStatusLine_extend {p : HttpParser} {line : Memptr}
    (inside : line.buf + line.length ≤ p.scanner.msg.length) {c : UInt8} {rest : List UInt8}
    (kind : c = CR ∨ c = LF)
    (ends : p.scanner.msg.drop line.buf = line.read p.scanner.msg ++ c :: rest) (buf : List UInt8) :
    parserParseStatusLine (p.extend buf) line =
      ((parserParseStatusLine p line).1, (parserParseStatusLine p line).2.extend buf) := by
  have text : line.read (p.scanner.msg ++ buf) = line.read p.scanner.msg :=
    Memptr.read_append inside buf
  have memory : (p.scanner.msg ++ buf).drop line.buf = p.scanner.msg.drop line.buf ++ buf :=
    List.drop_append_of_le_length (by omega)
  have stop : isDigit c = false ∧ c ≠ SP ∧ c ≠ TAB := by
    rcases kind with rfl | rfl <;> decide
  have size : (line.read p.scanner.msg).length = line.length := by
    simp only [Memptr.read, List.length_take, List.length_drop]
    omega
  by_cases three : (sscanfStatus (line.read p.scanner.msg)).length = 3
  · have same := @behindNumbers_extend _ rest c three stop buf
    rw [← ends, size] at same
    obtain ⟨head, message⟩ := Prod.mk.inj same
    simp only [parserParseStatusLine, HttpParser.extend, HttpParser.withScanner, Scanner.extend, text, memory, head, message]
    split_ifs <;> rfl
  · simp only [parserParseStatusLine, HttpParser.extend, HttpParser.withScanner, Scanner.extend, text, three, ne_eq,
      not_false_iff, decide_true, Bool.true_or, if_true]

end Pupnp.Http
