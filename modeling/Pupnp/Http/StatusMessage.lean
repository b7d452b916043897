import Pupnp.Http.Fragment

/-!
The loops of `parser_parse_responseline` by their pointer. None of them looks at the length of the line. There is
no result where one of them would read behind the line end.
-/

namespace Pupnp.Http
open Pupnp.CString Pupnp.Uri

/-- `while (more(*p)) p++`, where the last byte that may be read is the one at `lineEnd`. -/
def skipWhile (more : UInt8 → Bool) (buf : List UInt8) (lineEnd p : Nat) : Option Nat :=
  if p ≤ lineEnd then
    if more (buf.getD p 0) then skipWhile more buf lineEnd (p + 1) else some p
  else none
termination_by lineEnd + 1 - p

def skipNumberAt (buf : List UInt8) (lineEnd p : Nat) : Option Nat :=
  (skipWhile (!isDigit ·) buf lineEnd p).bind (skipWhile isDigit buf lineEnd)

def isLineBlank (c : UInt8) : Bool := c = SP || c = TAB

/-- The pointer of `parser_parse_responseline` from the start of the line on: the status message, if there is white
space behind the status code. -/
def statusMessageAt (buf : List UInt8) (line : Memptr) : Option (Option (List UInt8)) := do
  let lineEnd := line.buf + line.length
  let first ← skipNumberAt buf lineEnd line.buf
  let second ← skipNumberAt buf lineEnd first
  let third ← skipNumberAt buf lineEnd second
  if !isLineBlank (buf.getD third 0) then some none
  else do
    let p ← skipWhile isLineBlank buf lineEnd third
    some (some ((buf.drop p).take (subSize line.length (p - line.buf))))

def parserParseStatusLineAt (p : HttpParser) (line : Memptr) : Option ParseResult :=
  let scanned := sscanfStatus (line.read p.scanner.msg)
  let msg := storeVersion p.msg scanned
  let stored := { p with msg := { msg with statusCode := scanned.getD 2 msg.statusCode } }
  if scanned.length ≠ 3 || stored.msg.majorVersion < 0 || stored.msg.minorVersion < 0 ||
      stored.msg.statusCode < 0 then some (.failure, stored)
  else
    (statusMessageAt p.scanner.msg line).map fun
      | none => (.failure, stored)
      | some text => (.ok, { stored with msg := { stored.msg with statusMsg := text }, position := .headers })

def parserParseResponselineAt (p : HttpParser) : Option ParseResult :=
  let blank := skipBlankLines p.scanner
  if blank.1 ≠ .ok then some (blank.1, p.withScanner blank.2)
  else
    let m := matchFormat blank.2 "%ihttp%w/%w%L%c"
    if m.1 ≠ .ok then some (m.1, p.withScanner m.2.1)
    else parserParseStatusLineAt (p.withScanner m.2.1) (strArg m.2.2 0)

/-! ### Loops inside a text -/

section Loops
variable {more : UInt8 → Bool} {buf : List UInt8} {lineEnd p : Nat}

theorem getD_drop {s : List UInt8} (text : buf.drop p = s) : buf.getD p 0 = s.headD 0 := by
  rw [← text, List.headD_eq_head?_getD, List.head?_drop, List.getD_eq_getElem?_getD]

theorem skipWhile_inside {s t : List UInt8} (text : buf.drop p = s ++ t) (stops : s.any (!more ·) = true)
    (inside : p + s.length ≤ lineEnd + 1) :
    ∃ q, skipWhile more buf lineEnd p = some q ∧ buf.drop q = s.dropWhile more ++ t ∧
      q + (s.dropWhile more).length = p + s.length := by
  induction s generalizing p with
  | nil => cases stops
  | cons c s ih =>
    have here : buf.getD p 0 = c := getD_drop text
    rw [List.length_cons] at inside
    rw [skipWhile, if_pos (by omega), here]
    by_cases goesOn : more c = true
    · have behind : buf.drop (p + 1) = s ++ t := by
        rw [← List.drop_drop, text]
        rfl
      obtain ⟨q, found, rest, length⟩ := ih behind (by simpa [goesOn] using stops) (by omega)
      rw [if_pos goesOn, List.dropWhile_cons_of_pos goesOn, List.length_cons]
      exact ⟨q, found, rest, by omega⟩
    · rw [if_neg goesOn, List.dropWhile_cons_of_neg goesOn]
      exact ⟨p, rfl, text, rfl⟩

theorem skipNumberAt_inside {s t : List UInt8} {d : UInt8} (text : buf.drop p = s ++ d :: t)
    (number : s.any isDigit = true) (stop : isDigit d = false) (inside : p + s.length ≤ lineEnd) :
    ∃ q, skipNumberAt buf lineEnd p = some q ∧ buf.drop q = skipNumber s ++ d :: t ∧
      q + (skipNumber s).length = p + s.length := by
  obtain ⟨first, found, rest, length⟩ := @skipWhile_inside (!isDigit ·) buf lineEnd p s (d :: t) text
    (by simpa using number) (by omega)
  rw [List.append_cons] at rest
  have stops : (s.dropWhile (!isDigit ·) ++ [d]).any (!isDigit ·) = true := by simp [stop]
  obtain ⟨q, found', rest', length'⟩ := @skipWhile_inside isDigit buf lineEnd first _ t rest stops (by
    rw [List.length_append, List.length_singleton]
    omega)
  rw [dropWhile_append_stop _ stop] at rest' length'
  refine ⟨q, ?_, ?_, ?_⟩
  · rw [skipNumberAt, found, Option.bind_some, found']
  · rw [rest', List.append_assoc]
    rfl
  · simp only [skipNumber, List.length_append, List.length_singleton] at length' ⊢
    omega

end Loops

/-! ### A line and its end -/

section Lines
variable {p : HttpParser} {line : Memptr} {c : UInt8} {rest : List UInt8}

theorem read_length (ends : p.scanner.msg.drop line.buf = line.read p.scanner.msg ++ c :: rest) :
    (line.read p.scanner.msg).length = line.length := by
  have whole := congrArg List.length ends
  simp only [Memptr.read, List.length_append, List.length_cons, List.length_take] at whole ⊢
  omega

theorem lineEnd_stops (kind : c = CR ∨ c = LF) : isDigit c = false ∧ c ≠ SP ∧ c ≠ TAB := by
  rcases kind with rfl | rfl <;> decide

theorem statusMessageAt_inside {buf : List UInt8} (size : (line.read buf).length = line.length)
    (kind : c = CR ∨ c = LF) (ends : buf.drop line.buf = line.read buf ++ c :: rest)
    (three : (sscanfStatus (line.read buf)).length = 3) :
    statusMessageAt buf line =
      some (let behind := skipNumber (skipNumber (skipNumber (buf.drop line.buf)))
        let text := behind.dropWhile isLineBlank
        if isLineBlank (behind.headD 0) then
          some (text.take (subSize line.length ((buf.drop line.buf).length - text.length)))
        else none) := by
  obtain ⟨d, tail, noDigit, noSp, noTab, split, -⟩ := cstr_split (line.read buf) (lineEnd_stops kind) rest
  obtain ⟨one, two, last⟩ := sscanfStatus_skipNumber three
  set numbers := cstr (line.read buf)
  have short : numbers.length ≤ line.length := size ▸ (List.takeWhile_prefix _).length_le
  have text : buf.drop line.buf = numbers ++ d :: tail := ends.trans split
  obtain ⟨first, found, behind, length⟩ := @skipNumberAt_inside buf (line.buf + line.length) _ _ _ _ text one noDigit
    (by omega)
  obtain ⟨second, found', behind', length'⟩ := @skipNumberAt_inside buf (line.buf + line.length) _ _ _ _ behind two
    noDigit (by omega)
  obtain ⟨third, found'', behind'', length''⟩ := @skipNumberAt_inside buf (line.buf + line.length) _ _ _ _ behind' last
    noDigit (by omega)
  have skipped : skipNumber (skipNumber (skipNumber (buf.drop line.buf))) = buf.drop third := by
    rw [text, skipNumber_append one noDigit, skipNumber_append two noDigit, skipNumber_append last noDigit, behind'']
  have dark : isLineBlank d = false := by simp [isLineBlank, noSp, noTab]
  have more := behind''
  rw [List.append_cons] at more
  obtain ⟨p, found₄, behind₄, length₄⟩ := @skipWhile_inside isLineBlank buf (line.buf + line.length) third _ tail
    more (by simp [dark]) (by rw [List.length_append, List.length_singleton]; omega)
  have message : (buf.drop third).dropWhile isLineBlank = buf.drop p := by
    rw [behind'', behind₄, dropWhile_append_stop _ dark, dropWhile_append_stop _ dark, List.append_assoc,
      List.singleton_append]
  have gap : (buf.drop line.buf).length - (buf.drop p).length = p - line.buf := by
    have whole := congrArg List.length text
    simp only [List.length_append, List.length_drop, List.length_cons, List.length_nil] at length₄ whole ⊢
    omega
  have head : (buf.drop third).headD 0 = buf.getD third 0 := (getD_drop rfl).symm
  rw [skipped]
  simp only [message, gap, head, statusMessageAt, found, found', found'', found₄, Option.bind_eq_bind,
    Option.bind_some]
  cases isLineBlank (buf.getD third 0) <;> rfl

theorem parserParseStatusLineAt_eq (kind : c = CR ∨ c = LF)
    (ends : p.scanner.msg.drop line.buf = line.read p.scanner.msg ++ c :: rest) :
    parserParseStatusLineAt p line = some (parserParseStatusLine p line) := by
  by_cases three : (sscanfStatus (line.read p.scanner.msg)).length = 3
  · have inside := statusMessageAt_inside (read_length ends) kind ends three
    simp only [parserParseStatusLineAt, parserParseStatusLine, inside]
    generalize skipNumber (skipNumber (skipNumber (p.scanner.msg.drop line.buf))) = behind
    have blank : (!isLineBlank (behind.headD 0)) =
        (decide (behind.headD 0 ≠ SP) && decide (behind.headD 0 ≠ TAB)) := by
      simp [isLineBlank]
    rw [← blank]
    split
    next => rfl
    next =>
      cases isLineBlank (behind.headD 0) <;> rfl
  · simp only [parserParseStatusLineAt, parserParseStatusLine, three, ne_eq, not_false_iff, decide_true, Bool.true_or,
      if_true]

end Lines

theorem parserParseResponselineAt_eq (p : HttpParser) :
    parserParseResponselineAt p = some (parserParseResponseline p) := by
  unfold parserParseResponselineAt parserParseResponseline parserMatchResponseline
  by_cases blank : (skipBlankLines p.scanner).1 = .ok
  · by_cases matched : (matchFormat (skipBlankLines p.scanner).2 "%ihttp%w/%w%L%c").1 = .ok
    · obtain ⟨c, rest, kind, ends⟩ := @responseLine_ends (p.withScanner (skipBlankLines p.scanner).2) matched
      have same := (matchFormat_matched (skipBlankLines p.scanner).2 "%ihttp%w/%w%L%c").reaches.msg
      simp only [blank, matched, ne_eq, not_true, if_false, HttpParser.withScanner_scanner,
        HttpParser.withScanner_withScanner]
      apply parserParseStatusLineAt_eq kind
      rw [HttpParser.withScanner_scanner, same]
      exact ends
    · simp only [blank, matched, ne_eq, not_true, not_false_iff, if_false, if_true, HttpParser.withScanner_scanner,
        HttpParser.withScanner_withScanner]
  · simp only [blank, ne_eq, not_false_iff, if_true]

/-! ### The status message -/

/-- What is left of a text behind the three numbers that `sscanf` converts. -/
def sscanfStatusRest (s : List UInt8) : List UInt8 :=
  match sscanfVersion s with
  | ([_, _], rest) => ((scanInt (skipSpace rest)).map Prod.snd).getD []
  | _ => []

/-- The rest of a line behind its status code. -/
def behindStatusCode (line : List UInt8) : List UInt8 :=
  line.drop ((cstr line).length - (sscanfStatusRest line).length)

def responseLine (p : HttpParser) : List UInt8 :=
  (strArg (matchFormat (skipBlankLines p.scanner).2 "%ihttp%w/%w%L%c").2.2 0).read p.scanner.msg

theorem skipNumber_rest {s : List UInt8} (three : (sscanfStatus s).length = 3) :
    skipNumber (skipNumber (skipNumber (cstr s))) = sscanfStatusRest s := by
  obtain ⟨major, dotted, minor, behind, after, code, tail, number, dot, number', status⟩ := sscanfStatus_numbers three
  have version : sscanfVersion s = ([major, minor], after) := by simp only [sscanfVersion, number, dot, number']
  rw [(scanInt_skipNumber number).1, skipNumber_dotted dot number', ← skipNumber_skipSpace, (scanInt_skipNumber status).1,
    sscanfStatusRest, version]
  simp only [status, Option.map_some, Option.getD_some]

theorem skipNumber_suffix (s : List UInt8) : skipNumber s <:+ s :=
  (List.dropWhile_suffix _).trans (List.dropWhile_suffix _)

section Messages
variable {p : HttpParser} {line : Memptr} {c : UInt8} {rest : List UInt8}

theorem skipNumber_behind {buf : List UInt8} (kind : c = CR ∨ c = LF)
    (ends : buf.drop line.buf = line.read buf ++ c :: rest) (three : (sscanfStatus (line.read buf)).length = 3) :
    skipNumber (skipNumber (skipNumber (buf.drop line.buf))) = behindStatusCode (line.read buf) ++ c :: rest := by
  obtain ⟨d, tail, noDigit, -, -, split, -⟩ := cstr_split (line.read buf) (lineEnd_stops kind) rest
  obtain ⟨one, two, last⟩ := sscanfStatus_skipNumber three
  obtain ⟨front, numbers⟩ : sscanfStatusRest (line.read buf) <:+ cstr (line.read buf) := by
    rw [← skipNumber_rest three]
    exact (skipNumber_suffix _).trans ((skipNumber_suffix _).trans (skipNumber_suffix _))
  have gone : (cstr (line.read buf)).length - (sscanfStatusRest (line.read buf)).length = front.length := by
    rw [← numbers, List.length_append, Nat.add_sub_cancel]
  have inside : front.length ≤ (line.read buf).length := by
    rw [← gone]
    exact (Nat.sub_le _ _).trans (List.takeWhile_prefix _).length_le
  calc skipNumber (skipNumber (skipNumber (buf.drop line.buf)))
      = sscanfStatusRest (line.read buf) ++ d :: tail := by
        rw [ends, split, skipNumber_append one noDigit, skipNumber_append two noDigit, skipNumber_append last noDigit,
          skipNumber_rest three]
    _ = (cstr (line.read buf) ++ d :: tail).drop front.length := by
        rw [← numbers, List.append_assoc, List.drop_left]
    _ = (line.read buf ++ c :: rest).drop front.length := by rw [split]
    _ = behindStatusCode (line.read buf) ++ c :: rest := by
        rw [List.drop_append_of_le_length inside, behindStatusCode, gone]

/-- What is stored is the rest of the line, without the white space that must follow the status code. -/
theorem parserParseStatusLine_message (fits : p.scanner.msg.length < 2 ^ 64) (kind : c = CR ∨ c = LF)
    (ends : p.scanner.msg.drop line.buf = line.read p.scanner.msg ++ c :: rest)
    (parsed : (parserParseStatusLine p line).1 = .ok) :
    isLineBlank ((behindStatusCode (line.read p.scanner.msg)).headD 0) = true ∧
      (parserParseStatusLine p line).2.msg.statusMsg =
        (behindStatusCode (line.read p.scanner.msg)).dropWhile isLineBlank := by
  have size := read_length ends
  have three : (sscanfStatus (line.read p.scanner.msg)).length = 3 := by
    by_contra other
    simp [parserParseStatusLine, other] at parsed
  have behind := skipNumber_behind kind ends three
  have dark : isLineBlank c = false := by
    rcases kind with rfl | rfl <;> decide
  set left := behindStatusCode (line.read p.scanner.msg)
  have trimmed : (left ++ c :: rest).dropWhile isLineBlank = left.dropWhile isLineBlank ++ c :: rest :=
    dropWhile_append_stop _ dark rest
  have short : left.length ≤ line.length := by
    rw [← size]
    exact (List.drop_suffix _ _).length_le
  have text : ((left ++ c :: rest).dropWhile isLineBlank).take (subSize line.length
      ((p.scanner.msg.drop line.buf).length - ((left ++ c :: rest).dropWhile isLineBlank).length)) =
        left.dropWhile isLineBlank := by
    have trim := (List.dropWhile_suffix isLineBlank (l := left)).length_le
    have whole : line.length ≤ p.scanner.msg.length := by
      rw [← size, Memptr.read, List.length_take, List.length_drop]
      omega
    have count : subSize line.length
        ((p.scanner.msg.drop line.buf).length - ((left ++ c :: rest).dropWhile isLineBlank).length) =
          (left.dropWhile isLineBlank).length := by
      rw [trimmed, ends, List.length_append, List.length_append, List.length_cons, size, subSize_sub (by omega) (by omega)]
      omega
    rw [count, trimmed, List.take_left]
  have head : isLineBlank ((left ++ c :: rest).headD 0) = true → isLineBlank (left.headD 0) = true := by
    cases left with
    | nil =>
      intro blank
      rw [List.nil_append, List.headD_cons, dark] at blank
      cases blank
    | cons d left => exact id
  have found := parserParseStatusLineAt_eq kind ends
  rw [parserParseStatusLineAt, statusMessageAt_inside size kind ends three, behind] at found
  simp only at found
  split_ifs at found with refused blank
  · rw [← Option.some.inj found] at parsed
    cases parsed
  · rw [Option.map_some, text] at found
    rw [← Option.some.inj found]
    exact ⟨head blank, rfl⟩
  · rw [Option.map_some] at found
    rw [← Option.some.inj found] at parsed
    cases parsed

end Messages

/-- Of every response line the loops of `parser_parse_responseline` stay within the line, and the status message is the
rest of it behind the status code and the white space there. -/
theorem parserParseResponseline_message (p : HttpParser) (fits : p.scanner.msg.length < 2 ^ 64) :
    parserParseResponselineAt p = some (parserParseResponseline p) ∧
      ((parserParseResponseline p).1 = .ok →
        isLineBlank ((behindStatusCode (responseLine p)).headD 0) = true ∧
          (parserParseResponseline p).2.msg.statusMsg =
            (behindStatusCode (responseLine p)).dropWhile isLineBlank) := by
  refine ⟨parserParseResponselineAt_eq p, ?_⟩
  intro parsed
  unfold parserParseResponseline parserMatchResponseline at parsed ⊢
  have blanks := (skipBlankLines_matched p.scanner).reaches.msg
  by_cases blank : (skipBlankLines p.scanner).1 = .ok
  · by_cases matched : (matchFormat (skipBlankLines p.scanner).2 "%ihttp%w/%w%L%c").1 = .ok
    · obtain ⟨c, rest, kind, ends⟩ := @responseLine_ends (p.withScanner (skipBlankLines p.scanner).2) matched
      have same := (matchFormat_matched (skipBlankLines p.scanner).2 "%ihttp%w/%w%L%c").reaches.msg
      simp only [blank, matched, ne_eq, not_true, if_false, HttpParser.withScanner_scanner,
        HttpParser.withScanner_withScanner] at parsed ends ⊢
      have message := @parserParseStatusLine_message
        (p.withScanner (matchFormat (skipBlankLines p.scanner).2 "%ihttp%w/%w%L%c").2.1)
      simp only [HttpParser.withScanner_scanner, same] at message
      have exact_ := message (by rw [blanks]; exact fits) kind ends parsed
      rw [blanks] at exact_
      exact exact_
    · simp only [blank, matched, ne_eq, not_true, not_false_iff, if_false, if_true, HttpParser.withScanner_scanner,
        HttpParser.withScanner_withScanner] at parsed
  · simp only [blank, ne_eq, not_false_iff, if_true] at parsed

/-- A response whose numbers are spelled in an unusual way. -/
def spacedStart : HttpParser := (parserResponseInit .get).extend (bytes "HTTP/ +1 . 1 +200 \t Fine here\r\n")

theorem parserParseResponseline_message_spaced :
    parserParseResponselineAt spacedStart = some (parserParseResponseline spacedStart) ∧
      (parserParseResponseline spacedStart).2.msg.statusMsg = bytes "Fine here" := by
  obtain ⟨inside, message⟩ := parserParseResponseline_message spacedStart (by decide)
  have line : responseLine spacedStart = bytes "+1 . 1 +200 \t Fine here" := by with_unfolding_all decide
  refine ⟨inside, ?_⟩
  rw [(message (by with_unfolding_all decide)).2, line]
  with_unfolding_all decide

end Pupnp.Http
