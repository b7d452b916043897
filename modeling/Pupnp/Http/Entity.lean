import Pupnp.Http.Progress

/-!
Headers, entity and the loops of the HTTP parser. The loops end because a round
that goes on takes bytes from the buffer or moves to a later position.
-/

namespace Pupnp.Http
open Pupnp.CString Pupnp.Uri

theorem parseHeaderLine_continue {p next : HttpParser}
    (read : parseHeaderLine p = (.continue1, next)) :
    p.scanner.Reaches next.scanner ∧ next.scanner.remaining < p.scanner.remaining := by
  unfold parseHeaderLine at read
  split at read
  · rename_i found
    rw [Prod.mk.injEq] at read
    have range := scannerGetToken_isMatch found
    rw [read.1] at range
    simp [ParseStatus.IsMatch] at range
  · rename_i token middle found
    split at read
    · split_ifs at read <;> cases read
    · have matched := matchFormat_matched middle " : %R%c"
      simp only at read
      split_ifs at read
      · rw [Prod.mk.injEq] at read
        have range := matched.isMatch
        rw [read.1] at range
        simp [ParseStatus.IsMatch] at range
      · cases read
        exact ⟨(scannerGetToken_reaches found).trans matched.reaches,
          matched.reaches.remaining.trans_lt (scannerGetToken_remaining found)⟩
    · cases read

def parserParseHeaders (p : HttpParser) : ParseResult :=
  match _h : parseHeaderLine p with
  | (.continue1, next) => parserParseHeaders next
  | r => r
termination_by p.scanner.remaining
decreasing_by exact (parseHeaderLine_continue _h).2

def membufferDelete (m : List UInt8) (index numBytes : Nat) : List UInt8 :=
  m.take index ++ m.drop (index + numBytes)

/-- The bytes from `savePos` to the cursor leave the buffer, the cursor goes back to `savePos`. -/
def Scanner.deleteFrom (sc : Scanner) (savePos : Nat) : Scanner :=
  { sc with msg := membufferDelete sc.msg savePos (sc.cursor - savePos), cursor := savePos }

def Scanner.terminateAt (sc : Scanner) (index : Nat) : Scanner :=
  { sc with msg := sc.msg.set index 0 }

def parserParseEntityUsingClen (p : HttpParser) : ParseResult :=
  let length := p.scanner.msg.length - p.entityStartPosition + p.msg.amountDiscarded
  if length < p.contentLength then
    (.incomplete, p.withEntity ⟨p.msg.entity.buf, length⟩)
  else
    let scanner :=
      if p.contentLength < length then
        p.scanner.terminateAt (p.entityStartPosition + p.contentLength - p.msg.amountDiscarded)
      else p.scanner
    let data := p.withEntity ⟨some p.entityStartPosition, p.contentLength⟩
    (.success, (data.withScanner scanner).withPosition .complete)

def parserParseChunkyBody (p : HttpParser) : ParseResult :=
  if p.chunkSize ≤ p.scanner.msg.length - p.scanner.cursor then
    let savePos := p.scanner.cursor + p.chunkSize
    let m := matchFormat { p.scanner with cursor := savePos } "%c"
    if m.1 ≠ .ok then (m.1, p)
    else
      let data := p.withEntity ⟨p.msg.entity.buf, p.msg.entity.length + p.chunkSize⟩
      (.continue1, (data.withScanner (m.2.1.deleteFrom savePos)).withEntPosition .usingChunked)
  else (.incomplete, p)

def parserParseChunkyHeaders (p : HttpParser) : ParseResult :=
  let r := parserParseHeaders p
  if r.1 = .ok then
    let data := r.2.withEntity ⟨some r.2.entityStartPosition, r.2.msg.entity.length⟩
    (.success,
      (data.withScanner (r.2.scanner.deleteFrom p.scanner.cursor)).withPosition .complete)
  else r

def storeLow32 (old : Nat) (value : Int) : Nat := old / 2 ^ 32 * 2 ^ 32 + (value % 2 ^ 32).toNat

/-- `chunk_size` is an out argument of the match: it changes whenever a number was read. -/
def storeChunkSize (old : Nat) (args : List MatchArg) : Nat :=
  match args with
  | .int value :: _ => storeLow32 old value
  | _ => old

def parserChunkSizeRead (p : HttpParser) : ParseResult :=
  if p.chunkSize = 0 then
    let length := p.scanner.cursor - p.entityStartPosition + p.msg.amountDiscarded
    (.continue1, (p.withEntity ⟨p.msg.entity.buf, length⟩).withEntPosition .chunkyHeaders)
  else (.continue1, p.withEntPosition .chunkyBody)

def parserParseChunkyEntity (p : HttpParser) : ParseResult :=
  let m := matchFormat p.scanner "%x%L%c"
  let sized := p.withChunkSize (storeChunkSize p.chunkSize m.2.2)
  if m.1 ≠ .ok then (m.1, sized)
  else parserChunkSizeRead (sized.withScanner (m.2.1.deleteFrom p.scanner.cursor))

def parserParseEntityUntilClose (p : HttpParser) : ParseResult :=
  let cursor := p.scanner.msg.length
  let length := cursor - p.entityStartPosition + p.msg.amountDiscarded
  (.incompleteEntity, (p.withEntity ⟨some p.entityStartPosition, length⟩).withScanner
    { p.scanner with cursor := cursor })

def HttpMessage.hasNoBody (msg : HttpMessage) : Bool :=
  if msg.isRequest then
    msg.method = .head || msg.method = .get || msg.method = .subscribe ||
      msg.method = .unsubscribe || msg.method = .msearch
  else
    msg.statusCode = 204 || msg.statusCode = 304 ||
      (100 ≤ msg.statusCode && msg.statusCode ≤ 199) || msg.requestMethod = .head ||
      msg.requestMethod = .msearch || msg.requestMethod = .subscribe ||
      msg.requestMethod = .unsubscribe || msg.requestMethod = .notify

/-- `raw_find_str` on the Transfer-Encoding, which it turns into lower case. -/
def lowerTransferEncoding (msg : HttpMessage) : HttpMessage :=
  let lower (h : HttpHeader) := { h with value := lowerValue h.value }
  { msg with headers := updateFirst (fun h => h.nameId = .transferEncoding) lower msg.headers }

def isChunked (msg : HttpMessage) : Bool :=
  match httpmsgFindHdr msg .transferEncoding with
  | some h => (rawFindStr h.value (bytes "chunked")).isSome
  | none => false

def readMethodOfLength (p : HttpParser) : ParseResult :=
  match httpmsgFindHdr p.msg .contentLength with
  | some h =>
      -- the `int` is cast to `unsigned int`
      (.continue1, { p with
        contentLength := (rawToInt h.value 10 % 2 ^ 32).toNat
        entPosition := .usingClen })
  | none =>
      if p.msg.isRequest then
        (.failure, { p with
          validSsdpNotifyHack := p.validSsdpNotifyHack || p.msg.method = .notify
          httpErrorCode := HTTP_LENGTH_REQUIRED })
      else (.continue1, p.withEntPosition .untilClose)

def HttpParser.startEntity (p : HttpParser) : HttpParser :=
  { p.withEntity ⟨some p.scanner.cursor, 0⟩ with entityStartPosition := p.scanner.cursor }

def HttpParser.searchTransferEncoding (p : HttpParser) : HttpParser :=
  { p with msg := lowerTransferEncoding p.msg }

def parserGetEntityReadMethod (p : HttpParser) : ParseResult :=
  if p.msg.hasNoBody then (.success, p.startEntity.withPosition .complete)
  else
    let searched := p.startEntity.searchTransferEncoding
    if isChunked p.msg then (.continue1, searched.withEntPosition .usingChunked)
    else readMethodOfLength searched

def parserEntityRound (p : HttpParser) : ParseResult :=
  match p.entPosition with
  | .usingClen => parserParseEntityUsingClen p
  | .usingChunked => parserParseChunkyEntity p
  | .chunkyBody => parserParseChunkyBody p
  | .chunkyHeaders => parserParseChunkyHeaders p
  | .untilClose => parserParseEntityUntilClose p
  | .determineReadMethod => parserGetEntityReadMethod p

theorem Scanner.deleteFrom_remaining {sc : Scanner} {savePos : Nat} (before : savePos ≤ sc.cursor) :
    (sc.deleteFrom savePos).remaining = sc.remaining := by
  simp only [Scanner.remaining, Scanner.deleteFrom, membufferDelete, List.length_append,
    List.length_take, List.length_drop]
  omega

theorem vfmatchLoop_first {caseSensitive : Bool} {sc : Scanner} {d : Directive}
    {rest : List Directive} (matched : (vfmatchLoop caseSensitive sc (d :: rest)).1 = .ok) :
    (matchDirective caseSensitive sc d).1 = .ok ∧
      (vfmatchLoop caseSensitive sc (d :: rest)).2.1.remaining ≤
        (matchDirective caseSensitive sc d).2.1.remaining := by
  simp only [vfmatchLoop] at matched ⊢
  by_cases first : (matchDirective caseSensitive sc d).1 = .ok
  · rw [if_pos first]
    exact ⟨first, (vfmatchLoop_matched _ _ rest).reaches.remaining⟩
  · rw [if_neg first] at matched
    exact absurd matched first

theorem matchToken_remaining {sc : Scanner} {type : TokenType} {store : Bool}
    (matched : (matchToken sc type store).1 = .ok) :
    (matchToken sc type store).2.1.remaining < sc.remaining := by
  unfold matchToken at matched ⊢
  split at matched
  · rename_i found
    rcases scanToken_error (scannerGetToken_error found) with rfl | rfl <;> cases matched
  · rename_i found
    exact scannerGetToken_remaining found

theorem matchInt_remaining {sc : Scanner} {base : Nat} (matched : (matchInt sc base).1 = .ok) :
    (matchInt sc base).2.1.remaining < sc.remaining := by
  unfold matchInt at matched ⊢
  split at matched
  · rename_i found
    rcases scanToken_error (scannerGetToken_error found) with rfl | rfl <;> cases matched
  · rename_i found
    dsimp only at matched ⊢
    split_ifs at matched ⊢
    exact scannerGetToken_remaining found

theorem matchFormat_ok {sc : Scanner} {fmt : String} (matched : (matchFormat sc fmt).1 = .ok) :
    vfmatchLoop true sc (format fmt) = (.ok, (matchFormat sc fmt).2.1, (matchFormat sc fmt).2.2) := by
  simp only [matchFormat, vfmatch] at matched ⊢
  rw [if_pos matched, ← matched]

theorem matchCrlf_remaining {sc : Scanner} (matched : (matchFormat sc "%c").1 = .ok) :
    (matchFormat sc "%c").2.1.remaining < sc.remaining := by
  have loop := matchFormat_ok matched
  have first := @vfmatchLoop_first true sc .crlf [] (congrArg Prod.fst loop)
  rw [show vfmatchLoop true sc [.crlf] = _ from loop] at first
  exact first.2.trans_lt (matchToken_remaining first.1)

theorem matchChunkSize_remaining {sc : Scanner} (matched : (matchFormat sc "%x%L%c").1 = .ok) :
    (matchFormat sc "%x%L%c").2.1.remaining < sc.remaining := by
  have loop := matchFormat_ok matched
  have first := @vfmatchLoop_first true sc (.int 16) [.line, .crlf] (congrArg Prod.fst loop)
  rw [show vfmatchLoop true sc [.int 16, .line, .crlf] = _ from loop] at first
  exact first.2.trans_lt (matchInt_remaining first.1)

theorem matchFormat_not_continue (sc : Scanner) (fmt : String) :
    (matchFormat sc fmt).1 ≠ .continue1 := by
  intro again
  have range := (matchFormat_matched sc fmt).isMatch
  rw [again] at range
  simp [ParseStatus.IsMatch] at range

theorem parserParseChunkyEntity_remaining {p next : HttpParser}
    (round : parserParseChunkyEntity p = (.continue1, next)) :
    next.scanner.remaining < p.scanner.remaining ∧ next.entPosition ≠ .determineReadMethod := by
  simp only [parserParseChunkyEntity, parserChunkSizeRead] at round
  have moved := (matchFormat_matched p.scanner "%x%L%c").reaches.forward
  split_ifs at round with failed last
  · exact absurd (congrArg Prod.fst round) (matchFormat_not_continue _ _)
  all_goals
    cases round
    refine ⟨?_, nofun⟩
    dsimp only [HttpParser.withScanner, HttpParser.withEntity, HttpParser.withEntPosition]
    rw [Scanner.deleteFrom_remaining moved]
    exact matchChunkSize_remaining (not_not.mp failed)

theorem parserParseChunkyBody_remaining {p next : HttpParser}
    (round : parserParseChunkyBody p = (.continue1, next)) :
    next.scanner.remaining < p.scanner.remaining ∧ next.entPosition ≠ .determineReadMethod := by
  simp only [parserParseChunkyBody] at round
  have moved := (matchFormat_matched { p.scanner with cursor := p.scanner.cursor + p.chunkSize }
    "%c").reaches.forward
  split_ifs at round with loaded failed
  · exact absurd (congrArg Prod.fst round) (matchFormat_not_continue _ _)
  · cases round
    refine ⟨?_, nofun⟩
    dsimp only [HttpParser.withScanner, HttpParser.withEntity, HttpParser.withEntPosition]
    rw [Scanner.deleteFrom_remaining moved]
    refine (matchCrlf_remaining (not_not.mp failed)).trans_le ?_
    simp only [Scanner.remaining]
    omega
  · cases round

theorem parserParseHeaders_not_continue (p : HttpParser) : (parserParseHeaders p).1 ≠ .continue1 := by
  fun_induction parserParseHeaders p with
  | case1 p next found ih => exact ih
  | case2 p notAgain =>
    intro again
    exact notAgain _ (Prod.ext again rfl)

theorem parserParseChunkyHeaders_not_continue (p : HttpParser) :
    (parserParseChunkyHeaders p).1 ≠ .continue1 := by
  simp only [parserParseChunkyHeaders]
  split_ifs
  · nofun
  · exact parserParseHeaders_not_continue p

theorem readMethodOfLength_continue {p next : HttpParser}
    (round : readMethodOfLength p = (.continue1, next)) :
    next.scanner = p.scanner ∧ next.entPosition ≠ .determineReadMethod := by
  unfold readMethodOfLength at round
  split at round
  · cases round
    exact ⟨rfl, nofun⟩
  · by_cases request : p.msg.isRequest
    · rw [if_pos request] at round
      cases round
    · rw [if_neg request] at round
      cases round
      exact ⟨rfl, nofun⟩

theorem parserGetEntityReadMethod_continue {p next : HttpParser}
    (round : parserGetEntityReadMethod p = (.continue1, next)) :
    next.scanner = p.scanner ∧ next.entPosition ≠ .determineReadMethod := by
  simp only [parserGetEntityReadMethod] at round
  split_ifs at round
  · cases round
  · cases round
    exact ⟨rfl, nofun⟩
  · exact readMethodOfLength_continue (p := p.startEntity.searchTransferEncoding) round

def HttpParser.entityMeasure (p : HttpParser) : Nat :=
  p.scanner.remaining + if p.entPosition = .determineReadMethod then 1 else 0

theorem parserEntityRound_measure {p next : HttpParser}
    (round : parserEntityRound p = (.continue1, next)) : next.entityMeasure < p.entityMeasure := by
  have shrink (less : next.scanner.remaining < p.scanner.remaining ∧
      next.entPosition ≠ .determineReadMethod) : next.entityMeasure < p.entityMeasure := by
    simp only [HttpParser.entityMeasure, if_neg less.2]
    omega
  unfold parserEntityRound at round
  split at round
  · simp only [parserParseEntityUsingClen] at round
    split_ifs at round <;> cases round
  · exact shrink (parserParseChunkyEntity_remaining round)
  · exact shrink (parserParseChunkyBody_remaining round)
  · exact absurd (congrArg Prod.fst round) (parserParseChunkyHeaders_not_continue p)
  · cases round
  · rename_i undetermined
    obtain ⟨same, settled⟩ := parserGetEntityReadMethod_continue round
    simp only [HttpParser.entityMeasure, if_neg settled, if_pos undetermined, same]
    omega

def parserParseEntity (p : HttpParser) : ParseResult :=
  match _h : parserEntityRound p with
  | (.continue1, next) => parserParseEntity next
  | r => r
termination_by p.entityMeasure
decreasing_by exact parserEntityRound_measure _h

def parserRound (res : Resolver) (p : HttpParser) : ParseResult :=
  match p.position with
  | .entity => parserParseEntity p
  | .headers => parserParseHeaders p
  | .requestLine => parserParseRequestline res p
  | .responseLine => parserParseResponseline p
  | .complete => (.failure, p)

def ParserPos.rank : ParserPos → Nat
  | .requestLine => 3
  | .responseLine => 3
  | .headers => 2
  | .entity => 1
  | .complete => 0

theorem parserParseSimpleGet_not_ok (res : Resolver) (p : HttpParser) (method url : List UInt8) :
    (parserParseSimpleGet res p method url).1 ≠ .ok := by
  unfold parserParseSimpleGet
  split
  · nofun
  · split_ifs
    · nofun
    · dsimp only
      split <;> nofun

theorem parserParseFullRequest_ok {res : Resolver} {p next : HttpParser}
    {method url version : List UInt8}
    (parsed : parserParseFullRequest res p method url version = (.ok, next)) :
    next.position = .headers ∧ next.scanner = p.scanner := by
  simp only [parserParseFullRequest] at parsed
  split at parsed
  · cases parsed
  · split at parsed
    · cases parsed
    · split_ifs at parsed
      · cases parsed
      · cases parsed
        exact ⟨rfl, rfl⟩

theorem parserParseRequestline_ok {res : Resolver} {p next : HttpParser}
    (parsed : parserParseRequestline res p = (.ok, next)) : next.position = .headers := by
  simp only [parserParseRequestline, parserMatchRequestline] at parsed
  split_ifs at parsed with blank simple full
  · exact absurd (congrArg Prod.fst parsed) blank
  · exact absurd (congrArg Prod.fst parsed) (parserParseSimpleGet_not_ok _ _ _ _)
  · exact absurd (congrArg Prod.fst parsed) full
  · exact (parserParseFullRequest_ok parsed).1

theorem parserParseStatusLine_ok {p next : HttpParser} {line : Memptr}
    (parsed : parserParseStatusLine p line = (.ok, next)) :
    next.position = .headers ∧ next.scanner = p.scanner := by
  simp only [parserParseStatusLine] at parsed
  split_ifs at parsed
  · cases parsed
  · cases parsed
  · cases parsed
    exact ⟨rfl, rfl⟩

theorem parserParseResponseline_ok {p next : HttpParser}
    (parsed : parserParseResponseline p = (.ok, next)) : next.position = .headers := by
  simp only [parserParseResponseline, parserMatchResponseline] at parsed
  split_ifs at parsed with blank line
  · exact absurd (congrArg Prod.fst parsed) blank
  · exact absurd (congrArg Prod.fst parsed) line
  · exact (parserParseStatusLine_ok parsed).1

theorem parseHeaderLine_ok {p next : HttpParser} (read : parseHeaderLine p = (.ok, next)) :
    next.position = .entity := by
  unfold parseHeaderLine at read
  split at read
  · rename_i found
    rcases scanToken_error (scannerGetToken_error found) with rfl | rfl <;> cases read
  · split at read
    · split_ifs at read
      · cases read
      · cases read
        rfl
    · simp only at read
      split_ifs at read with failed
      · exact absurd (congrArg Prod.fst read) failed
      · cases read
    · cases read

theorem parserParseHeaders_ok {p next : HttpParser} (parsed : parserParseHeaders p = (.ok, next)) :
    next.position = .entity := by
  fun_induction parserParseHeaders p with
  | case1 p middle found ih => exact ih parsed
  | case2 p => exact parseHeaderLine_ok parsed

theorem readMethodOfLength_not_ok (p : HttpParser) : (readMethodOfLength p).1 ≠ .ok := by
  unfold readMethodOfLength
  split
  · nofun
  · split_ifs <;> nofun

theorem parserEntityRound_not_ok (p : HttpParser) : (parserEntityRound p).1 ≠ .ok := by
  unfold parserEntityRound
  split
  · simp only [parserParseEntityUsingClen]
    split_ifs <;> nofun
  · simp only [parserParseChunkyEntity, parserChunkSizeRead]
    split_ifs with failed
    · exact failed
    all_goals nofun
  · simp only [parserParseChunkyBody]
    split_ifs with loaded failed
    · exact failed
    all_goals nofun
  · simp only [parserParseChunkyHeaders]
    split_ifs with ended
    · nofun
    · exact ended
  · nofun
  · unfold parserGetEntityReadMethod
    split_ifs
    · nofun
    · nofun
    · exact readMethodOfLength_not_ok _

theorem parserParseEntity_not_ok (p : HttpParser) : (parserParseEntity p).1 ≠ .ok := by
  fun_induction parserParseEntity p with
  | case1 p next found ih => exact ih
  | case2 p => exact parserEntityRound_not_ok p

theorem parserRound_rank {res : Resolver} {p next : HttpParser}
    (round : parserRound res p = (.ok, next)) : next.position.rank < p.position.rank := by
  unfold parserRound at round
  split at round
  · exact absurd (congrArg Prod.fst round) (parserParseEntity_not_ok p)
  · rename_i here
    rw [parserParseHeaders_ok round, here]
    decide
  · rename_i here
    rw [parserParseRequestline_ok round, here]
    decide
  · rename_i here
    rw [parserParseResponseline_ok round, here]
    decide
  · cases round

def parserParse (res : Resolver) (p : HttpParser) : ParseResult :=
  match _h : parserRound res p with
  | (.ok, next) => parserParse res next
  | r => r
termination_by p.position.rank
decreasing_by exact parserRound_rank _h

def Scanner.extend (sc : Scanner) (buf : List UInt8) : Scanner := { sc with msg := sc.msg ++ buf }

def HttpParser.extend (p : HttpParser) (buf : List UInt8) : HttpParser :=
  p.withScanner (p.scanner.extend buf)

def parserAppend (res : Resolver) (p : HttpParser) (buf : List UInt8) : ParseResult :=
  parserParse res (p.extend buf)

end Pupnp.Http
