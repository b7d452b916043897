import Pupnp.Http.Trailers
import Pupnp.Library.Hex

/-!
A chunked body as a list of chunks, with sizes of any magnitude, and the parser's
way through one whose sizes fit into the 32 bits that it keeps of them.
-/

namespace Pupnp.Http
open Pupnp.CString Pupnp.Uri Pupnp.Stream

/-- A body that consists of these chunks; the last two bytes list is what follows the line of the
chunk of size zero. -/
inductive ChunkedBody : List UInt8 → List (List UInt8) → List UInt8 → Prop
  | last {body tail : List UInt8} (line : chunkSizeLine body = some (0, tail)) :
      ChunkedBody body [] tail
  | chunk {body data ending later tail : List UInt8} {chunks : List (List UInt8)}
      (line : chunkSizeLine body = some ((data.length : Int), data ++ ending)) (nonempty : data ≠ [])
      (ends : chunkEnd ending = some later) (more : ChunkedBody later chunks tail) :
      ChunkedBody body (data :: chunks) tail

/-! ### Lines of the scanner -/

theorem scanToken_run {text : List UInt8} (nonempty : text ≠ [])
    (chars : ∀ c ∈ text, isIdentifierChar c = true) {stop : UInt8}
    (ends : isIdentifierChar stop = false) (rest : List UInt8) :
    scanToken false (text ++ stop :: rest) = .ok (.identifier, text.length) := by
  cases text with
  | nil => exact absurd rfl nonempty
  | cons c others =>
    have run : (others ++ stop :: rest).takeWhile isIdentifierChar = others := by
      rw [takeWhile_append_stop others ends, List.takeWhile_eq_self_iff]
      exact fun d member => chars d (List.mem_cons_of_mem c member)
    simp only [List.cons_append, scanToken, chars c List.mem_cons_self, if_true, scanRun, run]
    simp

theorem scanToken_lineEnd (rest : List UInt8) :
    scanToken false (CR :: LF :: rest) = .ok (.crlf, 2) := by
  have identifier : isIdentifierChar 13 = false := by decide
  simp [scanToken, identifier, CR, LF, SP, TAB]

theorem isXdigit_identifier {c : UInt8} (digit : isXdigit c = true) : isIdentifierChar c = true := by
  revert digit
  revert c
  apply forall_byte
  decide +kernel

theorem crlfToken {sc : Scanner} (more : sc.Open) {rest : List UInt8}
    (here : sc.rest = CR :: LF :: rest) :
    scannerGetToken sc = .ok (⟨.crlf, ⟨sc.cursor, 2⟩⟩, { sc with cursor := sc.cursor + 2 }) := by
  rw [scannerGetToken_rest, more.entire, here, scanToken_lineEnd]

theorem rest_advance {sc : Scanner} {text rest : List UInt8} (here : sc.rest = text ++ rest) :
    Scanner.rest { sc with cursor := sc.cursor + text.length } = rest := by
  have dropped : sc.rest.drop text.length = rest := by rw [here, List.drop_left]
  rwa [Scanner.rest, List.drop_drop] at dropped

theorem chunkSizeLine_hexDigits {n : Nat} (fits : n < 2 ^ 63) (data : List UInt8) :
    chunkSizeLine (hexDigits n ++ CR :: LF :: data) = some ((n : Int), data) := by
  have chars : ∀ c ∈ hexDigits n, isIdentifierChar c = true :=
    fun c member => isXdigit_identifier (hexDigits_isXdigit n c member)
  have stop : isIdentifierChar CR = false := by decide
  have number := strtol_hex (hexDigits_ne_nil n) (hexDigits_isXdigit n)
    (by rw [digitsValue_hexDigits]; exact fits)
  rw [digitsValue_hexDigits] at number
  set sc := scannerInit (hexDigits n ++ CR :: LF :: data) with sc_eq
  have more : sc.Open := ⟨rfl, Nat.zero_le _⟩
  have here : sc.rest = hexDigits n ++ CR :: LF :: data := rfl
  set next : Scanner := { sc with cursor := sc.cursor + (hexDigits n).length } with next_eq
  have token : scannerGetToken sc =
      .ok (⟨.identifier, ⟨sc.cursor, (hexDigits n).length⟩⟩, next) := by
    rw [scannerGetToken_rest, more.entire, here, scanToken_run (hexDigits_ne_nil n) chars stop]
    rfl
  have size : matchInt sc 16 = (.ok, next, some (toInt32 n)) := by
    have read : strtol 16 (sc.msg.drop sc.cursor) = ⟨n, (hexDigits n).length, false⟩ := by
      rw [show sc.msg.drop sc.cursor = _ from here,
        strtol_identifier (by decide) (hexDigits_ne_nil n) chars stop, number]
    simp only [matchInt, token, if_true, read]
    simp
  have behind : next.rest = CR :: LF :: data := rest_advance here
  have open_ : next.Open := ((scannerGetToken_reaches token).opened more)
  have crlf := crlfToken open_ behind
  have line : readUntilCrlf next = (.ok, next, ⟨next.cursor, 0⟩) := by
    have run : crlfRun next = (.ok, next) := by
      rw [crlfRun]
      split
      next status found =>
        rw [crlf] at found
        contradiction
      next token after found =>
        rw [crlf] at found
        obtain ⟨rfl, rfl⟩ := Prod.mk.inj (Except.ok.inj found)
        simp
    simp [readUntilCrlf, run]
  have loop : vfmatchLoop true sc [.int 16, .line, .crlf] =
      (.ok, { next with cursor := next.cursor + 2 },
        [.int (toInt32 n), .str ⟨next.cursor, 0⟩]) := by
    simp [vfmatchLoop, matchDirective, size, line, matchToken, crlf]
  have matched : matchFormat sc "%x%L%c" = (.ok, { next with cursor := next.cursor + 2 },
      [.int (toInt32 n), .str ⟨next.cursor, 0⟩]) := by
    rw [matchFormat, format_chunkSize, vfmatch, loop]
    simp
  have left : Scanner.rest { next with cursor := next.cursor + 2 } = data :=
    @rest_advance _ [CR, LF] _ behind
  simp only [chunkSizeLine, ← sc_eq, matched, if_true, left]
  rw [takeWhile_append_stop _ stop, List.takeWhile_eq_self_iff.mpr chars, wholeNumber_hexDigits]
  rfl

theorem chunkEnd_crlf (later : List UInt8) : chunkEnd (CR :: LF :: later) = some later := by
  set sc := scannerInit (CR :: LF :: later) with sc_eq
  have more : sc.Open := ⟨rfl, Nat.zero_le _⟩
  have here : sc.rest = CR :: LF :: later := rfl
  have matched : matchFormat sc "%c" = (.ok, { sc with cursor := sc.cursor + 2 }, []) := by
    rw [matchFormat, format_chunkEnd, vfmatch]
    simp [vfmatchLoop, matchDirective, matchToken, crlfToken more here]
  have left : Scanner.rest { sc with cursor := sc.cursor + 2 } = later :=
    @rest_advance _ [CR, LF] _ here
  simp only [chunkEnd, ← sc_eq, matched, if_true, left]

/-! ### The parser in the chunks -/

/-- The parser in front of a size line: `done` is the entity so far, `ahead` what is loaded
behind it. -/
structure HttpParser.AtChunk (p : HttpParser) (done ahead : List UInt8) : Prop where
  entPosition : p.entPosition = .usingChunked
  more : p.scanner.Open
  started : p.entityStartPosition ≤ p.scanner.cursor
  done : (p.scanner.msg.take p.scanner.cursor).drop p.entityStartPosition = done
  ahead : p.scanner.rest = ahead
  discarded : p.msg.amountDiscarded = 0
  small : p.chunkSize < 2 ^ 32

theorem chunkSizeLine_match {sc : Scanner} (more : sc.Open) {value : Int} {data : List UInt8}
    (line : chunkSizeLine sc.rest = some (value, data)) :
    (matchFormat sc "%x%L%c").1 = .ok ∧ (matchFormat sc "%x%L%c").2.1.rest = data ∧
      ∃ args, (matchFormat sc "%x%L%c").2.2 = .int (toInt32 value) :: args := by
  have alike := matchFormat_alike (Scanner.alike_init more.entire) chunkSize_relative
  have matched : (matchFormat sc "%x%L%c").1 = .ok := by
    rw [alike.1]
    by_contra failed
    simp only [chunkSizeLine, if_neg failed] at line
    contradiction
  obtain ⟨value', size⟩ := chunkSize_number more matched
  obtain ⟨rfl, rest⟩ := Prod.mk.inj (Option.some.inj (size.line.symm.trans line))
  exact ⟨matched, rest, size.stored⟩

theorem chunkEnd_matched {sc : Scanner} (more : sc.Open) {later : List UInt8}
    (line : chunkEnd sc.rest = some later) :
    (matchFormat sc "%c").1 = .ok ∧ (matchFormat sc "%c").2.1.rest = later := by
  have alike := matchFormat_alike (Scanner.alike_init more.entire) chunkEnd_relative
  have matched : (matchFormat sc "%c").1 = .ok := by
    rw [alike.1]
    by_contra failed
    simp only [chunkEnd, if_neg failed] at line
    contradiction
  exact ⟨matched, Option.some.inj ((chunkEnd_match more matched).symm.trans line)⟩

theorem Scanner.deleteFrom_take {sc : Scanner} {savePos : Nat} (inside : savePos ≤ sc.msg.length) :
    (sc.deleteFrom savePos).msg.take savePos = sc.msg.take savePos := by
  have size : (sc.msg.take savePos).length = savePos := by
    rw [List.length_take]
    omega
  simp only [Scanner.deleteFrom, membufferDelete]
  rw [List.take_append_of_le_length size.ge, List.take_take, Nat.min_self]

theorem takenSize_small {n : Nat} (small : n < 2 ^ 32) : takenSize n = n := by
  unfold takenSize
  omega

theorem parserParseChunkyEntity_line {p : HttpParser} {done ahead data : List UInt8} {n : Nat}
    (here : p.AtChunk done ahead) (line : chunkSizeLine ahead = some ((n : Int), data))
    (small : n < 2 ^ 32) :
    ∃ sc, sc.Open ∧ sc.cursor = p.scanner.cursor ∧
      sc.msg.take p.scanner.cursor = p.scanner.msg.take p.scanner.cursor ∧ sc.rest = data ∧
      parserParseChunkyEntity p = parserChunkSizeRead ((p.withChunkSize n).withScanner sc) := by
  have line' : chunkSizeLine p.scanner.rest = some ((n : Int), data) := by rw [here.ahead, line]
  obtain ⟨matched, rest, args, stored⟩ := chunkSizeLine_match here.more line'
  have moved := (matchFormat_matched p.scanner "%x%L%c").reaches
  have open_ := moved.opened here.more
  refine ⟨(matchFormat p.scanner "%x%L%c").2.1.deleteFrom p.scanner.cursor, ⟨open_.entire, ?_⟩,
    rfl, ?_, ?_, ?_⟩
  · have left := Scanner.deleteFrom_remaining moved.forward
    have bound := open_.inside
    have inside := here.more.inside
    simp only [Scanner.deleteFrom, membufferDelete, List.length_append, List.length_take,
      List.length_drop, moved.msg] at left ⊢
    omega
  · rw [Scanner.deleteFrom_take (by rw [moved.msg]; exact here.more.inside), moved.msg]
  · rw [Scanner.deleteFrom_rest moved.forward open_.inside, rest]
  · simp only [parserParseChunkyEntity, matched, stored, storeChunkSize]
    rw [storeLow32_taken here.small, takenSize_small small]
    simp

theorem parserParseChunkyBody_data {p : HttpParser} (more : p.scanner.Open)
    {data ending later : List UInt8} (rest : p.scanner.rest = data ++ ending)
    (size : p.chunkSize = data.length) (ends : chunkEnd ending = some later) :
    ∃ sc, sc.Open ∧ sc.cursor = p.scanner.cursor + data.length ∧
      sc.msg.take sc.cursor = p.scanner.msg.take p.scanner.cursor ++ data ∧ sc.rest = later ∧
      parserParseChunkyBody p = (.continue1, ((p.withEntity
        ⟨p.msg.entity.buf, p.msg.entity.length + data.length⟩).withScanner sc).withEntPosition
          .usingChunked) := by
  have loaded : data.length + ending.length = p.scanner.msg.length - p.scanner.cursor := by
    have lengths := congrArg List.length rest
    rw [Scanner.rest, List.length_drop, List.length_append] at lengths
    exact lengths.symm
  have inside := more.inside
  set behind : Scanner := { p.scanner with cursor := p.scanner.cursor + data.length } with behind_eq
  have behindRest : behind.rest = ending := rest_advance rest
  have behindOpen : behind.Open := ⟨more.entire, by rw [behind_eq]; dsimp only; omega⟩
  obtain ⟨matched, left⟩ := chunkEnd_matched behindOpen (by rw [behindRest]; exact ends)
  have moved := (matchFormat_matched behind "%c").reaches
  have open_ := moved.opened behindOpen
  refine ⟨(matchFormat behind "%c").2.1.deleteFrom behind.cursor, ⟨open_.entire, ?_⟩, rfl, ?_, ?_, ?_⟩
  · have bound := open_.inside
    have before := behindOpen.inside
    simp only [Scanner.deleteFrom, membufferDelete, List.length_append, List.length_take,
      List.length_drop, moved.msg] at bound ⊢
    omega
  · change ((matchFormat behind "%c").2.1.deleteFrom behind.cursor).msg.take behind.cursor = _
    rw [Scanner.deleteFrom_take (by rw [moved.msg]; exact behindOpen.inside), moved.msg]
    change p.scanner.msg.take (p.scanner.cursor + data.length) = _
    rw [List.take_add]
    congr 1
    change (p.scanner.rest).take data.length = data
    rw [rest, List.take_left]
  · rw [Scanner.deleteFrom_rest moved.forward open_.inside, left]
  · have fits : data.length ≤ p.scanner.msg.length - p.scanner.cursor := by omega
    simp only [parserParseChunkyBody, size]
    rw [if_pos fits]
    change (if (matchFormat behind "%c").1 ≠ .ok then _ else _) = _
    rw [if_neg (not_not.mpr matched)]

/-- The parser behind the last chunk: `data` is the entity, `tail` what is loaded behind it. -/
structure HttpParser.AtTrailers (p q : HttpParser) (data tail : List UInt8) : Prop where
  entPosition : q.entPosition = .chunkyHeaders
  more : q.scanner.Open
  start : q.entityStartPosition = p.entityStartPosition
  started : q.entityStartPosition ≤ q.scanner.cursor
  done : (q.scanner.msg.take q.scanner.cursor).drop q.entityStartPosition = data
  ahead : q.scanner.rest = tail
  msg : q.msg = { p.msg with entity := ⟨p.msg.entity.buf, data.length⟩ }

theorem parserParseEntity_chunks {p : HttpParser} {done ahead tail : List UInt8}
    {chunks : List (List UInt8)} (here : p.AtChunk done ahead)
    (body : ChunkedBody ahead chunks tail) (small : ∀ c ∈ chunks, c.length < 2 ^ 32) :
    ∃ q, parserParseEntity p = parserParseEntity q ∧ p.AtTrailers q (done ++ chunks.flatten) tail := by
  induction body generalizing p done with
  | @last body tail line =>
    obtain ⟨sc, open_, cursor, taken, rest, round⟩ :=
      parserParseChunkyEntity_line (n := 0) here line (by decide)
    have size : done.length = p.scanner.cursor - p.entityStartPosition := by
      rw [← here.done, List.length_drop, List.length_take, Nat.min_eq_left here.more.inside]
    have read : parserEntityRound p = (.continue1, (((p.withChunkSize 0).withScanner sc).withEntity
        ⟨p.msg.entity.buf, done.length⟩).withEntPosition .chunkyHeaders) := by
      rw [parserEntityRound, here.entPosition]
      simp only
      rw [round, parserChunkSizeRead,
        if_pos (show ((p.withChunkSize 0).withScanner sc).chunkSize = 0 from rfl), size, ← cursor]
      simp only [HttpParser.withScanner_scanner, HttpParser.withScanner_msg]
      change (ParseStatus.continue1, HttpParser.withEntPosition (HttpParser.withEntity _
        ⟨p.msg.entity.buf, sc.cursor - p.entityStartPosition + p.msg.amountDiscarded⟩) _) = _
      rw [here.discarded, Nat.add_zero]
    refine ⟨_, parserParseEntity_next (by rw [read]), ?_⟩
    rw [read, List.flatten_nil, List.append_nil]
    refine ⟨rfl, open_, rfl, ?_, ?_, rest, rfl⟩
    · exact cursor ▸ here.started
    · change (sc.msg.take sc.cursor).drop p.entityStartPosition = done
      rw [cursor, taken, here.done]
  | @chunk body data ending later tail chunks line nonempty ends more ih =>
    have fits : data.length < 2 ^ 32 := small data List.mem_cons_self
    have positive := List.length_pos_iff.mpr nonempty
    obtain ⟨sc, open_, cursor, taken, rest, round⟩ :=
      parserParseChunkyEntity_line here line fits
    set sized := ((p.withChunkSize data.length).withScanner sc).withEntPosition .chunkyBody
      with sized_eq
    have read : parserEntityRound p = (.continue1, sized) := by
      rw [parserEntityRound, here.entPosition]
      simp only
      rw [round, parserChunkSizeRead, if_neg]
      exact Nat.pos_iff_ne_zero.mp positive
    obtain ⟨sc', open', cursor', taken', rest', round'⟩ :=
      @parserParseChunkyBody_data sized open_ data ending later rest rfl ends
    set next := ((sized.withEntity ⟨p.msg.entity.buf, p.msg.entity.length + data.length⟩).withScanner
      sc').withEntPosition .usingChunked with next_eq
    have read' : parserEntityRound sized = (.continue1, next) := round'
    have below : p.entityStartPosition ≤ sc.cursor := cursor ▸ here.started
    have behind : sc'.cursor = sc.cursor + data.length := cursor'
    have at_next : next.AtChunk (done ++ data) later := by
      refine ⟨rfl, open', ?_, ?_, rest', here.discarded, fits⟩
      · change p.entityStartPosition ≤ sc'.cursor
        omega
      · change (sc'.msg.take sc'.cursor).drop p.entityStartPosition = done ++ data
        have size : p.entityStartPosition ≤ (sc.msg.take sc.cursor).length := by
          rw [List.length_take, Nat.min_eq_left open_.inside]
          exact below
        rw [taken']
        change (sc.msg.take sc.cursor ++ data).drop p.entityStartPosition = _
        rw [List.drop_append_of_le_length size, cursor, taken, here.done]
    obtain ⟨q, same, there⟩ := ih at_next fun c member => small c (List.mem_cons_of_mem data member)
    refine ⟨q, ?_, there.entPosition, there.more, there.start, there.started, ?_, there.ahead, ?_⟩
    · rw [parserParseEntity_next (by rw [read]), read, parserParseEntity_next (by rw [read']), read',
        same]
    · rw [there.done, List.flatten_cons, List.append_assoc]
    · rw [there.msg, List.flatten_cons, ← List.append_assoc]
      rfl

theorem parserParseEntity_lineEnd {p q : HttpParser} {data rest : List UInt8}
    (there : p.AtTrailers q data (CR :: LF :: rest))
    (buf : p.msg.entity.buf = some p.entityStartPosition) :
    (parserParseEntity q).1 = .success ∧ (parserParseEntity q).2.entityBytes = data := by
  have token := crlfToken there.more there.ahead
  have inside := there.more.inside
  have entity : q.msg.entity = ⟨some q.entityStartPosition, data.length⟩ := by
    rw [there.msg, there.start, buf]
  have size : q.entityStartPosition + data.length = q.scanner.cursor := by
    have started := there.started
    rw [← there.done, List.length_drop, List.length_take, Nat.min_eq_left inside]
    omega
  have reads : ∀ msg : List UInt8, msg.take q.scanner.cursor = q.scanner.msg.take q.scanner.cursor →
      (Memptr.mk q.entityStartPosition data.length).read msg = data := by
    intro msg same
    rw [Memptr.read, List.take_drop]
    simp only
    rw [size, same, there.done]
  set next : Scanner := { q.scanner with cursor := q.scanner.cursor + 2 } with next_eq
  have moved := scannerGetToken_reaches token
  have last : (parserEntityRound q).1 ≠ .continue1 := by
    rw [parserEntityRound, there.entPosition]
    exact parserParseChunkyHeaders_not_continue q
  rw [parserParseEntity_last last, parserEntityRound, there.entPosition]
  simp only
  by_cases post : (q.msg.isRequest && q.msg.method = .post) = true
  · have line : parseHeaderLine q = (.success, { q with scanner := next, position := .complete }) := by
      rw [parseHeaderLine, token]
      simp only [if_pos post]
    have headers : parserParseHeaders q = parseHeaderLine q :=
      parserParseHeaders_last (by rw [line]; simp)
    rw [parserParseChunkyHeaders, headers, line, if_neg (by simp)]
    refine ⟨rfl, ?_⟩
    rw [HttpParser.entityBytes]
    simp only [entity]
    exact reads _ rfl
  · have line : parseHeaderLine q = (.ok, { q with scanner := next, position := .entity }) := by
      rw [parseHeaderLine, token]
      simp only [if_neg post]
    have headers : parserParseHeaders q = parseHeaderLine q :=
      parserParseHeaders_last (by rw [line]; simp)
    rw [parserParseChunkyHeaders, headers, line, if_pos rfl]
    refine ⟨rfl, ?_⟩
    rw [HttpParser.entityBytes]
    simp only [HttpParser.withPosition, HttpParser.withScanner, HttpParser.withEntity, entity]
    apply reads
    exact Scanner.deleteFrom_take inside

end Pupnp.Http
