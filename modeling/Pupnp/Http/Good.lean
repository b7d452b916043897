import Pupnp.Http.RequestCut

/-!
The invariant of the parser: the cursor and the entity lie inside the buffer, and
while chunks are read the entity lies before the cursor. Every round keeps it.
-/

namespace Pupnp.Http
open Pupnp.CString Pupnp.Uri

def MatchArg.Inside (size : Nat) : MatchArg → Prop
  | .str m => m.buf + m.length ≤ size
  | .int _ => True

theorem matchToken_inside (sc : Scanner) (type : TokenType) (store : Bool) :
    ∀ a ∈ (matchToken sc type store).2.2, a.Inside sc.msg.length := by
  unfold matchToken
  split
  · nofun
  · rename_i token next found
    obtain ⟨-, start, -, bound⟩ := scannerGetToken_ok found
    intro a member
    dsimp only at member
    split_ifs at member
    · rw [List.mem_singleton] at member
      subst member
      rw [MatchArg.Inside, start]
      exact bound
    · cases member

theorem trimRight_le (value : List UInt8) : trimRight value ≤ value.length :=
  (List.rdropWhile_prefix isBlank value).length_le

theorem matchRawValue_inside {sc : Scanner} (inside : sc.cursor ≤ sc.msg.length) :
    (matchRawValue sc).2.2.buf + (matchRawValue sc).2.2.length ≤ sc.msg.length := by
  have bound := rawValueRun_length none 0 inside
  simp only [matchRawValue]
  split_ifs
  · have trim := trimRight_le (Memptr.read ⟨sc.cursor, (rawValueRun sc none 0).2.2⟩ sc.msg)
    have taken : (Memptr.read ⟨sc.cursor, (rawValueRun sc none 0).2.2⟩ sc.msg).length ≤
        (rawValueRun sc none 0).2.2 := by
      simp only [Memptr.read, List.length_take]
      omega
    dsimp only
    omega
  · dsimp only
    omega

theorem matchDirective_inside {caseSensitive : Bool} {sc : Scanner} {d : Directive}
    (inside : sc.cursor ≤ sc.msg.length) :
    ∀ a ∈ (matchDirective caseSensitive sc d).2.2, a.Inside sc.msg.length := by
  have slice {m : Memptr} (bound : m.buf + m.length ≤ sc.msg.length) :
      ∀ a ∈ [MatchArg.str m], a.Inside sc.msg.length := by
    intro a member
    rw [List.mem_singleton] at member
    subst member
    exact bound
  have run {next : Scanner} (moved : sc.Reaches next) :
      sc.cursor + (next.cursor - sc.cursor) ≤ sc.msg.length := by
    have bound := moved.bound
    omega
  cases d with
  | rawValue => exact slice (matchRawValue_inside inside)
  | identifier => exact matchToken_inside sc _ _
  | crlf => exact matchToken_inside sc _ _
  | int base =>
    intro a member
    simp only [matchDirective, List.mem_map] at member
    obtain ⟨value, -, rfl⟩ := member
    trivial
  | nonWsString =>
    have same : (matchNonWsString sc).2.2 = ⟨sc.cursor, (nonWsRun sc).2.cursor - sc.cursor⟩ := by
      simp only [matchNonWsString]
      split_ifs <;> rfl
    simp only [matchDirective, same]
    exact slice (run (nonWsRun_matched sc).reaches)
  | line => exact slice (run (crlfRun_matched sc).reaches)
  | quoted => exact matchToken_inside sc _ _
  | optionalWs =>
    simp only [matchDirective, matchOptionalWs]
    split <;> simp
  | position =>
    intro a member
    rw [matchDirective, List.mem_singleton] at member
    subst member
    trivial
  | endOfMsg =>
    intro a member
    cases member
  | lws =>
    intro a member
    cases member
  | ws => exact matchToken_inside sc _ _
  | char c =>
    intro a member
    cases member
  | setCase =>
    intro a member
    cases member

theorem vfmatchLoop_inside {caseSensitive : Bool} {sc : Scanner} {fmt : List Directive}
    (inside : sc.cursor ≤ sc.msg.length) :
    ∀ a ∈ (vfmatchLoop caseSensitive sc fmt).2.2, a.Inside sc.msg.length := by
  induction fmt generalizing caseSensitive sc with
  | nil => nofun
  | cons d rest ih =>
    by_cases here : (matchDirective caseSensitive sc d).1 = .ok
    · have moved := (matchDirective_matched caseSensitive sc d).reaches
      have bound := moved.bound
      rw [vfmatchLoop_cons here]
      intro a member
      rcases List.mem_append.mp member with first | later
      · exact matchDirective_inside inside a first
      · exact moved.msg ▸ ih (by rw [moved.msg]; omega) a later
    · rw [vfmatchLoop_stop here]
      exact matchDirective_inside inside

theorem strArg_inside {args : List MatchArg} {size : Nat} (inside : ∀ a ∈ args, a.Inside size)
    (i : Nat) : (strArg args i).buf + (strArg args i).length ≤ size := by
  unfold strArg
  split
  · rename_i m found
    exact inside _ (List.mem_of_getElem? found)
  · exact Nat.zero_le _

theorem strArg_read_append {sc : Scanner} (more : sc.Open) (fmt : String) (i : Nat)
    (buf : List UInt8) :
    (strArg (matchFormat sc fmt).2.2 i).read (sc.msg ++ buf) =
      (strArg (matchFormat sc fmt).2.2 i).read sc.msg :=
  Memptr.read_append (strArg_inside (vfmatchLoop_inside more.inside) i) buf

def EntPosition.isChunked : EntPosition → Bool
  | .usingChunked => true
  | .chunkyBody => true
  | .chunkyHeaders => true
  | _ => false

def HttpParser.entityLimit (p : HttpParser) : Nat :=
  if p.entPosition.isChunked then p.scanner.cursor else p.scanner.msg.length

structure HttpParser.Good (p : HttpParser) : Prop where
  more : p.scanner.Open
  discarded : p.msg.amountDiscarded = 0
  started : p.entPosition ≠ .determineReadMethod → p.msg.entity.buf = some p.entityStartPosition
  entity : ∀ buf, p.msg.entity.buf = some buf → buf + p.msg.entity.length ≤ p.entityLimit

structure HttpParser.Advances (p next : HttpParser) : Prop where
  reaches : p.scanner.Reaches next.scanner
  entity : next.msg.entity = p.msg.entity
  entPosition : next.entPosition = p.entPosition
  start : next.entityStartPosition = p.entityStartPosition
  discarded : next.msg.amountDiscarded = p.msg.amountDiscarded
  chunkSize : next.chunkSize = p.chunkSize

theorem HttpParser.Advances.refl (p : HttpParser) : p.Advances p :=
  ⟨.refl _, rfl, rfl, rfl, rfl, rfl⟩

theorem HttpParser.Advances.trans {a b c : HttpParser} (first : a.Advances b)
    (second : b.Advances c) : a.Advances c :=
  ⟨first.reaches.trans second.reaches, second.entity.trans first.entity,
    second.entPosition.trans first.entPosition, second.start.trans first.start,
    second.discarded.trans first.discarded, second.chunkSize.trans first.chunkSize⟩

theorem HttpParser.Advances.limit {p next : HttpParser} (step : p.Advances next) :
    p.entityLimit ≤ next.entityLimit := by
  have forward := step.reaches.forward
  unfold HttpParser.entityLimit
  rw [step.entPosition, step.reaches.msg]
  split_ifs <;> omega

theorem HttpParser.Advances.good {p next : HttpParser} (step : p.Advances next) (good : p.Good) :
    next.Good := by
  refine ⟨step.reaches.opened good.more, step.discarded.trans good.discarded, ?_, ?_⟩
  · rw [step.entPosition, step.entity, step.start]
    exact good.started
  · rw [step.entity]
    intro buf found
    exact (good.entity buf found).trans step.limit

theorem HttpParser.Good.extend {p : HttpParser} (good : p.Good) (buf : List UInt8) :
    (p.extend buf).Good := by
  have longer : p.scanner.msg.length ≤ (p.extend buf).scanner.msg.length := by
    simp [HttpParser.extend, HttpParser.withScanner, Scanner.extend]
  refine ⟨⟨good.more.entire, good.more.inside.trans longer⟩, good.discarded, good.started, ?_⟩
  intro b found
  refine (good.entity b found).trans ?_
  unfold HttpParser.entityLimit
  split_ifs with chunks chunks' chunks'
  · exact le_rfl
  · exact absurd chunks chunks'
  · exact absurd chunks' chunks
  · exact longer

theorem storeVersion_frame (msg : HttpMessage) (scanned : List Int) :
    (storeVersion msg scanned).entity = msg.entity ∧
      (storeVersion msg scanned).amountDiscarded = msg.amountDiscarded := by
  unfold storeVersion
  split <;> exact ⟨rfl, rfl⟩

theorem parserParseSimpleGet_advances (res : Resolver) (p : HttpParser) (method url : List UInt8) :
    p.Advances (parserParseSimpleGet res p method url).2 := by
  have moved : p.scanner.Reaches p.scanner := .refl _
  unfold parserParseSimpleGet
  split
  · exact ⟨moved, rfl, rfl, rfl, rfl, rfl⟩
  · split_ifs
    · exact ⟨moved, rfl, rfl, rfl, rfl, rfl⟩
    · dsimp only
      split <;> exact ⟨moved, rfl, rfl, rfl, rfl, rfl⟩

theorem parserParseFullRequest_advances (res : Resolver) (p : HttpParser)
    (method url version : List UInt8) :
    p.Advances (parserParseFullRequest res p method url version).2 := by
  have moved : p.scanner.Reaches p.scanner := .refl _
  have frame := fun uri => storeVersion_frame
    { p.msg with urlbuf := stripSlashes url, uri := some uri } (sscanfVersion version).1
  simp only [parserParseFullRequest]
  split
  · exact ⟨moved, rfl, rfl, rfl, rfl, rfl⟩
  · rename_i uri _
    split
    · exact ⟨moved, rfl, rfl, rfl, rfl, rfl⟩
    · split_ifs <;> exact ⟨moved, (frame uri).1, rfl, rfl, (frame uri).2, rfl⟩

theorem parserParseRequestline_advances (res : Resolver) (p : HttpParser) :
    p.Advances (parserParseRequestline res p).2 := by
  have blank := (skipBlankLines_matched p.scanner).reaches
  have simple := (matchFormat_matched (skipBlankLines p.scanner).2 "%s\t%S%w%c").reaches
  have full := (matchFormat_matched (skipBlankLines p.scanner).2
    "%s\t%S\t%ihttp%w/%w%L%c").reaches
  have step {next : Scanner} (moved : p.scanner.Reaches next) :
      p.Advances (p.withScanner next) := ⟨moved, rfl, rfl, rfl, rfl, rfl⟩
  simp only [parserParseRequestline, parserMatchRequestline]
  split_ifs
  · exact step blank
  · exact (step (blank.trans simple)).trans (parserParseSimpleGet_advances _ _ _ _)
  · exact step (blank.trans full)
  · exact (step (blank.trans full)).trans (parserParseFullRequest_advances _ _ _ _ _)

theorem parserParseStatusLine_advances (p : HttpParser) (line : Memptr) :
    p.Advances (parserParseStatusLine p line).2 := by
  have moved : p.scanner.Reaches p.scanner := .refl _
  have frame := storeVersion_frame p.msg (sscanfStatus (line.read p.scanner.msg))
  simp only [parserParseStatusLine]
  split_ifs <;> exact ⟨moved, frame.1, rfl, rfl, frame.2, rfl⟩

theorem parserParseResponseline_advances (p : HttpParser) :
    p.Advances (parserParseResponseline p).2 := by
  have blank := (skipBlankLines_matched p.scanner).reaches
  have line := (matchFormat_matched (skipBlankLines p.scanner).2 "%ihttp%w/%w%L%c").reaches
  have step {next : Scanner} (moved : p.scanner.Reaches next) :
      p.Advances (p.withScanner next) := ⟨moved, rfl, rfl, rfl, rfl, rfl⟩
  simp only [parserParseResponseline, parserMatchResponseline]
  split_ifs
  · exact step blank
  · exact step (blank.trans line)
  · exact (step (blank.trans line)).trans (parserParseStatusLine_advances _ _)

theorem addHeader_frame (msg : HttpMessage) (name value : List UInt8) :
    (addHeader msg name value).entity = msg.entity ∧
      (addHeader msg name value).amountDiscarded = msg.amountDiscarded := by
  unfold addHeader
  dsimp only
  split_ifs <;> split <;> exact ⟨rfl, rfl⟩

theorem parseHeaderLine_advances (p : HttpParser) : p.Advances (parseHeaderLine p).2 := by
  unfold parseHeaderLine
  split
  · exact .refl p
  · rename_i token next found
    have moved := scannerGetToken_reaches found
    have value := (matchFormat_matched next " : %R%c").reaches
    split
    · split_ifs <;> exact ⟨moved, rfl, rfl, rfl, rfl, rfl⟩
    · dsimp only
      split_ifs
      · exact .refl p
      · have frame := addHeader_frame p.msg (token.str.read p.scanner.msg)
          ((strArg (matchFormat next " : %R%c").2.2 0).read p.scanner.msg)
        exact ⟨moved.trans value, frame.1, rfl, rfl, frame.2, rfl⟩
    · exact ⟨moved, rfl, rfl, rfl, rfl, rfl⟩

theorem parserParseHeaders_advances (p : HttpParser) : p.Advances (parserParseHeaders p).2 := by
  fun_induction parserParseHeaders p with
  | case1 p next found ih =>
    have step := parseHeaderLine_advances p
    rw [found] at step
    exact step.trans ih
  | case2 p => exact parseHeaderLine_advances p

theorem Scanner.deleteFrom_open {sc : Scanner} {savePos : Nat} (more : sc.Open)
    (before : savePos ≤ sc.cursor) : (sc.deleteFrom savePos).Open := by
  have inside := more.inside
  refine ⟨more.entire, ?_⟩
  simp only [Scanner.deleteFrom, membufferDelete, List.length_append, List.length_take]
  omega

namespace HttpParser.Good

variable {p : HttpParser} (good : p.Good)
include good

theorem started_bound (settled : p.entPosition ≠ .determineReadMethod) :
    p.entityStartPosition + p.msg.entity.length ≤ p.entityLimit :=
  good.entity _ (good.started settled)

theorem chunk_bound (chunks : p.entPosition.isChunked = true) :
    p.entityStartPosition + p.msg.entity.length ≤ p.scanner.cursor := by
  have settled : p.entPosition ≠ .determineReadMethod := by
    intro same
    rw [same] at chunks
    cases chunks
  have bound := good.started_bound settled
  rwa [HttpParser.entityLimit, if_pos chunks] at bound

theorem chunk_started (chunks : p.entPosition.isChunked = true) :
    p.msg.entity.buf = some p.entityStartPosition := by
  refine good.started ?_
  intro same
  rw [same] at chunks
  cases chunks

/-- While chunks are read the entity ends before the cursor, whatever moves behind it. -/
theorem of_chunk {next : HttpParser} (more : next.scanner.Open)
    (chunks : next.entPosition.isChunked = true)
    (discarded : next.msg.amountDiscarded = p.msg.amountDiscarded)
    (start : next.msg.entity.buf = some next.entityStartPosition)
    (entity : next.entityStartPosition + next.msg.entity.length ≤ next.scanner.cursor) :
    next.Good := by
  refine ⟨more, discarded.trans good.discarded, fun _ => start, ?_⟩
  intro buf found
  rw [start] at found
  cases found
  rwa [HttpParser.entityLimit, if_pos chunks]

theorem usingClen (here : p.entPosition = .usingClen) : (parserParseEntityUsingClen p).2.Good := by
  have settled : p.entPosition ≠ .determineReadMethod := by rw [here]; decide
  have start := good.started settled
  have bound := good.started_bound settled
  have none := good.discarded
  rw [HttpParser.entityLimit, here] at bound
  simp only [EntPosition.isChunked, Bool.false_eq_true, if_false] at bound
  simp only [parserParseEntityUsingClen, none, Nat.add_zero, Nat.sub_zero]
  split_ifs with short surplus
  · refine ⟨good.more, none, good.started, ?_⟩
    intro buf found
    dsimp only [HttpParser.withEntity] at found
    rw [start] at found
    cases found
    simp only [HttpParser.withEntity, HttpParser.entityLimit, here, EntPosition.isChunked,
      Bool.false_eq_true, if_false]
    omega
  all_goals
    refine ⟨⟨good.more.entire, ?_⟩, none, fun _ => rfl, ?_⟩
    · simpa [HttpParser.withPosition, Scanner.terminateAt] using good.more.inside
    · rintro _ ⟨⟩
      simp only [HttpParser.withPosition, HttpParser.withEntity, HttpParser.withScanner,
        HttpParser.entityLimit, here, EntPosition.isChunked, Bool.false_eq_true, if_false, Scanner.terminateAt, List.length_set]
      omega

theorem chunkyEntity (here : p.entPosition = .usingChunked) :
    (parserParseChunkyEntity p).2.Good := by
  have chunks : p.entPosition.isChunked = true := by rw [here]; rfl
  have matched := matchFormat_matched p.scanner "%x%L%c"
  have deleted := Scanner.deleteFrom_open (matched.reaches.opened good.more) matched.reaches.forward
  have bound := good.chunk_bound chunks
  simp only [parserParseChunkyEntity, parserChunkSizeRead]
  split_ifs with failed last
  · exact ⟨good.more, good.discarded, good.started, good.entity⟩
  · refine good.of_chunk deleted rfl rfl (good.chunk_started chunks) ?_
    dsimp only [HttpParser.withEntPosition, HttpParser.withEntity, HttpParser.withScanner,
      HttpParser.withChunkSize, Scanner.deleteFrom]
    rw [good.discarded]
    omega
  · exact good.of_chunk deleted rfl rfl (good.chunk_started chunks) bound

theorem chunkyBody (here : p.entPosition = .chunkyBody) : (parserParseChunkyBody p).2.Good := by
  have chunks : p.entPosition.isChunked = true := by rw [here]; rfl
  have bound := good.chunk_bound chunks
  have inside := good.more.inside
  simp only [parserParseChunkyBody]
  split_ifs with loaded failed
  · exact good
  · have more : Scanner.Open { p.scanner with cursor := p.scanner.cursor + p.chunkSize } :=
      ⟨good.more.entire, by dsimp only; omega⟩
    have matched := matchFormat_matched
      { p.scanner with cursor := p.scanner.cursor + p.chunkSize } "%c"
    refine good.of_chunk (Scanner.deleteFrom_open (matched.reaches.opened more)
      matched.reaches.forward) rfl rfl (good.chunk_started chunks) ?_
    dsimp only [HttpParser.withEntPosition, HttpParser.withEntity, HttpParser.withScanner,
      Scanner.deleteFrom]
    omega
  · exact good

theorem chunkyHeaders (here : p.entPosition = .chunkyHeaders) :
    (parserParseChunkyHeaders p).2.Good := by
  have chunks : p.entPosition.isChunked = true := by rw [here]; rfl
  have bound := good.chunk_bound chunks
  have step := parserParseHeaders_advances p
  simp only [parserParseChunkyHeaders]
  split_ifs with ended
  · have same := step.entity
    have start := step.start
    have deleted := Scanner.deleteFrom_open (step.reaches.opened good.more) step.reaches.forward
    refine good.of_chunk deleted ?_ step.discarded rfl ?_
    · dsimp only [HttpParser.withPosition, HttpParser.withEntity, HttpParser.withScanner]
      rw [step.entPosition]
      exact chunks
    · dsimp only [HttpParser.withPosition, HttpParser.withEntity, HttpParser.withScanner,
        Scanner.deleteFrom]
      rw [same, start]
      exact bound
  · exact step.good good

theorem untilClose (here : p.entPosition = .untilClose) :
    (parserParseEntityUntilClose p).2.Good := by
  have settled : p.entPosition ≠ .determineReadMethod := by rw [here]; decide
  have bound := good.started_bound settled
  rw [HttpParser.entityLimit, here] at bound
  simp only [EntPosition.isChunked, Bool.false_eq_true, if_false] at bound
  refine ⟨⟨good.more.entire, le_rfl⟩, good.discarded, fun _ => rfl, ?_⟩
  rintro _ ⟨⟩
  simp only [parserParseEntityUntilClose, HttpParser.withEntity, HttpParser.withScanner,
    HttpParser.entityLimit, here, EntPosition.isChunked, Bool.false_eq_true, if_false,
    good.discarded]
  omega

theorem startEntity_framed {next : HttpParser} (scanner : next.scanner = p.scanner)
    (entity : next.msg.entity = p.startEntity.msg.entity)
    (start : next.entityStartPosition = p.scanner.cursor)
    (discarded : next.msg.amountDiscarded = p.msg.amountDiscarded) : next.Good := by
  refine ⟨scanner ▸ good.more, discarded.trans good.discarded, ?_, ?_⟩
  · intro _
    rw [entity, start]
    rfl
  · rw [entity]
    rintro _ ⟨⟩
    have inside := good.more.inside
    simp only [HttpParser.entityLimit, HttpParser.startEntity, HttpParser.withEntity, scanner]
    split_ifs <;> omega

theorem readMethod : (parserGetEntityReadMethod p).2.Good := by
  unfold parserGetEntityReadMethod
  split_ifs
  · exact good.startEntity_framed rfl rfl rfl rfl
  · exact good.startEntity_framed rfl rfl rfl rfl
  · unfold readMethodOfLength
    dsimp only
    split
    · exact good.startEntity_framed rfl rfl rfl rfl
    · split_ifs <;> exact good.startEntity_framed rfl rfl rfl rfl

end HttpParser.Good

theorem parserEntityRound_good {p : HttpParser} (good : p.Good) : (parserEntityRound p).2.Good := by
  unfold parserEntityRound
  split
  · rename_i here; exact good.usingClen here
  · rename_i here; exact good.chunkyEntity here
  · rename_i here; exact good.chunkyBody here
  · rename_i here; exact good.chunkyHeaders here
  · rename_i here; exact good.untilClose here
  · exact good.readMethod

end Pupnp.Http
