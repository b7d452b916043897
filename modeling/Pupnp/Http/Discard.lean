import Pupnp.Http.ReadResponse

/-!
The parser of a response whose delivered bytes have left the raw message goes the way of one that
keeps them.
-/

namespace Pupnp.Http
open Pupnp.CString Pupnp.Uri Pupnp.Stream

/-! ### The raw message without the delivered bytes -/

theorem membufferDelete_comm {m : List UInt8} {i n j k : Nat} (apart : i + n ≤ j) (inside : j ≤ m.length) :
    membufferDelete (membufferDelete m j k) i n = membufferDelete (membufferDelete m i n) (j - n) k := by
  apply List.ext_getElem?
  intro at_
  simp only [membufferDelete, List.getElem?_append, List.getElem?_take, List.getElem?_drop,
    List.length_append, List.length_take, List.length_drop]
  split_ifs <;> first | rfl | omega | (congr 1; omega)

theorem membufferDelete_add {m : List UInt8} {start : Nat} (inside : start ≤ m.length) (n k : Nat) :
    membufferDelete (membufferDelete m start n) start k = membufferDelete m start (n + k) := by
  apply List.ext_getElem?
  intro at_
  simp only [membufferDelete, List.getElem?_append, List.getElem?_take, List.getElem?_drop,
    List.length_append, List.length_take, List.length_drop]
  split_ifs <;> first | rfl | omega | (congr 1; omega)

theorem membufferDelete_length (m : List UInt8) (start n : Nat) (inside : start + n ≤ m.length) :
    (membufferDelete m start n).length = m.length - n := by
  simp only [membufferDelete, List.length_append, List.length_take, List.length_drop]
  omega

section Scanner
variable {sc : Scanner} {start k : Nat}

theorem Scanner.discard_discard (inside : start ≤ sc.msg.length) (n : Nat) :
    (sc.discard start n).discard start k = sc.discard start (n + k) := by
  simp only [Scanner.discard, membufferDelete_add inside, Nat.sub_sub]

theorem Scanner.discard_rest (before : start + k ≤ sc.cursor) (inside : sc.cursor ≤ sc.msg.length) :
    (sc.discard start k).rest = sc.rest := by
  have front : (sc.msg.take start).length = start := List.length_take_of_le (by omega)
  simp only [Scanner.rest, Scanner.discard, membufferDelete]
  rw [List.drop_append, List.drop_eq_nil_of_le (by omega), front, List.nil_append, List.drop_drop]
  congr 1
  omega

theorem Scanner.discard_alike (before : start + k ≤ sc.cursor) (inside : sc.cursor ≤ sc.msg.length) :
    (sc.discard start k).Alike sc := ⟨sc.discard_rest before inside, rfl⟩

theorem Scanner.discard_open (before : start + k ≤ sc.cursor) (more : sc.Open) :
    (sc.discard start k).Open := by
  have inside := more.inside
  refine ⟨more.entire, ?_⟩
  have length := membufferDelete_length sc.msg start k (by omega)
  change sc.cursor - k ≤ (membufferDelete sc.msg start k).length
  omega

theorem Scanner.discard_extend (inside : start + k ≤ sc.msg.length) (buf : List UInt8) :
    (sc.discard start k).extend buf = (sc.extend buf).discard start k := by
  simp only [Scanner.discard, Scanner.extend, membufferDelete]
  rw [List.take_append_of_le_length (by omega), List.drop_append_of_le_length (by omega),
    List.append_assoc]

theorem Scanner.discard_reaches {next next' : Scanner} (before : start + k ≤ sc.cursor) (more : sc.Open)
    (moved : sc.Reaches next) (moved' : (sc.discard start k).Reaches next') (alike : next'.Alike next) :
    next' = next.discard start k := by
  have opened := moved.opened more
  have opened' := moved'.opened (Scanner.discard_open before more)
  have inside := opened.inside
  have inside' := opened'.inside
  have forward := moved.forward
  have length : next'.msg.length = sc.msg.length - k := by
    rw [moved'.msg]
    exact membufferDelete_length sc.msg start k (before.trans more.inside)
  have left := congrArg List.length alike.rest
  rw [Scanner.rest, Scanner.rest, List.length_drop, List.length_drop, length] at left
  rw [moved.msg] at left inside
  have cursor : next'.cursor = next.cursor - k := by omega
  have msg : next'.msg = membufferDelete next.msg start k := by
    rw [moved'.msg, moved.msg]
    rfl
  calc next' = ⟨next'.msg, next'.cursor, next'.entireMsgLoaded⟩ := rfl
    _ = next.discard start k := by
      rw [cursor, msg, alike.entire]
      rfl

theorem matchFormat_discard (before : start + k ≤ sc.cursor) (more : sc.Open) {fmt : String}
    (relative : ∀ d ∈ format fmt, d.Relative) :
    (matchFormat (sc.discard start k) fmt).1 = (matchFormat sc fmt).1 ∧
      (matchFormat (sc.discard start k) fmt).2.1 = (matchFormat sc fmt).2.1.discard start k := by
  have alike := matchFormat_alike (Scanner.discard_alike before more.inside) relative
  exact ⟨alike.1, Scanner.discard_reaches before more (matchFormat_matched sc fmt).reaches
    (matchFormat_matched _ fmt).reaches alike.2⟩

theorem Scanner.discard_deleteFrom {savePos : Nat} (before : start + k ≤ savePos)
    (forward : savePos ≤ sc.cursor) (inside : sc.cursor ≤ sc.msg.length) :
    (sc.discard start k).deleteFrom (savePos - k) = (sc.deleteFrom savePos).discard start k := by
  have size : sc.cursor - k - (savePos - k) = sc.cursor - savePos := by omega
  simp only [Scanner.discard, Scanner.deleteFrom, size]
  rw [membufferDelete_comm before (forward.trans inside)]

theorem Scanner.discard_terminateAt {index : Nat} (before : start + k ≤ index)
    (inside : start + k ≤ sc.msg.length) :
    (sc.discard start k).terminateAt (index - k) = (sc.terminateAt index).discard start k := by
  simp only [Scanner.discard, Scanner.terminateAt, Scanner.mk.injEq, and_true]
  apply List.ext_getElem?
  intro at_
  simp only [membufferDelete, List.getElem?_append, List.getElem?_take, List.getElem?_drop,
    List.length_append, List.length_take, List.length_drop, List.getElem?_set, List.length_set]
  split_ifs <;> first | rfl | omega

end Scanner

/-! ### The parser -/

/-- `r` is the parser `p` with `k` delivered bytes taken out of its raw message. Trailers may have
left different headers in the two. -/
structure HttpParser.Follows (r p : HttpParser) (k : Nat) : Prop where
  scanner : r.scanner = p.scanner.discard p.entityStartPosition k
  position : r.position = p.position
  entPosition : r.entPosition = p.entPosition
  start : r.entityStartPosition = p.entityStartPosition
  contentLength : r.contentLength = p.contentLength
  chunkSize : r.chunkSize = p.chunkSize
  length : r.msg.entity.length = p.msg.entity.length
  discarded : r.msg.amountDiscarded = k
  hasEntity : r.msg.HasEntity ∧ p.msg.HasEntity

/-- The first `k` bytes of the entity lie in front of all that is still to be read. -/
structure HttpParser.Delivered (p : HttpParser) (k : Nat) : Prop where
  good : p.Good
  framed : p.entPosition ≠ .determineReadMethod
  inside : p.entityStartPosition + k ≤ p.entityLimit
  length : p.entPosition = .usingClen → k ≤ p.contentLength

structure SameWay (k : Nat) (step step' : ParseResult) : Prop where
  status : step'.1 = step.1
  follows : step'.2.Follows step.2 k
  delivered : step.2.Delivered k

theorem HttpParser.Delivered.next {p next : HttpParser} {k : Nat} (delivered : p.Delivered k)
    (good : next.Good) (framing : next.entPosition.framing = p.entPosition.framing)
    (start : next.entityStartPosition = p.entityStartPosition)
    (contentLength : next.contentLength = p.contentLength) (limit : p.entityLimit ≤ next.entityLimit) :
    next.Delivered k := by
  refine ⟨good, ?_, ?_, ?_⟩
  · rw [Ne, ← EntPosition.framing_none, framing, EntPosition.framing_none]
    exact delivered.framed
  · rw [start]
    exact delivered.inside.trans limit
  · intro here
    rw [here] at framing
    have same : p.entPosition = .usingClen := by
      cases shape : p.entPosition <;> rw [shape] at framing <;> first | rfl | cases framing
    rw [contentLength]
    exact delivered.length same

theorem HttpParser.Follows.update {p r p' r' : HttpParser} {k : Nat} (follows : r.Follows p k)
    (scanner : r'.scanner = p'.scanner.discard p.entityStartPosition k)
    (start : p'.entityStartPosition = p.entityStartPosition)
    (start' : r'.entityStartPosition = r.entityStartPosition)
    (position : r'.position = p'.position) (entPosition : r'.entPosition = p'.entPosition)
    (contentLength : p'.contentLength = p.contentLength)
    (contentLength' : r'.contentLength = r.contentLength) (chunkSize : r'.chunkSize = p'.chunkSize)
    (length : r'.msg.entity.length = p'.msg.entity.length)
    (discarded : r'.msg.amountDiscarded = r.msg.amountDiscarded)
    (hasEntity : r'.msg.HasEntity ∧ p'.msg.HasEntity) : r'.Follows p' k where
  scanner := by rw [start, scanner]
  position := position
  entPosition := entPosition
  start := by rw [start', start, follows.start]
  contentLength := by rw [contentLength', contentLength, follows.contentLength]
  chunkSize := chunkSize
  length := length
  discarded := discarded.trans follows.discarded
  hasEntity := hasEntity

theorem storeChunkSize_alike {sc sc' : Scanner} (alike : sc'.Alike sc) (old : Nat) :
    storeChunkSize old (matchFormat sc' "%x%L%c").2.2 = storeChunkSize old (matchFormat sc "%x%L%c").2.2 := by
  have shape : format "%x%L%c" = .int 16 :: [.line, .crlf] := by decide
  obtain ⟨status, -, value⟩ := matchInt_alike alike 16
  have same : (matchDirective true sc' (.int 16)).1 = (matchDirective true sc (.int 16)).1 := status
  have args : (matchDirective true sc' (.int 16)).2.2 = (matchDirective true sc (.int 16)).2.2 := by
    simp only [matchDirective, value]
  simp only [matchFormat, vfmatch, shape]
  by_cases number : (matchDirective true sc (.int 16)).1 = .ok
  · have number' : (matchDirective true sc' (.int 16)).1 = .ok := same.trans number
    obtain ⟨size, stored⟩ := matchInt_value.1 number
    have first : (matchDirective true sc (.int 16)).2.2 = [.int size] := by
      simp only [matchDirective, stored]
      rfl
    rw [vfmatchLoop_cons number, vfmatchLoop_cons number', args, first]
    rfl
  · rw [vfmatchLoop_stop number, vfmatchLoop_stop (fun found => number (same.symm.trans found)), args]

structure HeadersFollow (start k : Nat) (p r : HttpParser) : Prop where
  scanner : r.scanner = p.scanner.discard start k
  position : r.position = p.position
  hasEntity : r.msg.HasEntity ∧ p.msg.HasEntity
  before : start + k ≤ p.scanner.cursor
  more : p.scanner.Open

theorem parseHeaderLine_follows {p r : HttpParser} {start k : Nat} (follow : HeadersFollow start k p r) :
    (parseHeaderLine r).1 = (parseHeaderLine p).1 ∧
      HeadersFollow start k (parseHeaderLine p).2 (parseHeaderLine r).2 := by
  have alike := Scanner.discard_alike follow.before follow.more.inside
  have entity := follow.hasEntity
  have entity_p : (p.msg.isRequest && decide (p.msg.method = .post)) = false := entity.2
  have entity_r : (r.msg.isRequest && decide (r.msg.method = .post)) = false := entity.1
  cases alike.tokens with
  | error status left right =>
    unfold parseHeaderLine
    rw [follow.scanner, left, right]
    exact ⟨rfl, follow⟩
  | ok type length next next' left right later =>
    have moved := scannerGetToken_reaches right
    have next_eq := Scanner.discard_reaches follow.before follow.more moved
      (scannerGetToken_reaches left) later
    have opened := moved.opened follow.more
    have before := follow.before.trans moved.forward
    have matched := matchFormat_discard before opened headerValue_relative
    unfold parseHeaderLine
    rw [follow.scanner, left, right, next_eq]
    cases type with
    | crlf =>
      simp only [entity_p, entity_r, Bool.false_eq_true, if_false, true_and]
      exact ⟨rfl, rfl, entity, before, opened⟩
    | identifier =>
      dsimp only
      rw [matched.1]
      by_cases failed : (matchFormat next' " : %R%c").1 ≠ .ok
      · rw [if_pos failed, if_pos failed]
        exact ⟨rfl, follow⟩
      · rw [if_neg failed, if_neg failed]
        have value := (matchFormat_matched next' " : %R%c").reaches
        exact ⟨rfl, matched.2, follow.position, ⟨addHeader_hasEntity entity.1 _ _,
          addHeader_hasEntity entity.2 _ _⟩, before.trans value.forward, value.opened opened⟩
    | whitespace => exact ⟨rfl, rfl, follow.position, entity, before, opened⟩
    | ctrl => exact ⟨rfl, rfl, follow.position, entity, before, opened⟩
    | separator => exact ⟨rfl, rfl, follow.position, entity, before, opened⟩
    | quotedString => exact ⟨rfl, rfl, follow.position, entity, before, opened⟩

theorem parseHeaderLine_contentLength (p : HttpParser) :
    (parseHeaderLine p).2.contentLength = p.contentLength := by
  unfold parseHeaderLine
  split
  · rfl
  · split
    · split_ifs <;> rfl
    · dsimp only
      split_ifs <;> rfl
    · rfl

theorem parserParseHeaders_contentLength (p : HttpParser) :
    (parserParseHeaders p).2.contentLength = p.contentLength := by
  fun_induction parserParseHeaders p with
  | case1 p next found ih =>
    have same := parseHeaderLine_contentLength p
    rw [found] at same
    exact ih.trans same
  | case2 p => exact parseHeaderLine_contentLength p

theorem parserParseHeaders_follows {p r : HttpParser} {start k : Nat}
    (follow : HeadersFollow start k p r) :
    (parserParseHeaders r).1 = (parserParseHeaders p).1 ∧
      HeadersFollow start k (parserParseHeaders p).2 (parserParseHeaders r).2 := by
  fun_induction parserParseHeaders p generalizing r with
  | case1 p next found ih =>
    obtain ⟨status, later⟩ := parseHeaderLine_follows follow
    rw [found] at status later
    rw [parserParseHeaders_next status]
    exact ih later
  | case2 p notAgain =>
    obtain ⟨status, later⟩ := parseHeaderLine_follows follow
    have last : (parseHeaderLine r).1 ≠ .continue1 := by
      rw [status]
      exact fun again => notAgain _ (Prod.ext again rfl)
    rw [parserParseHeaders_last last]
    exact ⟨status, later⟩

section Rounds
variable {p r : HttpParser} {k : Nat} (follows : r.Follows p k) (delivered : p.Delivered k)
include follows delivered

theorem usingClen_follows (here : p.entPosition = .usingClen) :
    SameWay k (parserParseEntityUsingClen p) (parserParseEntityUsingClen r) := by
  have inside := delivered.inside
  have limit : p.entityLimit = p.scanner.msg.length := by
    rw [HttpParser.entityLimit, here]
    rfl
  rw [limit] at inside
  have loaded : r.scanner.msg.length = p.scanner.msg.length - k := by
    rw [follows.scanner]
    exact membufferDelete_length _ _ _ inside
  have announced := delivered.length here
  have none := delivered.good.discarded
  have same : r.scanner.msg.length - r.entityStartPosition + r.msg.amountDiscarded =
      p.scanner.msg.length - p.entityStartPosition + p.msg.amountDiscarded := by
    rw [loaded, follows.start, follows.discarded, none]
    omega
  have index : r.entityStartPosition + p.contentLength - r.msg.amountDiscarded =
      p.entityStartPosition + p.contentLength - p.msg.amountDiscarded - k := by
    rw [follows.start, follows.discarded, none]
    omega
  have good := delivered.good.usingClen here
  simp only [parserParseEntityUsingClen, same, follows.contentLength] at good ⊢
  by_cases short : p.scanner.msg.length - p.entityStartPosition + p.msg.amountDiscarded < p.contentLength
  · simp only [short, if_true] at good ⊢
    refine ⟨rfl, ?_, delivered.next good rfl rfl rfl ?_⟩
    · exact follows.update follows.scanner rfl rfl follows.position follows.entPosition rfl rfl
        follows.chunkSize rfl rfl follows.hasEntity
    · exact le_rfl
  · simp only [short, if_false] at good ⊢
    refine ⟨rfl, ?_, delivered.next good rfl rfl rfl ?_⟩
    · refine follows.update ?_ rfl rfl rfl follows.entPosition rfl rfl follows.chunkSize rfl rfl
        follows.hasEntity
      change (if _ then _ else r.scanner) = (if _ then _ else p.scanner).discard _ _
      split_ifs
      · rw [index, follows.scanner, Scanner.discard_terminateAt (by omega) inside]
      · exact follows.scanner
    · simp only [HttpParser.entityLimit, HttpParser.withPosition, HttpParser.withScanner,
        HttpParser.withEntity, here]
      split_ifs <;> simp [Scanner.terminateAt]

theorem untilClose_follows (here : p.entPosition = .untilClose) :
    SameWay k (parserParseEntityUntilClose p) (parserParseEntityUntilClose r) := by
  have inside := delivered.inside
  have limit : p.entityLimit = p.scanner.msg.length := by
    rw [HttpParser.entityLimit, here]
    rfl
  rw [limit] at inside
  have loaded : r.scanner.msg.length = p.scanner.msg.length - k := by
    rw [follows.scanner]
    exact membufferDelete_length _ _ _ inside
  have msg : r.scanner.msg = membufferDelete p.scanner.msg p.entityStartPosition k := by
    rw [follows.scanner]
    rfl
  have good := delivered.good.untilClose here
  refine ⟨rfl, ?_, delivered.next good rfl rfl rfl ?_⟩
  · refine follows.update ?_ rfl rfl follows.position follows.entPosition rfl rfl follows.chunkSize ?_
      rfl follows.hasEntity
    · change Scanner.mk r.scanner.msg r.scanner.msg.length r.scanner.entireMsgLoaded =
        Scanner.discard ⟨p.scanner.msg, p.scanner.msg.length, p.scanner.entireMsgLoaded⟩ _ _
      rw [loaded, msg, follows.scanner]
      rfl
    · change r.scanner.msg.length - r.entityStartPosition + r.msg.amountDiscarded =
        p.scanner.msg.length - p.entityStartPosition + p.msg.amountDiscarded
      rw [loaded, follows.start, follows.discarded, delivered.good.discarded]
      omega
  · simp [HttpParser.entityLimit, parserParseEntityUntilClose, HttpParser.withScanner,
      HttpParser.withEntity, here, EntPosition.isChunked]

theorem chunkyEntity_follows (here : p.entPosition = .usingChunked) :
    SameWay k (parserParseChunkyEntity p) (parserParseChunkyEntity r) := by
  have chunks : p.entPosition.isChunked = true := by rw [here]; rfl
  have limit : p.entityLimit = p.scanner.cursor := by rw [HttpParser.entityLimit, if_pos chunks]
  have before := delivered.inside
  rw [limit] at before
  have more := delivered.good.more
  have matched := matchFormat_discard before more chunkSize_relative
  have sizes := storeChunkSize_alike (Scanner.discard_alike before more.inside) p.chunkSize
  have moved := (matchFormat_matched p.scanner "%x%L%c").reaches
  have opened := moved.opened more
  have deleted := Scanner.discard_deleteFrom before moved.forward opened.inside
  have cursor : (p.scanner.discard p.entityStartPosition k).cursor = p.scanner.cursor - k := rfl
  have good := delivered.good.chunkyEntity here
  simp only [parserParseChunkyEntity, follows.scanner, follows.chunkSize, matched, sizes, cursor,
    deleted] at good ⊢
  set size := storeChunkSize p.chunkSize (matchFormat p.scanner "%x%L%c").2.2 with size_eq
  by_cases failed : (matchFormat p.scanner "%x%L%c").1 ≠ .ok
  · rw [if_pos failed] at good ⊢
    rw [if_pos failed]
    refine ⟨rfl, ?_, delivered.next good rfl rfl rfl le_rfl⟩
    exact follows.update follows.scanner rfl rfl follows.position follows.entPosition rfl rfl rfl
      follows.length rfl follows.hasEntity
  · rw [if_neg failed] at good ⊢
    rw [if_neg failed]
    simp only [parserChunkSizeRead, HttpParser.withScanner, HttpParser.withChunkSize] at good ⊢
    by_cases last : size = 0
    · simp only [last, if_true] at good ⊢
      refine ⟨rfl, ?_, delivered.next good (by rw [here]; rfl) rfl rfl ?_⟩
      · refine follows.update rfl rfl rfl follows.position rfl rfl rfl rfl ?_ rfl follows.hasEntity
        change p.scanner.cursor - k - r.entityStartPosition + r.msg.amountDiscarded =
          p.scanner.cursor - p.entityStartPosition + p.msg.amountDiscarded
        rw [follows.start, follows.discarded, delivered.good.discarded]
        omega
      · rw [limit]
        exact le_rfl
    · simp only [last, if_false] at good ⊢
      refine ⟨rfl, ?_, delivered.next good (by rw [here]; rfl) rfl rfl ?_⟩
      · exact follows.update rfl rfl rfl follows.position rfl rfl rfl rfl follows.length rfl
          follows.hasEntity
      · rw [limit]
        exact le_rfl

theorem chunkyBody_follows (here : p.entPosition = .chunkyBody) :
    SameWay k (parserParseChunkyBody p) (parserParseChunkyBody r) := by
  have chunks : p.entPosition.isChunked = true := by rw [here]; rfl
  have limit : p.entityLimit = p.scanner.cursor := by rw [HttpParser.entityLimit, if_pos chunks]
  have before := delivered.inside
  rw [limit] at before
  have more := delivered.good.more
  have inside := more.inside
  have good := delivered.good.chunkyBody here
  have cursor : r.scanner.cursor = p.scanner.cursor - k := by
    rw [follows.scanner]
    rfl
  have loaded : r.scanner.msg.length - r.scanner.cursor = p.scanner.msg.length - p.scanner.cursor := by
    have rest := congrArg List.length (Scanner.discard_rest before inside)
    rw [← follows.scanner] at rest
    simpa only [Scanner.rest, List.length_drop] using rest
  simp only [parserParseChunkyBody, loaded, follows.chunkSize] at good ⊢
  by_cases whole : p.chunkSize ≤ p.scanner.msg.length - p.scanner.cursor
  · rw [if_pos whole] at good ⊢
    rw [if_pos whole]
    set behind : Scanner := { p.scanner with cursor := p.scanner.cursor + p.chunkSize } with behind_eq
    have behind_more : behind.Open := ⟨more.entire, by rw [behind_eq]; dsimp only; omega⟩
    have behind_before : p.entityStartPosition + k ≤ behind.cursor := by
      rw [behind_eq]
      dsimp only
      omega
    have behind_r : { r.scanner with cursor := r.scanner.cursor + p.chunkSize } =
        behind.discard p.entityStartPosition k := by
      rw [follows.scanner]
      simp only [Scanner.discard, behind_eq, Scanner.mk.injEq, true_and, and_true]
      omega
    have save : r.scanner.cursor + p.chunkSize = behind.cursor - k := by
      rw [cursor, behind_eq]
      dsimp only
      omega
    have matched := matchFormat_discard behind_before behind_more chunkEnd_relative
    have moved := (matchFormat_matched behind "%c").reaches
    have opened := moved.opened behind_more
    have deleted := Scanner.discard_deleteFrom behind_before moved.forward opened.inside
    rw [behind_r, matched.1, matched.2, save, deleted]
    by_cases failed : (matchFormat behind "%c").1 ≠ .ok
    · rw [if_pos failed] at good ⊢
      rw [if_pos failed]
      exact ⟨rfl, follows, delivered⟩
    · rw [if_neg failed] at good ⊢
      rw [if_neg failed]
      refine ⟨rfl, ?_, delivered.next good (by rw [here]; rfl) rfl rfl ?_⟩
      · refine follows.update rfl rfl rfl follows.position rfl rfl rfl follows.chunkSize ?_ rfl
          follows.hasEntity
        change r.msg.entity.length + p.chunkSize = p.msg.entity.length + p.chunkSize
        rw [follows.length]
      · rw [limit]
        change p.scanner.cursor ≤ p.scanner.cursor + p.chunkSize
        omega
  · rw [if_neg whole] at good ⊢
    rw [if_neg whole]
    exact ⟨rfl, follows, delivered⟩

theorem chunkyHeaders_follows (here : p.entPosition = .chunkyHeaders) :
    SameWay k (parserParseChunkyHeaders p) (parserParseChunkyHeaders r) := by
  have chunks : p.entPosition.isChunked = true := by rw [here]; rfl
  have limit : p.entityLimit = p.scanner.cursor := by rw [HttpParser.entityLimit, if_pos chunks]
  have before := delivered.inside
  rw [limit] at before
  have good := delivered.good.chunkyHeaders here
  obtain ⟨status, later⟩ := parserParseHeaders_follows
    ⟨follows.scanner, follows.position, follows.hasEntity, before, delivered.good.more⟩
  have step := parserParseHeaders_advances p
  have step_r := parserParseHeaders_advances r
  have kept : (parserParseHeaders p).2.contentLength = p.contentLength ∧
      (parserParseHeaders r).2.contentLength = r.contentLength :=
    ⟨parserParseHeaders_contentLength p, parserParseHeaders_contentLength r⟩
  have framing : (parserParseHeaders r).2.entPosition = (parserParseHeaders p).2.entPosition := by
    rw [step.entPosition, step_r.entPosition, follows.entPosition]
  have chunkSize : (parserParseHeaders r).2.chunkSize = (parserParseHeaders p).2.chunkSize := by
    rw [step.chunkSize, step_r.chunkSize, follows.chunkSize]
  have length : (parserParseHeaders r).2.msg.entity.length = (parserParseHeaders p).2.msg.entity.length := by
    rw [step.entity, step_r.entity, follows.length]
  have cursor : r.scanner.cursor = p.scanner.cursor - k := by
    rw [follows.scanner]
    rfl
  simp only [parserParseChunkyHeaders, status] at good ⊢
  by_cases ended : (parserParseHeaders p).1 = .ok
  · rw [if_pos ended] at good ⊢
    rw [if_pos ended]
    have deleted := Scanner.discard_deleteFrom before step.reaches.forward later.more.inside
    refine ⟨rfl, ?_, delivered.next good (by rw [← step.entPosition]; rfl) step.start kept.1 ?_⟩
    · refine follows.update ?_ step.start step_r.start rfl framing kept.1 kept.2 chunkSize length
        step_r.discarded later.hasEntity
      change (parserParseHeaders r).2.scanner.deleteFrom r.scanner.cursor = _
      rw [later.scanner, cursor, deleted]
      rfl
    · rw [limit, HttpParser.entityLimit]
      have chunked : (parserParseHeaders p).2.entPosition.isChunked = true := by
        rw [step.entPosition]
        exact chunks
      exact (if_pos chunked).ge
  · rw [if_neg ended] at good ⊢
    rw [if_neg ended]
    refine ⟨status, ?_, delivered.next good (by rw [step.entPosition]) step.start kept.1 step.limit⟩
    exact follows.update later.scanner step.start step_r.start later.position framing kept.1 kept.2
      chunkSize length step_r.discarded later.hasEntity

theorem parserEntityRound_follows : SameWay k (parserEntityRound p) (parserEntityRound r) := by
  have same := follows.entPosition
  cases here : p.entPosition with
  | determineReadMethod => exact absurd here delivered.framed
  | usingClen =>
    have round := usingClen_follows follows delivered here
    rw [parserEntityRound, parserEntityRound, same, here]
    exact round
  | usingChunked =>
    have round := chunkyEntity_follows follows delivered here
    rw [parserEntityRound, parserEntityRound, same, here]
    exact round
  | untilClose =>
    have round := untilClose_follows follows delivered here
    rw [parserEntityRound, parserEntityRound, same, here]
    exact round
  | chunkyBody =>
    have round := chunkyBody_follows follows delivered here
    rw [parserEntityRound, parserEntityRound, same, here]
    exact round
  | chunkyHeaders =>
    have round := chunkyHeaders_follows follows delivered here
    rw [parserEntityRound, parserEntityRound, same, here]
    exact round

end Rounds

theorem parserParseEntity_follows {p r : HttpParser} {k : Nat} (follows : r.Follows p k)
    (delivered : p.Delivered k) : SameWay k (parserParseEntity p) (parserParseEntity r) := by
  fun_induction parserParseEntity p generalizing r with
  | case1 p next found ih =>
    have round := parserEntityRound_follows follows delivered
    rw [found] at round
    rw [parserParseEntity_next round.status]
    exact ih round.follows round.delivered
  | case2 p notAgain =>
    have round := parserEntityRound_follows follows delivered
    have last : (parserEntityRound r).1 ≠ .continue1 := by
      rw [round.status]
      exact fun again => notAgain _ (Prod.ext again rfl)
    rw [parserParseEntity_last last]
    exact round

end Pupnp.Http
