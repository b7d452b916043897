import Pupnp.Http.Fragment

/-!
Headers, the framings of an entity and the loops around them as incremental
calls. Only trailers leave different buffers behind, after the entity.
-/

namespace Pupnp.Http
open Pupnp.CString Pupnp.Uri Pupnp.Stream

def noCut : HttpParser → List UInt8 → Prop := fun _ _ => False

theorem parserConsumer_goesOn_ok : parserConsumer.goesOn .ok := .inl rfl

theorem parserConsumer_goesOn_continue : parserConsumer.goesOn .continue1 := .inr rfl

theorem not_waits_incomplete {status : ParseStatus} (done : ¬parserConsumer.waits status) :
    status ≠ .incomplete := fun short => done (.inl short)

theorem parseHeaderLine_not_entity (p : HttpParser) : (parseHeaderLine p).1 ≠ .incompleteEntity := by
  unfold parseHeaderLine
  split
  · rename_i found
    rcases scanToken_error (scannerGetToken_error found) with rfl | rfl <;> simp
  · rename_i token next found
    split
    · split_ifs <;> simp
    · have range := (matchFormat_matched next " : %R%c").isMatch
      dsimp only
      split_ifs
      · intro same
        rw [same] at range
        simp [ParseStatus.IsMatch] at range
      · simp
    · simp

theorem parseHeaderLine_incremental : parserConsumer.Incremental noCut parseHeaderLine := by
  intro p good
  refine ⟨(parseHeaderLine_advances p).good good, nofun, ?_, ?_⟩
  · intro buf done _
    exact .of_eq (parseHeaderLine_extend good.more (not_waits_incomplete done) buf)
  · rintro buf (short | short)
    · rw [parseHeaderLine_incomplete short]
      exact .refl _
    · exact absurd short (parseHeaderLine_not_entity p)

theorem parserParseHeaders_next {p : HttpParser} (again : (parseHeaderLine p).1 = .continue1) :
    parserParseHeaders p = parserParseHeaders (parseHeaderLine p).2 := by
  conv_lhs => rw [parserParseHeaders]
  split
  · rename_i found
    rw [found]
  · rename_i other
    exact (other _ (Prod.ext again rfl)).elim

theorem parserParseHeaders_last {p : HttpParser} (last : (parseHeaderLine p).1 ≠ .continue1) :
    parserParseHeaders p = parseHeaderLine p := by
  rw [parserParseHeaders]
  split
  · rename_i found
    exact absurd (congrArg Prod.fst found) last
  · rfl

theorem parserParseHeaders_incremental : parserConsumer.Incremental noCut parserParseHeaders := by
  refine parseHeaderLine_incremental.loop (· = .continue1) ?_ (fun p => parserParseHeaders_next)
    (fun p => parserParseHeaders_last) (fun p => p.scanner.remaining) ?_ (fun _ _ _ bad => bad)
    (fun _ _ bad => bad.elim)
  · rintro _ rfl
    exact parserConsumer_goesOn_continue
  · intro p again
    exact (parseHeaderLine_continue (Prod.ext again rfl)).2

theorem Scanner.deleteFrom_extend {sc : Scanner} {savePos : Nat} (more : sc.Open)
    (before : savePos ≤ sc.cursor) (buf : List UInt8) :
    (sc.extend buf).deleteFrom savePos = (sc.deleteFrom savePos).extend buf := by
  have inside := more.inside
  simp only [Scanner.deleteFrom, Scanner.extend, membufferDelete]
  rw [List.take_append_of_le_length (by omega), List.drop_append_of_le_length (by omega),
    List.append_assoc]

theorem Memptr.read_set {m : Memptr} {index : Nat} (behind : m.buf + m.length ≤ index)
    (msg : List UInt8) (c : UInt8) : m.read (msg.set index c) = m.read msg := by
  rw [Memptr.read, Memptr.read, List.drop_set, if_neg (by omega), List.take_set_of_le (by omega)]

theorem Memptr.read_deleteFrom {m : Memptr} {sc : Scanner} {savePos : Nat}
    (behind : m.buf + m.length ≤ savePos) (before : savePos ≤ sc.msg.length) :
    m.read (sc.deleteFrom savePos).msg = m.read sc.msg := by
  have kept : m.read (sc.msg.take savePos) = m.read sc.msg := by
    have split := List.take_append_drop savePos sc.msg
    conv_rhs => rw [← split]
    exact (Memptr.read_append (by rw [List.length_take]; omega) _).symm
  rw [← kept]
  exact Memptr.read_append (by rw [List.length_take]; omega) _

/-! ### One round per framing -/

@[simp] theorem parserConsumer_extend (p : HttpParser) (buf : List UInt8) :
    parserConsumer.extend p buf = p.extend buf := rfl

theorem observe_congr {p p' : HttpParser} (same : p.withScanner p'.scanner = p')
    (entity : p.entityBytes = p'.entityBytes) : p.observe = p'.observe := by
  have frame : p.withScanner (scannerInit []) = p'.withScanner (scannerInit []) := by
    rw [← same]
    rfl
  exact Prod.ext frame entity

theorem usingClen_success {p : HttpParser} (none : p.msg.amountDiscarded = 0)
    (loaded : p.contentLength ≤ p.scanner.msg.length - p.entityStartPosition) :
    ∃ sc, (sc.msg = p.scanner.msg ∨
        sc.msg = p.scanner.msg.set (p.entityStartPosition + p.contentLength) 0) ∧
      parserParseEntityUsingClen p = (.success,
        ((p.withEntity ⟨some p.entityStartPosition, p.contentLength⟩).withScanner sc).withPosition
          .complete) := by
  have full : ¬p.scanner.msg.length - p.entityStartPosition + p.msg.amountDiscarded <
      p.contentLength := by omega
  simp only [parserParseEntityUsingClen, if_neg full]
  refine ⟨_, ?_, rfl⟩
  split_ifs
  · right
    simp only [Scanner.terminateAt, none, Nat.sub_zero]
  · left
    rfl

theorem usingClen_incremental {p : HttpParser} (good : p.Good) (here : p.entPosition = .usingClen) :
    parserConsumer.IncrementalAt noCut parserParseEntityUsingClen p := by
  have settled : p.entPosition ≠ .determineReadMethod := by rw [here]; decide
  have bound := good.started_bound settled
  rw [HttpParser.entityLimit, here] at bound
  simp only [EntPosition.isChunked, Bool.false_eq_true, if_false] at bound
  have none := good.discarded
  have waiting (short : p.scanner.msg.length - p.entityStartPosition + p.msg.amountDiscarded <
      p.contentLength) : parserParseEntityUsingClen p = (.incomplete, p.withEntity
        ⟨p.msg.entity.buf, p.scanner.msg.length - p.entityStartPosition + p.msg.amountDiscarded⟩) := by
    simp only [parserParseEntityUsingClen, if_pos short]
  refine ⟨good.usingClen here, fun _ bad => bad.elim, ?_, ?_⟩
  · intro buf done _
    have loaded : p.contentLength ≤ p.scanner.msg.length - p.entityStartPosition := by
      by_contra short
      rw [waiting (by omega)] at done
      exact done (.inl rfl)
    have inside : p.entityStartPosition + p.contentLength ≤ p.scanner.msg.length := by omega
    have loaded' : p.contentLength ≤ (p.scanner.msg ++ buf).length - p.entityStartPosition := by
      rw [List.length_append]
      omega
    obtain ⟨sc, msg, result⟩ := usingClen_success none loaded
    obtain ⟨sc', msg', result'⟩ := @usingClen_success (p.extend buf) none loaded'
    -- a NUL behind the entity and bytes behind the buffer leave the slice alone
    have slice := @Memptr.read_append ⟨p.entityStartPosition, p.contentLength⟩ _ inside buf
    have kept (m : List UInt8) := @Memptr.read_set ⟨p.entityStartPosition, p.contentLength⟩
      (p.entityStartPosition + p.contentLength) le_rfl m 0
    have early : Memptr.read ⟨p.entityStartPosition, p.contentLength⟩ (sc.msg ++ buf) =
        Memptr.read ⟨p.entityStartPosition, p.contentLength⟩ p.scanner.msg := by
      rcases msg with same | same
      · rw [same, slice]
      · rw [same, Memptr.read_append (by simpa using inside) buf, kept]
    have late : Memptr.read ⟨p.entityStartPosition, p.contentLength⟩ sc'.msg =
        Memptr.read ⟨p.entityStartPosition, p.contentLength⟩ p.scanner.msg := by
      rcases msg' with same | same
      · rw [same]
        exact slice
      · rw [same]
        exact (kept _).trans slice
    rw [parserConsumer_extend, result', result]
    refine ⟨rfl, observe_congr rfl (late.trans early.symm), ?_⟩
    rintro ((work | work) | (work | work)) <;> cases work
  · intro buf short
    have short' : p.scanner.msg.length - p.entityStartPosition + p.msg.amountDiscarded <
        p.contentLength := by
      by_contra loaded
      obtain ⟨sc, -, result⟩ := usingClen_success none (by omega)
      rw [result] at short
      rcases short with short | short <;> cases short
    rw [waiting short']
    exact .of_eq rfl

theorem matchChunkSize_appendable : ∀ d ∈ format "%x%L%c", d.Appendable := by
  have shape : format "%x%L%c" = [.int 16, .line, .crlf] := by decide
  rw [shape]
  simp [Directive.Appendable]

theorem matchCrlf_appendable : ∀ d ∈ format "%c", d.Appendable := by
  have shape : format "%c" = [.crlf] := by decide
  rw [shape]
  simp [Directive.Appendable]

theorem storeLow32_storeLow32 (old : Nat) (value : Int) :
    storeLow32 (storeLow32 old value) value = storeLow32 old value := by
  unfold storeLow32
  omega

theorem matchInt_value {sc : Scanner} {base : Nat} :
    ((matchInt sc base).1 = .ok → ∃ value, (matchInt sc base).2.2 = some value) ∧
      ((matchInt sc base).1 = .incomplete → (matchInt sc base).2.2 = none) := by
  cases found : scannerGetToken sc with
  | error status =>
    rcases scanToken_error (scannerGetToken_error found) with rfl | rfl <;>
      simp [matchInt, found]
  | ok pair =>
    simp only [matchInt, found]
    split_ifs
    · exact ⟨nofun, nofun⟩
    · exact ⟨fun _ => ⟨_, rfl⟩, nofun⟩
    · exact ⟨nofun, nofun⟩

theorem storeChunkSize_resume {sc : Scanner} (more : sc.Open)
    (short : (matchFormat sc "%x%L%c").1 = .incomplete) (old : Nat) (buf : List UInt8) :
    storeChunkSize (storeChunkSize old (matchFormat sc "%x%L%c").2.2)
        (matchFormat (sc.extend buf) "%x%L%c").2.2 =
      storeChunkSize old (matchFormat (sc.extend buf) "%x%L%c").2.2 := by
  have shape : format "%x%L%c" = .int 16 :: [.line, .crlf] := by decide
  have small : (Directive.int 16).Appendable := by
    change 16 ≤ 36
    decide
  simp only [matchFormat, vfmatch, shape] at short ⊢
  by_cases number : (matchDirective true sc (.int 16)).1 = .ok
  · have number' := matchDirective_extend small more (by rw [number]; decide) buf
    have same : (matchDirective true (sc.extend buf) (.int 16)).1 = .ok := by rw [number', number]
    obtain ⟨value, stored⟩ := matchInt_value.1 number
    have args : (matchDirective true sc (.int 16)).2.2 = [.int value] := by
      simp only [matchDirective, stored]
      rfl
    rw [vfmatchLoop_cons number, vfmatchLoop_cons same, number', args]
    exact storeLow32_storeLow32 old value
  · rw [vfmatchLoop_stop number] at short ⊢
    have none : (matchDirective true sc (.int 16)).2.2 = [] := by
      simp only [matchDirective, matchInt_value.2 short]
      rfl
    rw [none]
    rfl

theorem parserChunkSizeRead_extend (p : HttpParser) (buf : List UInt8) :
    parserChunkSizeRead (p.extend buf) =
      ((parserChunkSizeRead p).1, (parserChunkSizeRead p).2.extend buf) := by
  unfold parserChunkSizeRead
  by_cases last : p.chunkSize = 0
  · rw [if_pos last, if_pos (show (p.extend buf).chunkSize = 0 from last)]
    rfl
  · rw [if_neg last, if_neg (show (p.extend buf).chunkSize ≠ 0 from last)]
    rfl

theorem parserChunkSizeRead_continue (p : HttpParser) : (parserChunkSizeRead p).1 = .continue1 := by
  unfold parserChunkSizeRead
  split_ifs <;> rfl

theorem chunkyEntity_incremental {p : HttpParser} (good : p.Good)
    (here : p.entPosition = .usingChunked) :
    parserConsumer.IncrementalAt noCut parserParseChunkyEntity p := by
  have matched := matchFormat_matched p.scanner "%x%L%c"
  refine ⟨good.chunkyEntity here, fun _ bad => bad.elim, ?_, ?_⟩
  · intro buf done _
    have settled : (matchFormat p.scanner "%x%L%c").1 ≠ .incomplete := by
      intro short
      refine done (.inl ?_)
      simp [parserParseChunkyEntity, short]
    have same := matchFormat_extend matchChunkSize_appendable good.more settled buf
    have deleted := Scanner.deleteFrom_extend (matched.reaches.opened good.more)
      matched.reaches.forward buf
    refine .of_eq ?_
    simp only [parserConsumer_extend, parserParseChunkyEntity, HttpParser.extend_scanner, same,
      Scanner.extend_cursor, deleted, HttpParser.extend_chunkSize]
    by_cases ok : (matchFormat p.scanner "%x%L%c").1 = .ok
    · simp only [ok, ne_eq, not_true, if_false]
      exact parserChunkSizeRead_extend ((p.withChunkSize (storeChunkSize p.chunkSize
        (matchFormat p.scanner "%x%L%c").2.2)).withScanner
          ((matchFormat p.scanner "%x%L%c").2.1.deleteFrom p.scanner.cursor)) buf
    · simp only [ok, ne_eq, not_false_iff, if_true]
      rfl
  · intro buf short
    have failed : (matchFormat p.scanner "%x%L%c").1 ≠ .ok := by
      intro ok
      simp only [parserParseChunkyEntity, ok, ne_eq, not_true, if_false,
        parserChunkSizeRead_continue] at short
      rcases short with short | short <;> cases short
    have result : parserParseChunkyEntity p = ((matchFormat p.scanner "%x%L%c").1,
        p.withChunkSize (storeChunkSize p.chunkSize (matchFormat p.scanner "%x%L%c").2.2)) := by
      simp only [parserParseChunkyEntity, ne_eq, failed, not_false_iff, if_true]
    have incomplete : (matchFormat p.scanner "%x%L%c").1 = .incomplete := by
      rw [result] at short
      rcases short with short | short
      · exact short
      · have range := matched.isMatch
        rw [show (matchFormat p.scanner "%x%L%c").1 = .incompleteEntity from short] at range
        simp [ParseStatus.IsMatch] at range
    have stored := storeChunkSize_resume good.more incomplete p.chunkSize buf
    have again : ((p.withChunkSize
        (storeChunkSize p.chunkSize (matchFormat p.scanner "%x%L%c").2.2)).extend buf).withChunkSize
          (storeChunkSize (storeChunkSize p.chunkSize (matchFormat p.scanner "%x%L%c").2.2)
            (matchFormat (p.scanner.extend buf) "%x%L%c").2.2) =
        (p.extend buf).withChunkSize
          (storeChunkSize p.chunkSize (matchFormat (p.scanner.extend buf) "%x%L%c").2.2) := by
      rw [stored]
      rfl
    rw [result]
    refine .of_eq ?_
    unfold parserParseChunkyEntity
    exact congrArg (fun sized : HttpParser =>
      if (matchFormat (p.scanner.extend buf) "%x%L%c").1 ≠ .ok then
        ((matchFormat (p.scanner.extend buf) "%x%L%c").1, sized)
      else parserChunkSizeRead (sized.withScanner
        ((matchFormat (p.scanner.extend buf) "%x%L%c").2.1.deleteFrom p.scanner.cursor))) again

theorem untilClose_incremental {p : HttpParser} (good : p.Good) (here : p.entPosition = .untilClose) :
    parserConsumer.IncrementalAt noCut parserParseEntityUntilClose p := by
  refine ⟨good.untilClose here, nofun, ?_, ?_⟩
  · intro buf done _
    exact absurd (.inr rfl) done
  · intro buf _
    exact .of_eq rfl

theorem readMethod_incremental {p : HttpParser} (good : p.Good) :
    parserConsumer.IncrementalAt noCut parserGetEntityReadMethod p := by
  refine .of_stable good.readMethod (fun _ => nofun) ?_ ?_
  · unfold parserGetEntityReadMethod readMethodOfLength
    split_ifs
    · nofun
    · nofun
    · dsimp only
      split
      · nofun
      · split_ifs <;> nofun
  · intro buf
    unfold parserGetEntityReadMethod
    rw [show (parserConsumer.extend p buf).msg = p.msg from rfl]
    split_ifs
    · rfl
    · rfl
    · have framed (r : HttpParser) : readMethodOfLength (r.extend buf) =
          ((readMethodOfLength r).1, (readMethodOfLength r).2.extend buf) := by
        unfold readMethodOfLength
        rw [HttpParser.extend_msg]
        split
        · rfl
        · split_ifs <;> rfl
      exact framed p.startEntity.searchTransferEncoding

theorem chunkyBody_incremental {p : HttpParser} (good : p.Good) (here : p.entPosition = .chunkyBody) :
    parserConsumer.IncrementalAt noCut parserParseChunkyBody p := by
  have inside := good.more.inside
  set behind : Scanner := { p.scanner with cursor := p.scanner.cursor + p.chunkSize } with behind_eq
  have matched := matchFormat_matched behind "%c"
  refine ⟨good.chunkyBody here, fun _ bad => bad.elim, ?_, ?_⟩
  · intro buf done _
    have loaded : p.chunkSize ≤ p.scanner.msg.length - p.scanner.cursor := by
      by_contra short
      simp only [parserParseChunkyBody, if_neg short] at done
      exact done (.inl rfl)
    have loaded' : (p.extend buf).chunkSize ≤ (p.extend buf).scanner.msg.length -
        (p.extend buf).scanner.cursor := by
      simp only [HttpParser.extend_chunkSize, HttpParser.extend_scanner, Scanner.extend_msg,
        Scanner.extend_cursor, List.length_append]
      omega
    have more : behind.Open := ⟨good.more.entire, by rw [behind_eq]; dsimp only; omega⟩
    have settled : (matchFormat behind "%c").1 ≠ .incomplete := by
      intro short
      simp only [parserParseChunkyBody, if_pos loaded, ← behind_eq, short] at done
      exact done (.inl rfl)
    have same := matchFormat_extend matchCrlf_appendable more settled buf
    have deleted := Scanner.deleteFrom_extend (matched.reaches.opened more)
      matched.reaches.forward buf
    have moved : { p.scanner.extend buf with cursor := p.scanner.cursor + p.chunkSize } =
        behind.extend buf := rfl
    refine .of_eq ?_
    unfold parserParseChunkyBody
    rw [parserConsumer_extend, if_pos loaded', if_pos loaded]
    simp only [HttpParser.extend_scanner, HttpParser.extend_chunkSize, Scanner.extend_cursor, moved,
      same, ← behind_eq]
    by_cases ok : (matchFormat behind "%c").1 = .ok
    · simp only [ok, ne_eq, not_true, if_false]
      rw [show p.scanner.cursor + p.chunkSize = behind.cursor from rfl, deleted]
      rfl
    · simp only [ok, ne_eq, not_false_iff, if_true]
      rfl
  · intro buf short
    have stay : (parserParseChunkyBody p).2 = p := by
      simp only [parserParseChunkyBody] at short ⊢
      split_ifs at short ⊢
      · rfl
      · rcases short with short | short <;> cases short
      · rfl
    rw [stay]
    exact .refl _

/-- An entity that ends before the trailers is the same wherever they are deleted from. -/
theorem trailers_observe {p : HttpParser} (start : p.msg.entity.buf = some p.entityStartPosition)
    {savePos : Nat} (behind : p.entityStartPosition + p.msg.entity.length ≤ savePos)
    (before : savePos ≤ p.scanner.msg.length) :
    ((p.withEntity ⟨some p.entityStartPosition, p.msg.entity.length⟩).withScanner
      (p.scanner.deleteFrom savePos) |>.withPosition .complete).observe =
        (p.withPosition .complete).observe := by
  have entity : p.withEntity ⟨some p.entityStartPosition, p.msg.entity.length⟩ = p := by
    rw [← start]
    rfl
  rw [entity]
  refine observe_congr rfl ?_
  unfold HttpParser.entityBytes
  dsimp only [HttpParser.withPosition, HttpParser.withScanner]
  rw [start]
  exact Memptr.read_deleteFrom behind before

theorem chunkyHeaders_incremental {p : HttpParser} (good : p.Good)
    (here : p.entPosition = .chunkyHeaders) :
    parserConsumer.IncrementalAt noCut parserParseChunkyHeaders p := by
  have chunks : p.entPosition.isChunked = true := by rw [here]; rfl
  have headers := parserParseHeaders_incremental p good
  have step := parserParseHeaders_advances p
  have ended (q : HttpParser) (ok : (parserParseHeaders q).1 = .ok) :
      parserParseChunkyHeaders q = (.success,
        (((parserParseHeaders q).2.withEntity ⟨some (parserParseHeaders q).2.entityStartPosition,
          (parserParseHeaders q).2.msg.entity.length⟩).withScanner
            ((parserParseHeaders q).2.scanner.deleteFrom q.scanner.cursor)).withPosition .complete) := by
    simp only [parserParseChunkyHeaders, if_pos ok]
  have open_ended (q : HttpParser) (other : (parserParseHeaders q).1 ≠ .ok) :
      parserParseChunkyHeaders q = parserParseHeaders q := by
    simp only [parserParseChunkyHeaders, if_neg other]
  refine ⟨good.chunkyHeaders here, fun _ bad => bad.elim, ?_, ?_⟩
  · intro buf done _
    by_cases ok : (parserParseHeaders p).1 = .ok
    · have same := headers.stable buf (by rw [ok]; decide) id
      have whole := same.eq (.inr (same.status ▸ ok ▸ parserConsumer_goesOn_ok))
      have ok' : (parserParseHeaders (p.extend buf)).1 = .ok := same.status.trans ok
      have deleted := Scanner.deleteFrom_extend (step.reaches.opened good.more)
        step.reaches.forward buf
      rw [parserConsumer_extend] at whole
      rw [parserConsumer_extend, ended _ ok', ended _ ok, whole]
      refine .of_eq ?_
      simp only [parserConsumer_extend, HttpParser.extend_scanner, Scanner.extend_cursor, deleted]
      rfl
    · rw [open_ended p ok] at done ⊢
      have same := headers.stable buf done id
      have other : (parserParseHeaders (p.extend buf)).1 ≠ .ok := by
        rw [show (parserParseHeaders (p.extend buf)).1 = _ from same.status]
        exact ok
      rw [parserConsumer_extend, open_ended _ other]
      exact same
  · intro buf short
    have other : (parserParseHeaders p).1 ≠ .ok := by
      intro ok
      rw [ended p ok] at short
      rcases short with short | short <;> cases short
    rw [open_ended p other] at short ⊢
    have same := headers.resumes buf short
    set later := (parserParseHeaders p).2 with later_eq
    rw [parserConsumer_extend, parserConsumer_extend] at same ⊢
    by_cases ok : (parserParseHeaders (later.extend buf)).1 = .ok
    · have ok' : (parserParseHeaders (p.extend buf)).1 = .ok := same.status ▸ ok
      have whole := same.eq (.inr (ok ▸ parserConsumer_goesOn_ok))
      have longer := (good.extend buf)
      have step' := parserParseHeaders_advances (p.extend buf)
      have step'' := parserParseHeaders_advances (later.extend buf)
      have bound := longer.chunk_bound chunks
      have start := longer.chunk_started chunks
      rw [ended _ ok, ended _ ok', whole]
      rw [whole] at step''
      set after := (parserParseHeaders (p.extend buf)).2
      have inside := step'.reaches.opened longer.more
      have started : after.msg.entity.buf = some after.entityStartPosition := by
        rw [step'.entity, step'.start]
        exact start
      have bound' : after.entityStartPosition + after.msg.entity.length ≤ (p.extend buf).scanner.cursor := by
        rw [step'.entity, step'.start]
        exact bound
      refine ⟨rfl, ?_, ?_⟩
      · refine (trailers_observe started (bound'.trans step.reaches.forward) ?_).trans
          (trailers_observe started bound' ?_).symm
        · exact step''.reaches.forward.trans inside.inside
        · exact step'.reaches.forward.trans inside.inside
      · rintro ((work | work) | (work | work)) <;> cases work
    · have other' : (parserParseHeaders (p.extend buf)).1 ≠ .ok := by
        rw [← same.status]
        exact ok
      rw [open_ended _ ok, open_ended _ other']
      exact same

/-! ### The loops -/

theorem parserEntityRound_waits {p : HttpParser}
    (short : parserConsumer.waits (parserEntityRound p).1) :
    (parserEntityRound p).2.entPosition = p.entPosition := by
  unfold parserEntityRound at short ⊢
  split at short
  · simp only [parserParseEntityUsingClen] at short ⊢
    split_ifs at short ⊢
    all_goals rfl
  · simp only [parserParseChunkyEntity] at short ⊢
    split_ifs at short ⊢
    · rfl
    · rw [parserChunkSizeRead_continue] at short
      rcases short with short | short <;> cases short
  · simp only [parserParseChunkyBody] at short ⊢
    split_ifs at short ⊢
    · rfl
    · rcases short with short | short <;> cases short
    · rfl
  · simp only [parserParseChunkyHeaders] at short ⊢
    split_ifs at short ⊢
    · rcases short with short | short <;> cases short
    · exact (parserParseHeaders_advances p).entPosition
  · rfl
  · exfalso
    unfold parserGetEntityReadMethod readMethodOfLength at short
    split_ifs at short
    · rcases short with short | short <;> cases short
    · rcases short with short | short <;> cases short
    · dsimp only at short
      split at short
      · rcases short with short | short <;> cases short
      · split_ifs at short <;> rcases short with short | short <;> cases short

theorem parserEntityRound_at {p : HttpParser} {stage : HttpParser → ParseResult}
    (inc : parserConsumer.IncrementalAt noCut stage p) {position : EntPosition}
    (here : p.entPosition = position)
    (agree : ∀ q : HttpParser, q.entPosition = position → parserEntityRound q = stage q) :
    parserConsumer.IncrementalAt noCut parserEntityRound p := by
  refine inc.congr (agree p here) (fun buf => agree _ here) ?_
  intro short buf
  have kept := @parserEntityRound_waits p (by rw [agree p here]; exact short)
  rw [agree p here] at kept
  exact agree _ (kept.trans here)

theorem parserEntityRound_incremental : parserConsumer.Incremental noCut parserEntityRound := by
  intro p good
  cases here : p.entPosition with
  | usingClen =>
    exact parserEntityRound_at (usingClen_incremental good here) here
      fun q at_q => by rw [parserEntityRound, at_q]
  | usingChunked =>
    exact parserEntityRound_at (chunkyEntity_incremental good here) here
      fun q at_q => by rw [parserEntityRound, at_q]
  | chunkyBody =>
    exact parserEntityRound_at (chunkyBody_incremental good here) here
      fun q at_q => by rw [parserEntityRound, at_q]
  | chunkyHeaders =>
    exact parserEntityRound_at (chunkyHeaders_incremental good here) here
      fun q at_q => by rw [parserEntityRound, at_q]
  | untilClose =>
    exact parserEntityRound_at (untilClose_incremental good here) here
      fun q at_q => by rw [parserEntityRound, at_q]
  | determineReadMethod =>
    exact parserEntityRound_at (readMethod_incremental good) here
      fun q at_q => by rw [parserEntityRound, at_q]

theorem parserParseEntity_next {p : HttpParser} (again : (parserEntityRound p).1 = .continue1) :
    parserParseEntity p = parserParseEntity (parserEntityRound p).2 := by
  conv_lhs => rw [parserParseEntity]
  split
  · rename_i found
    rw [found]
  · rename_i other
    exact (other _ (Prod.ext again rfl)).elim

theorem parserParseEntity_last {p : HttpParser} (last : (parserEntityRound p).1 ≠ .continue1) :
    parserParseEntity p = parserEntityRound p := by
  rw [parserParseEntity]
  split
  · rename_i found
    exact absurd (congrArg Prod.fst found) last
  · rfl

theorem parserParseEntity_incremental : parserConsumer.Incremental noCut parserParseEntity := by
  refine parserEntityRound_incremental.loop (· = .continue1) ?_ (fun p => parserParseEntity_next)
    (fun p => parserParseEntity_last) HttpParser.entityMeasure ?_ (fun _ _ _ bad => bad)
    (fun _ _ bad => bad.elim)
  · rintro _ rfl
    exact parserConsumer_goesOn_continue
  · intro p again
    exact parserEntityRound_measure (Prod.ext again rfl)

theorem parseHeaderLine_position {p : HttpParser}
    (going : ¬((parseHeaderLine p).1 = .ok ∨ (parseHeaderLine p).1 = .success)) :
    (parseHeaderLine p).2.position = p.position := by
  unfold parseHeaderLine at going ⊢
  split at going
  · rfl
  · split at going
    · split_ifs at going
      · exact absurd (.inr rfl) going
      · exact absurd (.inl rfl) going
    · dsimp only
      split_ifs <;> rfl
    · rfl

theorem parserParseHeaders_position {p : HttpParser}
    (going : ¬((parserParseHeaders p).1 = .ok ∨ (parserParseHeaders p).1 = .success)) :
    (parserParseHeaders p).2.position = p.position := by
  fun_induction parserParseHeaders p with
  | case1 p next found ih =>
    have same := @parseHeaderLine_position p (by rw [found]; simp)
    rw [found] at same
    exact (ih going).trans same
  | case2 p => exact parseHeaderLine_position going

theorem parserEntityRound_position {p : HttpParser} (unfinished : (parserEntityRound p).1 ≠ .success) :
    (parserEntityRound p).2.position = p.position := by
  unfold parserEntityRound at unfinished ⊢
  split at unfinished
  · simp only [parserParseEntityUsingClen] at unfinished ⊢
    split_ifs at unfinished ⊢
    · rfl
    · exact absurd rfl unfinished
    · exact absurd rfl unfinished
  · simp only [parserParseChunkyEntity, parserChunkSizeRead]
    split_ifs <;> rfl
  · simp only [parserParseChunkyBody]
    split_ifs <;> rfl
  · simp only [parserParseChunkyHeaders] at unfinished ⊢
    by_cases ended : (parserParseHeaders p).1 = .ok
    · rw [if_pos ended] at unfinished
      exact absurd rfl unfinished
    · rw [if_neg ended] at unfinished ⊢
      exact parserParseHeaders_position (not_or.mpr ⟨ended, unfinished⟩)
  · rfl
  · unfold parserGetEntityReadMethod readMethodOfLength at unfinished ⊢
    split_ifs at unfinished ⊢
    · exact absurd rfl unfinished
    · rfl
    · dsimp only
      split
      · rfl
      · split_ifs <;> rfl

theorem parserParseEntity_waits {p : HttpParser}
    (short : parserConsumer.waits (parserParseEntity p).1) :
    (parserParseEntity p).2.position = p.position := by
  fun_induction parserParseEntity p with
  | case1 p next found ih =>
    have same := @parserEntityRound_position p (by rw [found]; simp)
    rw [found] at same
    exact (ih short).trans same
  | case2 p =>
    refine parserEntityRound_position ?_
    intro done
    rcases short with short | short <;> rw [done] at short <;> cases short

theorem parserParseHeaders_waits {p : HttpParser}
    (short : parserConsumer.waits (parserParseHeaders p).1) :
    (parserParseHeaders p).2.position = p.position := by
  refine parserParseHeaders_position ?_
  rintro (done | done) <;>
    · rw [done] at short
      rcases short with short | short <;> cases short

theorem parserMatchRequestline_not_entity (res : Resolver) (p : HttpParser) :
    (parserMatchRequestline res p).1 ≠ .incompleteEntity := by
  intro same
  simp only [parserMatchRequestline] at same
  split_ifs at same with simple full
  · rcases parserParseSimpleGet_status res _ _ _ with status | status <;>
      exact absurd (status.symm.trans same) (by decide)
  · have range := (matchFormat_matched p.scanner "%s\t%S\t%ihttp%w/%w%L%c").isMatch
    rw [same] at range
    simp [ParseStatus.IsMatch] at range
  · rcases parserParseFullRequest_status res _ _ _ _ with status | status <;>
      exact absurd (status.symm.trans same) (by decide)

theorem skipBlankLines_not_entity (sc : Scanner) : (skipBlankLines sc).1 ≠ .incompleteEntity := by
  intro same
  have range := (skipBlankLines_matched sc).isMatch
  rw [same] at range
  simp [ParseStatus.IsMatch] at range

theorem parserParseRequestline_not_entity (res : Resolver) (p : HttpParser) :
    (parserParseRequestline res p).1 ≠ .incompleteEntity := by
  simp only [parserParseRequestline]
  split_ifs
  · exact skipBlankLines_not_entity _
  · exact parserMatchRequestline_not_entity _ _

theorem parserParseResponseline_not_entity (p : HttpParser) :
    (parserParseResponseline p).1 ≠ .incompleteEntity := by
  simp only [parserParseResponseline, parserMatchResponseline]
  split_ifs
  · exact skipBlankLines_not_entity _
  · intro same
    have range := (matchFormat_matched (skipBlankLines p.scanner).2 "%ihttp%w/%w%L%c").isMatch
    rw [show (matchFormat (skipBlankLines p.scanner).2 "%ihttp%w/%w%L%c").1 = _ from same] at range
    simp [ParseStatus.IsMatch] at range
  · rcases parserParseStatusLine_status _ _ with status | status <;> rw [status] <;> simp

/-- A request line cut between CR and LF: the parser gives up, with the LF it would not. -/
theorem parserParseRequestline_cut {res : Resolver} {p : HttpParser} (more : p.scanner.Open)
    (cut : EndsInCr p.scanner) :
    (parserParseRequestline res p).1 = .noMatch ∧ ∀ buf, buf.head? = some LF →
      (parserParseRequestline res (p.extend buf)).1 = .success ∨
        (parserParseRequestline res (p.extend buf)).1 = .failure := by
  obtain ⟨blank, start, cr⟩ := cut
  have later := (skipBlankLines_matched p.scanner).reaches.opened more
  obtain ⟨simple, full, simple'⟩ := formats_at_cut later start cr
  constructor
  · have simple_ne : (matchFormat (skipBlankLines p.scanner).2 "%s\t%S%w%c").1 ≠ .ok := by
      intro ok
      exact absurd (simple.symm.trans ok) (by decide)
    have full_eq : (matchFormat (skipBlankLines p.scanner).2 "%s\t%S\t%ihttp%w/%w%L%c").1 =
        .noMatch := full
    simp [parserParseRequestline, parserMatchRequestline, blank, simple_ne, full_eq]
  · intro buf lf
    have skipped := skipBlankLines_extend more (by rw [blank]; decide) buf
    have simple_ok : (matchFormat ((skipBlankLines p.scanner).2.extend buf) "%s\t%S%w%c").1 = .ok :=
      simple' buf lf
    simp only [parserParseRequestline, parserMatchRequestline, HttpParser.extend_scanner, skipped,
      blank, ne_eq, not_true, if_false, HttpParser.withScanner_scanner, simple_ok, if_true]
    exact parserParseSimpleGet_status _ _ _ _

theorem parserParseRequestline_incremental {res : Resolver} {p : HttpParser} (good : p.Good)
    (here : p.position = .requestLine) :
    parserConsumer.IncrementalAt requestCut (parserParseRequestline res) p := by
  refine ⟨(parserParseRequestline_advances res p).good good, ?_, ?_, ?_⟩
  · rintro buf ⟨-, cut, -⟩ goes
    rw [(parserParseRequestline_cut good.more cut).1] at goes
    rcases goes with goes | goes <;> cases goes
  · intro buf done smooth
    exact .of_eq (parserParseRequestline_extend good.more here (not_waits_incomplete done) smooth)
  · rintro buf (short | short)
    · exact .of_eq (parserParseRequestline_resume good.more short buf)
    · exact absurd short (parserParseRequestline_not_entity res p)

theorem parserParseResponseline_incremental {p : HttpParser} (good : p.Good) :
    parserConsumer.IncrementalAt noCut parserParseResponseline p := by
  refine ⟨(parserParseResponseline_advances p).good good, fun _ bad => bad.elim, ?_, ?_⟩
  · intro buf done _
    exact .of_eq (parserParseResponseline_extend good.more (not_waits_incomplete done) buf)
  · rintro buf (short | short)
    · exact .of_eq (parserParseResponseline_resume good.more short buf)
    · exact absurd short (parserParseResponseline_not_entity p)

theorem requestCut_elsewhere {p : HttpParser} {position : ParserPos} (here : p.position = position)
    (other : position ≠ .requestLine) (buf : List UInt8) : ¬requestCut p buf :=
  fun cut => other (here.symm.trans cut.1)

theorem parserRound_at {res : Resolver} {p : HttpParser} {stage : HttpParser → ParseResult}
    (inc : parserConsumer.IncrementalAt requestCut stage p) {position : ParserPos}
    (here : p.position = position)
    (kept : parserConsumer.waits (stage p).1 → (stage p).2.position = p.position)
    (agree : ∀ q : HttpParser, q.position = position → parserRound res q = stage q) :
    parserConsumer.IncrementalAt requestCut (parserRound res) p :=
  inc.congr (agree p here) (fun _ => agree _ here)
    (fun short _ => agree _ ((kept short).trans here))

theorem noCut_requestCut {stage : HttpParser → ParseResult} {p : HttpParser}
    (inc : parserConsumer.IncrementalAt noCut stage p) (smooth : ∀ buf, ¬requestCut p buf) :
    parserConsumer.IncrementalAt requestCut stage p :=
  ⟨inc.keeps, fun buf cut => absurd cut (smooth buf), fun buf done _ => inc.stable buf done id,
    inc.resumes⟩

theorem parserParseRequestline_position {res : Resolver} {p : HttpParser}
    (short : parserConsumer.waits (parserParseRequestline res p).1) :
    (parserParseRequestline res p).2.position = p.position := by
  rcases short with short | short
  · rw [parserParseRequestline_incomplete short]
    rfl
  · exact absurd short (parserParseRequestline_not_entity res p)

theorem parserParseResponseline_position {p : HttpParser}
    (short : parserConsumer.waits (parserParseResponseline p).1) :
    (parserParseResponseline p).2.position = p.position := by
  rcases short with short | short
  · rw [parserParseResponseline_incomplete short]
    rfl
  · exact absurd short (parserParseResponseline_not_entity p)

theorem parserRound_incremental (res : Resolver) :
    parserConsumer.Incremental requestCut (parserRound res) := by
  intro p good
  cases here : p.position with
  | requestLine =>
    exact parserRound_at (parserParseRequestline_incremental good here) here
      parserParseRequestline_position fun q at_q => by rw [parserRound, at_q]
  | responseLine =>
    have smooth := requestCut_elsewhere here (by decide)
    exact parserRound_at (noCut_requestCut (parserParseResponseline_incremental good) smooth) here
      parserParseResponseline_position fun q at_q => by rw [parserRound, at_q]
  | headers =>
    have smooth := requestCut_elsewhere here (by decide)
    exact parserRound_at (noCut_requestCut (parserParseHeaders_incremental p good) smooth) here
      parserParseHeaders_waits fun q at_q => by rw [parserRound, at_q]
  | entity =>
    have smooth := requestCut_elsewhere here (by decide)
    exact parserRound_at (noCut_requestCut (parserParseEntity_incremental p good) smooth) here
      parserParseEntity_waits fun q at_q => by rw [parserRound, at_q]
  | complete =>
    have smooth := requestCut_elsewhere here (by decide)
    have same (q : HttpParser) (at_q : q.position = .complete) : parserRound res q = (.failure, q) := by
      rw [parserRound, at_q]
    refine .of_stable ?_ smooth ?_ ?_
    · rw [same p here]
      exact good
    · rw [same p here]
      rintro (short | short) <;> cases short
    · intro buf
      rw [same p here, same _ (show (parserConsumer.extend p buf).position = _ from here)]

theorem parserParse_next {res : Resolver} {p : HttpParser} (again : (parserRound res p).1 = .ok) :
    parserParse res p = parserParse res (parserRound res p).2 := by
  conv_lhs => rw [parserParse]
  split
  · rename_i found
    rw [found]
  · rename_i other
    exact (other _ (Prod.ext again rfl)).elim

theorem parserParse_last {res : Resolver} {p : HttpParser} (last : (parserRound res p).1 ≠ .ok) :
    parserParse res p = parserRound res p := by
  rw [parserParse]
  split
  · rename_i found
    exact absurd (congrArg Prod.fst found) last
  · rfl

theorem parserParseEntity_not_continue (p : HttpParser) : (parserParseEntity p).1 ≠ .continue1 := by
  fun_induction parserParseEntity p with
  | case1 p next found ih => exact ih
  | case2 p notAgain =>
    intro again
    exact notAgain _ (Prod.ext again rfl)

theorem skipBlankLines_not_continue (sc : Scanner) : (skipBlankLines sc).1 ≠ .continue1 := by
  intro same
  have range := (skipBlankLines_matched sc).isMatch
  rw [same] at range
  simp [ParseStatus.IsMatch] at range

theorem parserRound_not_continue (res : Resolver) (p : HttpParser) :
    (parserRound res p).1 ≠ .continue1 := by
  unfold parserRound
  split
  · exact parserParseEntity_not_continue p
  · exact parserParseHeaders_not_continue p
  · simp only [parserParseRequestline, parserMatchRequestline]
    split_ifs
    · exact skipBlankLines_not_continue _
    · rcases parserParseSimpleGet_status res _ _ _ with status | status <;> rw [status] <;> simp
    · exact matchFormat_not_continue _ _
    · rcases parserParseFullRequest_status res _ _ _ _ with status | status <;> rw [status] <;> simp
  · simp only [parserParseResponseline, parserMatchResponseline]
    split_ifs
    · exact skipBlankLines_not_continue _
    · exact matchFormat_not_continue _ _
    · rcases parserParseStatusLine_status _ _ with status | status <;> rw [status] <;> simp
  · simp

theorem parserParse_settled (res : Resolver) (p : HttpParser) :
    ¬parserConsumer.goesOn (parserParse res p).1 := by
  fun_induction parserParse res p with
  | case1 p next found ih => exact ih
  | case2 p notAgain =>
    rintro (goes | goes)
    · exact notAgain _ (Prod.ext goes rfl)
    · exact parserRound_not_continue res p goes

theorem parserParse_incremental (res : Resolver) :
    parserConsumer.Incremental requestCut (parserParse res) := by
  refine (parserRound_incremental res).loop (· = .ok) ?_ (fun p => parserParse_next)
    (fun p => parserParse_last) (fun p => p.position.rank) ?_ ?_
    (fun p _ _ => parserParse_settled res p)
  · rintro _ rfl
    exact parserConsumer_goesOn_ok
  · intro p again
    exact parserRound_rank (Prod.ext again rfl)
  · rintro p buf again ⟨here, -, -⟩
    have lower := @parserRound_rank res p _ (Prod.ext again rfl)
    rw [here] at lower
    cases position : p.position <;> rw [position] at lower <;> exact absurd lower (by decide)

end Pupnp.Http
