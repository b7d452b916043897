import Pupnp.Http.Length
import Pupnp.Http.Trailers

/-!
`http_RecvMessage`: the loop that reads a socket and feeds the parser.
-/

namespace Pupnp.Http
open Pupnp.CString Pupnp.Uri Pupnp.Stream

def UPNP_E_SUCCESS : Int := 0
def UPNP_E_BAD_HTTPMSG : Int := -119
def UPNP_E_OUTOF_BOUNDS : Int := -506
def HTTP_REQ_ENTITY_TOO_LARGE : Nat := 413

/-- A result of `sock_read`: bytes, the end of the stream or an error. How many bytes come
at once is up to the peer, so the size of the read buffer is not modelled. -/
inductive SockRead where
  | data (buf : List UInt8) (some : buf ≠ [])
  | closed
  | error (code : Int) (negative : code < 0)

def SockRead.bytes : SockRead → List UInt8
  | .data buf _ => buf
  | _ => []

def SockRead.isData : SockRead → Bool
  | .data _ _ => true
  | _ => false

/-- `ret`, `*http_error_code` and the parser when the function returns. -/
structure Received where
  ret : Int
  httpErrorCode : Nat
  parser : HttpParser

/-- `g_maxContentLength`, cast to `unsigned int`, against the announced length. -/
def contentTooLarge (maxContentLength : Nat) (p : HttpParser) : Bool :=
  0 < maxContentLength && maxContentLength % 2 ^ 32 < p.contentLength

/-- The loop of `http_RecvMessage`; `none` while it waits for the next read. -/
def httpRecvLoop (res : Resolver) (maxContentLength : Nat) (okOnClose : Bool) (p : HttpParser) :
    List SockRead → Option Received
  | [] => none
  | .data buf _ :: reads =>
      let r := parserAppend res p buf
      match r.1 with
      | .success =>
          if contentTooLarge maxContentLength r.2 then
            some ⟨UPNP_E_OUTOF_BOUNDS, HTTP_REQ_ENTITY_TOO_LARGE, r.2⟩
          else some ⟨UPNP_E_SUCCESS, HTTP_INTERNAL_SERVER_ERROR, r.2⟩
      | .failure => some ⟨UPNP_E_BAD_HTTPMSG, r.2.httpErrorCode, r.2⟩
      | .noMatch => some ⟨UPNP_E_BAD_HTTPMSG, r.2.httpErrorCode, r.2⟩
      | .incompleteEntity => httpRecvLoop res maxContentLength true r.2 reads
      -- the loop returns the number of `PARSE_SUCCESS`
      | .continue1 => some ⟨UPNP_E_SUCCESS, HTTP_INTERNAL_SERVER_ERROR, r.2⟩
      | .ok => httpRecvLoop res maxContentLength okOnClose r.2 reads
      | .incomplete => httpRecvLoop res maxContentLength okOnClose r.2 reads
  | .closed :: _ =>
      if okOnClose then some ⟨UPNP_E_SUCCESS, HTTP_INTERNAL_SERVER_ERROR, p⟩
      else some ⟨UPNP_E_BAD_HTTPMSG, HTTP_BAD_REQUEST, p⟩
  | .error code _ :: _ => some ⟨code, p.httpErrorCode, p⟩

/-- `HTTPMETHOD_UNKNOWN` stands for a request. -/
def parserInitFor (requestMethod : HttpMethod) : HttpParser :=
  if requestMethod = .unknown then parserRequestInit else parserResponseInit requestMethod

def httpRecvMessage (res : Resolver) (maxContentLength : Nat) (requestMethod : HttpMethod)
    (reads : List SockRead) : Option Received :=
  httpRecvLoop res maxContentLength false (parserInitFor requestMethod) reads

theorem parserInitFor_initial (requestMethod : HttpMethod) : (parserInitFor requestMethod).Initial := by
  unfold parserInitFor
  split_ifs
  · exact .request
  · exact .response requestMethod

/-! ### Until close -/

structure HttpParser.UntilClose (p : HttpParser) : Prop where
  position : p.position = .entity
  framing : p.entPosition = .untilClose
  buf : p.msg.entity.buf = some p.entityStartPosition
  length : p.msg.entity.length = p.scanner.msg.length - p.entityStartPosition

theorem parserParseEntity_untilClose {p : HttpParser} (good : p.Good)
    (position : p.position = .entity) (framing : p.entPosition = .untilClose) :
    (parserParseEntity p).1 = .incompleteEntity ∧ (parserParseEntity p).2.UntilClose ∧
      (parserParseEntity p).2.scanner.msg = p.scanner.msg := by
  have round : parserEntityRound p = parserParseEntityUntilClose p := by
    rw [parserEntityRound, framing]
  rw [parserParseEntity_last (by rw [round]; intro same; cases same), round]
  refine ⟨rfl, ⟨position, framing, rfl, ?_⟩, rfl⟩
  simp only [parserParseEntityUntilClose, HttpParser.withScanner, HttpParser.withEntity,
    good.discarded, Nat.add_zero]

theorem HttpParser.UntilClose.append {res : Resolver} {p : HttpParser} (close : p.UntilClose)
    (good : p.Good) (buf : List UInt8) :
    (parserAppend res p buf).1 = .incompleteEntity ∧ (parserAppend res p buf).2.UntilClose := by
  have position : (p.extend buf).position = .entity := close.position
  obtain ⟨status, later, -⟩ :=
    parserParseEntity_untilClose (good.extend buf) position close.framing
  rw [parserAppend, parserParse_atEntity position]
  exact ⟨status, later⟩

/-- From an open framing the parser comes to read until close right behind the headers. -/
theorem parserParseEntity_toClose {p : HttpParser} (good : p.Good) (position : p.position = .entity)
    (closed : p.entPosition = .determineReadMethod)
    (framing : (parserParseEntity p).2.entPosition = .untilClose) :
    (parserParseEntity p).1 = .incompleteEntity ∧ (parserParseEntity p).2.UntilClose ∧
      (parserParseEntity p).2.scanner.msg = p.scanner.msg := by
  have round : parserEntityRound p = parserGetEntityReadMethod p := by rw [parserEntityRound, closed]
  have goods := good.readMethod
  by_cases again : (parserGetEntityReadMethod p).1 = .continue1
  · have next := @parserParseEntity_next p (by rw [round]; exact again)
    have at_next := (@parserEntityRound_position p (by rw [round, again]; decide)).trans position
    have scanner := (parserGetEntityReadMethod_continue (Prod.ext again rfl)).1
    rw [round] at next at_next
    by_cases close : (parserGetEntityReadMethod p).2.entPosition = .untilClose
    · rw [next, ← scanner]
      exact parserParseEntity_untilClose goods at_next close
    · have framed := (parserGetEntityReadMethod_continue (Prod.ext again rfl)).2
      have kept := parserParseEntity_framing framed
      rw [← next, framing] at kept
      exact absurd ((EntPosition.framing_close _).mp kept.symm) close
  · have same := (parserGetEntityReadMethod_last again).2.2
    rw [parserParseEntity_last (by rw [round]; exact again), round, same, closed] at framing
    cases framing

theorem parserParse_untilClose {res : Resolver} {p : HttpParser} (unread : p.Unread)
    (framing : (parserParse res p).2.entPosition = .untilClose) :
    (parserParse res p).1 = .incompleteEntity ∧ (parserParse res p).2.UntilClose ∧
      (parserParse res p).2.scanner.msg = p.scanner.msg := by
  obtain ⟨q, moved, at_q, -, same, -⟩ := @parserParse_toEntity res p unread.good unread.closed
    unread.hasEntity (by rw [framing]; decide)
  rw [same] at framing ⊢
  rw [← moved.reaches.msg]
  exact parserParseEntity_toClose (moved.good unread.good) at_q
    (moved.entPosition.trans unread.closed) framing

theorem parserParseHeaders_not_entity (p : HttpParser) :
    (parserParseHeaders p).1 ≠ .incompleteEntity := by
  fun_induction parserParseHeaders p with
  | case1 p next found ih => exact ih
  | case2 p => exact parseHeaderLine_not_entity p

theorem parserEntityRound_incompleteEntity {p : HttpParser}
    (status : (parserEntityRound p).1 = .incompleteEntity) : p.entPosition = .untilClose := by
  have noMatch (sc : Scanner) (fmt : String) : (matchFormat sc fmt).1 ≠ .incompleteEntity := by
    intro same
    have range := (matchFormat_matched sc fmt).isMatch
    rw [same] at range
    simp [ParseStatus.IsMatch] at range
  unfold parserEntityRound at status
  split at status
  · simp only [parserParseEntityUsingClen] at status
    split_ifs at status
  · simp only [parserParseChunkyEntity] at status
    split_ifs at status
    · exact absurd status (noMatch _ _)
    · rw [parserChunkSizeRead_continue] at status
      cases status
  · simp only [parserParseChunkyBody] at status
    split_ifs at status
    exact absurd status (noMatch _ _)
  · simp only [parserParseChunkyHeaders] at status
    split_ifs at status
    exact absurd status (parserParseHeaders_not_entity p)
  · assumption
  · by_cases again : (parserGetEntityReadMethod p).1 = .continue1
    · rw [again] at status
      cases status
    · exact absurd (.inr status) (parserGetEntityReadMethod_last again).1

theorem parserParseEntity_incompleteEntity {p : HttpParser}
    (status : (parserParseEntity p).1 = .incompleteEntity) :
    (parserParseEntity p).2.entPosition = .untilClose := by
  fun_induction parserParseEntity p with
  | case1 p next round ih => exact ih status
  | case2 p =>
    have here := parserEntityRound_incompleteEntity status
    rw [parserEntityRound_waits (.inr status), here]

theorem parserParse_incompleteEntity {res : Resolver} {p : HttpParser}
    (status : (parserParse res p).1 = .incompleteEntity) :
    (parserParse res p).2.entPosition = .untilClose := by
  fun_induction parserParse res p with
  | case1 p next round ih => exact ih status
  | case2 p =>
    unfold parserRound at status ⊢
    split at status
    · rename_i here
      simpa only [here] using parserParseEntity_incompleteEntity status
    · exact absurd status (parserParseHeaders_not_entity p)
    · exact absurd status (parserParseRequestline_not_entity res p)
    · exact absurd status (parserParseResponseline_not_entity p)
    · cases status

/-! ### Runs of the loop -/

structure Waiting (res : Resolver) (p₀ : HttpParser) (earlier : List SockRead) (okOnClose : Bool)
    (p : HttpParser) : Prop where
  data : ∀ r ∈ earlier, r.isData = true
  parser : (parserFeed res p₀ (earlier.map SockRead.bytes)).2 = p
  short : parserConsumer.waits (parserFeed res p₀ (earlier.map SockRead.bytes)).1
  close : okOnClose = true → p.UntilClose

/-- How a read makes the loop return `UPNP_E_SUCCESS`: it completes a message that is not too
large, or it is the end of one that is read until close. -/
inductive Completes (res : Resolver) (maxContentLength : Nat) (okOnClose : Bool) (p : HttpParser) :
    SockRead → HttpParser → Prop
  | complete (buf : List UInt8) (some : buf ≠ []) (success : (parserAppend res p buf).1 = .success)
      (fits : contentTooLarge maxContentLength (parserAppend res p buf).2 = false) :
      Completes res maxContentLength okOnClose p (.data buf some) (parserAppend res p buf).2
  | closed (ok : okOnClose = true) : Completes res maxContentLength okOnClose p .closed p

theorem parserFeed_snoc {res : Resolver} {p₀ : HttpParser} {fragments : List (List UInt8)}
    (short : parserConsumer.waits (parserFeed res p₀ fragments).1) (buf : List UInt8) :
    parserFeed res p₀ (fragments ++ [buf]) = parserAppend res (parserFeed res p₀ fragments).2 buf := by
  rw [parserFeed, Consumer.feed_append, Consumer.feed,
    show parserConsumer.feed (parserParse res) (.incomplete, p₀) fragments =
      parserFeed res p₀ fragments from rfl, if_pos short]
  rfl

theorem parserFeed_waits {res : Resolver} {p₀ : HttpParser} (start : p₀.Initial)
    {fragments : List (List UInt8)} (short : parserConsumer.waits (parserFeed res p₀ fragments).1) :
    parserFeed res p₀ fragments = parserParse res (p₀.extend fragments.flatten) := by
  have inc := parserParse_incremental res
  have whole := inc.feed_waits start.good fragments
  rw [parserParse_initial start] at whole
  exact whole short

theorem parserFeed_good {res : Resolver} {p₀ : HttpParser} (start : p₀.Initial)
    (fragments : List (List UInt8)) : (parserFeed res p₀ fragments).2.Good := by
  refine Consumer.feed_rule (K := fun r : ParseResult => r.2.Good) ?_ start.good fragments
  intro r q good _
  exact (parserParse_incremental res (r.2.extend q) (good.extend q)).keeps

theorem Waiting.append {res : Resolver} {p₀ p : HttpParser} {earlier : List SockRead}
    {okOnClose : Bool} (waiting : Waiting res p₀ earlier okOnClose p) (start : p₀.Initial)
    {buf : List UInt8} (some : buf ≠ [])
    (short : parserConsumer.waits (parserAppend res p buf).1) {okOnClose' : Bool}
    (close : okOnClose' = true → okOnClose = true ∨ (parserAppend res p buf).1 = .incompleteEntity) :
    Waiting res p₀ (earlier ++ [.data buf some]) okOnClose' (parserAppend res p buf).2 := by
  have fed : parserFeed res p₀ ((earlier ++ [SockRead.data buf some]).map SockRead.bytes) =
      parserAppend res p buf := by
    rw [List.map_append, List.map_singleton, ← waiting.parser]
    exact parserFeed_snoc waiting.short buf
  refine ⟨?_, by rw [fed], by rw [fed]; exact short, ?_⟩
  · intro r member
    rcases List.mem_append.mp member with before | now
    · exact waiting.data r before
    · rw [List.mem_singleton.mp now]
      rfl
  · intro ok
    have good := waiting.parser ▸ @parserFeed_good res _ start (earlier.map SockRead.bytes)
    rcases close ok with already | status
    · exact ((waiting.close already).append good buf).2
    · rw [← fed] at status short ⊢
      have whole := parserFeed_waits start short
      rw [whole] at status ⊢
      exact (parserParse_untilClose (start.unread.extend _) (parserParse_incompleteEntity status)).2.1

theorem httpRecvLoop_success {res : Resolver} {maxContentLength : Nat} {p₀ p : HttpParser}
    {earlier : List SockRead} {okOnClose : Bool} (start : p₀.Initial)
    (waiting : Waiting res p₀ earlier okOnClose p) {reads : List SockRead} {result : Received}
    (returned : httpRecvLoop res maxContentLength okOnClose p reads = some result)
    (success : result.ret = UPNP_E_SUCCESS) :
    ∃ between last later okOnClose' p', reads = between ++ last :: later ∧
      Waiting res p₀ (earlier ++ between) okOnClose' p' ∧
      Completes res maxContentLength okOnClose' p' last result.parser ∧
      httpRecvLoop res maxContentLength okOnClose p between = none ∧
      httpRecvLoop res maxContentLength okOnClose p (between ++ [last]) = some result := by
  induction reads generalizing earlier okOnClose p with
  | nil => cases returned
  | cons read reads ih =>
    have stop (done : Completes res maxContentLength okOnClose p read result.parser)
        (alone : httpRecvLoop res maxContentLength okOnClose p [read] = some result) :
        ∃ between last later okOnClose' p', read :: reads = between ++ last :: later ∧
          Waiting res p₀ (earlier ++ between) okOnClose' p' ∧
          Completes res maxContentLength okOnClose' p' last result.parser ∧
          httpRecvLoop res maxContentLength okOnClose p between = none ∧
          httpRecvLoop res maxContentLength okOnClose p (between ++ [last]) = some result :=
      ⟨[], read, reads, okOnClose, p, rfl, by rwa [List.append_nil], done, rfl, alone⟩
    cases read with
    | closed =>
      have alone : httpRecvLoop res maxContentLength okOnClose p [.closed] = some result := returned
      simp only [httpRecvLoop] at returned
      split_ifs at returned with ok
      · cases returned
        exact stop (.closed ok) alone
      · cases returned
        cases success
    | error code negative =>
      cases returned
      exact absurd negative (by rw [show code = 0 from success]; decide)
    | data buf filled =>
      have later (okOnClose' : Bool) (short : parserConsumer.waits (parserAppend res p buf).1)
          (close : okOnClose' = true → okOnClose = true ∨
            (parserAppend res p buf).1 = .incompleteEntity)
          (step : ∀ reads, httpRecvLoop res maxContentLength okOnClose p (.data buf filled :: reads) =
            httpRecvLoop res maxContentLength okOnClose' (parserAppend res p buf).2 reads) :
          ∃ between last later okOnClose' p',
            .data buf filled :: reads = between ++ last :: later ∧
            Waiting res p₀ (earlier ++ between) okOnClose' p' ∧
            Completes res maxContentLength okOnClose' p' last result.parser ∧
            httpRecvLoop res maxContentLength okOnClose p between = none ∧
            httpRecvLoop res maxContentLength okOnClose p (between ++ [last]) = some result := by
        rw [step] at returned
        obtain ⟨between, last, after, ok, q, split, waits, completes, none, ended⟩ :=
          ih (waiting.append start filled short close) returned
        refine ⟨.data buf filled :: between, last, after, ok, q, by rw [split]; rfl, ?_, completes, ?_, ?_⟩
        · rwa [List.append_assoc] at waits
        · rw [step]
          exact none
        · rw [List.cons_append, step]
          exact ended
      have settled := parserParse_settled res (p.extend buf)
      cases status : (parserAppend res p buf).1 with
      | success =>
        have alone : httpRecvLoop res maxContentLength okOnClose p [.data buf filled] = some result := by
          simpa only [httpRecvLoop, status] using returned
        simp only [httpRecvLoop, status] at returned
        cases fits : contentTooLarge maxContentLength (parserAppend res p buf).2 with
        | true =>
          rw [fits] at returned
          cases returned
          cases success
        | false =>
          rw [fits] at returned
          cases returned
          exact stop (.complete buf filled status fits) alone
      | failure =>
        simp only [httpRecvLoop, status] at returned
        cases returned
        cases success
      | noMatch =>
        simp only [httpRecvLoop, status] at returned
        cases returned
        cases success
      | incompleteEntity =>
        exact later true (.inr status) (fun _ => .inr status) fun _ => by
          simp only [httpRecvLoop, status]
      | incomplete =>
        exact later okOnClose (.inl status) .inl fun _ => by simp only [httpRecvLoop, status]
      | ok => exact absurd (.inl status) settled
      | continue1 => exact absurd (.inr status) settled

/-! ### A complete message -/

/-- With a Content-Length the byte behind the entity is cleared, or it is the terminator. -/
theorem parserEntityRound_clen {p : HttpParser} (good : p.Good)
    (success : (parserEntityRound p).1 = .success)
    (framing : (parserEntityRound p).2.entPosition = .usingClen) :
    (parserEntityRound p).2.Terminated := by
  have here : p.entPosition = .usingClen := by
    by_cases closed : p.entPosition = .determineReadMethod
    · have round : parserEntityRound p = parserGetEntityReadMethod p := by
        rw [parserEntityRound, closed]
      rw [round] at success framing
      rw [(parserGetEntityReadMethod_last (by rw [success]; decide)).2.2, closed] at framing
      cases framing
    · have kept := parserEntityRound_framing closed
      rw [framing] at kept
      revert kept
      cases p.entPosition <;> decide
  have round : parserEntityRound p = parserParseEntityUsingClen p := by rw [parserEntityRound, here]
  have bound := good.started_bound (by rw [here]; decide)
  rw [HttpParser.entityLimit, here] at bound
  simp only [EntPosition.isChunked, Bool.false_eq_true, if_false] at bound
  rw [round] at success ⊢
  simp only [parserParseEntityUsingClen, good.discarded, Nat.add_zero, Nat.sub_zero] at success ⊢
  split_ifs at success ⊢ with short surplus
  · refine ⟨p.entityStartPosition, rfl, ?_, ?_⟩
    · simp only [HttpParser.withPosition, HttpParser.withScanner, HttpParser.withEntity,
        Scanner.terminateAt, List.length_set]
      omega
    · simp only [HttpParser.withPosition, HttpParser.withScanner, HttpParser.withEntity,
        Scanner.terminateAt, List.getD_eq_getElem?_getD]
      rw [List.getElem?_set_self (by omega)]
      rfl
  · refine ⟨p.entityStartPosition, rfl, ?_, ?_⟩
    · simp only [HttpParser.withPosition, HttpParser.withScanner, HttpParser.withEntity]
      omega
    · simp only [HttpParser.withPosition, HttpParser.withScanner, HttpParser.withEntity]
      rw [List.getD_eq_getElem?_getD, List.getElem?_eq_none (by omega)]
      rfl

theorem parserParseEntity_clen {p : HttpParser} (good : p.Good)
    (success : (parserParseEntity p).1 = .success)
    (framing : (parserParseEntity p).2.entPosition = .usingClen) :
    (parserParseEntity p).2.Terminated := by
  fun_induction parserParseEntity p with
  | case1 p next round ih =>
    have kept := parserEntityRound_good good
    rw [round] at kept
    exact ih kept success framing
  | case2 p => exact parserEntityRound_clen good success framing

theorem parserParse_clen {res : Resolver} {p : HttpParser} (good : p.Good) (framed : p.Framed)
    (unfinished : p.position ≠ .complete) (success : (parserParse res p).1 = .success)
    (framing : (parserParse res p).2.entPosition = .usingClen) :
    (parserParse res p).2.Terminated := by
  fun_induction parserParse res p with
  | case1 p next round ih =>
    have again : (parserRound res p).1 = .ok := by rw [round]
    have good' := (parserRound_incremental res p good).keeps
    have framed' := @parserRound_framed res p framed unfinished
    have unfinished' := parserRound_ok_unfinished again
    rw [round] at good' framed' unfinished'
    exact ih good' framed' unfinished' success framing
  | case2 p =>
    by_cases here : p.position = .entity
    · have round : parserRound res p = parserParseEntity p := by rw [parserRound, here]
      rw [round] at success framing ⊢
      exact parserParseEntity_clen good success framing
    · rw [parserRound_unframed framed here unfinished] at framing
      cases framing

theorem parserParse_closed_length {res : Resolver} {p : HttpParser} (unread : p.Unread)
    (closed : (parserParse res p).2.entPosition = .determineReadMethod) :
    (parserParse res p).2.msg.entity.length = 0 := by
  fun_induction parserParse res p with
  | case1 p next round ih =>
    by_cases here : p.position = .entity
    · rw [parserRound, here] at round
      exact absurd (congrArg Prod.fst round) (parserParseEntity_not_ok p)
    · have step := @parserRound_advances res p here
      have entity := @parserRound_hasEntity res p (by rw [round])
      rw [round] at step entity
      exact ih (unread.advance step entity) closed
  | case2 p =>
    by_cases here : p.position = .entity
    · rw [parserRound, here] at closed ⊢
      exact (parserParseEntity_closed unread.closed closed).2
    · exact (congrArg Entity.length (parserRound_advances here).entity).trans unread.empty

inductive CompleteEntity (p : HttpParser) : Prop
  | none (framing : p.entPosition = .determineReadMethod) (empty : p.msg.entity.length = 0)
  | length (framing : p.entPosition = .usingClen) (taken : p.msg.entity.length = p.contentLength)
      (nul : p.Terminated)
  | chunks (framing : p.entPosition.isChunked = true)

theorem parserFeed_complete {res : Resolver} {p₀ : HttpParser} (start : p₀.Initial)
    {fragments : List (List UInt8)} (short : parserConsumer.waits (parserFeed res p₀ fragments).1)
    {buf : List UInt8}
    (success : (parserAppend res (parserFeed res p₀ fragments).2 buf).1 = .success) :
    CompleteEntity (parserAppend res (parserFeed res p₀ fragments).2 buf).2 := by
  have whole := parserFeed_waits start short
  have before := @parserFeed_result res _ start fragments
  have result := @parserFeed_result res _ start (fragments ++ [buf])
  rw [parserFeed_snoc short] at result
  have resumes := (parserParse_incremental res (p₀.extend fragments.flatten)
    (start.unread.extend _).good).resumes buf (whole ▸ short)
  rw [parserConsumer_extend, parserConsumer_extend, ← whole] at resumes
  set r := parserAppend res (parserFeed res p₀ fragments).2 buf
  have frame : r.2.withScanner (scannerInit []) =
      (parserParse res ((p₀.extend fragments.flatten).extend buf)).2.withScanner (scannerInit []) :=
    congrArg Prod.fst resumes.observed
  have unread := (start.unread.extend fragments.flatten).extend buf
  have framing := congrArg (fun q => q.entPosition) frame
  have length := congrArg (fun q => q.msg.entity.length) frame
  dsimp only [HttpParser.withScanner] at framing length
  cases kind : r.2.entPosition with
  | determineReadMethod =>
    refine .none kind ?_
    rw [length]
    exact parserParse_closed_length unread (framing.symm.trans kind)
  | usingClen =>
    refine .length kind ?_ ?_
    · rcases result.clen kind with short' | ⟨-, taken⟩
      · rw [success] at short'
        cases short'
      · exact taken
    · exact parserParse_clen ((parserFeed_good start fragments).extend buf)
        ⟨before.framed.unframed, before.framed.clen⟩ (before.going short) success kind
  | untilClose =>
    have status := (parserParse_untilClose unread (framing.symm.trans kind)).1
    rw [← resumes.status] at status
    exact absurd (success.symm.trans status) (by decide)
  | usingChunked => exact .chunks (by rw [kind]; rfl)
  | chunkyBody => exact .chunks (by rw [kind]; rfl)
  | chunkyHeaders => exact .chunks (by rw [kind]; rfl)

/-! ### The bytes of a run -/

/-- The bytes that the peer sent before it closed the connection or the read failed. -/
def received (reads : List SockRead) : List UInt8 :=
  ((reads.takeWhile SockRead.isData).map SockRead.bytes).flatten

theorem received_append {e : List SockRead} (data : ∀ r ∈ e, r.isData = true)
    (reads : List SockRead) :
    received (e ++ reads) = (e.map SockRead.bytes).flatten ++ received reads := by
  unfold received
  rw [List.takeWhile_append_of_pos data, List.map_append, List.flatten_append]

theorem received_single (buf : List UInt8) (some : buf ≠ []) : received [.data buf some] = buf :=
  List.append_nil buf

theorem waiting_start {res : Resolver} {p₀ : HttpParser} : Waiting res p₀ [] false p₀ :=
  ⟨nofun, rfl, .inl rfl, nofun⟩

end Pupnp.Http
