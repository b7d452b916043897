import Pupnp.Http.RecvMessage

/-! `http_RecvMessage` against one parse of all the bytes that the peer sent. -/

namespace Pupnp.Http
open Pupnp.CString Pupnp.Uri Pupnp.Stream

theorem observe_fields {p p' : HttpParser} (same : p.observe = p'.observe) :
    p.msg = p'.msg ∧ p.contentLength = p'.contentLength := by
  have frame : p.withScanner (scannerInit []) = p'.withScanner (scannerInit []) := congrArg Prod.fst same
  have msg := congrArg HttpParser.msg frame
  have length := congrArg HttpParser.contentLength frame
  exact ⟨msg, length⟩

/-- A message that is complete after some pieces stays as it is, whatever comes behind it. -/
theorem parserFeed_success {res : Resolver} {p₀ : HttpParser} (start : p₀.Initial) {fragments : List (List UInt8)}
    (success : (parserFeed res p₀ fragments).1 = .success) (rest : List UInt8) :
    (parserParse res (p₀.extend (fragments.flatten ++ rest))).1 = .success ∧
      (parserParse res (p₀.extend (fragments.flatten ++ rest))).2.observe =
        (parserFeed res p₀ fragments).2.observe := by
  have inc := parserParse_incremental res
  obtain ⟨pre, post, split, same⟩ := inc.feed_received start.good fragments
  rw [parserParse_initial start] at same
  change Consumer.Same _ (parserFeed res p₀ fragments) _ at same
  have status := same.status
  rw [success] at status
  rw [parserConsumer_extend] at same status
  have done : ¬parserConsumer.waits (parserParse res (p₀.extend pre.flatten)).1 := by
    rw [← status]
    rintro (short | short) <;> cases short
  have good := start.good.extend pre.flatten
  have smooth : ¬requestCut (p₀.extend pre.flatten) (post.flatten ++ rest) := by
    intro cut
    have gives_up := @parserParse_cut_noMatch res _ _ good cut
    exact absurd (status.trans gives_up) (by decide)
  have stable := (inc _ good).stable (post.flatten ++ rest) done smooth
  have kept := parserConsumer.observe_extend _ (post.flatten ++ rest) (inc _ good).keeps
  have whole : p₀.extend (fragments.flatten ++ rest) =
      (p₀.extend pre.flatten).extend (post.flatten ++ rest) := by
    rw [split, List.flatten_append, List.append_assoc]
    exact parserConsumer.extend_append p₀ pre.flatten (post.flatten ++ rest)
  rw [whole]
  exact ⟨stable.status.trans status.symm, (stable.observed.trans kept).trans same.observed.symm⟩

/-- A message that arrives on a connection in any pieces is the one that a parser makes of all bytes. -/
theorem httpRecvMessage_whole {res : Resolver} {maxContentLength : Nat} {requestMethod : HttpMethod}
    {reads : List SockRead} {result : Received}
    (returned : httpRecvMessage res maxContentLength requestMethod reads = some result)
    (success : result.ret = UPNP_E_SUCCESS)
    (settled : ¬parserConsumer.waits
      (parserParse res ((parserInitFor requestMethod).extend (received reads))).1) :
    (parserParse res ((parserInitFor requestMethod).extend (received reads))).1 = .success ∧
      result.parser.msg = (parserParse res ((parserInitFor requestMethod).extend (received reads))).2.msg := by
  have start := parserInitFor_initial requestMethod
  obtain ⟨between, last, later, okOnClose, p, split, waits, completes, -⟩ :=
    httpRecvLoop_success start waiting_start returned success
  rw [List.nil_append] at waits
  rw [split, received_append waits.data] at settled ⊢
  generalize result.parser = final at completes ⊢
  cases completes with
  | closed ok =>
    have whole := parserFeed_waits start waits.short
    have short := waits.short
    have none : received (.closed :: later) = [] := rfl
    rw [none, List.append_nil, ← whole] at settled
    exact absurd short settled
  | complete buf some done fits =>
    have fed := parserFeed_snoc waits.short buf
    rw [waits.parser] at fed
    have all : received (.data buf some :: later) = buf ++ received later := by
      have first := @received_append [.data buf some] (by simp [SockRead.isData]) later
      simpa [SockRead.bytes] using first
    have finished : (parserFeed res (parserInitFor requestMethod)
        (between.map SockRead.bytes ++ [buf])).1 = .success := by rw [fed]; exact done
    obtain ⟨status, observed⟩ := parserFeed_success start finished (received later)
    rw [fed] at observed
    have bytes : (between.map SockRead.bytes ++ [buf]).flatten ++ received later =
        (between.map SockRead.bytes).flatten ++ received (.data buf some :: later) := by
      rw [all]
      simp
    rw [bytes] at status observed
    exact ⟨status, (observe_fields observed).1.symm⟩

theorem httpRecvLoop_feed {res : Resolver} {maxContentLength : Nat} {reads : List SockRead} {r : ParseResult}
    (short : parserConsumer.waits r.1) (data : ∀ read ∈ reads, read.isData = true)
    (success : (parserConsumer.feed (parserParse res) r (reads.map SockRead.bytes)).1 = .success)
    (fits : contentTooLarge maxContentLength
      (parserConsumer.feed (parserParse res) r (reads.map SockRead.bytes)).2 = false) (okOnClose : Bool) :
    ∃ code, httpRecvLoop res maxContentLength okOnClose r.2 reads =
      some ⟨UPNP_E_SUCCESS, code, (parserConsumer.feed (parserParse res) r (reads.map SockRead.bytes)).2⟩ := by
  induction reads generalizing r okOnClose with
  | nil =>
    rw [List.map_nil, Consumer.feed] at success
    rw [success] at short
    rcases short with short | short <;> cases short
  | cons read reads ih =>
    cases read with
    | closed => exact absurd (data _ List.mem_cons_self) (fun same => by cases same)
    | error code negative => exact absurd (data _ List.mem_cons_self) (fun same => by cases same)
    | data buf some =>
      have others : ∀ read ∈ reads, read.isData = true := fun read member =>
        data read (List.mem_cons_of_mem _ member)
      rw [List.map_cons, Consumer.feed, if_pos short] at success fits ⊢
      have here : parserAppend res r.2 buf = parserParse res (parserConsumer.extend r.2 buf) := rfl
      rw [SockRead.bytes] at success fits ⊢
      rw [← here] at success fits ⊢
      by_cases again : parserConsumer.waits (parserAppend res r.2 buf).1
      · have later := ih again others success fits
        rcases again with status | status
        · simpa only [httpRecvLoop, status] using later okOnClose
        · simpa only [httpRecvLoop, status] using later true
      · rw [Consumer.feed_done again] at success fits ⊢
        refine ⟨HTTP_INTERNAL_SERVER_ERROR, ?_⟩
        simp only [httpRecvLoop, success, fits, Bool.false_eq_true, if_false]

theorem httpRecvLoop_append {res : Resolver} {maxContentLength : Nat} {okOnClose : Bool} {p : HttpParser}
    {reads : List SockRead} {result : Received}
    (returned : httpRecvLoop res maxContentLength okOnClose p reads = some result) (later : List SockRead) :
    httpRecvLoop res maxContentLength okOnClose p (reads ++ later) = some result := by
  induction reads generalizing okOnClose p with
  | nil => cases returned
  | cons read reads ih =>
    cases read with
    | closed => exact returned
    | error code negative => exact returned
    | data buf some =>
      rw [List.cons_append]
      cases status : (parserAppend res p buf).1 with
      | incompleteEntity =>
        simp only [httpRecvLoop, status] at returned ⊢
        exact ih returned
      | ok =>
        simp only [httpRecvLoop, status] at returned ⊢
        exact ih returned
      | incomplete =>
        simp only [httpRecvLoop, status] at returned ⊢
        exact ih returned
      | _ =>
        simp only [httpRecvLoop, status] at returned ⊢
        exact returned

theorem httpRecvMessage_response {res : Resolver} (maxContentLength : Nat) {requestMethod : HttpMethod}
    (known : requestMethod ≠ .unknown) (reads : List SockRead)
    (complete : (parserParse res ((parserResponseInit requestMethod).extend (received reads))).1 = .success)
    (noLength : (parserParse res ((parserResponseInit requestMethod).extend (received reads))).2.contentLength = 0) :
    ∃ result, httpRecvMessage res maxContentLength requestMethod reads = some result ∧
      result.ret = UPNP_E_SUCCESS ∧
      result.parser.msg =
        (parserParse res ((parserResponseInit requestMethod).extend (received reads))).2.msg := by
  have start := HttpParser.Initial.response requestMethod
  have first := @parserParse_initial res _ start
  set pieces := reads.takeWhile SockRead.isData with pieces_eq
  have data : ∀ read ∈ pieces, read.isData = true := fun read member => List.mem_takeWhile_imp member
  have smooth (buf rest : List UInt8) : ¬requestCut ((parserResponseInit requestMethod).extend buf) rest := by
    rintro ⟨here, -⟩
    cases here
  have same := (parserParse_incremental res).feed_same (parserParse_settled res) start.good
    (by rw [first]; exact .inl rfl) (pieces.map SockRead.bytes) fun _ _ _ => smooth _ _
  rw [first] at same
  rw [parserConsumer_extend] at same
  change Consumer.Same _ _ (parserParse res ((parserResponseInit requestMethod).extend (received reads))) at same
  obtain ⟨msg, length⟩ := observe_fields same.observed
  have fits : contentTooLarge maxContentLength
      (parserConsumer.feed (parserParse res) (.incomplete, parserResponseInit requestMethod)
        (pieces.map SockRead.bytes)).2 = false := by
    rw [contentTooLarge, length, noLength]
    simp
  obtain ⟨code, returned⟩ := @httpRecvLoop_feed res maxContentLength pieces (.incomplete, parserResponseInit requestMethod)
    (.inl rfl) data (same.status.trans complete) fits false
  have whole := httpRecvLoop_append returned (reads.dropWhile SockRead.isData)
  rw [pieces_eq, List.takeWhile_append_dropWhile] at whole
  rw [httpRecvMessage, parserInitFor, if_neg known]
  exact ⟨_, whole, rfl, msg⟩

end Pupnp.Http
