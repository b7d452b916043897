import Pupnp.Http.Resume

/-!
A request that arrives in pieces against the same bytes in one `parser_append`.
-/

namespace Pupnp.Http
open Pupnp.CString Pupnp.Uri Pupnp.Stream

/-- `parser_append` for each piece, up to the first status that does not ask for more. -/
def parserFeed (res : Resolver) (p : HttpParser) (fragments : List (List UInt8)) : ParseResult :=
  parserConsumer.feed (parserParse res) (.incomplete, p) fragments

structure Outcome where
  status : ParseStatus
  method : HttpMethod
  uri : Option UriType
  urlbuf : List UInt8
  majorVersion : Int
  minorVersion : Int
  headers : List HttpHeader
  entity : List UInt8
  deriving DecidableEq, Repr

def outcome (r : ParseResult) : Outcome :=
  { status := r.1, method := r.2.msg.method, uri := r.2.msg.uri, urlbuf := r.2.msg.urlbuf,
    majorVersion := r.2.msg.majorVersion, minorVersion := r.2.msg.minorVersion,
    headers := r.2.msg.headers, entity := r.2.entityBytes }

theorem outcome_congr {r r' : ParseResult} (status : r.1 = r'.1)
    (observed : r.2.observe = r'.2.observe) : outcome r = outcome r' := by
  have frame : r.2.withScanner (scannerInit []) = r'.2.withScanner (scannerInit []) :=
    congrArg Prod.fst observed
  have msg : r.2.msg = r'.2.msg := by
    have fields := congrArg HttpParser.msg frame
    exact fields
  have entity : r.2.entityBytes = r'.2.entityBytes := congrArg Prod.snd observed
  simp only [outcome, status, msg, entity]

/-- The bytes received end between the CR and the LF of a request line that has blanks
behind its URI and no version. -/
def CutRequestLine (received rest : List UInt8) : Prop :=
  EndsInCr (scannerInit received) ∧ rest.head? = some LF

theorem parserInit_good (isRequest : Bool) (requestMethod : HttpMethod) (position : ParserPos) :
    (parserInit isRequest requestMethod position).Good :=
  ⟨⟨rfl, le_rfl⟩, rfl, fun settled => absurd rfl settled, nofun⟩

theorem skipBlankLines_empty : skipBlankLines (scannerInit []) = (.incomplete, scannerInit []) :=
  skipBlankLines_error rfl

theorem parserParse_requestInit (res : Resolver) :
    parserParse res parserRequestInit = (.incomplete, parserRequestInit) := by
  have round : parserRound res parserRequestInit = (.incomplete, parserRequestInit) := by
    change parserParseRequestline res parserRequestInit = _
    unfold parserParseRequestline
    rw [show parserRequestInit.scanner = scannerInit [] from rfl, skipBlankLines_empty]
    rfl
  rw [parserParse_last (by rw [round]; decide), round]

theorem parserParse_responseInit (res : Resolver) (requestMethod : HttpMethod) :
    parserParse res (parserResponseInit requestMethod) =
      (.incomplete, parserResponseInit requestMethod) := by
  have round : parserRound res (parserResponseInit requestMethod) =
      (.incomplete, parserResponseInit requestMethod) := by
    change parserParseResponseline (parserResponseInit requestMethod) = _
    unfold parserParseResponseline
    rw [show (parserResponseInit requestMethod).scanner = scannerInit [] from rfl,
      skipBlankLines_empty]
    rfl
  rw [parserParse_last (by rw [round]; nofun), round]

/-- A parser as `parser_request_init` or `parser_response_init` leave it. -/
inductive HttpParser.Initial : HttpParser → Prop
  | request : Initial parserRequestInit
  | response (requestMethod : HttpMethod) : Initial (parserResponseInit requestMethod)

theorem parserParse_initial {res : Resolver} {p : HttpParser} (start : p.Initial) :
    parserParse res p = (.incomplete, p) := by
  cases start with
  | request => exact parserParse_requestInit res
  | response requestMethod => exact parserParse_responseInit res requestMethod

theorem HttpParser.Initial.good {p : HttpParser} (start : p.Initial) : p.Good := by
  cases start with
  | request => exact parserInit_good _ _ _
  | response => exact parserInit_good _ _ _

theorem requestInit_cut (received rest : List UInt8) :
    requestCut (parserRequestInit.extend received) rest ↔ CutRequestLine received rest := by
  have scanner : (parserRequestInit.extend received).scanner = scannerInit received := rfl
  unfold requestCut CutRequestLine
  rw [scanner]
  exact ⟨fun cut => cut.2, fun cut => ⟨rfl, cut⟩⟩

theorem parserRound_requestLine {res : Resolver} {p : HttpParser} (here : p.position = .requestLine) :
    parserRound res p = parserParseRequestline res p := by rw [parserRound, here]

theorem parserParse_cut_noMatch {res : Resolver} {p : HttpParser} {buf : List UInt8} (good : p.Good)
    (cut : requestCut p buf) : (parserParse res p).1 = .noMatch := by
  obtain ⟨here, ends, -⟩ := cut
  have gives_up := (@parserParseRequestline_cut res p good.more ends).1
  rw [← parserRound_requestLine here] at gives_up
  rw [parserParse_last (by rw [gives_up]; decide), gives_up]

theorem parserParse_cut {res : Resolver} {p : HttpParser} {buf : List UInt8} (good : p.Good)
    (cut : requestCut p buf) :
    ¬parserConsumer.waits (parserParse res p).1 ∧
      (parserParse res p).1 ≠ (parserParse res (p.extend buf)).1 := by
  have early := @parserParse_cut_noMatch res p buf good cut
  obtain ⟨here, ends, lf⟩ := cut
  have late := (@parserParseRequestline_cut res p good.more ends).2 buf lf
  rw [← @parserRound_requestLine res (p.extend buf) here] at late
  rw [early]
  constructor
  · rintro (short | short) <;> cases short
  · rcases late with status | status
    · rw [parserParse_last (by rw [status]; decide), status]
      decide
    · rw [parserParse_last (by rw [status]; decide), status]
      decide

theorem requestCut_append {p : HttpParser} {a : List UInt8} (cut : requestCut p a)
    (b : List UInt8) : requestCut p (a ++ b) := by
  obtain ⟨here, ends, lf⟩ := cut
  refine ⟨here, ends, ?_⟩
  rw [List.head?_append, lf]
  rfl

/-- Pieces and the whole give the same outcome exactly when no piece ends in a cut. -/
theorem parserFeed_outcome_iff (res : Resolver) (fragments : List (List UInt8)) :
    outcome (parserFeed res parserRequestInit fragments) =
        outcome (parserAppend res parserRequestInit fragments.flatten) ↔
      ∀ received rest, fragments = received ++ rest →
        ¬CutRequestLine received.flatten rest.flatten := by
  have start := parserParse_requestInit res
  have good : parserConsumer.inv parserRequestInit := parserInit_good _ _ _
  have short : parserConsumer.waits (parserParse res parserRequestInit).1 := by
    rw [start]
    exact .inl rfl
  have inc := parserParse_incremental res
  have settled := parserParse_settled res
  have cuts := inc.feed_status_iff settled (fun _ _ => parserParse_cut)
    (fun _ _ b cut => requestCut_append cut b) good short fragments
  have same := inc.feed_same settled good short fragments
  rw [start] at cuts same
  simp only [parserConsumer_extend, requestInit_cut] at cuts same
  constructor
  · intro agree
    exact cuts.mp (congrArg Outcome.status agree)
  · intro smooth
    exact outcome_congr (same smooth).status (same smooth).observed

def noHosts : Resolver := ⟨fun _ => none, fun _ _ => none, 0⟩

/-- `GET /foo ` with its line end cut in two. -/
theorem parserFeed_cut_differs :
    ¬∀ (res : Resolver) (fragments : List (List UInt8)), (∀ q ∈ fragments, q ≠ []) →
      outcome (parserFeed res parserRequestInit fragments) =
        outcome (parserAppend res parserRequestInit fragments.flatten) := by
  intro claim
  have same := claim noHosts [bytes "GET /foo \r", bytes "\n"] (by decide)
  revert same
  decide +kernel

end Pupnp.Http
