import Pupnp.Http.Good
import Pupnp.Http.StatusLine
import Pupnp.Library.Stream

/-!
The parser as a consumer of a stream: every stage of it may be taken up again
where it stopped for lack of bytes, and what it has settled stays, except for a
request line that is cut between its CR and its LF.
-/

namespace Pupnp.Http
open Pupnp.CString Pupnp.Uri Pupnp.Stream

section Setters

variable (p : HttpParser) (sc : Scanner) (entity : Entity) (buf : List UInt8)

@[simp] theorem HttpParser.extend_scanner : (p.extend buf).scanner = p.scanner.extend buf := rfl
@[simp] theorem HttpParser.extend_msg : (p.extend buf).msg = p.msg := rfl
@[simp] theorem HttpParser.extend_position : (p.extend buf).position = p.position := rfl
@[simp] theorem HttpParser.extend_entPosition : (p.extend buf).entPosition = p.entPosition := rfl
@[simp] theorem HttpParser.extend_chunkSize : (p.extend buf).chunkSize = p.chunkSize := rfl
@[simp] theorem Scanner.extend_msg : (sc.extend buf).msg = sc.msg ++ buf := rfl

@[simp] theorem HttpParser.extend_withScanner : (p.extend buf).withScanner sc = p.withScanner sc := rfl

@[simp] theorem HttpParser.withScanner_extend :
    (p.withScanner sc).extend buf = p.withScanner (sc.extend buf) := rfl

@[simp] theorem HttpParser.withEntity_extend :
    (p.withEntity entity).extend buf = (p.extend buf).withEntity entity := rfl

@[simp] theorem HttpParser.withChunkSize_extend (n : Nat) :
    (p.withChunkSize n).extend buf = (p.extend buf).withChunkSize n := rfl

end Setters

def HttpParser.entityBytes (p : HttpParser) : List UInt8 :=
  match p.msg.entity.buf with
  | some buf => (Memptr.mk buf p.msg.entity.length).read p.scanner.msg
  | none => []

def HttpParser.observe (p : HttpParser) : HttpParser × List UInt8 :=
  ({ p with scanner := scannerInit [] }, p.entityBytes)

theorem HttpParser.Good.entity_inside {p : HttpParser} (good : p.Good) {buf : Nat}
    (found : p.msg.entity.buf = some buf) : buf + p.msg.entity.length ≤ p.scanner.msg.length := by
  have bound := good.entity buf found
  have inside := good.more.inside
  unfold HttpParser.entityLimit at bound
  split_ifs at bound <;> omega

theorem HttpParser.Good.entityBytes_extend {p : HttpParser} (good : p.Good) (buf : List UInt8) :
    (p.extend buf).entityBytes = p.entityBytes := by
  unfold HttpParser.entityBytes
  rw [show (p.extend buf).msg = p.msg from rfl]
  split
  · rename_i start found
    exact Memptr.read_append (good.entity_inside found) buf
  · rfl

def parserConsumer : Consumer HttpParser UInt8 ParseStatus (HttpParser × List UInt8) where
  extend := HttpParser.extend
  observe := HttpParser.observe
  inv := HttpParser.Good
  waits status := status = .incomplete ∨ status = .incompleteEntity
  goesOn status := status = .ok ∨ status = .continue1
  apart status goes waits := by
    rcases goes with rfl | rfl <;> simp at waits
  extend_nil p := by
    rw [HttpParser.extend, Scanner.extend, List.append_nil]
    rfl
  extend_append p a b := by
    rw [HttpParser.extend, Scanner.extend, ← List.append_assoc]
    rfl
  inv_extend _ buf good := good.extend buf
  observe_extend p buf good := by
    simp only [HttpParser.observe, good.entityBytes_extend buf]
    rfl

instance : DecidablePred parserConsumer.waits := fun status =>
  inferInstanceAs (Decidable (status = .incomplete ∨ status = .incompleteEntity))

def requestCut (p : HttpParser) (buf : List UInt8) : Prop :=
  p.position = .requestLine ∧ EndsInCr p.scanner ∧ buf.head? = some LF

/-! ### Request line and response line -/

theorem skipBlankLines_resume {sc : Scanner} (more : sc.Open) (buf : List UInt8) :
    skipBlankLines ((skipBlankLines sc).2.extend buf) = skipBlankLines (sc.extend buf) := by
  fun_induction skipBlankLines sc with
  | case1 => rfl
  | case2 sc token next found blank ih =>
    rw [skipBlankLines_token (scannerGetToken_extend_ok more found buf), if_pos blank]
    exact ih ((scannerGetToken_reaches found).opened more)
  | case3 => rfl

theorem parserParseSimpleGet_extend (res : Resolver) (p : HttpParser) (method url buf : List UInt8) :
    parserParseSimpleGet res (p.extend buf) method url =
      ((parserParseSimpleGet res p method url).1,
        (parserParseSimpleGet res p method url).2.extend buf) := by
  unfold parserParseSimpleGet
  split
  · rfl
  · split_ifs
    · rfl
    · dsimp only
      split <;> rfl

theorem parserParseFullRequest_extend (res : Resolver) (p : HttpParser)
    (method url version buf : List UInt8) :
    parserParseFullRequest res (p.extend buf) method url version =
      ((parserParseFullRequest res p method url version).1,
        (parserParseFullRequest res p method url version).2.extend buf) := by
  simp only [parserParseFullRequest]
  split
  · rfl
  · split
    · rfl
    · simp only [show (p.extend buf).msg = p.msg from rfl]
      split_ifs <;> rfl

theorem parserParseFullRequest_status (res : Resolver) (p : HttpParser)
    (method url version : List UInt8) :
    (parserParseFullRequest res p method url version).1 = .ok ∨
      (parserParseFullRequest res p method url version).1 = .failure := by
  simp only [parserParseFullRequest]
  split
  · exact .inr rfl
  · split
    · exact .inr rfl
    · split_ifs
      · exact .inr rfl
      · exact .inl rfl

theorem parserParseSimpleGet_status (res : Resolver) (p : HttpParser) (method url : List UInt8) :
    (parserParseSimpleGet res p method url).1 = .success ∨
      (parserParseSimpleGet res p method url).1 = .failure := by
  unfold parserParseSimpleGet
  split
  · exact .inr rfl
  · split_ifs
    · exact .inr rfl
    · dsimp only
      split
      · exact .inr rfl
      · exact .inl rfl

theorem simpleGet_appendable : ∀ d ∈ format "%s\t%S%w%c", d.Appendable := by
  rw [format_simpleGet]
  simp [requestTarget, Directive.Appendable]

theorem fullRequest_appendable : ∀ d ∈ format "%s\t%S\t%ihttp%w/%w%L%c", d.Appendable := by
  rw [format_fullRequest]
  simp [requestTarget, httpVersion, Directive.Appendable]

theorem parserMatchRequestline_extend {res : Resolver} {p : HttpParser} (more : p.scanner.Open)
    {buf : List UInt8} (settled : (parserMatchRequestline res p).1 ≠ .incomplete)
    (smooth : (vfmatchLoop true p.scanner requestLineStart).1 = .ok →
      (vfmatchLoop true p.scanner requestLineStart).2.1.rest = [CR] → buf.head? ≠ some LF) :
    parserMatchRequestline res (p.extend buf) =
      ((parserMatchRequestline res p).1, (parserMatchRequestline res p).2.extend buf) := by
  unfold parserMatchRequestline at settled ⊢
  by_cases simple : (matchFormat p.scanner "%s\t%S%w%c").1 = .ok
  · have same := matchFormat_extend simpleGet_appendable more (by rw [simple]; decide) buf
    have read := strArg_read_append more "%s\t%S%w%c"
    simp only [HttpParser.extend_scanner, same, simple, if_true, HttpParser.extend_withScanner,
      Scanner.extend_msg, read]
    rw [← HttpParser.withScanner_extend]
    exact parserParseSimpleGet_extend _ _ _ _ _
  · have full : (matchFormat p.scanner "%s\t%S\t%ihttp%w/%w%L%c").1 ≠ .incomplete := by
      intro short
      simp [simple, short] at settled
    have same := matchFormat_extend fullRequest_appendable more full buf
    have simple' : (matchFormat (p.scanner.extend buf) "%s\t%S%w%c").1 ≠ .ok := by
      by_cases short : (matchFormat p.scanner "%s\t%S%w%c").1 = .incomplete
      · have start := (start_of_incomplete short full).1
        exact simpleGet_extend_not_ok more short full (smooth start)
      · rw [matchFormat_extend simpleGet_appendable more short buf]
        exact simple
    have read := strArg_read_append more "%s\t%S\t%ihttp%w/%w%L%c"
    simp only [HttpParser.extend_scanner, same, simple, simple', if_false,
      HttpParser.extend_withScanner, Scanner.extend_msg, read]
    by_cases failed : (matchFormat p.scanner "%s\t%S\t%ihttp%w/%w%L%c").1 = .ok
    · simp only [failed, ne_eq, not_true, if_false]
      rw [← HttpParser.withScanner_extend]
      exact parserParseFullRequest_extend _ _ _ _ _ _
    · simp only [failed, ne_eq, not_false_iff, if_true]
      rfl

theorem parserParseRequestline_extend {res : Resolver} {p : HttpParser} (more : p.scanner.Open)
    (here : p.position = .requestLine) {buf : List UInt8}
    (settled : (parserParseRequestline res p).1 ≠ .incomplete) (smooth : ¬requestCut p buf) :
    parserParseRequestline res (p.extend buf) =
      ((parserParseRequestline res p).1, (parserParseRequestline res p).2.extend buf) := by
  have later := (skipBlankLines_matched p.scanner).reaches.opened more
  unfold parserParseRequestline at settled ⊢
  by_cases blank : (skipBlankLines p.scanner).1 = .ok
  · have skipped := skipBlankLines_extend more (by rw [blank]; decide) buf
    simp only [HttpParser.extend_scanner, skipped, blank, ne_eq, not_true, if_false,
      HttpParser.extend_withScanner] at settled ⊢
    exact parserMatchRequestline_extend (p := p.withScanner (skipBlankLines p.scanner).2) later
      settled (fun start cr lf => smooth ⟨here, ⟨blank, start, cr⟩, lf⟩)
  · have done : (skipBlankLines p.scanner).1 ≠ .incomplete := by
      intro short
      simp [short] at settled
    have skipped := skipBlankLines_extend more done buf
    simp only [HttpParser.extend_scanner, skipped, blank, ne_eq, not_false_iff, if_true,
      HttpParser.extend_withScanner]
    rfl

theorem parserMatchRequestline_incomplete {res : Resolver} {p : HttpParser}
    (short : (parserMatchRequestline res p).1 = .incomplete) :
    (parserMatchRequestline res p).2 = p := by
  simp only [parserMatchRequestline] at short ⊢
  split_ifs at short ⊢ with simple full
  · rcases parserParseSimpleGet_status res (p.withScanner (matchFormat p.scanner "%s\t%S%w%c").2.1)
      ((strArg (matchFormat p.scanner "%s\t%S%w%c").2.2 0).read p.scanner.msg)
      ((strArg (matchFormat p.scanner "%s\t%S%w%c").2.2 1).read p.scanner.msg) with status | status
    · rw [status] at short
      cases short
    · rw [status] at short
      cases short
  · rw [matchFormat_restores full]
    rfl
  · exfalso
    rcases parserParseFullRequest_status res _ _ _ _ with status | status
    · rw [status] at short
      cases short
    · rw [status] at short
      cases short

theorem parserParseRequestline_incomplete {res : Resolver} {p : HttpParser}
    (short : (parserParseRequestline res p).1 = .incomplete) :
    (parserParseRequestline res p).2 = p.withScanner (skipBlankLines p.scanner).2 := by
  simp only [parserParseRequestline] at short ⊢
  split_ifs at short ⊢ with blank
  · rfl
  · exact parserMatchRequestline_incomplete short

theorem parserParseRequestline_resume {res : Resolver} {p : HttpParser} (more : p.scanner.Open)
    (short : (parserParseRequestline res p).1 = .incomplete) (buf : List UInt8) :
    parserParseRequestline res ((parserParseRequestline res p).2.extend buf) =
      parserParseRequestline res (p.extend buf) := by
  have skipped := skipBlankLines_resume more buf
  rw [parserParseRequestline_incomplete short]
  simp only [parserParseRequestline, HttpParser.withScanner_extend, HttpParser.withScanner_scanner,
    skipped, HttpParser.withScanner_withScanner, HttpParser.extend_scanner,
    HttpParser.extend_withScanner]
  rfl

theorem statusLine_appendable : ∀ d ∈ format "%ihttp%w/%w%L%c", d.Appendable := by
  rw [format_statusLine]
  simp [Directive.Appendable]

theorem vfmatchLoop_noArg {fmt : List Directive}
    (none : ∀ d ∈ fmt, ∀ c sc, (matchDirective c sc d).2.2 = []) (caseSensitive : Bool)
    (sc : Scanner) : (vfmatchLoop caseSensitive sc fmt).2.2 = [] := by
  induction fmt generalizing caseSensitive sc with
  | nil => rfl
  | cons d rest ih =>
    have here := none d (by simp) caseSensitive sc
    by_cases matched : (matchDirective caseSensitive sc d).1 = .ok
    · rw [vfmatchLoop_cons matched, here, ih fun e member => none e (by simp [member])]
      rfl
    · rw [vfmatchLoop_stop matched, here]

theorem matchOptionalWs_noArg (sc : Scanner) : (matchOptionalWs sc).2.2 = [] := by
  unfold matchOptionalWs
  split <;> rfl

theorem statusLine_noArg (sc : Scanner) :
    (vfmatchLoop true sc [.setCase false, .char 104, .char 116, .char 116, .char 112, .optionalWs,
      .char 47, .optionalWs]).2.2 = [] := by
  refine vfmatchLoop_noArg ?_ true sc
  intro d member c sc
  simp only [List.mem_cons, List.not_mem_nil, or_false] at member
  rcases member with rfl | rfl | rfl | rfl | rfl | rfl | rfl | rfl <;>
    first | rfl | exact matchOptionalWs_noArg sc

theorem responseLine_ends {p : HttpParser}
    (matched : (matchFormat p.scanner "%ihttp%w/%w%L%c").1 = .ok) :
    ∃ c rest, (c = CR ∨ c = LF) ∧ p.scanner.msg.drop (strArg (matchFormat p.scanner "%ihttp%w/%w%L%c").2.2 0).buf =
      (strArg (matchFormat p.scanner "%ihttp%w/%w%L%c").2.2 0).read p.scanner.msg ++ c :: rest := by
  have loop := matchFormat_ok matched
  rw [format_statusLine] at loop
  obtain ⟨line, c, rest, args, kind, ends⟩ := line_before_crlf (congrArg Prod.fst loop)
  rw [loop, statusLine_noArg] at args
  dsimp only [List.nil_append] at args
  have line_eq : strArg (matchFormat p.scanner "%ihttp%w/%w%L%c").2.2 0 = line := by
    rw [args]
    rfl
  exact ⟨c, rest, kind, line_eq ▸ ends⟩

theorem parserMatchResponseline_extend {p : HttpParser} (more : p.scanner.Open)
    (settled : (parserMatchResponseline p).1 ≠ .incomplete) (buf : List UInt8) :
    parserMatchResponseline (p.extend buf) =
      ((parserMatchResponseline p).1, (parserMatchResponseline p).2.extend buf) := by
  unfold parserMatchResponseline at settled ⊢
  by_cases matched : (matchFormat p.scanner "%ihttp%w/%w%L%c").1 = .ok
  · have same := matchFormat_extend statusLine_appendable more (by rw [matched]; decide) buf
    have inside := strArg_inside (@vfmatchLoop_inside true _ (format "%ihttp%w/%w%L%c") more.inside) 0
    rw [matchFormat_ok matched] at inside
    obtain ⟨c, rest, kind, ends⟩ := responseLine_ends matched
    have msg := (matchFormat_matched p.scanner "%ihttp%w/%w%L%c").reaches.msg
    simp only [HttpParser.extend_scanner, same, matched, ne_eq, not_true, if_false, HttpParser.extend_withScanner]
    rw [← HttpParser.withScanner_extend]
    exact parserParseStatusLine_extend (by rw [HttpParser.withScanner_scanner, msg]; exact inside)
      kind (by rw [HttpParser.withScanner_scanner, msg]; exact ends) buf
  · have settled' : (matchFormat p.scanner "%ihttp%w/%w%L%c").1 ≠ .incomplete := by
      intro short
      simp [short] at settled
    have same := matchFormat_extend statusLine_appendable more settled' buf
    simp only [HttpParser.extend_scanner, same, matched, ne_eq, not_false_iff, if_true]
    rfl

theorem parserParseResponseline_extend {p : HttpParser} (more : p.scanner.Open)
    (settled : (parserParseResponseline p).1 ≠ .incomplete) (buf : List UInt8) :
    parserParseResponseline (p.extend buf) =
      ((parserParseResponseline p).1, (parserParseResponseline p).2.extend buf) := by
  have later := (skipBlankLines_matched p.scanner).reaches.opened more
  unfold parserParseResponseline at settled ⊢
  by_cases blank : (skipBlankLines p.scanner).1 = .ok
  · have skipped := skipBlankLines_extend more (by rw [blank]; decide) buf
    simp only [HttpParser.extend_scanner, skipped, blank, ne_eq, not_true, if_false,
      HttpParser.extend_withScanner] at settled ⊢
    exact parserMatchResponseline_extend (p := p.withScanner (skipBlankLines p.scanner).2) later
      settled buf
  · have done : (skipBlankLines p.scanner).1 ≠ .incomplete := by
      intro short
      simp [short] at settled
    have skipped := skipBlankLines_extend more done buf
    simp only [HttpParser.extend_scanner, skipped, blank, ne_eq, not_false_iff, if_true,
      HttpParser.extend_withScanner]
    rfl

theorem parserParseStatusLine_status (p : HttpParser) (line : Memptr) :
    (parserParseStatusLine p line).1 = .ok ∨ (parserParseStatusLine p line).1 = .failure := by
  simp only [parserParseStatusLine]
  split_ifs
  · exact .inr rfl
  · exact .inr rfl
  · exact .inl rfl

theorem parserParseResponseline_incomplete {p : HttpParser}
    (short : (parserParseResponseline p).1 = .incomplete) :
    (parserParseResponseline p).2 = p.withScanner (skipBlankLines p.scanner).2 := by
  simp only [parserParseResponseline, parserMatchResponseline] at short ⊢
  split_ifs at short ⊢ with blank line
  · rfl
  · rw [matchFormat_restores line]
    rfl
  · exfalso
    rcases parserParseStatusLine_status _ _ with status | status
    · rw [status] at short
      cases short
    · rw [status] at short
      cases short

theorem parserParseResponseline_resume {p : HttpParser} (more : p.scanner.Open)
    (short : (parserParseResponseline p).1 = .incomplete) (buf : List UInt8) :
    parserParseResponseline ((parserParseResponseline p).2.extend buf) =
      parserParseResponseline (p.extend buf) := by
  have skipped := skipBlankLines_resume more buf
  rw [parserParseResponseline_incomplete short]
  simp only [parserParseResponseline, HttpParser.withScanner_extend,
    HttpParser.withScanner_scanner, skipped, HttpParser.withScanner_withScanner,
    HttpParser.extend_scanner, HttpParser.extend_withScanner]
  rfl

/-! ### Header lines -/

theorem headerValue_appendable : ∀ d ∈ format " : %R%c", d.Appendable := by
  have shape : format " : %R%c" = [.lws, .char 58, .lws, .rawValue, .crlf] := by decide
  rw [shape]
  simp [Directive.Appendable]

theorem parseHeaderLine_extend {p : HttpParser} (more : p.scanner.Open)
    (settled : (parseHeaderLine p).1 ≠ .incomplete) (buf : List UInt8) :
    parseHeaderLine (p.extend buf) = ((parseHeaderLine p).1, (parseHeaderLine p).2.extend buf) := by
  cases found : scannerGetToken p.scanner with
  | error status =>
    have done : status ≠ .incomplete := by
      intro short
      simp [parseHeaderLine, found, short] at settled
    simp [parseHeaderLine, found, scannerGetToken_extend_error more found done buf]
  | ok pair =>
    obtain ⟨token, next⟩ := pair
    have found' := scannerGetToken_extend_ok more found buf
    have later := (scannerGetToken_reaches found).opened more
    obtain ⟨-, start, -, bound⟩ := scannerGetToken_ok found
    have name : token.str.read (p.scanner.msg ++ buf) = token.str.read p.scanner.msg :=
      Memptr.read_append (by rw [start]; exact bound) buf
    have value := strArg_read_append later " : %R%c" 0
    have msg := (scannerGetToken_reaches found).msg
    rw [msg] at value
    unfold parseHeaderLine at settled ⊢
    rw [found] at settled
    rw [HttpParser.extend_scanner, found', found]
    dsimp only at settled ⊢
    cases type : token.type <;> rw [type] at settled <;> dsimp only at settled ⊢
    case crlf =>
      rw [HttpParser.extend_msg]
      split_ifs <;> rfl
    case identifier =>
      by_cases matched : (matchFormat next " : %R%c").1 = .ok
      · have same := matchFormat_extend headerValue_appendable later (by rw [matched]; decide) buf
        simp only [same, matched, ne_eq, not_true, if_false, Scanner.extend_msg, name, value,
          HttpParser.extend_msg]
        rfl
      · have done : (matchFormat next " : %R%c").1 ≠ .incomplete := by
          intro short
          simp [short] at settled
        have same := matchFormat_extend headerValue_appendable later done buf
        simp only [same, matched, ne_eq, not_false_iff, if_true]
    all_goals rfl

theorem parseHeaderLine_incomplete {p : HttpParser} (short : (parseHeaderLine p).1 = .incomplete) :
    (parseHeaderLine p).2 = p := by
  unfold parseHeaderLine at short ⊢
  split at short
  · rfl
  · split at short
    · split_ifs at short
    · dsimp only at short ⊢
      split_ifs at short ⊢
      rfl
    · cases short

end Pupnp.Http
