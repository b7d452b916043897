import Pupnp.Ssdp.Names

/-! How the parser and the matchers read the packets that `CreateServicePacket` makes. -/

namespace Pupnp.Ssdp
open Pupnp.CString Pupnp.Uri Pupnp.Http

/-! ### The values of header lines -/

theorem digit_graphic {c : UInt8} : isDigit c = true → isTextChar c = true ∧ c ≠ SP := by
  revert c
  apply forall_byte
  decide +kernel

theorem number_graphic (n : Nat) : ∀ c ∈ decimalDigits n, isTextChar c = true ∧ c ≠ SP :=
  fun c member => digit_graphic (decimalDigits_isDigit n c member)

theorem headerValue_number (num : Int) : HeaderValue (number num) := .of_graphic (number_graphic _)

theorem headerValue_maxAge (p : ServicePacket) : HeaderValue (maxAge p) := by
  have literal : ∀ c ∈ bytes "max-age=", isTextChar c = true ∧ c ≠ SP := by decide
  apply HeaderValue.of_graphic
  intro c member
  obtain front | digits := List.mem_append.mp member
  · exact literal c front
  · exact number_graphic _ c digits

theorem twoDigits_plain (n : Nat) : ∀ c ∈ twoDigits n, isTextChar c = true := by
  intro c member
  rw [twoDigits] at member
  split at member
  · obtain rfl | digits := List.mem_cons.mp member
    · decide
    · exact (number_graphic n c digits).1
  · exact (number_graphic n c member).1

theorem weekday_spec : ∀ day : Fin 7, (∀ c ∈ weekdayStr.getD day [], isTextChar c = true) ∧
    weekdayStr.getD day [] ≠ [] ∧ (weekdayStr.getD day []).head? ≠ some SP := by
  decide

theorem month_plain : ∀ month : Fin 12, ∀ c ∈ monthStr.getD month [], isTextChar c = true := by
  decide

theorem headerValue_date (tm : Tm) : HeaderValue tm.text := by
  obtain ⟨weekday, named, first⟩ := weekday_spec tm.wday
  have comma : ∀ c ∈ bytes ", ", isTextChar c = true := by decide
  have space : ∀ c ∈ bytes " ", isTextChar c = true := by decide
  have colon : ∀ c ∈ bytes ":", isTextChar c = true := by decide
  have zone : ∀ c ∈ bytes " GMT", isTextChar c = true := by decide
  have year : ∀ c ∈ decimalDigits tm.year, isTextChar c = true := fun c member =>
    (number_graphic tm.year c member).1
  constructor
  · apply ValueText.of_plain
    simp only [Tm.text, List.forall_mem_append, and_assoc]
    exact ⟨weekday, comma, twoDigits_plain _, space, month_plain _, space, year, space,
      twoDigits_plain _, colon, twoDigits_plain _, colon, twoDigits_plain _, zone⟩
  · cases shape : weekdayStr.getD tm.wday [] with
    | nil => exact absurd shape named
    | cons c rest =>
      rw [shape] at first
      rw [Tm.text, shape]
      exact first
  · have last : (bytes " GMT").getLast? = some 84 := by decide
    rw [Tm.text, List.getLast?_append, last]
    simp [SP]

/-! ### The lines of a packet -/

/-- What a packet is to look like for its lines to come through. -/
structure Readable (env : Env) (p : ServicePacket) : Prop where
  fits : env.Fits
  info : HeaderValue env.sdkInfo
  nls : ∀ nls ∈ env.nls, HeaderValue nls
  location : HeaderValue p.location
  nt : HeaderValue p.nt
  usn : HeaderValue p.usn
  size : (createServicePacket env p).length < BUFSIZE

def ValueGood (line : HeaderLine) : Prop := IsGap line.gap ∧ HeaderValue line.value

theorem lineOf_good (name : String) {value : List UInt8} (isValue : HeaderValue value) :
    ValueGood (lineOf name value) := ⟨.inr rfl, isValue⟩

theorem powerLines_good (p : ServicePacket) : ∀ line ∈ powerLines p, ValueGood line := by
  intro line member
  rw [powerLines] at member
  split at member
  · simp only [List.mem_cons, List.not_mem_nil, or_false] at member
    obtain rfl | rfl | rfl := member <;> exact lineOf_good _ (headerValue_number _)
  · cases member

theorem agentLines_good (env : Env) : ∀ line ∈ agentLines env, ValueGood line := by
  rw [agentLines]
  cases env.nls with
  | none => simp
  | some nls =>
    intro line member
    rw [List.mem_singleton.mp member]
    exact lineOf_good _ (.of_graphic (by decide))

theorem hostOf_mem (env : Env) (p : ServicePacket) :
    hostOf env p ∈ [bytes "239.255.255.250", bytes "[FF05::C]", bytes "[FF02::C]"] := by
  rw [hostOf]
  cases p.addressFamily with
  | inet => exact List.mem_cons_self
  | inet6 =>
    dsimp only
    split <;> simp

theorem headerValue_host (env : Env) (p : ServicePacket) :
    HeaderValue (hostOf env p ++ bytes ":1900") := by
  have each : ∀ host ∈ [bytes "239.255.255.250", bytes "[FF05::C]", bytes "[FF02::C]"],
      ∀ c ∈ host ++ bytes ":1900", isTextChar c = true ∧ c ≠ SP := by decide
  exact .of_graphic (each _ (hostOf_mem env p))

section Lines
variable {env : Env} {p : ServicePacket} (readable : Readable env p)
include readable

theorem optLines_good : ∀ line ∈ optLines env, ValueGood line := by
  have text : ValueText (bytes "\"http://schemas.upnp.org/upnp/1/0/\"; ns=01") :=
    @ValueText.quoted (bytes "http://schemas.upnp.org/upnp/1/0/") (bytes "; ns=01")
      (by decide) (.of_plain (by decide))
  have nls := readable.nls
  rw [optLines]
  cases shape : env.nls with
  | none => simp
  | some value =>
    intro line member
    obtain rfl | last := List.mem_cons.mp member
    · exact lineOf_good _ ⟨text, by decide, by decide⟩
    · rw [List.mem_singleton.mp last]
      exact lineOf_good _ (nls value shape)

theorem replyLines_good : ∀ line ∈ replyLines env p, ValueGood line := by
  have ext : ValueGood ⟨bytes "EXT", [], []⟩ := ⟨.inl rfl, .of_graphic nofun⟩
  have opt := optLines_good readable
  simp only [replyLines, List.forall_mem_append, List.forall_mem_cons, List.not_mem_nil,
    false_implies, implies_true, and_true]
  exact ⟨⟨⟨⟨⟨⟨lineOf_good _ (headerValue_maxAge p), lineOf_good _ (headerValue_date env.date), ext,
    lineOf_good _ readable.location⟩, opt⟩, lineOf_good _ readable.info⟩, agentLines_good env⟩,
    lineOf_good _ readable.nt, lineOf_good _ readable.usn⟩, powerLines_good p⟩

theorem notifyLines_good {nts : List UInt8} (isValue : HeaderValue nts) :
    ∀ line ∈ notifyLines env nts p, ValueGood line := by
  have opt := optLines_good readable
  simp only [notifyLines, List.forall_mem_append, List.forall_mem_cons, List.not_mem_nil,
    false_implies, implies_true, and_true]
  exact ⟨⟨⟨⟨⟨⟨lineOf_good _ (headerValue_host env p), lineOf_good _ (headerValue_maxAge p),
    lineOf_good _ readable.location⟩, opt⟩, lineOf_good _ readable.nt, lineOf_good _ isValue,
    lineOf_good _ readable.info⟩, agentLines_good env⟩, lineOf_good _ readable.usn⟩, powerLines_good p⟩

end Lines

theorem optLines_names (env : Env) : (optLines env).map (·.name) =
    if env.nls.isSome then [bytes "OPT", bytes "01-NLS"] else [] := by
  rw [optLines]
  cases env.nls <;> rfl

theorem agentLines_names (env : Env) : (agentLines env).map (·.name) =
    if env.nls.isSome then [bytes "X-User-Agent"] else [] := by
  rw [agentLines]
  cases env.nls <;> rfl

theorem powerLines_names (p : ServicePacket) : (powerLines p).map (·.name) =
    if 0 < p.powerState then [bytes "Powerstate", bytes "SleepPeriod", bytes "RegistrationState"]
    else [] := by
  rw [powerLines]
  split <;> rfl

def replyNames (opt power : Bool) : List (List UInt8) :=
  [bytes "CACHE-CONTROL", bytes "DATE", bytes "EXT", bytes "LOCATION"] ++
    (if opt then [bytes "OPT", bytes "01-NLS"] else []) ++ [bytes "SERVER"] ++
    (if opt then [bytes "X-User-Agent"] else []) ++ [bytes "ST", bytes "USN"] ++
    (if power then [bytes "Powerstate", bytes "SleepPeriod", bytes "RegistrationState"] else [])

def notifyNames (opt power : Bool) : List (List UInt8) :=
  [bytes "HOST", bytes "CACHE-CONTROL", bytes "LOCATION"] ++
    (if opt then [bytes "OPT", bytes "01-NLS"] else []) ++ [bytes "NT", bytes "NTS", bytes "SERVER"] ++
    (if opt then [bytes "X-User-Agent"] else []) ++ [bytes "USN"] ++
    (if power then [bytes "Powerstate", bytes "SleepPeriod", bytes "RegistrationState"] else [])

theorem replyLines_names (env : Env) (p : ServicePacket) :
    (replyLines env p).map (·.name) = replyNames env.nls.isSome (0 < p.powerState) := by
  simp only [replyLines, List.map_append, optLines_names, agentLines_names, powerLines_names,
    replyNames, decide_eq_true_eq]
  rfl

theorem notifyLines_names (env : Env) (nts : List UInt8) (p : ServicePacket) :
    (notifyLines env nts p).map (·.name) = notifyNames env.nls.isSome (0 < p.powerState) := by
  simp only [notifyLines, List.map_append, optLines_names, agentLines_names, powerLines_names,
    notifyNames, decide_eq_true_eq]
  rfl

structure PlainNames (names : List (List UInt8)) : Prop where
  fresh : names.Pairwise fun a b => clash a b = false
  named : ∀ name ∈ names, name ≠ [] ∧ ∀ c ∈ name, isIdentifierChar c = true
  plain : ∀ name ∈ names, lookupHeader name ≠ some .soapaction ∧
    lookupHeader name ≠ some .transferEncoding ∧ lookupHeader name ≠ some .contentLength

theorem PlainNames.sublist {names fewer : List (List UInt8)} (plain : PlainNames names) (sub : fewer.Sublist names) :
    PlainNames fewer where
  fresh := plain.fresh.sublist sub
  named name member := plain.named name (sub.mem member)
  plain name member := plain.plain name (sub.mem member)

theorem names_fresh {names : List (List UInt8)} (different : (names.map (·.map toLower)).Nodup)
    (named : ∀ name ∈ names, name ≠ [] ∧ ∀ c ∈ name, isIdentifierChar c = true) :
    names.Pairwise fun a b => clash a b = false := by
  have noNul (name : List UInt8) (member : name ∈ names) : 0 ∉ name := by
    intro nul
    have identifier := (named name member).2 0 nul
    exact absurd identifier (by decide)
  apply (List.pairwise_map.mp different).imp_of_mem
  intro a b first second apart
  rw [Bool.eq_false_iff]
  intro clashes
  have same := (clash_iff (noNul b second)).mp clashes
  rw [SameName, cstr_eq_self (noNul a first), cstr_eq_self (noNul b second)] at same
  exact apart same

theorem PlainNames.of_names {names : List (List UInt8)} (different : (names.map (·.map toLower)).Nodup)
    (named : ∀ name ∈ names, name ≠ [] ∧ ∀ c ∈ name, isIdentifierChar c = true)
    (others : ∀ name ∈ names, ¬SameName name (bytes "SOAPACTION") ∧ ¬SameName name (bytes "TRANSFER-ENCODING") ∧
      ¬SameName name (bytes "CONTENT-LENGTH")) : PlainNames names := by
  refine ⟨names_fresh different named, named, ?_⟩
  intro name member
  obtain ⟨action, encoding, length⟩ := others name member
  exact ⟨lookupHeader_ne (by simp [httpHeaderNames]) action, lookupHeader_ne (by simp [httpHeaderNames]) encoding,
    lookupHeader_ne (by simp [httpHeaderNames]) length⟩

theorem optional_sublist {α : Type*} (opt : Bool) (names : List α) : (if opt then names else []).Sublist names := by
  cases opt with
  | true => exact .refl names
  | false => exact List.nil_sublist names

theorem replyNames_most (opt power : Bool) : (replyNames opt power).Sublist (replyNames true true) := by
  apply List.Sublist.append _ (optional_sublist power _)
  apply List.Sublist.append _ (.refl _)
  apply List.Sublist.append _ (optional_sublist opt _)
  apply List.Sublist.append _ (.refl _)
  exact .append (.refl _) (optional_sublist opt _)

theorem notifyNames_most (opt power : Bool) : (notifyNames opt power).Sublist (notifyNames true true) := by
  apply List.Sublist.append _ (optional_sublist power _)
  apply List.Sublist.append _ (.refl _)
  apply List.Sublist.append _ (optional_sublist opt _)
  apply List.Sublist.append _ (.refl _)
  exact .append (.refl _) (optional_sublist opt _)

theorem replyNames_plain (opt power : Bool) : PlainNames (replyNames opt power) :=
  .sublist (.of_names (by decide) (by decide) (by decide)) (replyNames_most opt power)

theorem notifyNames_plain (opt power : Bool) : PlainNames (notifyNames opt power) :=
  .sublist (.of_names (by decide) (by decide) (by decide)) (notifyNames_most opt power)

/-! ### The parser on a packet -/

def atEntity (head : HttpParser) (lines : List HeaderLine) (scanner : Scanner) : HttpParser :=
  { head with
    msg := { head.msg with headers := lines.map HeaderLine.header }
    scanner := scanner
    position := .entity }

theorem atEntity_complete {lines : List HeaderLine} {head : HttpParser}
    (closed : head.entPosition = .determineReadMethod) (scanner : Scanner)
    (noBody : (atEntity head lines scanner).msg.hasNoBody = true) :
    parserParseEntity (atEntity head lines scanner) =
      (.success, (atEntity head lines scanner).startEntity.withPosition .complete) := by
  have round : parserEntityRound (atEntity head lines scanner) =
      (.success, (atEntity head lines scanner).startEntity.withPosition .complete) := by
    rw [parserEntityRound, show (atEntity head lines scanner).entPosition = _ from closed]
    dsimp only
    rw [parserGetEntityReadMethod, if_pos noBody]
  rw [parserParseEntity_last (by rw [round]; simp), round]

theorem atEntity_noBody {lines : List HeaderLine} {head : HttpParser} (closed : head.entPosition = .determineReadMethod)
    (scanner : Scanner)
    (noBody : (atEntity head lines scanner).msg.hasNoBody = true) :
    ∃ q, parserParseEntity (atEntity head lines scanner) = (.success, q) ∧
      q.msg = { head.msg with headers := lines.map HeaderLine.header, entity := q.msg.entity } :=
  ⟨_, atEntity_complete closed scanner noBody, rfl⟩

theorem parserParse_lines {lines : List HeaderLine} (fresh : lines.Pairwise fun a b => clash a.name b.name = false)
    (named : ∀ line ∈ lines, line.name ≠ [] ∧ ∀ c ∈ line.name, isIdentifierChar c = true)
    (noAction : ∀ line ∈ lines, lookupHeader line.name ≠ some .soapaction)
    (good : ∀ line ∈ lines, ValueGood line) {res : Resolver} {p head : HttpParser}
    (start : p.Good) (first : parserRound res p = (.ok, head)) (atHeaders : head.position = .headers)
    (ended : head.scanner.Open ∧ head.scanner.rest = []) (noHeader : head.msg.headers = [])
    (noPost : ¬(head.msg.isRequest = true ∧ head.msg.method = .post)) :
    ∃ scanner, parserParse res (p.extend (headerBlock lines)) =
      parserParseEntity (atEntity head lines scanner) := by
  have wellFormed : ∀ line ∈ lines, line.WellFormed := by
    intro line member
    have name := named line member
    exact ⟨name.1, name.2, (good line member).1, (good line member).2⟩
  have more : (head.extend (headerBlock lines)).scanner.Open := by
    refine ⟨ended.1.entire, ?_⟩
    have inside := ended.1.inside
    simp only [HttpParser.extend, HttpParser.withScanner_scanner, Scanner.extend, List.length_append]
    omega
  have here : (head.extend (headerBlock lines)).scanner.rest = headerBlock lines ++ [] := by
    change (head.scanner.msg ++ headerBlock lines).drop head.scanner.cursor = _
    rw [List.drop_append_of_le_length ended.1.inside,
      show head.scanner.msg.drop head.scanner.cursor = [] from ended.2]
    simp
  obtain ⟨scanner, -, parsed⟩ := @parserParseHeaders_block (head.extend (headerBlock lines)) more lines
    wellFormed [] here noHeader fresh noAction noPost
  have round : parserRound res (head.extend (headerBlock lines)) = (.ok, atEntity head lines scanner) := by
    rw [parserRound, show (head.extend (headerBlock lines)).position = _ from atHeaders]
    exact parsed
  have entity : parserRound res (atEntity head lines scanner) =
      parserParseEntity (atEntity head lines scanner) := rfl
  refine ⟨scanner, ?_⟩
  rw [parserParse_longer start (by rw [first]), first, parserParse_next (by rw [round]), round,
    parserParse_last (by rw [entity]; exact parserParseEntity_not_ok _), entity]

section Parse
variable {lines : List HeaderLine} (names : PlainNames (lines.map (·.name)))
include names

theorem PlainNames.pairwise : lines.Pairwise fun a b => clash a.name b.name = false :=
  List.pairwise_map.mp names.fresh

theorem PlainNames.absent {id : HdrId}
    (plain : id = .soapaction ∨ id = .transferEncoding ∨ id = .contentLength) :
    ∀ line ∈ lines, lookupHeader line.name ≠ some id := by
  intro line member
  have here := names.plain line.name (List.mem_map_of_mem member)
  obtain rfl | rfl | rfl := plain
  · exact here.1
  · exact here.2.1
  · exact here.2.2

theorem parserParse_block (good : ∀ line ∈ lines, ValueGood line) {res : Resolver} {p head : HttpParser}
    (start : p.Good) (first : parserRound res p = (.ok, head)) (atHeaders : head.position = .headers)
    (ended : head.scanner.Open ∧ head.scanner.rest = []) (noHeader : head.msg.headers = [])
    (noPost : ¬(head.msg.isRequest = true ∧ head.msg.method = .post)) :
    ∃ scanner, parserParse res (p.extend (headerBlock lines)) =
      parserParseEntity (atEntity head lines scanner) :=
  parserParse_lines names.pairwise (fun line member => names.named line.name (List.mem_map_of_mem member))
    (names.absent (.inl rfl)) good start first atHeaders ended noHeader noPost

theorem atEntity_notify {head : HttpParser} (closed : head.entPosition = .determineReadMethod)
    (isRequest : head.msg.isRequest = true) (notify : head.msg.method = .notify) (scanner : Scanner) :
    ∃ q, parserParseEntity (atEntity head lines scanner) = (.failure, q) ∧
      q.validSsdpNotifyHack = true ∧
      q.msg = { head.msg with headers := lines.map HeaderLine.header, entity := q.msg.entity } := by
  have body : (atEntity head lines scanner).msg.hasNoBody = false := by
    change HttpMessage.hasNoBody { head.msg with headers := _ } = false
    simp [HttpMessage.hasNoBody, isRequest, notify]
  have noEncoding : httpmsgFindHdr (atEntity head lines scanner).msg .transferEncoding = none :=
    findHdr_none rfl (by simp) (names.absent (.inr (.inl rfl)))
  have unchunked : isChunked (atEntity head lines scanner).msg = false := by
    rw [isChunked, noEncoding]
  have same : lowerTransferEncoding (atEntity head lines scanner).startEntity.msg =
      (atEntity head lines scanner).startEntity.msg := by
    have other : ∀ h ∈ (atEntity head lines scanner).msg.headers,
        decide (h.nameId = .transferEncoding) = false := by
      simpa [httpmsgFindHdr] using noEncoding
    rw [lowerTransferEncoding]
    have untouched := updateFirst_none other fun h => { h with value := lowerValue h.value }
    exact congrArg (fun headers => { (atEntity head lines scanner).startEntity.msg with headers := headers })
      untouched
  have noLength : httpmsgFindHdr (atEntity head lines scanner).startEntity.msg .contentLength = none :=
    findHdr_none rfl (by simp) (names.absent (.inr (.inr rfl)))
  have method : (atEntity head lines scanner).startEntity.msg.method = .notify := notify
  have request : (atEntity head lines scanner).startEntity.msg.isRequest = true := isRequest
  have round : parserEntityRound (atEntity head lines scanner) =
      (.failure, { (atEntity head lines scanner).startEntity with
        validSsdpNotifyHack := true
        httpErrorCode := HTTP_LENGTH_REQUIRED }) := by
    rw [parserEntityRound, show (atEntity head lines scanner).entPosition = _ from closed]
    dsimp only
    rw [parserGetEntityReadMethod, body, unchunked]
    simp only [Bool.false_eq_true, if_false, readMethodOfLength, HttpParser.searchTransferEncoding, same,
      noLength, request, if_true, method, decide_true, Bool.or_true]
  exact ⟨_, by rw [parserParseEntity_last (by rw [round]; simp), round], rfl, rfl⟩

end Parse

def replyStart : HttpParser := (parserResponseInit .msearch).extend (bytes "HTTP/1.1 200 OK\r\n")

def replyHead : HttpParser := (parserParseResponseline replyStart).2

def notifyStart : HttpParser := parserRequestInit.extend (bytes "NOTIFY * HTTP/1.1\r\n")

def starUri : UriType :=
  ⟨.relative, ⟨none, 0⟩, .relPath, ⟨some 0, 1⟩, ⟨none, 0⟩, ⟨⟨none, 0⟩, none⟩⟩

def notifyHead : HttpParser :=
  { notifyStart with
    msg := { parserRequestInit.msg with
      method := .notify, uri := some starUri, urlbuf := bytes "*", majorVersion := 1, minorVersion := 1 }
    scanner := { notifyStart.scanner with cursor := 19 }
    position := .headers }

theorem extend_extend (p : HttpParser) (a b : List UInt8) : (p.extend a).extend b = p.extend (a ++ b) := by
  simp [HttpParser.extend, Scanner.extend, HttpParser.withScanner]

theorem replyStart_good : replyStart.Good := by
  have start := (HttpParser.Initial.response .msearch).good
  exact start.extend _

theorem notifyStart_good : notifyStart.Good := HttpParser.Initial.request.good.extend _

theorem replyStart_round (res : Resolver) : parserRound res replyStart = (.ok, replyHead) := by
  have parsed : (parserParseResponseline replyStart).1 = .ok := by with_unfolding_all decide
  exact Prod.ext parsed rfl

theorem replyHead_spec : replyHead.position = .headers ∧ replyHead.scanner.Open ∧
    replyHead.scanner.rest = [] ∧ replyHead.msg.headers = [] ∧ replyHead.msg.isRequest = false ∧
    replyHead.msg.requestMethod = .msearch ∧ replyHead.msg.statusCode = 200 ∧
    replyHead.entPosition = .determineReadMethod := by
  have whole : replyHead.scanner.entireMsgLoaded = false ∧
      replyHead.scanner.cursor ≤ replyHead.scanner.msg.length := by with_unfolding_all decide
  refine ⟨?_, ⟨whole.1, whole.2⟩, ?_⟩
  all_goals with_unfolding_all decide

theorem parseUri_star (res : Resolver) : parseUri res (bytes "*") 1 = some starUri := by
  have scheme : parseScheme (bytes "*") 1 = 0 := by decide
  have path : parseUric (bytes "*") 1 = 1 := by with_unfolding_all decide
  have first : charAt (bytes "*") 0 = 42 := by decide
  simp [parseUri, scheme, path, first, subSize, starUri]

theorem notifyStart_round (res : Resolver) : parserRound res notifyStart = (.ok, notifyHead) := by
  have blank : skipBlankLines notifyStart.scanner = (.ok, notifyStart.scanner) := by with_unfolding_all decide
  have simple : (matchFormat notifyStart.scanner "%s\t%S%w%c").1 ≠ .ok := by with_unfolding_all decide
  have full : matchFormat notifyStart.scanner "%s\t%S\t%ihttp%w/%w%L%c" =
      (.ok, { notifyStart.scanner with cursor := 19 }, [.str ⟨0, 6⟩, .str ⟨7, 1⟩, .str ⟨14, 3⟩]) := by
    with_unfolding_all decide
  have method : lookupMethod (bytes "NOTIFY") = some .notify := by with_unfolding_all decide
  have version : (sscanfVersion (bytes "1.1")).1 = [1, 1] := by decide
  have parts : (Memptr.mk 0 6).read notifyStart.scanner.msg = bytes "NOTIFY" ∧
      (Memptr.mk 7 1).read notifyStart.scanner.msg = bytes "*" ∧
      (Memptr.mk 14 3).read notifyStart.scanner.msg = bytes "1.1" := by decide
  have url : stripSlashes (bytes "*") = bytes "*" := by decide
  have length : (bytes "*").length = 1 := by decide
  change parserParseRequestline res notifyStart = _
  rw [parserParseRequestline, blank]
  simp only [ne_eq, not_true, if_false, HttpParser.withScanner_self]
  rw [parserMatchRequestline, full]
  simp only [simple, if_false, ne_eq, not_true, strArg, List.getElem?_cons_zero, List.getElem?_cons_succ,
    parts, parserParseFullRequest, url, length, parseUri_star, method, version]
  rfl

/-! ### The values that the control point reads -/

theorem vfmatchLoop_chars {caseSensitive : Bool} {sc : Scanner} {text rest : List UInt8}
    (here : sc.rest = text ++ rest) (later : List Directive) :
    vfmatchLoop caseSensitive sc (text.map Directive.char ++ later) =
      vfmatchLoop caseSensitive { sc with cursor := sc.cursor + text.length } later := by
  induction text generalizing sc with
  | nil => rfl
  | cons c text ih =>
    have first : sc.msg[sc.cursor]? = some c := by
      have head := congrArg List.head? here
      rwa [Scanner.rest, List.head?_drop, List.cons_append, List.head?_cons] at head
    have behind : Scanner.rest { sc with cursor := sc.cursor + 1 } = text ++ rest :=
      @rest_advance sc [c] (text ++ rest) here
    have matched : matchDirective caseSensitive sc (.char c) =
        (.ok, { sc with cursor := sc.cursor + 1 }, []) := by
      cases caseSensitive <;> simp [matchDirective, matchChar, first]
    rw [List.map_cons, List.cons_append, vfmatchLoop, matched]
    simp only [if_true, Directive.nextCase, List.nil_append]
    rw [ih behind, List.length_cons]
    simp only [Nat.add_assoc, Nat.add_comm 1]

theorem skipLws_token {sc : Scanner} {type : TokenType} {n : Nat}
    (token : scanToken sc.entireMsgLoaded sc.rest = .ok (type, n)) (noLine : type ≠ .crlf)
    (noBlank : type ≠ .whitespace) : skipLws sc = (.ok, sc) := by
  have stop : matchLws sc = .inl .ok := by
    rw [matchLws, scannerGetToken_rest, token]
    simp [noLine, noBlank]
  rw [skipLws_stop stop]
  simp

theorem format_maxAge : format "%imax-age = %d%0" =
    .setCase false :: ((bytes "max-age").map Directive.char ++
      [.lws, .char 61, .lws, .int 10, .endOfMsg]) := by
  decide

theorem scanToken_digits {text : List UInt8} (nonempty : text ≠ [])
    (digits : ∀ c ∈ text, isDigit c = true) : scanToken true text = .ok (.identifier, text.length) := by
  have identifier {c : UInt8} : isDigit c = true → isIdentifierChar c = true := by
    revert c
    apply forall_byte
    decide +kernel
  cases text with
  | nil => exact absurd rfl nonempty
  | cons c text =>
    have run : text.takeWhile isIdentifierChar = text := by
      rw [List.takeWhile_eq_self_iff]
      exact fun d member => identifier (digits d (List.mem_cons_of_mem c member))
    rw [scanToken.eq_def]
    dsimp only
    rw [if_pos (identifier (digits c List.mem_cons_self)), scanRun, run]
    simp

theorem matchInt_digits {sc : Scanner} (entire : sc.entireMsgLoaded = true) (nonempty : sc.rest ≠ [])
    (digits : ∀ c ∈ sc.rest, isDigit c = true) (fits : digitsValue 10 sc.rest < 2 ^ 31) :
    matchInt sc 10 = (.ok, { sc with cursor := sc.cursor + sc.rest.length },
      some (digitsValue 10 sc.rest : Int)) := by
  have value := strtol_digits nonempty digits fits
  have whole : strtol 10 sc.rest = ⟨digitsValue 10 sc.rest, sc.rest.length, false⟩ := by
    rw [strtol, numeral_digits nonempty digits]
    simp only
    rw [if_neg (by unfold LONG_MAX; omega), if_neg (by unfold LONG_MIN; omega)]
  rw [whole] at value
  have token : scannerGetToken sc = .ok (⟨.identifier, ⟨sc.cursor, sc.rest.length⟩⟩,
      { sc with cursor := sc.cursor + sc.rest.length }) := by
    rw [scannerGetToken_rest, entire, scanToken_digits nonempty digits]
  have here : sc.msg.drop sc.cursor = sc.rest := rfl
  rw [matchInt, token]
  simp only [if_true, here, whole]
  rw [if_neg, value]
  simp

theorem matchstr_maxAge {p : ServicePacket} (duration : 0 < p.duration ∧ p.duration < 2 ^ 31) :
    (matchstr (maxAge p) "%imax-age = %d%0").1 = .ok ∧
      intArg (matchstr (maxAge p) "%imax-age = %d%0").2.2 (-1) = p.duration := by
  have small : p.duration % 2 ^ 64 = p.duration := by omega
  have digits := decimalDigits_isDigit p.duration.toNat
  have nonempty := decimalDigits_ne_nil p.duration.toNat
  have text : number p.duration = decimalDigits p.duration.toNat := by rw [number, small]
  have value := digitsValue_decimalDigits p.duration.toNat
  set sc : Scanner := ⟨maxAge p, 0, true⟩ with start
  have here : sc.rest = bytes "max-age" ++ (61 :: decimalDigits p.duration.toNat) := by
    rw [start, maxAge, text]
    rfl
  set at_eq : Scanner := { sc with cursor := sc.cursor + (bytes "max-age").length } with eq_def
  have rest_eq : at_eq.rest = 61 :: decimalDigits p.duration.toNat := rest_advance here
  set at_number : Scanner := { at_eq with cursor := at_eq.cursor + 1 } with number_def
  have rest_number : at_number.rest = decimalDigits p.duration.toNat :=
    @rest_advance at_eq [61] _ rest_eq
  have separator : scanToken at_eq.entireMsgLoaded at_eq.rest = .ok (.separator, 1) := by
    have other : isIdentifierChar 61 = false := by decide
    have isSeparator : isSeparatorChar 61 = true := by decide
    rw [rest_eq, scanToken.eq_def]
    simp [other, isSeparator, SP, TAB, CR, LF]
  have identifier : scanToken at_number.entireMsgLoaded at_number.rest =
      .ok (.identifier, (decimalDigits p.duration.toNat).length) := by
    rw [rest_number]
    exact scanToken_digits nonempty digits
  have matched : matchInt at_number 10 =
      (.ok, { at_number with cursor := at_number.cursor + (decimalDigits p.duration.toNat).length },
        some p.duration) := by
    have found := @matchInt_digits at_number rfl (by rw [rest_number]; exact nonempty)
      (by rw [rest_number]; exact digits) (by rw [rest_number, value]; omega)
    rw [rest_number, value, Int.toNat_of_nonneg (by omega)] at found
    exact found
  have last : at_number.cursor + (decimalDigits p.duration.toNat).length = at_number.msg.length := by
    have length := congrArg List.length here
    simp only [Scanner.rest, start, List.drop_zero, List.length_append, List.length_cons] at length
    simp only [number_def, eq_def, start, length]
    omega
  have run : vfmatchLoop true sc (format "%imax-age = %d%0") =
      (.ok, { at_number with cursor := at_number.cursor + (decimalDigits p.duration.toNat).length },
        [.int p.duration]) := by
    have char : matchDirective false at_eq (.char 61) = (.ok, at_number, []) := by
      have first : at_eq.msg[at_eq.cursor]? = some 61 := by
        have head := congrArg List.head? rest_eq
        rwa [Scanner.rest, List.head?_drop] at head
      simp [matchDirective, matchChar, first, number_def]
    rw [format_maxAge, vfmatchLoop]
    simp only [matchDirective, if_true, Directive.nextCase, List.nil_append]
    rw [vfmatchLoop_chars here, vfmatchLoop, ← eq_def]
    simp only [matchDirective, skipLws_token separator (by simp) (by simp), if_true, Directive.nextCase,
      List.nil_append]
    rw [vfmatchLoop, char]
    simp only [if_true, Directive.nextCase, List.nil_append]
    rw [vfmatchLoop]
    simp only [matchDirective, skipLws_token identifier (by simp) (by simp), if_true, Directive.nextCase,
      List.nil_append]
    rw [vfmatchLoop]
    simp only [matchDirective, matched, if_true, Directive.nextCase]
    rw [vfmatchLoop]
    simp [matchDirective, last, vfmatchLoop]
  rw [matchstr, matchFormat, vfmatch, ← start, run]
  exact ⟨rfl, rfl⟩

theorem findHdr_lineOf {msg : HttpMessage} {lines : List HeaderLine}
    (names : PlainNames (lines.map (·.name))) (stored : msg.headers = lines.map HeaderLine.header)
    (name : String) {value : List UInt8} (member : lineOf name value ∈ lines) {id : HdrId}
    (known : lookupHeader (bytes name) = some id) (nonempty : value ≠ []) :
    httpmsgFindHdr msg id = some ⟨bytes name, id, value⟩ := by
  rw [findHdr_line stored names.pairwise member known]
  have name_known : lookupHeader (lineOf name value).name = some id := known
  have same : (lineOf name value).value = value := rfl
  rw [HeaderLine.header, name_known, same, if_neg nonempty]
  rfl

theorem headerText_lineOf {msg : HttpMessage} {lines : List HeaderLine}
    (names : PlainNames (lines.map (·.name))) (stored : msg.headers = lines.map HeaderLine.header)
    (name : String) {value : List UInt8} (member : lineOf name value ∈ lines) {id : HdrId}
    (known : lookupHeader (bytes name) = some id) (isValue : HeaderValue value) (nonempty : value ≠ []) :
    headerText msg id = some value := by
  rw [headerText, findHdr_lineOf names stored name member known nonempty, Option.map_some, isValue.cstr_eq]

theorem startEventHandler_accepts {res : Resolver} {p q : HttpParser} {status : ParseStatus}
    (parsed : parserParse res p = (status, q))
    (accepted : status = .success ∨
      (status = .failure ∧ q.msg.method = .notify ∧ q.validSsdpNotifyHack = true))
    (valid : validSsdpMsg q.msg = true) : startEventHandler res p = some q.msg := by
  rw [startEventHandler, parsed]
  obtain rfl | ⟨rfl, method, hack⟩ := accepted
  · simp [valid]
  · simp [valid, method, hack]

theorem hosts_known : ∀ host ∈ [bytes "239.255.255.250", bytes "[FF05::C]", bytes "[FF02::C]"],
    (memptrCmp (host ++ bytes ":1900") (bytes "239.255.255.250:1900") = 0 ||
      memptrCmp (host ++ bytes ":1900") (bytes "[FF02::C]:1900") = 0 ||
      memptrCmp (host ++ bytes ":1900") (bytes "[ff02::c]:1900") = 0 ||
      memptrCmp (host ++ bytes ":1900") (bytes "[FF05::C]:1900") = 0 ||
      memptrCmp (host ++ bytes ":1900") (bytes "[ff05::c]:1900") = 0 : Bool) = true := by
  decide

section Received
variable {env : Env} {p : ServicePacket} (readable : Readable env p) (res : Resolver)
include readable

theorem reply_received (reply : p.msgType = .reply) :
    ∃ msg, startEventHandler res ((parserResponseInit .msearch).extend (createServicePacket env p)) =
        some msg ∧ msg.headers = (replyLines env p).map HeaderLine.header ∧ msg.isRequest = false ∧
      msg.requestMethod = .msearch ∧ msg.statusCode = 200 := by
  have names := replyNames_plain env.nls.isSome (0 < p.powerState)
  rw [← replyLines_names] at names
  obtain ⟨atHeaders, opened, ended, noHeader, isRequest, method, status, closed⟩ := replyHead_spec
  have text : createServicePacket env p = bytes "HTTP/1.1 200 OK\r\n" ++ headerBlock (replyLines env p) := by
    rw [createServicePacket, reply]
    exact replyParts_text p readable.fits
  obtain ⟨scanner, parsed⟩ := parserParse_block names (replyLines_good readable) replyStart_good
    (replyStart_round res) atHeaders ⟨opened, ended⟩ noHeader (by simp [isRequest])
  have noBody : (atEntity replyHead (replyLines env p) scanner).msg.hasNoBody = true := by
    change HttpMessage.hasNoBody { replyHead.msg with headers := _ } = true
    simp [HttpMessage.hasNoBody, isRequest, method]
  obtain ⟨q, last, msg⟩ := atEntity_noBody closed scanner noBody
  have valid : validSsdpMsg q.msg = true := by
    rw [msg]
    simp [validSsdpMsg, method]
  refine ⟨q.msg, ?_, by rw [msg], by rw [msg]; exact isRequest, by rw [msg]; exact method,
    by rw [msg]; exact status⟩
  rw [text, ← extend_extend]
  exact startEventHandler_accepts (parsed.trans last) (.inl rfl) valid

theorem notify_received {nts : List UInt8} (isValue : HeaderValue nts) :
    ∃ msg, startEventHandler res (parserRequestInit.extend (httpMakeMessage env (notifyParts env nts p))) =
        some msg ∧ msg.headers = (notifyLines env nts p).map HeaderLine.header ∧ msg.isRequest = true ∧
      msg.method = .notify := by
  have names := notifyNames_plain env.nls.isSome (0 < p.powerState)
  rw [← notifyLines_names env nts] at names
  have opened : notifyHead.scanner.Open := ⟨rfl, by decide⟩
  have ended : notifyHead.scanner.rest = [] := by decide
  obtain ⟨scanner, parsed⟩ := parserParse_block names (notifyLines_good readable isValue) notifyStart_good
    (notifyStart_round res) rfl ⟨opened, ended⟩ rfl (by decide)
  obtain ⟨q, last, hack, msg⟩ := @atEntity_notify _ names notifyHead rfl rfl rfl scanner
  have stored : q.msg.headers = (notifyLines env nts p).map HeaderLine.header := by rw [msg]
  have method : q.msg.method = .notify := by rw [msg]; rfl
  have host : httpmsgFindHdr q.msg .host = some ⟨bytes "HOST", .host, hostOf env p ++ bytes ":1900"⟩ :=
    findHdr_lineOf names stored "HOST" (by simp [notifyLines]) (by decide +kernel)
      (List.append_ne_nil_of_right_ne_nil _ (by decide))
  have valid : validSsdpMsg q.msg = true := by
    have path : q.msg.uri = some starUri ∧ q.msg.urlbuf = bytes "*" := by
      rw [msg]
      exact ⟨rfl, rfl⟩
    have star : strncmp (bytes "*") (bytes "*") 1 = 0 := by decide
    have known := hosts_known _ (hostOf_mem env p)
    rw [validSsdpMsg, host, path.1, path.2, method]
    simp only [Option.any_some, known, Bool.and_true]
    simp [starUri, star]
  refine ⟨q.msg, ?_, stored, by rw [msg]; rfl, method⟩
  rw [notifyParts_text p nts readable.fits, ← extend_extend]
  exact startEventHandler_accepts (parsed.trans last) (.inr ⟨rfl, method, hack⟩) valid

end Received

end Pupnp.Ssdp
