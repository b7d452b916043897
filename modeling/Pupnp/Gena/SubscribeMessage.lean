import Pupnp.Gena.Subscribe
import Pupnp.Http.Whole
import Pupnp.Ssdp.Receive

/-! The messages of a subscription as start lines with header blocks, and how the parser reads them. -/

namespace Pupnp.Gena.Subscribe
open Pupnp.CString Pupnp.Uri Pupnp.Http Pupnp.Ssdp

def Graphic (s : List UInt8) : Prop := ∀ c ∈ s, isTextChar c = true ∧ c ≠ SP

theorem Graphic.append {s s' : List UInt8} (left : Graphic s) (right : Graphic s') : Graphic (s ++ s') :=
  fun c member => (List.mem_append.mp member).elim (left c) (right c)

theorem graphic_notBlank {c : UInt8} : isTextChar c = true ∧ c ≠ SP → c ≠ SP ∧ c ≠ TAB := by
  revert c
  apply forall_byte
  decide +kernel

/-! ### The request line -/

theorem blankToken {sc : Scanner} (more : sc.Open) {c : UInt8} {rest : List UInt8}
    (other : c ≠ SP ∧ c ≠ TAB) (here : sc.rest = SP :: c :: rest) :
    scannerGetToken sc = .ok (⟨.whitespace, ⟨sc.cursor, 1⟩⟩, { sc with cursor := sc.cursor + 1 }) := by
  have space : isIdentifierChar SP = false := by decide
  rw [scannerGetToken_rest, more.entire, here, scanToken.eq_def]
  simp [space, scanRun, other.1, other.2]

theorem graphicToken {s : List UInt8} (graphic : Graphic s) (nonempty : s ≠ []) (rest : List UInt8) :
    ∃ type k, scanToken false (s ++ SP :: rest) = .ok (type, k) ∧ type ≠ .crlf ∧ type ≠ .whitespace ∧
      0 < k ∧ k ≤ s.length := by
  cases s with
  | nil => exact absurd rfl nonempty
  | cons c s =>
    obtain ⟨plain, noBlank⟩ := graphic c List.mem_cons_self
    have space : isIdentifierChar SP = false := by decide
    rw [List.cons_append, scanToken.eq_def]
    dsimp only
    rcases textChar_cases plain with identifier | blank | ⟨other, -, noTab, noCr, noLf, noQuote, separator⟩
    · have inside := (List.takeWhile_prefix isIdentifierChar (l := s)).length_le
      have run := takeWhile_append_stop s space rest
      refine ⟨.identifier, (s.takeWhile isIdentifierChar).length + 1, ?_, by simp, by simp, Nat.succ_pos _, ?_⟩
      · rw [if_pos identifier, scanRun, run, if_neg]
        simp only [List.length_append, List.length_cons, Bool.not_false, Bool.true_and, decide_eq_true_eq]
        omega
      · simpa using inside
    · exact absurd blank noBlank
    · refine ⟨.separator, 1, ?_, by simp, by simp, Nat.one_pos, by simp⟩
      simp [other, noBlank, noTab, noCr, noLf, noQuote, separator]

theorem nonWsRun_graphic {sc : Scanner} (more : sc.Open) {s rest : List UInt8} {c : UInt8} (graphic : Graphic s)
    (other : c ≠ SP ∧ c ≠ TAB) (here : sc.rest = s ++ SP :: c :: rest) :
    nonWsRun sc = (.ok, { sc with cursor := sc.cursor + s.length }) := by
  induction size : s.length using Nat.strongRecOn generalizing sc s with
  | _ length ih =>
    subst size
    by_cases empty : s = []
    · subst empty
      rw [nonWsRun_token (blankToken more other here)]
      rfl
    · obtain ⟨type, k, scanned, noLine, noBlank, positive, inside⟩ := graphicToken graphic empty (c :: rest)
      have token : scannerGetToken sc = .ok (⟨type, ⟨sc.cursor, k⟩⟩, { sc with cursor := sc.cursor + k }) := by
        rw [scannerGetToken_rest, more.entire, here, scanned]
      have behind : Scanner.rest { sc with cursor := sc.cursor + k } = s.drop k ++ SP :: c :: rest := by
        have front : (s.take k).length = k := List.length_take_of_le inside
        have advanced := @rest_advance sc (s.take k) (s.drop k ++ SP :: c :: rest) (by
          rw [here, ← List.append_assoc, List.take_append_drop])
        rwa [front] at advanced
      have shorter : (s.drop k).length < s.length := by
        rw [List.length_drop]
        omega
      have later := ih _ shorter ((scannerGetToken_reaches token).opened more)
        (fun d member => graphic d (List.mem_of_mem_drop member)) behind rfl
      rw [nonWsRun_token token]
      simp only [noLine, noBlank, ne_eq, not_false_eq_true, decide_true, Bool.and_true, if_true]
      rw [later, List.length_drop]
      simp only [Nat.add_assoc, Nat.add_sub_cancel' inside]

theorem read_ahead (sc : Scanner) (front text rest : List UInt8) (here : sc.rest = front ++ (text ++ rest)) :
    (Memptr.mk (sc.cursor + front.length) text.length).read sc.msg = text := by
  have behind : sc.msg.drop (sc.cursor + front.length) = text ++ rest := by
    rw [← List.drop_drop]
    change sc.rest.drop front.length = _
    rw [here, List.drop_left]
  rw [Memptr.read, behind, List.take_left]

section RequestLine
variable {word path : List UInt8} (named : word ≠ []) (chars : ∀ c ∈ word, isIdentifierChar c = true)
  (graphic : Graphic path) (nonempty : path ≠ [])
include named chars graphic nonempty

theorem requestTarget_match {sc : Scanner} (more : sc.Open) {rest : List UInt8} {c : UInt8}
    (other : c ≠ SP ∧ c ≠ TAB) (here : sc.rest = word ++ SP :: (path ++ SP :: c :: rest)) :
    vfmatchLoop true sc requestTarget = (.ok, { sc with cursor := sc.cursor + (word.length + 1) + path.length },
      [.str ⟨sc.cursor, word.length⟩, .str ⟨sc.cursor + (word.length + 1), path.length⟩]) := by
  have method : scannerGetToken sc =
      .ok (⟨.identifier, ⟨sc.cursor, word.length⟩⟩, { sc with cursor := sc.cursor + word.length }) := by
    rw [scannerGetToken_rest, more.entire, here, scanToken_run named chars (by decide)]
  have second := @rest_advance sc word _ here
  obtain ⟨d, path', shape⟩ := List.exists_cons_of_ne_nil nonempty
  have first : d ≠ SP ∧ d ≠ TAB := graphic_notBlank (graphic d (by rw [shape]; exact List.mem_cons_self))
  have open_second := (scannerGetToken_reaches method).opened more
  have blank := blankToken open_second first (by rw [second, shape]; rfl)
  have third := @rest_advance _ [SP] _ second
  have target := nonWsRun_graphic ((scannerGetToken_reaches blank).opened open_second) graphic other third
  have some_bytes : path.length ≠ 0 := (List.length_pos_of_ne_nil nonempty).ne'
  simp only [requestTarget, vfmatchLoop, matchDirective, matchToken, method, blank, matchNonWsString, target]
  simp [some_bytes]
  simp only [Nat.add_assoc]

def versionNumber : List Directive := [.optionalWs, .char 47, .optionalWs, .line, .crlf]

theorem requestLine_match {sc : Scanner} (more : sc.Open) {rest : List UInt8}
    (here : sc.rest = word ++ SP :: (path ++ SP :: (bytes "HTTP/1.1\r\n" ++ rest))) :
    (matchFormat sc "%s\t%S%w%c").1 ≠ .ok ∧
      matchFormat sc "%s\t%S\t%ihttp%w/%w%L%c" =
        (.ok, { sc with cursor := sc.cursor + (word.length + path.length + 12) },
          [.str ⟨sc.cursor, word.length⟩, .str ⟨sc.cursor + (word.length + 1), path.length⟩,
            .str ⟨sc.cursor + (word.length + path.length + 7), 3⟩]) := by
  have version : bytes "HTTP/1.1\r\n" ++ rest = 72 :: (bytes "TTP/1.1\r\n" ++ rest) := by
    have head : bytes "HTTP/1.1\r\n" = 72 :: bytes "TTP/1.1\r\n" := by decide
    rw [head, List.cons_append]
  have target := @requestTarget_match word path named chars graphic nonempty sc more (bytes "TTP/1.1\r\n" ++ rest) 72
    (by decide) (by rw [here, version])
  have matched : (vfmatchLoop true sc requestTarget).1 = .ok := by rw [target]
  set uri : Scanner := { sc with cursor := sc.cursor + (word.length + 1) + path.length } with uri_eq
  have at_uri : uri.rest = SP :: (bytes "HTTP/1.1\r\n" ++ rest) := by
    have length : (word ++ SP :: path).length = word.length + 1 + path.length := by
      simp only [List.length_append, List.length_cons]
      omega
    have advanced := @rest_advance sc (word ++ SP :: path) (SP :: (bytes "HTTP/1.1\r\n" ++ rest))
      (by rw [here, List.append_assoc, List.cons_append])
    rw [length] at advanced
    rw [uri_eq, Nat.add_assoc]
    exact advanced
  have open_uri : uri.Open := by
    have reached := (vfmatchLoop_matched true sc requestTarget).reaches
    rw [target] at reached
    exact reached.opened more
  have blank := @blankToken uri open_uri 72 (bytes "TTP/1.1\r\n" ++ rest) (by decide) (by rw [at_uri, version])
  set blankBehind : Scanner := { uri with cursor := uri.cursor + 1 } with blankBehind_eq
  have at_http : blankBehind.rest = bytes "HTTP/1.1\r\n" ++ rest := @rest_advance _ [SP] _ at_uri
  have open_http := (scannerGetToken_reaches blank).opened open_uri
  have http : scannerGetToken blankBehind =
      .ok (⟨.identifier, ⟨blankBehind.cursor, 4⟩⟩, { blankBehind with cursor := blankBehind.cursor + 4 }) := by
    have shape : bytes "HTTP/1.1\r\n" ++ rest = bytes "HTTP" ++ 47 :: (bytes "1.1\r\n" ++ rest) := by
      have front : bytes "HTTP/1.1\r\n" = bytes "HTTP" ++ 47 :: bytes "1.1\r\n" := by decide
      rw [front, List.append_assoc, List.cons_append]
    have four : (bytes "HTTP").length = 4 := by decide
    rw [scannerGetToken_rest, open_http.entire, at_http, shape, scanToken_run (by decide) (by decide) (by decide), four]
  constructor
  · rw [matchFormat, format_simpleGet, vfmatch, vfmatchLoop_target matched]
    simp [vfmatchLoop, matchDirective, matchOptionalWs, matchToken, target, blank, http]
  · have letters := @vfmatchLoop_letters blankBehind (bytes "http")
      versionNumber
    have four : (bytes "http").length = 4 := by decide
    have front : (bytes "HTTP/1.1\r\n" ++ rest).take 4 = bytes "HTTP" := rfl
    rw [at_http, four, front, if_pos (by decide)] at letters
    set slash : Scanner := { blankBehind with cursor := blankBehind.cursor + 4 } with slash_eq
    have at_slash : slash.rest = 47 :: (bytes "1.1" ++ CR :: LF :: rest) :=
      @rest_advance _ (bytes "HTTP") (47 :: (bytes "1.1" ++ CR :: LF :: rest)) at_http
    have open_slash := (scannerGetToken_reaches http).opened open_http
    have separator : scannerGetToken slash =
        .ok (⟨.separator, ⟨slash.cursor, 1⟩⟩, { slash with cursor := slash.cursor + 1 }) := by
      have scanned : scanToken false (47 :: (bytes "1.1" ++ CR :: LF :: rest)) = .ok (.separator, 1) := rfl
      rw [scannerGetToken_rest, open_slash.entire, at_slash, scanned]
    have optional : matchOptionalWs slash = (.ok, slash, []) := by simp [matchOptionalWs, separator]
    have char : matchChar slash 47 false = (.ok, { slash with cursor := slash.cursor + 1 }) := by
      have head : slash.msg[slash.cursor]? = some 47 := by
        have first := congrArg List.head? at_slash
        rw [Scanner.rest, List.head?_drop] at first
        rw [first]
        rfl
      simp [matchChar, head]
    set number : Scanner := { slash with cursor := slash.cursor + 1 } with number_eq
    have at_number : number.rest = bytes "1.1" ++ CR :: LF :: rest := @rest_advance _ [47] _ at_slash
    have open_number := (scannerGetToken_reaches separator).opened open_slash
    have digits : scannerGetToken number =
        .ok (⟨.identifier, ⟨number.cursor, 3⟩⟩, { number with cursor := number.cursor + 3 }) := by
      have three : (bytes "1.1").length = 3 := by decide
      rw [scannerGetToken_rest, open_number.entire, at_number, scanToken_run (by decide) (by decide) (by decide), three]
    have optional' : matchOptionalWs number = (.ok, number, []) := by simp [matchOptionalWs, digits]
    set line : Scanner := { number with cursor := number.cursor + 3 } with line_eq
    have at_line : line.rest = CR :: LF :: rest := @rest_advance _ (bytes "1.1") (CR :: LF :: rest) at_number
    have open_line := (scannerGetToken_reaches digits).opened open_number
    have crlf := crlfToken open_line at_line
    have run : readUntilCrlf number = (.ok, line, ⟨number.cursor, 3⟩) := by
      rw [readUntilCrlf, crlfRun_token digits]
      simp only [ne_eq, reduceCtorEq, not_false_eq_true, if_true]
      rw [crlfRun_token crlf]
      simp [line_eq]
    have tail : vfmatchLoop true uri (.ws :: httpVersion) =
        (.ok, { sc with cursor := sc.cursor + (word.length + path.length + 12) },
          [.str ⟨sc.cursor + (word.length + path.length + 7), 3⟩]) := by
      have split : httpVersion = .setCase false :: ((bytes "http").map Directive.char ++ versionNumber) := by decide
      have step : vfmatchLoop true uri (.ws :: httpVersion) =
          vfmatchLoop false blankBehind ((bytes "http").map Directive.char ++ versionNumber) := by
        simp only [split, vfmatchLoop, matchDirective, matchToken, blank, Directive.nextCase]
        simp
      rw [step, letters]
      simp only [versionNumber, vfmatchLoop, matchDirective, Directive.nextCase, optional, char, optional', run,
        matchToken, crlf]
      simp [line_eq, number_eq, slash_eq, blankBehind_eq, uri_eq]
      omega
    rw [matchFormat, format_fullRequest, vfmatch, vfmatchLoop_target matched, target]
    simp only [tail]
    simp

theorem parserParseRequestline_full (res : Resolver) {p : HttpParser} (more : p.scanner.Open) {rest : List UInt8}
    (here : p.scanner.rest = word ++ SP :: (path ++ SP :: (bytes "HTTP/1.1\r\n" ++ rest))) :
    parserParseRequestline res p =
      parserParseFullRequest res
        (p.withScanner { p.scanner with cursor := p.scanner.cursor + (word.length + path.length + 12) })
        word path (bytes "1.1") := by
  obtain ⟨simple, full⟩ := requestLine_match named chars graphic nonempty more here
  have token : scannerGetToken p.scanner = .ok (⟨.identifier, ⟨p.scanner.cursor, word.length⟩⟩,
      { p.scanner with cursor := p.scanner.cursor + word.length }) := by
    rw [scannerGetToken_rest, more.entire, here, scanToken_run named chars (by decide)]
    simp [more.entire]
  have blank : skipBlankLines p.scanner = (.ok, p.scanner) := by
    rw [skipBlankLines]
    split
    · next status found =>
        rw [found] at token
        cases token
    · next next_token next_scanner found =>
        obtain ⟨rfl, rfl⟩ := Prod.mk.inj (Except.ok.inj (found.symm.trans token))
        rfl
  have method : (Memptr.mk p.scanner.cursor word.length).read p.scanner.msg = word :=
    read_ahead p.scanner [] word _ here
  have url : (Memptr.mk (p.scanner.cursor + (word.length + 1)) path.length).read p.scanner.msg = path := by
    have slice := read_ahead p.scanner (word ++ [SP]) path (SP :: (bytes "HTTP/1.1\r\n" ++ rest)) (by rw [here]; simp)
    rwa [List.length_append, List.length_singleton] at slice
  have version : (Memptr.mk (p.scanner.cursor + (word.length + path.length + 7)) 3).read p.scanner.msg = bytes "1.1" := by
    have front : (word ++ SP :: (path ++ SP :: bytes "HTTP/")).length = word.length + path.length + 7 := by
      have five : (bytes "HTTP/").length = 5 := by decide
      simp only [List.length_append, List.length_cons, five]
      omega
    have split : bytes "HTTP/1.1\r\n" = bytes "HTTP/" ++ (bytes "1.1" ++ [CR, LF]) := by decide
    have slice := read_ahead p.scanner (word ++ SP :: (path ++ SP :: bytes "HTTP/")) (bytes "1.1") (CR :: LF :: rest)
      (by rw [here, split]; simp)
    rw [front] at slice
    exact slice
  rw [parserParseRequestline, blank]
  simp only [ne_eq, not_true, if_false]
  rw [parserMatchRequestline]
  simp only [HttpParser.withScanner_scanner, simple, if_false, full, ne_eq, not_true, strArg,
    List.getElem?_cons_zero, List.getElem?_cons_succ, method, url, version]
  rfl

end RequestLine

def requestLine (path : List UInt8) : List UInt8 := bytes "SUBSCRIBE " ++ path ++ bytes " HTTP/1.1\r\n"

def requestStart (path : List UInt8) : HttpParser := parserRequestInit.extend (requestLine path)

section Subscribe
variable {path : List UInt8} (graphic : Graphic path) (nonempty : path ≠ [])
include graphic nonempty

theorem requestStart_round (res : Resolver) :
    parserRound res (requestStart path) =
      parserParseFullRequest res ((requestStart path).withScanner ⟨requestLine path, path.length + 21, false⟩)
        (bytes "SUBSCRIBE") path (bytes "1.1") := by
  have here : (requestStart path).scanner.rest =
      bytes "SUBSCRIBE" ++ SP :: (path ++ SP :: (bytes "HTTP/1.1\r\n" ++ [])) := by
    change requestLine path = _
    have front : bytes "SUBSCRIBE " = bytes "SUBSCRIBE" ++ [SP] := by decide
    have back : bytes " HTTP/1.1\r\n" = SP :: bytes "HTTP/1.1\r\n" := by decide
    rw [requestLine, front, back]
    simp
  have more : (requestStart path).scanner.Open := ⟨rfl, Nat.zero_le _⟩
  have ends : 0 + ((bytes "SUBSCRIBE").length + path.length + 12) = path.length + 21 := by
    have nine : (bytes "SUBSCRIBE").length = 9 := by decide
    omega
  rw [parserRound_requestLine rfl, parserParseRequestline_full (by decide) (by decide) graphic nonempty res more here,
    ← ends]
  rfl

end Subscribe

structure RequestHead (head : HttpParser) : Prop where
  position : head.position = .headers
  more : head.scanner.Open
  ended : head.scanner.rest = []
  closed : head.entPosition = .determineReadMethod
  noHeader : head.msg.headers = []
  isRequest : head.msg.isRequest = true
  method : head.msg.method = .subscribe
  version : head.msg.majorVersion = 1 ∧ head.msg.minorVersion = 1

/-- A URI that cannot be parsed ends the request; otherwise the parser goes on to the headers. -/
theorem requestStart_head {path : List UInt8} (graphic : Graphic path) (nonempty : path ≠ []) (res : Resolver) :
    (parserRound res (requestStart path)).1 = .failure ∨
      ∃ head, parserRound res (requestStart path) = (.ok, head) ∧ RequestHead head := by
  have method : lookupMethod (bytes "SUBSCRIBE") = some .subscribe := by with_unfolding_all decide
  have version : (sscanfVersion (bytes "1.1")).1 = [1, 1] := by decide
  have length : (requestLine path).length = path.length + 21 := by
    have front : (bytes "SUBSCRIBE ").length = 10 := by decide
    have back : (bytes " HTTP/1.1\r\n").length = 11 := by decide
    simp only [requestLine, List.length_append, front, back]
    omega
  rw [requestStart_round graphic nonempty]
  simp only [parserParseFullRequest, method, version]
  cases parseUri res (stripSlashes path) (stripSlashes path).length with
  | none => exact .inl rfl
  | some uri =>
    refine .inr ⟨_, rfl, rfl, ⟨rfl, length.ge⟩, ?_, rfl, rfl, rfl, rfl, rfl, rfl⟩
    exact List.drop_eq_nil_of_le length.le

/-! ### The lines of the request -/

def callbackValue (host : List UInt8) (port : UInt16) : List UInt8 :=
  bytes "<http://" ++ (host ++ 58 :: (number port.toNat ++ bytes "/>"))

def timeoutValue (text : List UInt8) : List UInt8 := bytes "Second-" ++ text

def requestLines (iface : Interface) (dest : FixedUrl) (timeout : Int) : Option (List UInt8) → List HeaderLine
  | some renewalSid =>
      [lineOf "HOST" dest.hostport, lineOf "SID" renewalSid, lineOf "TIMEOUT" (timeoutValue (timeoutStr timeout))]
  | none =>
      let host := callbackHost iface dest
      [lineOf "HOST" dest.hostport, lineOf "CALLBACK" (callbackValue host.1 host.2), lineOf "NT" (bytes "upnp:event"),
        lineOf "TIMEOUT" (timeoutValue (timeoutStr timeout))]

theorem requestParts_text (env : Env) (iface : Interface) (dest : FixedUrl) (timeout : Int)
    (renewalSid : Option (List UInt8)) :
    httpMakeMessage env (startParts dest ++ requestParts iface dest timeout renewalSid) =
      requestLine dest.pathquery ++ headerBlock (requestLines iface dest timeout renewalSid) := by
  have one : decimalDigits 1 = bytes "1" := by with_unfolding_all decide
  cases renewalSid <;>
    simp [startParts, requestParts, httpMakeMessage, Part.text, requestLine, headerBlock, requestLines, lineOf,
      HeaderLine.text, one, timeoutValue, callbackValue, number, bytes, SP, CR, LF]

def requestNames : Bool → List (List UInt8)
  | true => [bytes "HOST", bytes "SID", bytes "TIMEOUT"]
  | false => [bytes "HOST", bytes "CALLBACK", bytes "NT", bytes "TIMEOUT"]

theorem requestLines_names (iface : Interface) (dest : FixedUrl) (timeout : Int) (renewalSid : Option (List UInt8)) :
    (requestLines iface dest timeout renewalSid).map (·.name) = requestNames renewalSid.isSome := by
  cases renewalSid <;> rfl

theorem requestNames_plain (renewal : Bool) : PlainNames (requestNames renewal) := by
  cases renewal <;> exact .of_names (by decide) (by decide) (by decide)

theorem request_parsed {path : List UInt8} (graphic : Graphic path) (nonempty : path ≠ []) {lines : List HeaderLine}
    (names : PlainNames (lines.map (·.name))) (good : ∀ line ∈ lines, ValueGood line) (res : Resolver) :
    (parserParse res (parserRequestInit.extend (requestLine path ++ headerBlock lines))).1 = .failure ∨
      ∃ q, parserParse res (parserRequestInit.extend (requestLine path ++ headerBlock lines)) = (.success, q) ∧
        q.msg.headers = lines.map HeaderLine.header ∧ q.msg.method = .subscribe ∧
        q.msg.majorVersion = 1 ∧ q.msg.minorVersion = 1 := by
  have start : (requestStart path).Good := HttpParser.Initial.request.good.extend _
  have whole := extend_extend parserRequestInit (requestLine path) (headerBlock lines)
  rw [← whole]
  change (parserParse res ((requestStart path).extend (headerBlock lines))).1 = .failure ∨
    ∃ q, parserParse res ((requestStart path).extend (headerBlock lines)) = (.success, q) ∧ _
  rcases requestStart_head graphic nonempty res with failed | ⟨head, round, read⟩
  · have last : parserParse res (requestStart path) = parserRound res (requestStart path) :=
      parserParse_last (by rw [failed]; decide)
    have done : ¬parserConsumer.waits (parserParse res (requestStart path)).1 := by
      rw [last, failed]
      rintro (short | short) <;> cases short
    have smooth : ¬requestCut (requestStart path) (headerBlock lines) := by
      intro cut
      have gives_up := @parserParse_cut_noMatch res _ _ start cut
      rw [last, failed] at gives_up
      cases gives_up
    have stable := (parserParse_incremental res _ start).stable (headerBlock lines) done smooth
    left
    rw [parserConsumer_extend] at stable
    rw [stable.status, last, failed]
  · have noPost : ¬(head.msg.isRequest = true ∧ head.msg.method = .post) := by
      rw [read.method]
      rintro ⟨-, other⟩
      cases other
    obtain ⟨scanner, parsed⟩ := parserParse_block names good start round read.position ⟨read.more, read.ended⟩
      read.noHeader noPost
    have noBody : (atEntity head lines scanner).msg.hasNoBody = true := by
      change HttpMessage.hasNoBody { head.msg with headers := _ } = true
      simp [HttpMessage.hasNoBody, read.isRequest, read.method]
    obtain ⟨q, entity, msg⟩ := atEntity_noBody read.closed scanner noBody
    refine .inr ⟨q, parsed.trans entity, ?_, ?_, ?_, ?_⟩
    · rw [msg]
    · rw [msg]
      exact read.method
    · rw [msg]
      exact read.version.1
    · rw [msg]
      exact read.version.2

/-! ### The lines of the answer -/

def durationText (timeOut : Int) : List UInt8 :=
  if 0 ≤ timeOut then decimalDigits timeOut.toNat else bytes "infinite"

def answerLines (env : Env) (timeOut : Int) (sid : List UInt8) : List HeaderLine :=
  [lineOf "DATE" env.date.text, lineOf "SERVER" env.sdkInfo, lineOf "CONTENT-LENGTH" (bytes "0"),
    lineOf "Accept-Ranges" (bytes "bytes"), lineOf "X-User-Agent" (bytes "redsonic"), lineOf "SID" sid,
    lineOf "TIMEOUT" (timeoutValue (durationText timeOut))]

def answerNames : List (List UInt8) :=
  [bytes "DATE", bytes "SERVER", bytes "CONTENT-LENGTH", bytes "Accept-Ranges", bytes "X-User-Agent", bytes "SID",
    bytes "TIMEOUT"]

theorem answerNames_fresh : answerNames.Pairwise (fun a b => clash a b = false) ∧
    ∀ name ∈ answerNames, (name ≠ [] ∧ ∀ c ∈ name, isIdentifierChar c = true) ∧
      lookupHeader name ≠ some .soapaction := by
  have named : ∀ name ∈ answerNames, name ≠ [] ∧ ∀ c ∈ name, isIdentifierChar c = true := by decide
  have others : ∀ name ∈ answerNames, ¬SameName name (bytes "SOAPACTION") := by decide
  exact ⟨names_fresh (by decide) named, fun name member =>
    ⟨named name member, lookupHeader_ne (by simp [httpHeaderNames]) (others name member)⟩⟩

theorem answerText_lines {env : Env} (fits : env.Fits) (timeOut : Int) (sid : List UInt8) {request : HttpMessage}
    (version : request.majorVersion = 1 ∧ request.minorVersion = 1) :
    answerText env timeOut sid request =
      bytes "HTTP/1.1 200 OK\r\n" ++ headerBlock (answerLines env timeOut sid) := by
  have date := date_text fits
  have server := server_text fits
  have one : Web.decimalInt 1 = bytes "1" := by decide +kernel
  have zero : Web.decimalInt 0 = bytes "0" := by with_unfolding_all decide
  have code : decimalDigits Web.HTTP_OK = bytes "200" := by with_unfolding_all decide
  have reason : Web.http2xxCodes.getD (Web.HTTP_OK - 200) [] = bytes "OK" := by decide
  have status : bytes "HTTP/" ++ bytes "1" ++ bytes "." ++ bytes "1" ++ bytes " " ++ bytes "200" ++ bytes " " ++
      bytes "OK" ++ [CR, LF] = bytes "HTTP/1.1 200 OK\r\n" := by decide
  have same : Web.calcResponseVersion request.majorVersion request.minorVersion = (1, 1) := by
    rw [version.1, version.2]
    decide
  have duration : (if 0 ≤ timeOut then bytes "TIMEOUT: Second-" ++ decimalDigits timeOut.toNat
      else bytes "TIMEOUT: Second-infinite") = bytes "TIMEOUT: " ++ timeoutValue (durationText timeOut) := by
    unfold timeoutValue durationText
    split
    · simp [bytes]
    · decide
  simp only [answerText, same, answerParts, List.flatMap_cons, List.flatMap_nil, Web.HeaderPart.text, one, zero, code,
    reason, status, date, server, duration]
  simp [Part.text, headerBlock, answerLines, lineOf, HeaderLine.text, bytes, SP, CR, LF]

def answerStart : HttpParser := (parserResponseInit .subscribe).extend (bytes "HTTP/1.1 200 OK\r\n")

def answerHead : HttpParser := (parserParseResponseline answerStart).2

theorem answerStart_round (res : Resolver) : parserRound res answerStart = (.ok, answerHead) := by
  have parsed : (parserParseResponseline answerStart).1 = .ok := by with_unfolding_all decide
  exact Prod.ext parsed rfl

theorem answerHead_spec : answerHead.position = .headers ∧ answerHead.scanner.entireMsgLoaded = false ∧
    answerHead.scanner.cursor ≤ answerHead.scanner.msg.length ∧ answerHead.scanner.rest = [] ∧
    answerHead.msg.headers = [] ∧ answerHead.msg.isRequest = false ∧ answerHead.msg.requestMethod = .subscribe ∧
    answerHead.msg.statusCode = 200 ∧ answerHead.entPosition = .determineReadMethod ∧
    answerHead.contentLength = 0 := by
  refine ⟨?_, ?_, ?_, ?_, ?_, ?_, ?_, ?_, ?_, ?_⟩
  all_goals with_unfolding_all decide

theorem answer_parsed {lines : List HeaderLine} (names : lines.map (·.name) = answerNames)
    (good : ∀ line ∈ lines, ValueGood line) (res : Resolver) :
    ∃ q, parserParse res ((parserResponseInit .subscribe).extend
        (bytes "HTTP/1.1 200 OK\r\n" ++ headerBlock lines)) = (.success, q) ∧
      q.msg.headers = lines.map HeaderLine.header ∧ q.msg.statusCode = 200 ∧ q.contentLength = 0 := by
  obtain ⟨atHeaders, entire, inside, ended, noHeader, response, method, status, closed, noLength⟩ := answerHead_spec
  obtain ⟨fresh, named⟩ := answerNames_fresh
  rw [← names] at fresh named
  have start : answerStart.Good := (HttpParser.Initial.response .subscribe).good.extend _
  have noPost : ¬(answerHead.msg.isRequest = true ∧ answerHead.msg.method = .post) := by
    rw [response]
    rintro ⟨request, -⟩
    cases request
  obtain ⟨scanner, parsed⟩ := parserParse_lines (List.pairwise_map.mp fresh)
    (fun line member => (named line.name (List.mem_map_of_mem member)).1)
    (fun line member => (named line.name (List.mem_map_of_mem member)).2) good start (answerStart_round res) atHeaders
    ⟨⟨entire, inside⟩, ended⟩ noHeader noPost
  have noBody : (atEntity answerHead lines scanner).msg.hasNoBody = true := by
    change HttpMessage.hasNoBody { answerHead.msg with headers := _ } = true
    simp [HttpMessage.hasNoBody, response, method]
  have entity := atEntity_complete closed scanner noBody
  rw [← extend_extend]
  exact ⟨_, parsed.trans entity, rfl, status, noLength⟩

end Pupnp.Gena.Subscribe
