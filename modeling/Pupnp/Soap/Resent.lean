import Pupnp.Gena.SubscribeUrl
import Pupnp.Soap.ActionLine
import Pupnp.Ssdp.RoundTrip

/-! What a device reads of an action that is sent again as an M-POST. -/

namespace Pupnp.Soap
open Pupnp.CString Pupnp.Uri Pupnp.Http
open Pupnp.Gena.Notification (matchstr)
open Pupnp.Gena.Subscribe (FixedUrl Graphic Numeric httpFixStrUrl httpFixStrUrl_graphic parserParseRequestline_full)
open Pupnp.Ssdp (lineOf ValueGood)

section Statement
variable (device : Resolver) (env : Ssdp.Env) (url : FixedUrl) (serviceType name body : List UInt8)

def behindName : List UInt8 := 58 :: SP :: (soapAction serviceType name ++ [CR, LF] ++ requestTail env body)

def linesBehind : List ReadLine :=
  (headerLines (scannerInit (bytes "SOAPACTION" ++ behindName env serviceType name body))).tail

/-- The request with the new method, the extension and the new name, and what a device takes as its action. -/
structure ResentRight : Prop where
  text : addManHeader (actionRequest env url serviceType name body) =
    some (extendedRequest env url serviceType name body)
  action : ∀ resent, addManHeader (actionRequest env url serviceType name body) = some resent →
    actionOf device resent = actionOf device (actionRequest env url serviceType name body)

/-- The old name is not in the URL, and no line behind the action that is read has one of the two names. -/
structure NamesApart : Prop where
  path : ¬actionName <:+: url.pathquery
  host : ¬actionName <:+: url.hostport
  lines : headRead device (actionRequest env url serviceType name body) ≠ none →
    ∀ line ∈ linesBehind env serviceType name body,
      ¬SameName (bytes "SOAPACTION") line.name ∧ (SameName (bytes "01-SOAPACTION") line.name → line.value = [])

end Statement

/-! ### Lines in front of a line -/

def readLine (line : HeaderLine) : ReadLine := ⟨line.name, line.value⟩

theorem foldl_afterLine_msg (lines : List HeaderLine) (p : HttpParser) :
    (lines.foldl HttpParser.afterLine p).msg = (lines.map readLine).foldl addLine p.msg := by
  induction lines generalizing p with
  | nil => rfl
  | cons line lines ih => exact ih _

theorem Identifier.noNul {s : List UInt8} (identifier : Identifier s) : 0 ∉ s := by
  intro member
  have char := identifier.chars 0 member
  revert char
  decide

structure Behind (q : HttpParser) (method : HttpMethod) (lines : List ReadLine) (rest : List UInt8) : Prop where
  good : q.Good
  ahead : q.scanner.rest = rest
  isRequest : q.msg.isRequest = true
  method : q.msg.method = method
  made : MadeOf q.msg.headers lines

section Front
variable {word path text rest : List UInt8} (identifier : Identifier word) (graphic : Graphic path)
  (nonempty : path ≠ []) (res : Resolver)
  (shape : text = word ++ SP :: (path ++ SP :: (bytes "HTTP/1.1\r\n" ++ rest)))
include identifier graphic nonempty shape

theorem headRead_refused (refused : parseUri res (stripSlashes path) (stripSlashes path).length = none) :
    headRead res text = none := by
  have opened : (parserRequestInit.extend text).scanner.Open := ⟨rfl, Nat.zero_le _⟩
  have line := parserParseRequestline_full identifier.nonempty identifier.chars graphic nonempty res opened shape
  rw [headRead, line]
  simp [parserParseFullRequest, refused]

theorem headRead_taken (taken : parseUri res (stripSlashes path) (stripSlashes path).length ≠ none)
    {method : HttpMethod} (looked : lookupMethod word = some method) :
    ∃ q, Behind q method [] rest ∧ headRead res text = readHeaders q := by
  have version : (sscanfVersion (bytes "1.1")).1 = [1, 1] := by decide
  have good : (parserRequestInit.extend text).Good := HttpParser.Initial.request.good.extend _
  have line := parserParseRequestline_full identifier.nonempty identifier.chars graphic nonempty res good.more shape
  have advance := parserParseRequestline_advances res (parserRequestInit.extend text)
  obtain ⟨uri, found⟩ := Option.ne_none_iff_exists'.mp taken
  have parsed (p : HttpParser) : ∃ q, parserParseFullRequest res p word path (bytes "1.1") = (.ok, q) := by
    simp [parserParseFullRequest, found, looked, version, storeVersion]
  obtain ⟨q, ok⟩ := parsed ((parserRequestInit.extend text).withScanner
    { (parserRequestInit.extend text).scanner with
      cursor := (parserRequestInit.extend text).scanner.cursor + (word.length + path.length + 12) })
  obtain ⟨id, known, same, scanner, headers, isRequest⟩ := parserParseFullRequest_read ok
  obtain rfl := Option.some.inj (looked.symm.trans known)
  rw [line, ok] at advance
  refine ⟨q, ⟨advance.good good, ?_, isRequest, same, ?_⟩, by rw [headRead, line, ok]; rfl⟩
  · have front : (word ++ SP :: (path ++ SP :: bytes "HTTP/1.1\r\n")).length = word.length + path.length + 12 := by
      have ten : (bytes "HTTP/1.1\r\n").length = 10 := by decide
      simp only [List.length_append, List.length_cons, ten]
      omega
    have ahead : (parserRequestInit.extend text).scanner.rest =
        (word ++ SP :: (path ++ SP :: bytes "HTTP/1.1\r\n")) ++ rest := by
      change text = _
      rw [shape]
      simp
    rw [scanner, ← rest_advance ahead, front]
    rfl
  · rw [headers]
    exact .nil

end Front

theorem Behind.lines {q : HttpParser} {method : HttpMethod} {lines : List HeaderLine} {rest : List UInt8}
    (behind : Behind q method [] (lines.flatMap HeaderLine.text ++ rest))
    (good : ∀ line ∈ lines, line.WellFormed) (plain : (lines.map readLine).any isSoapLine = false)
    (start : LineStart rest) :
    ∃ r, Behind r method (lines.map readLine) rest ∧ readHeaders q = readHeaders r := by
  obtain ⟨same, advance, ahead⟩ := parserParseHeaders_front behind.good.more good behind.ahead start
  have names : ∀ line ∈ lines.map readLine, 0 ∉ line.name := by
    rw [List.forall_mem_map]
    exact fun line member => Identifier.noNul ⟨(good line member).named, (good line member).name⟩
  obtain ⟨methods, request⟩ := foldl_addLine_method (lines.map readLine) q.msg
  refine ⟨_, ⟨advance.good behind.good, ahead, ?_, ?_, ?_⟩, ?_⟩
  · rw [foldl_afterLine_msg, request, behind.isRequest]
  · rw [foldl_afterLine_msg, methods, plain, if_neg Bool.false_ne_true, behind.method]
  · rw [foldl_afterLine_msg]
    exact behind.made.addAll names
  · rw [readHeaders, readHeaders, same]

theorem Behind.read {q : HttpParser} {method : HttpMethod} {lines : List ReadLine} {rest : List UInt8}
    (behind : Behind q method lines rest) {line : ReadLine} {next : Scanner}
    (found : headerLine q.scanner = some (line, next)) (noPost : (addLine q.msg line).method ≠ .post) :
    readHeaders q = if (trailersEnd next.rest).isSome then some ((line :: headerLines next).foldl addLine q.msg) else none := by
  have step := parseHeaderLine_some found
  have advance := parseHeaderLine_advances q
  rw [step] at advance
  rw [readHeaders_line found, readHeaders_eq (advance.good behind.good)]
  · rfl
  · rw [HttpMessage.HasEntity, decide_eq_false noPost, Bool.and_false]

/-! ### The action in the headers -/

theorem elim_found {found : Option HttpHeader} {values : List (List UInt8)}
    (value : found.map HttpHeader.value = if values = [] then none else some (storedValues values)) :
    found.elim (Except.error SREQ_HDR_NOT_FOUND) (fun hdr => Except.ok hdr.value) =
      if values = [] then .error SREQ_HDR_NOT_FOUND else .ok (storedValues values) := by
  cases found with
  | none =>
    split at value
    next none => rw [if_pos none, Option.elim_none]
    next => cases value
  | some hdr =>
    split at value
    next => cases value
    next arrived => rw [if_neg arrived, Option.elim_some, ← Option.some.inj value]

section Headers
variable {msg : HttpMessage} {lines : List ReadLine} (made : MadeOf msg.headers lines)
include made

theorem soapactionValue_post (post : msg.method = .soapPost) :
    soapactionValue msg = if valuesOf lines (bytes "SOAPACTION") = [] then .error SREQ_HDR_NOT_FOUND
      else .ok (storedValues (valuesOf lines (bytes "SOAPACTION"))) := by
  have known : lookupHeader (bytes "SOAPACTION") = some .soapaction := by with_unfolding_all decide
  have value := made.findHdr known
  rw [soapactionValue, if_pos post, ← elim_found value]
  cases httpmsgFindHdr msg .soapaction <;> rfl

theorem soapactionValue_mpost (other : msg.method ≠ .soapPost) {values : List (List UInt8)}
    (man : valuesOf lines (bytes "MAN") = manValue :: values) :
    soapactionValue msg = if valuesOf lines (bytes "01-SOAPACTION") = [] then .error SREQ_HDR_NOT_FOUND
      else .ok (storedValues (valuesOf lines (bytes "01-SOAPACTION"))) := by
  have known : lookupHeader (bytes "MAN") = some .man := by with_unfolding_all decide
  have extension := made.findHdr known
  have value := @MadeOf.findHdrStr msg lines made (bytes "01-SOAPACTION") (by decide)
  rw [man, if_neg (List.cons_ne_nil _ _)] at extension
  obtain ⟨hdr, found, stored⟩ := Option.map_eq_some_iff.mp extension
  have filled : firstValue manValue = manValue := by decide
  rw [storedValues, filled] at stored
  have ends : ((values.filter (· ≠ [])).flatMap (bytes ", " ++ ·)).takeWhile isIdentifierChar = [] := by
    cases values.filter (· ≠ []) with
    | nil => rfl
    | cons first later => rfl
  have ns : (Memptr.mk 48 2).read hdr.value ++ bytes "-SOAPACTION" = bytes "01-SOAPACTION" := by
    rw [stored]
    rfl
  rw [soapactionValue, if_neg other, getMpostActonHdrval, found]
  dsimp only
  rw [stored, manValue_match ends]
  dsimp only
  rw [← stored, ns, ← elim_found value]
  cases httpmsgFindHdrStr msg (bytes "01-SOAPACTION") <;> rfl

end Headers

/-! ### Values behind a value -/

section Values
variable {value : List UInt8} (quote : value.head? = some 34)
include quote

theorem firstValue_quote : firstValue value = value := by
  rw [firstValue, if_neg]
  rintro rfl
  cases quote

theorem storedValues_front (values : List (List UInt8)) : storedValues (value :: values) ≠ storedValues values := by
  intro same
  rw [storedValues, firstValue_quote quote] at same
  cases values with
  | nil =>
    rw [List.filter_nil, List.flatMap_nil, List.append_nil] at same
    rw [same] at quote
    cases quote
  | cons first later =>
    rw [storedValues] at same
    by_cases empty : first = []
    · rw [List.filter_cons_of_neg (by simp [empty]), firstValue, if_pos empty] at same
      rw [List.append_cancel_right same] at quote
      cases quote
    · rw [List.filter_cons_of_pos (by simp [empty]), firstValue, if_neg empty, List.flatMap_cons] at same
      have length := congrArg List.length same
      have two : (bytes ", ").length = 2 := by decide
      simp only [List.length_append, two] at length
      omega

end Values

theorem storedValues_alone (value : List UInt8) (values : List (List UInt8)) :
    storedValues (value :: values) = storedValues [value] ↔ ∀ other ∈ values, other = [] := by
  rw [storedValues, storedValues, List.filter_nil, List.flatMap_nil, List.append_right_inj, List.flatMap_eq_nil_iff]
  constructor
  · intro nothing other member
    by_contra filled
    have both := nothing other (List.mem_filter.mpr ⟨member, by simpa using filled⟩)
    exact filled (List.append_eq_nil_iff.mp both).2
  · intro empty other member
    obtain ⟨inside, filled⟩ := List.mem_filter.mp member
    exact absurd (empty other inside) (by simpa using filled)

theorem valuesOf_lines (front more : List ReadLine) (name : List UInt8) :
    valuesOf (front ++ more) name = valuesOf front name ++ valuesOf more name := by
  rw [valuesOf, List.filter_append, List.map_append]
  rfl

theorem valuesOf_absent {lines : List ReadLine} {name : List UInt8}
    (absent : ∀ line ∈ lines, ¬SameName name line.name) : valuesOf lines name = [] := by
  rw [valuesOf, List.map_eq_nil_iff, List.filter_eq_nil_iff]
  intro line member same
  exact absent line member (of_decide_eq_true same)

theorem forall_valuesOf {lines : List ReadLine} {name : List UInt8} {P : List UInt8 → Prop} :
    (∀ value ∈ valuesOf lines name, P value) ↔ ∀ line ∈ lines, SameName name line.name → P line.value := by
  simp only [valuesOf, List.forall_mem_map, List.mem_filter, decide_eq_true_eq, and_imp]

theorem isSoapLine_iff (line : ReadLine) : isSoapLine line = true ↔ SameName (bytes "SOAPACTION") line.name := by
  have known : lookupHeader (bytes "SOAPACTION") = some .soapaction := by with_unfolding_all decide
  have same := @lookupHeader_is line.name _ _ known
  rw [isSoapLine, decide_eq_true_eq]
  constructor
  · intro looked
    exact (same.mp (by rw [looked]; rfl)).symm
  · intro is
    rw [← lookupHeader_congr is, known]

theorem any_isSoapLine (lines : List ReadLine) :
    lines.any isSoapLine = false ↔ valuesOf lines (bytes "SOAPACTION") = [] := by
  rw [valuesOf, List.map_eq_nil_iff, List.filter_eq_nil_iff, List.any_eq_false]
  simp only [isSoapLine_iff, decide_eq_true_eq]

/-! ### The action of both requests -/

def actionNames : List (List UInt8) := [bytes "SOAPACTION", bytes "MAN", bytes "01-SOAPACTION"]

theorem Behind.madeOf {q : HttpParser} {method : HttpMethod} {front more : List ReadLine} {rest : List UInt8}
    (behind : Behind q method front rest) (names : ∀ line ∈ more, 0 ∉ line.name) {name : List UInt8}
    (noNul : 0 ∉ name) (value : List UInt8) :
    MadeOf ((⟨name, value⟩ :: more).foldl addLine q.msg).headers (front ++ ⟨name, value⟩ :: more) := by
  apply behind.made.addAll
  rw [List.forall_mem_cons]
  exact ⟨noNul, names⟩

section Lines
variable {front more : List ReadLine} (absent : ∀ name ∈ actionNames, ∀ line ∈ front, ¬SameName name line.name)
  (names : ∀ line ∈ more, 0 ∉ line.name) {value rest : List UInt8} {q : HttpParser}

include absent names

theorem action_original (behind : Behind q .post front rest) :
    soapactionValue ((⟨bytes "SOAPACTION", value⟩ :: more).foldl addLine q.msg) =
      .ok (storedValues (value :: valuesOf more (bytes "SOAPACTION"))) := by
  have made := behind.madeOf names (by decide : 0 ∉ bytes "SOAPACTION") value
  have method := (foldl_addLine_method (⟨bytes "SOAPACTION", value⟩ :: more) q.msg).1
  have soap : isSoapLine ⟨bytes "SOAPACTION", value⟩ = true := (isSoapLine_iff _).mpr rfl
  rw [List.any_cons, soap, Bool.true_or, if_pos rfl] at method
  have values : valuesOf (front ++ ⟨bytes "SOAPACTION", value⟩ :: more) (bytes "SOAPACTION") =
      value :: valuesOf more (bytes "SOAPACTION") := by
    rw [valuesOf_lines, valuesOf_absent (absent _ (by decide))]
    rfl
  rw [soapactionValue_post made method, values, if_neg (List.cons_ne_nil _ _)]

theorem action_resent (behind : Behind q .mpost (front ++ [⟨bytes "MAN", manValue⟩]) rest) :
    soapactionValue ((⟨bytes "01-SOAPACTION", value⟩ :: more).foldl addLine q.msg) =
      .ok (storedValues (if valuesOf more (bytes "SOAPACTION") = [] then value :: valuesOf more (bytes "01-SOAPACTION")
        else valuesOf more (bytes "SOAPACTION"))) := by
  have made := behind.madeOf names (by decide : 0 ∉ bytes "01-SOAPACTION") value
  have method := (foldl_addLine_method (⟨bytes "01-SOAPACTION", value⟩ :: more) q.msg).1
  have plain : isSoapLine ⟨bytes "01-SOAPACTION", value⟩ = false := by
    rw [← Bool.not_eq_true, isSoapLine_iff]
    change ¬SameName (bytes "SOAPACTION") (bytes "01-SOAPACTION")
    decide
  rw [List.any_cons, plain, Bool.false_or, behind.method] at method
  rw [List.append_assoc, List.singleton_append] at made
  have values {name : List UInt8} (member : name ∈ actionNames) {ahead : List (List UInt8)}
      (first : valuesOf [⟨bytes "MAN", manValue⟩, ⟨bytes "01-SOAPACTION", value⟩] name = ahead) :
      valuesOf (front ++ ⟨bytes "MAN", manValue⟩ :: ⟨bytes "01-SOAPACTION", value⟩ :: more) name =
        ahead ++ valuesOf more name := by
    have split := valuesOf_lines [⟨bytes "MAN", manValue⟩, ⟨bytes "01-SOAPACTION", value⟩] more name
    rw [valuesOf_lines, valuesOf_absent (absent name member), List.nil_append, ← first, ← split]
    rfl
  by_cases again : valuesOf more (bytes "SOAPACTION") = []
  · rw [if_neg (by simp [(any_isSoapLine more).mpr again])] at method
    have other : ((⟨bytes "01-SOAPACTION", value⟩ :: more).foldl addLine q.msg).method ≠ .soapPost := by
      rw [method]
      decide
    have action := @values (bytes "01-SOAPACTION") (by decide) [value] rfl
    rw [List.singleton_append] at action
    rw [soapactionValue_mpost made other (values (by decide) rfl), action, if_neg (List.cons_ne_nil _ _), if_pos again]
  · have soap : more.any isSoapLine = true := by
      rw [← Bool.not_eq_false, any_isSoapLine]
      exact again
    rw [soap, if_pos rfl] at method
    have action := @values (bytes "SOAPACTION") (by decide) [] rfl
    rw [soapactionValue_post made method, action, List.nil_append, if_neg again, if_neg again]

theorem action_same {q' : HttpParser} {rest' : List UInt8} (behind : Behind q .post front rest)
    (behind' : Behind q' .mpost (front ++ [⟨bytes "MAN", manValue⟩]) rest') (quote : value.head? = some 34) :
    soapactionValue ((⟨bytes "01-SOAPACTION", value⟩ :: more).foldl addLine q'.msg) =
        soapactionValue ((⟨bytes "SOAPACTION", value⟩ :: more).foldl addLine q.msg) ↔
      ∀ line ∈ more, ¬SameName (bytes "SOAPACTION") line.name ∧
        (SameName (bytes "01-SOAPACTION") line.name → line.value = []) := by
  have alone : valuesOf more (bytes "SOAPACTION") = [] ↔ ∀ line ∈ more, ¬SameName (bytes "SOAPACTION") line.name := by
    rw [List.eq_nil_iff_forall_not_mem]
    exact @forall_valuesOf more (bytes "SOAPACTION") fun _ => False
  rw [action_original absent names behind, action_resent absent names behind', Except.ok.injEq]
  simp only [forall_and, ← alone, ← @forall_valuesOf more (bytes "01-SOAPACTION") (· = [])]
  by_cases again : valuesOf more (bytes "SOAPACTION") = []
  · rw [if_pos again, again, storedValues_alone, eq_self, true_and]
  · rw [if_neg again]
    exact iff_of_false (fun same => storedValues_front quote _ same.symm) fun both => again both.1

end Lines

/-! ### The texts of both requests -/

section Requests
variable {device : Resolver} {env : Ssdp.Env} {url : FixedUrl} {serviceType name body : List UInt8}

def frontLines (url : FixedUrl) (contentLength : Nat) : List HeaderLine :=
  [lineOf "HOST" url.hostport, lineOf "CONTENT-LENGTH" (decimalDigits contentLength),
    lineOf "Accept-Ranges" (bytes "bytes"), lineOf "CONTENT-TYPE" (bytes "text/xml; charset=\"utf-8\"")]

theorem actionRequest_lines : actionRequest env url serviceType name body =
    bytes "POST" ++ SP :: (url.pathquery ++ SP :: (bytes "HTTP/1.1\r\n" ++
      ((frontLines url body.length).flatMap HeaderLine.text ++
        (bytes "SOAPACTION" ++ behindName env serviceType name body)))) := by
  simp [actionRequest, requestHead, contentTypeHeader, frontLines, lineOf, HeaderLine.text, behindName, bytes, SP, CR, LF]

theorem extendedRequest_lines : extendedRequest env url serviceType name body =
    bytes "M-POST" ++ SP :: (url.pathquery ++ SP :: (bytes "HTTP/1.1\r\n" ++
      ((frontLines url body.length ++ [lineOf "MAN" manValue]).flatMap HeaderLine.text ++
        (bytes "01-SOAPACTION" ++ behindName env serviceType name body)))) := by
  simp [extendedRequest, requestHead, contentTypeHeader, frontLines, lineOf, HeaderLine.text, behindName, bytes, SP, CR, LF]

theorem frontLines_names (url : FixedUrl) (contentLength : Nat) :
    ((frontLines url contentLength).map readLine).map ReadLine.name =
      [bytes "HOST", bytes "CONTENT-LENGTH", bytes "Accept-Ranges", bytes "CONTENT-TYPE"] := rfl

theorem frontLines_absent (url : FixedUrl) (contentLength : Nat) :
    ∀ name ∈ actionNames, ∀ line ∈ (frontLines url contentLength).map readLine, ¬SameName name line.name := by
  have apart : ∀ name ∈ actionNames,
      ∀ other ∈ [bytes "HOST", bytes "CONTENT-LENGTH", bytes "Accept-Ranges", bytes "CONTENT-TYPE"],
        ¬SameName name other := by decide
  intro name member line inside
  rw [← frontLines_names url contentLength] at apart
  exact apart name member line.name (List.mem_map_of_mem inside)

theorem frontLines_plain (url : FixedUrl) (contentLength : Nat) :
    ((frontLines url contentLength).map readLine).any isSoapLine = false := by
  rw [any_isSoapLine]
  exact valuesOf_absent (frontLines_absent url contentLength _ (by decide))

theorem manLines_plain (url : FixedUrl) (contentLength : Nat) :
    ((frontLines url contentLength ++ [lineOf "MAN" manValue]).map readLine).any isSoapLine = false := by
  rw [List.map_append, List.any_append, frontLines_plain, Bool.false_or]
  with_unfolding_all decide

theorem lineOf_good {label : String} (identifier : Identifier (bytes label)) {value : List UInt8}
    (isValue : HeaderValue value) : (lineOf label value).WellFormed :=
  ⟨identifier.nonempty, identifier.chars, .inr rfl, isValue⟩

theorem manLine_good : (lineOf "MAN" manValue).WellFormed := by
  have text : ValueText manValue :=
    @ValueText.quoted (bytes "http://schemas.xmlsoap.org/soap/envelope/") (bytes "; ns=01") (by decide)
      (.of_plain (by decide))
  exact lineOf_good ⟨by decide, by decide⟩ ⟨text, by decide, by decide⟩

theorem frontLines_good (host : Graphic url.hostport) (contentLength : Nat) :
    ∀ line ∈ frontLines url contentLength, line.WellFormed := by
  have type : ValueText (bytes "text/xml; charset=" ++ bytes "\"utf-8\"") :=
    .append (.of_plain (by decide)) (@ValueText.quoted (bytes "utf-8") [] (by decide) .nil)
  have split : bytes "text/xml; charset=\"utf-8\"" = bytes "text/xml; charset=" ++ bytes "\"utf-8\"" := by decide
  simp only [frontLines, List.forall_mem_cons, List.not_mem_nil, false_implies, implies_true, and_true]
  refine ⟨lineOf_good ⟨by decide, by decide⟩ (.of_graphic host), lineOf_good ⟨by decide, by decide⟩ ?_,
    lineOf_good ⟨by decide, by decide⟩ (.of_graphic (by decide)), lineOf_good ⟨by decide, by decide⟩ ?_⟩
  · exact .of_graphic (Ssdp.number_graphic contentLength)
  · rw [split]
    exact ⟨type, by decide, by decide⟩

theorem actions_behind {front : List ReadLine} (absent : ∀ name ∈ actionNames, ∀ line ∈ front, ¬SameName name line.name)
    {q q' : HttpParser} (behind : Behind q .post front (bytes "SOAPACTION" ++ behindName env serviceType name body))
    (behind' : Behind q' .mpost (front ++ [⟨bytes "MAN", manValue⟩])
      (bytes "01-SOAPACTION" ++ behindName env serviceType name body))
    (old : Identifier (bytes "SOAPACTION")) (new : Identifier (bytes "01-SOAPACTION")) :
    (readHeaders q').map soapactionValue = (readHeaders q).map soapactionValue ↔
      (readHeaders q ≠ none →
        ∀ line ∈ linesBehind env serviceType name body, ¬SameName (bytes "SOAPACTION") line.name ∧
          (SameName (bytes "01-SOAPACTION") line.name → line.value = [])) := by
  obtain ⟨missing, missing'⟩ | ⟨value, next, next', line, line', alike⟩ :=
    headerLine_renamed behind.good.more behind'.good.more old new behind.ahead behind'.ahead
  · have none := readHeaders_noLine behind.good.more old behind.ahead missing
    have none' := readHeaders_noLine behind'.good.more new behind'.ahead missing'
    rw [none, none']
    exact iff_of_true rfl fun read => absurd rfl read
  · have quote : value.head? = some 34 := headerLine_quote behind.good.more old behind.ahead line
    have start : (scannerInit (bytes "SOAPACTION" ++ behindName env serviceType name body)).Alike q.scanner :=
      ⟨behind.ahead.symm, behind.good.more.entire.symm⟩
    have tail : linesBehind env serviceType name body = headerLines next := by
      rw [linesBehind, headerLines_alike start, headerLines_next line, List.tail_cons]
    have soap : (addLine q.msg ⟨bytes "SOAPACTION", value⟩).method ≠ .post := by
      have named : isSoapLine ⟨bytes "SOAPACTION", value⟩ = true := (isSoapLine_iff _).mpr rfl
      rw [(addLine_method _ _).1, if_pos named]
      decide
    have other : (addLine q'.msg ⟨bytes "01-SOAPACTION", value⟩).method ≠ .post := by
      rw [(addLine_method _ _).1, behind'.method]
      split <;> decide
    rw [behind.read line soap, behind'.read line' other, ← headerLines_alike alike, ← alike.rest, tail]
    by_cases ended : (trailersEnd next.rest).isSome = true
    · have same := action_same absent (headerLines_names next) behind behind' quote
      rw [if_pos ended, if_pos ended, Option.map_some, Option.map_some, Option.some.injEq, same]
      exact ⟨fun apart _ => apart, fun apart => apart (Option.some_ne_none _)⟩
    · rw [if_neg ended, if_neg ended]
      exact iff_of_true rfl fun read => absurd rfl read

/-- What a device takes as the action is the same for both requests, unless a line behind has one of the names. -/
theorem actionOf_resent (graphic : Graphic url.pathquery) (nonempty : url.pathquery ≠ []) (host : Graphic url.hostport) :
    actionOf device (extendedRequest env url serviceType name body) =
        actionOf device (actionRequest env url serviceType name body) ↔
      (headRead device (actionRequest env url serviceType name body) ≠ none →
        ∀ line ∈ linesBehind env serviceType name body, ¬SameName (bytes "SOAPACTION") line.name ∧
          (SameName (bytes "01-SOAPACTION") line.name → line.value = [])) := by
  have post : Identifier (bytes "POST") := ⟨by decide, by decide⟩
  have mpost : Identifier (bytes "M-POST") := ⟨by decide, by decide⟩
  have old : Identifier (bytes "SOAPACTION") := ⟨by decide, by decide⟩
  have new : Identifier (bytes "01-SOAPACTION") := ⟨by decide, by decide⟩
  have line := @actionRequest_lines env url serviceType name body
  have line' := @extendedRequest_lines env url serviceType name body
  by_cases refused : parseUri device (stripSlashes url.pathquery) (stripSlashes url.pathquery).length = none
  · have none := headRead_refused post graphic nonempty device line refused
    have none' := headRead_refused mpost graphic nonempty device line' refused
    rw [actionOf, actionOf, none, none']
    exact iff_of_true rfl fun read => absurd rfl read
  · have postMethod : lookupMethod (bytes "POST") = some .post := by with_unfolding_all decide
    have mpostMethod : lookupMethod (bytes "M-POST") = some .mpost := by with_unfolding_all decide
    obtain ⟨p, first, read⟩ := headRead_taken post graphic nonempty device line refused postMethod
    obtain ⟨p', first', read'⟩ := headRead_taken mpost graphic nonempty device line' refused mpostMethod
    have front := frontLines_good host body.length
    have front' : ∀ line ∈ frontLines url body.length ++ [lineOf "MAN" manValue], line.WellFormed :=
      List.forall_mem_append.mpr ⟨front, List.forall_mem_singleton.mpr manLine_good⟩
    obtain ⟨q, behind, lines⟩ := first.lines front (frontLines_plain url body.length) (lineStart_name old.nonempty old.chars _)
    obtain ⟨q', behind', lines'⟩ :=
      first'.lines front' (manLines_plain url body.length) (lineStart_name new.nonempty new.chars _)
    rw [actionOf, actionOf, read, read', lines, lines']
    rw [List.map_append] at behind'
    exact actions_behind (frontLines_absent url body.length) behind behind' old new

/-- The request that is sent again is right unless the old name stands in the URL or lines with one of the names
stand behind the action. -/
theorem addManHeader_right {actionUrl : List UInt8} {caller : Resolver} (numeric : Numeric caller)
    (fixed : httpFixStrUrl caller (cstr actionUrl) = some url) :
    ResentRight device env url serviceType name body ↔ NamesApart device env url serviceType name body := by
  obtain ⟨graphic, nonempty, host⟩ := httpFixStrUrl_graphic numeric (cstr_noNul actionUrl) fixed
  have noNul {s : List UInt8} (graphic : Graphic s) : 0 ∉ s := (HeaderValue.of_graphic graphic).noNul
  have text := addManHeader_iff (noNul graphic) (noNul host) env serviceType name body
  have action := @actionOf_resent device env url serviceType name body graphic nonempty host
  constructor
  · intro right
    obtain ⟨path, authority⟩ := text.mp right.text
    exact ⟨path, authority, action.mp (right.action _ right.text)⟩
  · intro apart
    have same := text.mpr ⟨apart.path, apart.host⟩
    refine ⟨same, fun resent made => ?_⟩
    obtain rfl := Option.some.inj (same.symm.trans made)
    exact action.mpr apart.lines

end Requests

def oneHost : Resolver := ⟨fun _ => some ⟨.inet, [127, 0, 0, 1], 80, 0⟩, fun _ _ => none, 0⟩

theorem addManHeader_right_plain : ∃ url, httpFixStrUrl oneHost (cstr (bytes "http://h/a")) = some url ∧
    ResentRight oneHost Ssdp.lightEnv url (bytes "urn:a") (bytes "X") (bytes "<X/>") := by
  have numeric : Numeric oneHost := by
    intro text addr none
    cases none
  have parts : (httpFixStrUrl oneHost (cstr (bytes "http://h/a"))).map (fun url => (url.pathquery, url.hostport)) =
      some (bytes "/a", bytes "h") := by decide +kernel
  obtain ⟨url, fixed, same⟩ := Option.map_eq_some_iff.mp parts
  obtain ⟨path, host⟩ := Prod.mk.inj same
  refine ⟨url, fixed, (addManHeader_right numeric fixed).mpr ⟨?_, ?_, fun _ => by decide +kernel⟩⟩
  · rw [path, ← strstr_isSome]
    decide
  · rw [host, ← strstr_isSome]
    decide

/-- A path with the name of the header gets the extension in the request line. -/
theorem addManHeader_inPath : ∃ url, httpFixStrUrl oneHost (cstr (bytes "http://h/SOAPACTION:")) = some url ∧
    ¬ResentRight oneHost Ssdp.lightEnv url (bytes "urn:a") (bytes "X") (bytes "<X/>") := by
  have parts : (httpFixStrUrl oneHost (cstr (bytes "http://h/SOAPACTION:"))).map
      (fun url => (url.pathquery, url.hostport)) = some (bytes "/SOAPACTION:", bytes "h") := by decide +kernel
  obtain ⟨url, fixed, same⟩ := Option.map_eq_some_iff.mp parts
  obtain ⟨path, host⟩ := Prod.mk.inj same
  have noNul : 0 ∉ url.pathquery ∧ 0 ∉ url.hostport := by
    rw [path, host]
    decide
  refine ⟨url, fixed, fun right => ?_⟩
  have apart := (addManHeader_iff noNul.1 noNul.2 _ _ _ _).mp right.text
  apply apart.1
  rw [path, ← strstr_isSome]
  decide

end Pupnp.Soap
