import Pupnp.Gena.SubscribeUrl

/-!
A subscription of a control point at a device of the same library: the device records the address of
the control point, and the control point learns the SID and the duration that the device applied.
-/

namespace Pupnp.Gena.Subscribe
open Pupnp.CString Pupnp.Uri Pupnp.Http Pupnp.Ssdp

/-! ### The values of the header lines -/

theorem paddedHex_graphic (w n : Nat) : Graphic (paddedHex w n) := by
  have digit {c : UInt8} : isXdigit c = true → isTextChar c = true ∧ c ≠ SP := by
    revert c
    apply forall_byte
    decide +kernel
  refine Graphic.append (fun c member => ?_) fun c member => digit (hexDigits_isXdigit n c member)
  rw [List.eq_of_mem_replicate member]
  decide

theorem graphic_bytes {s : List UInt8} (chars : s.all (fun c => isTextChar c && c ≠ SP) = true) : Graphic s := by
  intro c member
  simpa using List.all_eq_true.mp chars c member

theorem Subscription.sid_graphic (sub : Subscription) : Graphic sub.sid := by
  have dash : Graphic (bytes "-") := graphic_bytes (by decide)
  have node : Graphic (sub.uuid.node.toList.flatMap fun b => paddedHex 2 b.toNat) := by
    intro c member
    obtain ⟨b, -, digit⟩ := List.mem_flatMap.mp member
    exact paddedHex_graphic _ _ c digit
  refine (graphic_bytes (by decide)).append ?_
  unfold upnpUuidUnpack
  exact ((((((((((paddedHex_graphic _ _).append dash).append (paddedHex_graphic _ _)).append dash).append
    (paddedHex_graphic _ _)).append dash).append (paddedHex_graphic _ _)).append (paddedHex_graphic _ _)).append dash).append node)

theorem Subscription.sid_ne_nil (sub : Subscription) : sub.sid ≠ [] :=
  List.append_ne_nil_of_left_ne_nil (by decide) _

theorem inAddr_host (addr : InAddr) : HostText addr.text := by
  have digit {c : UInt8} : isDigit c = true → isHostChar c = true := by
    revert c
    apply forall_byte
    decide +kernel
  have digits (b : UInt8) : (∀ c ∈ decimalDigits b.toNat, isHostChar c = true) ∧
      (decimalDigits b.toNat).length ≤ 3 :=
    ⟨fun c member => digit (decimalDigits_isDigit _ c member),
      @decimalDigits_length 2 _ (by have := b.toNat_lt; omega)⟩
  obtain ⟨a, a_length⟩ := digits addr.a
  obtain ⟨b, b_length⟩ := digits addr.b
  obtain ⟨c, c_length⟩ := digits addr.c
  obtain ⟨d, d_length⟩ := digits addr.d
  have dot : bytes "." = [46] := by decide
  refine .plain ?_ ?_
  · intro e member
    simp only [InAddr.text, dot, List.mem_append, List.mem_singleton] at member
    have dot_char : isHostChar 46 = true := by decide
    rcases member with (((((here | here) | here) | here) | here) | here) | here
    · exact a e here
    · exact here ▸ dot_char
    · exact b e here
    · exact here ▸ dot_char
    · exact c e here
    · exact here ▸ dot_char
    · exact d e here
  · simp only [InAddr.text, dot, List.length_append, List.length_singleton]
    omega

theorem callbackHost_text (iface : Interface) (dest : FixedUrl) : HostText (callbackHost iface dest).1 := by
  have plain : HostText iface.gIF_IPV4 := by
    rw [Interface.gIF_IPV4]
    cases iface.ipv4 with
    | none => exact .plain (by simp) (by simp)
    | some addr => exact inAddr_host addr
  unfold callbackHost
  split
  · split
    · exact .bracketed _
    · exact .bracketed _
  · exact plain

theorem HostText.graphic {host : List UInt8} (text : HostText host) : Graphic host := by
  cases text with
  | plain chars _ => exact fun c member => hostChar_graphic (chars c member)
  | bracketed addr =>
    exact ((graphic_bytes (by decide)).append fun c member => addr6Char_graphic (addr.chars c member)).append
      (graphic_bytes (by decide))

theorem timeoutStr_graphic (timeout : Int) : Graphic (timeoutStr timeout) := by
  have digits (n : Nat) : Graphic (decimalDigits n) := number_graphic n
  unfold timeoutStr
  split
  · exact graphic_bytes (by decide)
  · split
    · exact digits _
    · exact digits _

theorem timeoutValue_good {text : List UInt8} (graphic : Graphic text) : HeaderValue (timeoutValue text) :=
  .of_graphic ((graphic_bytes (by decide)).append graphic)

theorem durationText_graphic (timeOut : Int) : Graphic (durationText timeOut) := by
  unfold durationText
  split
  · exact number_graphic _
  · exact graphic_bytes (by decide)

theorem callbackValue_good {host : List UInt8} (text : HostText host) (port : UInt16) :
    HeaderValue (callbackValue host port) := by
  refine .of_graphic ((graphic_bytes (by decide)).append (text.graphic.append ?_))
  have digits : Graphic (number port.toNat) := fun c member => digit_graphic ((portDigits port).1 c member)
  have colon : Graphic [58] := graphic_bytes (by decide)
  exact colon.append (digits.append (graphic_bytes (by decide)))

theorem requestLines_good {iface : Interface} {dest : FixedUrl} (host : Graphic dest.hostport) (timeout : Int)
    {renewalSid : Option (List UInt8)} (held : ∀ sid ∈ renewalSid, HeaderValue sid) :
    ∀ line ∈ requestLines iface dest timeout renewalSid, ValueGood line := by
  have hostport := lineOf_good "HOST" (HeaderValue.of_graphic host)
  have time := lineOf_good "TIMEOUT" (timeoutValue_good (timeoutStr_graphic timeout))
  cases renewalSid with
  | none =>
    have callback := lineOf_good "CALLBACK" (callbackValue_good (callbackHost_text iface dest) (callbackHost iface dest).2)
    have nt : ValueGood (lineOf "NT" (bytes "upnp:event")) := lineOf_good _ (.of_graphic (graphic_bytes (by decide)))
    simp only [requestLines, List.forall_mem_cons]
    exact ⟨hostport, callback, nt, time, by simp⟩
  | some sid =>
    simp only [requestLines, List.forall_mem_cons]
    exact ⟨hostport, lineOf_good _ (held sid rfl), time, by simp⟩

theorem answerLines_good {env : Env} (info : HeaderValue env.sdkInfo) (timeOut : Int) (sub : Subscription) :
    ∀ line ∈ answerLines env timeOut sub.sid, ValueGood line := by
  have plain (name : String) {value : List UInt8} (graphic : Graphic value) : ValueGood (lineOf name value) :=
    lineOf_good _ (.of_graphic graphic)
  simp only [answerLines, List.forall_mem_cons]
  exact ⟨lineOf_good _ (headerValue_date _), lineOf_good _ info, plain _ (graphic_bytes (by decide)),
    plain _ (graphic_bytes (by decide)), plain _ (graphic_bytes (by decide)), plain _ sub.sid_graphic,
    lineOf_good _ (timeoutValue_good (durationText_graphic timeOut)), by simp⟩

/-! ### Durations -/

theorem secondsOf_digits {n : Nat} (fits : (n : Int) < 2 ^ 31) :
    secondsOf (timeoutValue (decimalDigits n)) = some n := by
  have seven : (bytes "Second-").length = 7 := by decide
  have digit {c : UInt8} : isDigit c = true → isIdentifierChar c = true := by
    revert c
    apply forall_byte
    decide +kernel
  have chars : (decimalDigits n).all isIdentifierChar = true :=
    List.all_eq_true.mpr fun c member => digit (decimalDigits_isDigit n c member)
  have value : wholeNumber 10 (decimalDigits n) = some n := by
    rw [wholeNumber, numeral_digits (decimalDigits_ne_nil n) (decimalDigits_isDigit n), digitsValue_decimalDigits]
    simp
  have front : (timeoutValue (decimalDigits n)).take 7 = bytes "Second-" := by
    rw [timeoutValue, ← seven, List.take_left]
  have back : (timeoutValue (decimalDigits n)).drop 7 = decimalDigits n := by
    rw [timeoutValue, ← seven, List.drop_left]
  have lower : (bytes "Second-").map toLower = bytes "second-" := by decide
  have small : (n : Int) ≤ LONG_MAX := by
    unfold LONG_MAX
    omega
  rw [secondsOf, front, back, lower, chars, value]
  simp [small]

theorem readTimeOut_duration {timeOut : Int} (fits : timeOut < 2 ^ 31) :
    readTimeOut (timeoutValue (durationText timeOut)) = some (if 0 ≤ timeOut then timeOut else UPNP_INFINITE) := by
  by_cases finite : 0 ≤ timeOut
  · have seconds := @secondsOf_digits timeOut.toNat (by omega)
    have narrow : toInt32 (timeOut.toNat : Int) = timeOut := by
      rw [Int.toNat_of_nonneg finite, toInt32, Int.bmod]
      split_ifs <;> omega
    rw [durationText, if_pos finite, if_pos finite, readTimeOut_seconds seconds, narrow]
  · have infinite : readTimeOut (timeoutValue (bytes "infinite")) = some UPNP_INFINITE := by decide
    rw [durationText, if_neg finite, if_neg finite, infinite]

/-- A request asks for the duration given, at least for the minimum. -/
def asked (timeout : Int) : Int :=
  if timeout < 0 then UPNP_INFINITE else max CP_MINIMUM_SUBSCRIPTION_TIME timeout

theorem timeoutStr_asked (timeout : Int) : timeoutStr timeout = durationText (asked timeout) := by
  unfold timeoutStr durationText asked UPNP_INFINITE CP_MINIMUM_SUBSCRIPTION_TIME
  split
  · rfl
  · split
    · next few => rw [max_eq_left (by omega), if_pos (by decide)]
    · next many => rw [max_eq_right (by omega), if_pos (by omega)]

theorem setTimeOut_asked {timeout : Int} (fits : timeout < 2 ^ 31) :
    setTimeOut (some (timeoutValue (timeoutStr timeout))) = asked timeout := by
  have small : asked timeout < 2 ^ 31 := by
    unfold asked UPNP_INFINITE CP_MINIMUM_SUBSCRIPTION_TIME
    split <;> omega
  rw [timeoutStr_asked, setTimeOut, readTimeOut_duration small, Option.getD_some]
  unfold asked UPNP_INFINITE CP_MINIMUM_SUBSCRIPTION_TIME
  split <;> omega

/-- The duration that a control point is told is the one that the expiry was computed with. -/
structure Agree (now duration expireTime : Int) : Prop where
  kind : duration = UPNP_INFINITE ∨ 0 ≤ duration
  finite : 0 ≤ duration → expireTime = now + duration
  infinite : duration = UPNP_INFINITE ↔ expireTime = 0

theorem boundTimeOut_asked (info : HandleInfo) {timeout : Int} (fits : timeout < 2 ^ 31) :
    (boundTimeOut info.maxSubscriptionTimeOut.value (asked timeout) = UPNP_INFINITE ∨
      0 ≤ boundTimeOut info.maxSubscriptionTimeOut.value (asked timeout)) ∧
      boundTimeOut info.maxSubscriptionTimeOut.value (asked timeout) < 2 ^ 31 := by
  have valid := info.maxSubscriptionTimeOut.valid
  have isInt := info.isInt
  unfold boundTimeOut asked UPNP_INFINITE CP_MINIMUM_SUBSCRIPTION_TIME at *
  split_ifs <;> omega

structure GrantedAs (info : HandleInfo) (now : Int) (timeout : Int) (grant : Grant) : Prop where
  timeOut : grant.timeOut = boundTimeOut info.maxSubscriptionTimeOut.value (asked timeout)
  agree : Agree now grant.timeOut grant.expireTime

theorem subscriptionGrant_as (info : HandleInfo) {now : Int} (epoch : 0 < now) {timeout : Int} (fits : timeout < 2 ^ 31) :
    GrantedAs info now timeout (subscriptionGrant info.maxSubscriptionTimeOut.value now
      (some (timeoutValue (timeoutStr timeout)))) := by
  obtain ⟨kind, -⟩ := boundTimeOut_asked info fits
  refine ⟨?_, ?_⟩
  · rw [subscriptionGrant, setTimeOut_asked fits]
  · rw [subscriptionGrant, setTimeOut_asked fits]
    dsimp only
    generalize boundTimeOut info.maxSubscriptionTimeOut.value (asked timeout) = timeOut at kind ⊢
    unfold UPNP_INFINITE at kind
    refine ⟨kind, fun finite => if_pos finite, ?_⟩
    unfold UPNP_INFINITE
    split <;> omega

theorem renewalGrant_as (info : HandleInfo) {now : Int} (epoch : 0 < now) {timeout : Int} (fits : timeout < 2 ^ 31) :
    GrantedAs info now timeout (renewalGrant info.maxSubscriptionTimeOut.value now
      (some (timeoutValue (timeoutStr timeout)))) := by
  obtain ⟨kind, -⟩ := boundTimeOut_asked info fits
  refine ⟨?_, ?_⟩
  · rw [renewalGrant, setTimeOut_asked fits]
  · rw [renewalGrant, setTimeOut_asked fits]
    dsimp only
    generalize boundTimeOut info.maxSubscriptionTimeOut.value (asked timeout) = timeOut at kind ⊢
    unfold UPNP_INFINITE at kind ⊢
    refine ⟨kind, fun finite => if_neg (by omega), ?_⟩
    unfold UPNP_INFINITE
    split <;> omega

/-! ### What the device records -/

/-- A subscription in the tables of a device. -/
def Recorded (handles : List HandleInfo) (sub : Subscription) : Prop :=
  ∃ info ∈ handles, ∃ service ∈ info.serviceTable, sub ∈ service.subscriptionList

theorem setService_recorded {handles : List HandleInfo} {place : Nat × Nat} {info : HandleInfo}
    (handle : handles[place.1]? = some info) {old : ServiceInfo} (entry : info.serviceTable[place.2]? = some old)
    {service : ServiceInfo} {sub : Subscription} (member : sub ∈ service.subscriptionList) :
    Recorded (setService handles place service) sub := by
  obtain ⟨inside, -⟩ := List.getElem?_eq_some_iff.mp entry
  have there : (setService handles place service)[place.1]? =
      some { info with serviceTable := info.serviceTable.set place.2 service } := by
    rw [setService, List.getElem?_modify_eq, handle]
    rfl
  exact ⟨_, List.mem_of_getElem? there, service, List.mem_set inside _, member⟩

/-- An accepted request: which handle granted it, on what grounds, and what is recorded. -/
structure Accepts (server : Server) (handles handles' : List HandleInfo) (request : HttpMessage) (sub : Subscription)
    (answer : List UInt8) (grantOf : Int → Int → Option (List UInt8) → Grant) : Prop where
  granted : ∃ info ∈ handles, ∃ grant,
    grant = grantOf info.maxSubscriptionTimeOut.value server.now (valueOf request .timeout) ∧
      sub.expireTime = grant.expireTime ∧ answer = answerText server.env grant.timeOut sub.sid request
  recorded : Recorded handles' sub

theorem subscription_accepted {server : Server} {handles handles' : List HandleInfo} {request : HttpMessage}
    {sub : Subscription} {answer : List UInt8}
    (accepted : genaProcessSubscriptionRequest server handles request = (.accepted sub answer, handles')) :
    Accepts server handles handles' request sub answer subscriptionGrant ∧
      ∃ callback, valueOf request .callback = some callback ∧
        sub.deliveryURLs = createUrlList server.resolver callback ∧
        (createUrlList server.resolver callback).size ≠ 0 := by
  unfold genaProcessSubscriptionRequest at accepted
  split at accepted
  · cases accepted
  · split at accepted
    · cases accepted
    · split at accepted
      · cases accepted
      · split at accepted
        · cases accepted
        · next place found =>
            split at accepted
            · cases accepted
            · next info handle =>
                split at accepted
                · cases accepted
                · next service entry =>
                    split at accepted
                    · cases accepted
                    · split at accepted
                      · cases accepted
                      · split at accepted
                        · cases accepted
                        · next callback header =>
                            dsimp only at accepted
                            split at accepted
                            · cases accepted
                            · next size =>
                                split at accepted
                                · cases accepted
                                · split at accepted
                                  · cases accepted
                                  · cases accepted
                                    refine ⟨⟨⟨info, List.mem_of_getElem? handle, _, rfl, rfl, rfl⟩, ?_⟩,
                                      callback, header, rfl, size⟩
                                    exact setService_recorded handle entry List.mem_cons_self

theorem getSubscriptionSID_some {sid : List UInt8} {now : Int} {service service' : ServiceInfo} {sub : Subscription}
    (found : getSubscriptionSID sid now service = (some sub, service')) :
    sub ∈ service.subscriptionList ∧ sub.sid = sid ∧ service' = service := by
  unfold getSubscriptionSID at found
  split at found
  · cases found
  · next held search =>
      split at found
      · cases found
      · cases found
        have same := List.find?_some search
        exact ⟨List.mem_of_find?_eq_some search, by simpa using same, rfl⟩

theorem renewal_accepted {server : Server} {handles handles' : List HandleInfo} {request : HttpMessage}
    {sub : Subscription} {answer : List UInt8}
    (accepted : genaProcessSubscriptionRenewalRequest server handles request = (.accepted sub answer, handles')) :
    Accepts server handles handles' request sub answer renewalGrant ∧
      ∃ sid, valueOf request .sid = some sid ∧ sub.sid = cstr sid := by
  unfold genaProcessSubscriptionRenewalRequest at accepted
  split at accepted
  · cases accepted
  · split at accepted
    · cases accepted
    · next header given =>
        split at accepted
        · cases accepted
        · dsimp only at accepted
          split at accepted
          · cases accepted
          · next place found =>
              split at accepted
              · cases accepted
              · next info handle =>
                  split at accepted
                  · cases accepted
                  · next service entry =>
                      split at accepted
                      · cases accepted
                      · split at accepted
                        · cases accepted
                        · next held service' search =>
                            obtain ⟨member, same, rfl⟩ := getSubscriptionSID_some search
                            split at accepted
                            · cases accepted
                            · split at accepted
                              · cases accepted
                              · cases accepted
                                refine ⟨⟨⟨info, List.mem_of_getElem? handle, _, rfl, rfl, rfl⟩, ?_⟩, header, given, same⟩
                                refine setService_recorded handle entry (List.mem_map.mpr ⟨held, member, ?_⟩)
                                rw [if_pos same]

/-! ### The round -/

section Values
variable {msg : HttpMessage} {lines : List HeaderLine} (fresh : lines.Pairwise fun a b => clash a.name b.name = false)
  (stored : msg.headers = lines.map HeaderLine.header) (name : String) (value : List UInt8) (id : HdrId)
  (member : lineOf name value ∈ lines) (known : lookupHeader (bytes name) = some id)
include fresh stored member known

theorem valueOf_stored : valueOf msg id = some (if value = [] then [0] else value) := by
  have same : (lineOf name value).value = value := rfl
  rw [valueOf, findHdr_line stored fresh member known, Option.map_some, HeaderLine.header]
  dsimp only
  rw [same]

theorem valueOf_line (nonempty : value ≠ []) : valueOf msg id = some value := by
  rw [valueOf_stored fresh stored name value id member known, if_neg nonempty]

end Values

theorem request_received {path : List UInt8} (graphic : Graphic path) (nonempty : path ≠ []) {lines : List HeaderLine}
    (names : PlainNames (lines.map (·.name))) (good : ∀ line ∈ lines, ValueGood line) {server : Server}
    {maxContentLength : Nat} {handles : List HandleInfo} {sent : List SockRead}
    (arrives : received sent = requestLine path ++ headerBlock lines) {outcome : Outcome × List HandleInfo}
    (handled : handleRequest server maxContentLength handles sent = some outcome) :
    ∃ msg : HttpMessage, genaCallback server handles msg = some outcome ∧
      msg.headers = lines.map HeaderLine.header ∧ msg.method = .subscribe ∧
      (msg.majorVersion = 1 ∧ msg.minorVersion = 1) := by
  rw [handleRequest] at handled
  obtain ⟨result, returned, dispatched⟩ := Option.bind_eq_some_iff.mp handled
  split at dispatched
  · next success =>
      have parsed := request_parsed graphic nonempty names good server.resolver
      have settled : ¬parserConsumer.waits
          (parserParse server.resolver ((parserInitFor .unknown).extend (received sent))).1 := by
        rw [arrives]
        rcases parsed with failed | ⟨q, done, -⟩
        · change ¬parserConsumer.waits (parserParse server.resolver (parserRequestInit.extend _)).1
          rw [failed]
          rintro (short | short) <;> cases short
        · change ¬parserConsumer.waits (parserParse server.resolver (parserRequestInit.extend _)).1
          rw [done]
          rintro (short | short) <;> cases short
      obtain ⟨status, msg⟩ := httpRecvMessage_whole returned success settled
      rw [arrives] at status msg
      change (parserParse server.resolver (parserRequestInit.extend _)).1 = _ at status
      change result.parser.msg = (parserParse server.resolver (parserRequestInit.extend _)).2.msg at msg
      rcases parsed with failed | ⟨q, done, headers, method, version⟩
      · exact absurd (failed.symm.trans status) (by decide)
      · rw [done] at msg
        rw [dispatchRequest] at dispatched
        obtain ⟨header, -, called⟩ := Option.bind_eq_some_iff.mp dispatched
        split at called
        · exact ⟨result.parser.msg, called, by rw [msg, headers], by rw [msg, method], by rw [msg]; exact version⟩
        · cases called
  · cases dispatched

theorem answer_read {env : Env} (fits : env.Fits) (info : HeaderValue env.sdkInfo) {timeOut : Int}
    (small : timeOut < 2 ^ 31) (sub : Subscription) {request : HttpMessage}
    (version : request.majorVersion = 1 ∧ request.minorVersion = 1) (res : Resolver) (maxContentLength : Nat)
    {back : List SockRead} (answered : received back = answerText env timeOut sub.sid request) :
    subscribeResult res maxContentLength back =
      some (.ok (sub.sid, if 0 ≤ timeOut then timeOut else UPNP_INFINITE)) := by
  have names : (answerLines env timeOut sub.sid).map (·.name) = answerNames := rfl
  rw [answerText_lines fits timeOut sub.sid version] at answered
  obtain ⟨q, parsed, headers, status, noLength⟩ := answer_parsed names (answerLines_good info timeOut sub) res
  rw [← answered] at parsed
  obtain ⟨result, returned, success, msg⟩ := @httpRecvMessage_response res maxContentLength .subscribe (by decide) back
    (by rw [parsed]) (by rw [parsed]; exact noLength)
  rw [parsed] at msg
  dsimp only at msg
  have fresh : (answerLines env timeOut sub.sid).Pairwise fun a b => clash a.name b.name = false :=
    List.pairwise_map.mp (names ▸ answerNames_fresh.1)
  have stored : result.parser.msg.headers = (answerLines env timeOut sub.sid).map HeaderLine.header := by
    rw [msg, headers]
  have named : timeoutValue (durationText timeOut) ≠ [] := List.append_ne_nil_of_left_ne_nil (by decide) _
  have sid := valueOf_line fresh stored "SID" sub.sid .sid (by simp [answerLines]) (lookupHeader_known (by simp [httpHeaderNames])) sub.sid_ne_nil
  have time := valueOf_line fresh stored "TIMEOUT" (timeoutValue (durationText timeOut)) .timeout
    (by simp [answerLines]) (lookupHeader_known (by simp [httpHeaderNames])) named
  have lengths : sub.sid.length ≠ 0 ∧ (timeoutValue (durationText timeOut)).length ≠ 0 :=
    ⟨(List.length_pos_of_ne_nil sub.sid_ne_nil).ne',
      (List.length_pos_of_ne_nil named).ne'⟩
  have whole : cstr sub.sid = sub.sid := (HeaderValue.of_graphic sub.sid_graphic).cstr_eq
  rw [subscribeResult, returned, Option.map_some, if_pos success, readAnswer, msg, status]
  rw [msg] at sid time
  simp only [ne_eq, not_true, if_false, sid, time, lengths.1, lengths.2, decide_false, Bool.or_false, Bool.false_eq_true,
    readTimeOut_duration small, whole]

/-- When a device of this library accepts the request of `gena_subscribe`, it records the single URL of
the CALLBACK header, and `gena_subscribe` returns the SID of the subscription and the duration that its
expiry was computed with. -/
theorem subscribe_agrees {res : Resolver} (numeric : Numeric res) (env : Env) (iface : Interface) (url : List UInt8)
    (timeout : Int32) (renewalSid : Option (List UInt8)) (held : ∀ sid ∈ renewalSid, HeaderValue sid) {dest : FixedUrl}
    {text : List UInt8} (request : subscribeRequest res env iface url timeout.toInt renewalSid = some (dest, text))
    {server : Server} (fits : server.env.Fits) (info : HeaderValue server.env.sdkInfo) (epoch : 0 < server.now)
    {handles handles' : List HandleInfo} {deviceMax : Nat} {sent : List SockRead} (arrives : received sent = text)
    {sub : Subscription} {answer : List UInt8}
    (accepted : handleRequest server deviceMax handles sent = some (.accepted sub answer, handles'))
    (maxContentLength : Nat) {back : List SockRead} (answered : received back = answer) :
    Recorded handles' sub ∧
      (renewalSid = none → SingleUrl server.resolver sub.deliveryURLs (callbackHost iface dest).1 (callbackHost iface dest).2) ∧
      (∀ sid ∈ renewalSid, sub.sid = sid) ∧
      ∃ duration, subscribeResult res maxContentLength back = some (.ok (sub.sid, duration)) ∧
        Agree server.now duration sub.expireTime := by
  have isInt : timeout.toInt < 2 ^ 31 := timeout.toInt_lt
  obtain ⟨goal, fixed, same⟩ := Option.map_eq_some_iff.mp request
  obtain ⟨same_dest, rfl⟩ := Prod.mk.inj same
  subst goal
  obtain ⟨path, nonempty, host⟩ := httpFixStrUrl_graphic numeric (cstr_noNul url) fixed
  rw [requestParts_text] at arrives
  have names : PlainNames ((requestLines iface dest timeout.toInt renewalSid).map (·.name)) := by
    rw [requestLines_names]
    exact requestNames_plain _
  obtain ⟨msg, called, stored, method, version⟩ := request_received path nonempty names
    (requestLines_good host timeout.toInt held) arrives accepted
  have fresh := names.pairwise
  have time := valueOf_line fresh stored "TIMEOUT" (timeoutValue (timeoutStr timeout.toInt)) .timeout
    (by cases renewalSid <;> simp [requestLines]) (lookupHeader_known (by simp [httpHeaderNames]))
    (List.append_ne_nil_of_left_ne_nil (by decide) _)
  have finish {grantOf : Int → Int → Option (List UInt8) → Grant}
      (asked : ∀ info : HandleInfo, GrantedAs info server.now timeout.toInt (grantOf info.maxSubscriptionTimeOut.value
        server.now (some (timeoutValue (timeoutStr timeout.toInt)))))
      (accepts : Accepts server handles handles' msg sub answer grantOf) :
      ∃ duration, subscribeResult res maxContentLength back = some (.ok (sub.sid, duration)) ∧
        Agree server.now duration sub.expireTime := by
    obtain ⟨handle, -, grant, granted, expires, text⟩ := accepts.granted
    rw [time] at granted
    obtain ⟨bounded, agree⟩ := granted ▸ asked handle
    have small := (boundTimeOut_asked handle isInt).2
    rw [← bounded] at small
    refine ⟨_, answer_read fits info small sub version res maxContentLength (answered.trans text), ?_⟩
    rw [expires]
    have duration : (if 0 ≤ grant.timeOut then grant.timeOut else UPNP_INFINITE) = grant.timeOut := by
      rcases agree.kind with infinite | finite
      · rw [infinite]
        rfl
      · exact if_pos finite
    rw [duration]
    exact agree
  rw [genaCallback, method] at called
  simp only [ne_eq, not_true, if_false] at called
  cases renewalSid with
  | none =>
      have nt := valueOf_line fresh stored "NT" (bytes "upnp:event") .nt (by simp [requestLines]) (lookupHeader_known (by simp [httpHeaderNames]))
        (by decide)
      rw [nt, if_neg (by simp)] at called
      obtain ⟨accepts, callback, header, urls, size⟩ := subscription_accepted (Option.some.inj called)
      have value := valueOf_line fresh stored "CALLBACK"
        (callbackValue (callbackHost iface dest).1 (callbackHost iface dest).2) .callback (by simp [requestLines])
        (lookupHeader_known (by simp [httpHeaderNames]))
        (List.append_ne_nil_of_left_ne_nil (by decide) _)
      obtain rfl := Option.some.inj (header.symm.trans value)
      refine ⟨accepts.recorded, fun _ => ?_, by simp, finish (fun info => subscriptionGrant_as info epoch isInt) accepts⟩
      rw [urls]
      exact createUrlList_callback (callbackHost_text iface dest) size
  | some renewal =>
      have apart : ∀ name ∈ requestNames true, ¬SameName name (bytes "NT") := by decide
      have others (name : List UInt8) (member : name ∈ requestNames true) : lookupHeader name ≠ some .nt :=
        lookupHeader_ne (by simp [httpHeaderNames]) (apart name member)
      have absent : ∀ line ∈ requestLines iface dest timeout.toInt (some renewal), lookupHeader line.name ≠ some .nt := by
        intro line member
        apply others
        rw [← Option.isSome_some, ← requestLines_names]
        exact List.mem_map_of_mem member
      have nt : valueOf msg .nt = none := by
        rw [valueOf, @findHdr_none msg _ stored .nt (by decide) absent]
        rfl
      rw [nt, if_pos rfl] at called
      obtain ⟨accepts, sid, header, renewed⟩ := renewal_accepted (Option.some.inj called)
      refine ⟨accepts.recorded, by simp, ?_, finish (fun info => renewalGrant_as info epoch isInt) accepts⟩
      rintro _ ⟨⟩
      have isValue := held renewal rfl
      by_cases empty : renewal = []
      · subst empty
        have value := valueOf_stored fresh stored "SID" [] .sid (by simp [requestLines]) (lookupHeader_known (by simp [httpHeaderNames]))
        obtain rfl := Option.some.inj (header.symm.trans value)
        exact absurd renewed sub.sid_ne_nil
      · have value := valueOf_line fresh stored "SID" renewal .sid (by simp [requestLines]) (lookupHeader_known (by simp [httpHeaderNames])) empty
        obtain rfl := Option.some.inj (header.symm.trans value)
        rw [renewed, isValue.cstr_eq]

section Lan

/-- The addresses of two hosts and their netmask. -/
def lan : Resolver where
  getaddrinfo _ := none
  inetPton family text :=
    if family = .inet && text = bytes "10.0.0.1" then some [10, 0, 0, 1]
    else if family = .inet && text = bytes "10.0.0.2" then some [10, 0, 0, 2]
    else if family = .inet && text = bytes "255.255.255.0" then some [255, 255, 255, 0]
    else none
  gIfIndex := 2

def lanHost (addr : InAddr) (port : UInt16) : Interface :=
  ⟨some addr, some ⟨255, 255, 255, 0⟩, ⟨[], nofun, by decide⟩, 0, ⟨[], nofun, by decide⟩, 0, port, 0, 0⟩

def lanEnv : Env := ⟨⟨4, 1, 0, 1970, 0, 16, 40⟩, bytes "Linux", bytes "6.1", none, fun _ => false⟩

def lanServer : Server :=
  ⟨lan, lanHost ⟨10, 0, 0, 1⟩ 49152, lanEnv, 1000, someUuid, .inet, true⟩

def lanHandles : List HandleInfo :=
  [⟨.inet, -1, ⟨1800, by decide⟩, by decide, [⟨some (bytes "/control"), some (bytes "/event"), true, 0, []⟩]⟩]

def lanRequest : List UInt8 :=
  bytes "SUBSCRIBE /event HTTP/1.1\r\nHOST: 10.0.0.1:49152\r\nCALLBACK: <http://10.0.0.2:49153/>\r\n" ++
    bytes "NT: upnp:event\r\nTIMEOUT: Second-infinite\r\n\r\n"

def lanAnswer : List UInt8 :=
  bytes "HTTP/1.1 200 OK\r\nDATE: Thu, 01 Jan 1970 00:16:40 GMT\r\n" ++
    bytes "SERVER: Linux/6.1, UPnP/1.0, Portable SDK for UPnP devices/1.14.19\r\nCONTENT-LENGTH: 0\r\n" ++
    bytes "Accept-Ranges: bytes\r\nX-User-Agent: redsonic\r\nSID: uuid:00000001-0002-0003-0405-060708090a0b\r\n" ++
    bytes "TIMEOUT: Second-1800\r\n\r\n"

/-- A control point at 10.0.0.2 asks for an infinite subscription and is granted 1800 seconds. -/
theorem subscribe_agrees_infinite : ∃ sub handles', Recorded handles' sub ∧
    SingleUrl lan sub.deliveryURLs (bytes "10.0.0.2") 49153 ∧
    ∃ duration, subscribeResult lan 0 [.data lanAnswer (by decide +kernel)] = some (.ok (sub.sid, duration)) ∧
      Agree 1000 duration sub.expireTime := by
  have numeric : Numeric lan := by
    intro text addr read
    simp [lan] at read
  have request : (subscribeRequest lan lanEnv (lanHost ⟨10, 0, 0, 2⟩ 49153) (bytes "http://10.0.0.1:49152/event") (-1)
      none).map (fun made => (made.2, callbackHost (lanHost ⟨10, 0, 0, 2⟩ 49153) made.1)) =
        some (lanRequest, bytes "10.0.0.2", 49153) := by decide +kernel
  obtain ⟨⟨dest, text⟩, made, both⟩ := Option.map_eq_some_iff.mp request
  obtain ⟨written, listens⟩ := Prod.mk.inj both
  have handled : (handleRequest lanServer 0 lanHandles [.data lanRequest (by decide +kernel)]).map Prod.fst =
      some (.accepted ⟨lanServer.uuid, 2800, createUrlList lan (bytes "<http://10.0.0.2:49153/>")⟩ lanAnswer) := by
    decide +kernel
  obtain ⟨⟨outcome, handles'⟩, accepted, same⟩ := Option.map_eq_some_iff.mp handled
  dsimp only at written same
  rw [same] at accepted
  have arrives : received [.data lanRequest (by decide +kernel)] = text := by
    rw [written, received_single]
  rw [show (-1 : Int) = (-1 : Int32).toInt from rfl] at made
  have fits : lanServer.env.Fits := ⟨by decide +kernel, by decide +kernel⟩
  have info : HeaderValue lanServer.env.sdkInfo :=
    ⟨.of_plain (by decide), by decide, by decide⟩
  have epoch : 0 < lanServer.now := by decide
  obtain ⟨recorded, single, -, answered⟩ := subscribe_agrees numeric lanEnv _ _ (-1) none nofun made fits info epoch
    arrives accepted 0 (received_single _ _)
  rw [listens] at single
  exact ⟨_, handles', recorded, single rfl, answered⟩

end Lan

end Pupnp.Gena.Subscribe
