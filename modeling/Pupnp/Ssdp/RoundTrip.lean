import Pupnp.Ssdp.Receive

/-! What `ssdp_handle_ctrlpt_msg` reports of the packets that `CreateServicePacket` makes. -/

namespace Pupnp.Ssdp
open Pupnp.CString Pupnp.Uri Pupnp.Http

/-- A type that a packet may give, behind a UDN without `urn`. -/
def TypeNamed (u : Udn) (type : List UInt8) : Prop :=
  hasStr "urn" u.id = false ∧ (UrnType ":device:" type ∨ UrnType ":service:" type)

inductive PacketNames (u : Udn) : List UInt8 → List UInt8 → Prop
  | rootdevice (fits : UsnFits u.text UPNP_ROOTDEVICE) :
      PacketNames u UPNP_ROOTDEVICE (u.text ++ bytes "::" ++ UPNP_ROOTDEVICE)
  | udn (fits : u.text.length < LINE_SIZE) : PacketNames u u.text u.text
  | type {type : List UInt8} (named : TypeNamed u type) (fits : UsnFits u.text type) :
      PacketNames u type (u.text ++ bytes "::" ++ type)

structure NamesHeard (u : Udn) (nt : List UInt8) (event : SsdpEvent) : Prop where
  udn : event.udn = u.text
  deviceType : hasStr ":device:" nt = true → event.deviceType = nt
  serviceType : hasStr ":service:" nt = true → event.serviceType = nt

theorem Udn.noKind (u : Udn) {kind : String} (twice : ∃ y, bytes kind = 58 :: (y ++ [58])) :
    hasStr kind u.text = false := by
  obtain ⟨y, shape⟩ := twice
  have front : ¬y ++ [58] <+: u.id := fun here =>
    u.noColon (here.subset (List.mem_append_right y List.mem_cons_self))
  have found : strstr (bytes kind) u.text = none := by
    rw [shape, Udn.text_eq]
    change strstr ([] ++ 58 :: (y ++ [58])) _ = _
    rw [strstr_sep List.not_mem_nil Udn.noColon_front, if_neg (fun here => front here.2),
      strstr_noSep (List.mem_append_right [] List.mem_cons_self) u.noColon]
    rfl
  rw [hasStr, found]
  rfl

theorem PacketNames.heard {u : Udn} {nt usn : List UInt8} (names : PacketNames u nt usn)
    (plain : u.Plain) (evt : SsdpEvent) : (ssdpRequestType nt).1 = 0 ∧
      (uniqueServiceName usn evt).1 = 0 ∧ NamesHeard u nt (uniqueServiceName usn evt).2 := by
  cases names with
  | rootdevice fits =>
    obtain ⟨found, udn⟩ := u.uniqueServiceName_root plain fits evt
    exact ⟨by decide, found, udn, fun kind => absurd kind (by decide), fun kind => absurd kind (by decide)⟩
  | udn fits =>
    obtain ⟨found, udn⟩ := u.uniqueServiceName_self plain fits evt
    have noDevice : hasStr ":device:" u.text = false := u.noKind ⟨bytes "device", by decide⟩
    have noService : hasStr ":service:" u.text = false := u.noKind ⟨bytes "service", by decide⟩
    exact ⟨ssdpRequestType_udn u, found, udn, fun kind => by simp [noDevice] at kind,
      fun kind => by simp [noService] at kind⟩
  | type named fits =>
    have requestType : (ssdpRequestType nt).1 = 0 := by
      obtain device | service := named.2
      · exact device.ssdpRequestType_ok (.inl rfl)
      · exact service.ssdpRequestType_ok (.inr rfl)
    have usn : uniqueServiceName (u.text ++ bytes "::" ++ nt) evt = (0, ⟨u.text,
        if hasStr ":device:" (u.text ++ bytes "::" ++ nt) then nt else evt.deviceType,
        if hasStr ":service:" (u.text ++ bytes "::" ++ nt) then nt else evt.serviceType⟩) := by
      obtain device | service := named.2
      · exact device.uniqueServiceName_usn u plain named.1 fits evt
      · exact service.uniqueServiceName_usn u plain named.1 fits evt
    rw [usn]
    exact ⟨requestType, rfl, rfl, fun kind => if_pos (hasStr_behind kind _),
      fun kind => if_pos (hasStr_behind kind _)⟩

/-- What a control point is to hear of a packet. -/
structure Tells (env : Env) (u : Udn) (p : ServicePacket) (param : UpnpDiscovery) : Prop where
  deviceID : param.deviceID = u.text
  deviceType : hasStr ":device:" p.nt = true → param.deviceType = p.nt
  serviceType : hasStr ":service:" p.nt = true → param.serviceType = p.nt
  location : param.location = p.location
  expires : param.expires = p.duration
  /-- Notifications have no DATE header. -/
  date : param.date = if p.msgType = .reply then env.date.text else []

/-- The calls of callbacks that a packet leads to. -/
def reports (clients : List CtrlPt) (p : ServicePacket) (param : UpnpDiscovery) : List Report :=
  match p.msgType with
  | .reply => clients.flatMap (searchReports param p.nt)
  | .advertisement =>
      clients.map fun client => ⟨client.callback, .advertisementAlive, some param, client.cookie⟩
  | .shutdown =>
      clients.map fun client => ⟨client.callback, .advertisementByebye, some param, client.cookie⟩

theorem maxAge_ne_nil (p : ServicePacket) : maxAge p ≠ [] :=
  List.append_ne_nil_of_left_ne_nil (by decide) _

theorem Udn.text_ne_nil (u : Udn) : u.text ≠ [] := List.append_ne_nil_of_left_ne_nil (by decide) _

theorem PacketNames.ne_nil {u : Udn} {nt usn : List UInt8} (names : PacketNames u nt usn) :
    nt ≠ [] ∧ usn ≠ [] := by
  have joined (type : List UInt8) : u.text ++ bytes "::" ++ type ≠ [] := by
    rw [List.append_assoc]
    exact List.append_ne_nil_of_left_ne_nil u.text_ne_nil _
  cases names with
  | rootdevice => exact ⟨by decide, joined _⟩
  | udn => exact ⟨u.text_ne_nil, u.text_ne_nil⟩
  | type named =>
    refine ⟨?_, joined _⟩
    rintro rfl
    obtain device | service := named.2
    · exact absurd device.kind (by decide)
    · exact absurd service.kind (by decide)

theorem notifyNames_noDate (opt power : Bool) :
    ∀ name ∈ notifyNames opt power, lookupHeader name ≠ some .date := by
  have others : ∀ name ∈ notifyNames true true, ¬SameName name (bytes "DATE") := by decide
  intro name member
  exact lookupHeader_ne (by simp [httpHeaderNames]) (others name ((notifyNames_most opt power).mem member))

theorem replyNames_noNt (opt power : Bool) :
    ∀ name ∈ replyNames opt power, lookupHeader name ≠ some .nt := by
  have others : ∀ name ∈ replyNames true true, ¬SameName name (bytes "NT") := by decide
  intro name member
  exact lookupHeader_ne (by simp [httpHeaderNames]) (others name ((replyNames_most opt power).mem member))

theorem headerText_none {msg : HttpMessage} {lines : List HeaderLine}
    (stored : msg.headers = lines.map HeaderLine.header) {id : HdrId} (known : id ≠ .unknown)
    (absent : ∀ name ∈ lines.map (·.name), lookupHeader name ≠ some id) : headerText msg id = none := by
  rw [headerText, findHdr_none stored known fun line member => absent _ (List.mem_map_of_mem member)]
  rfl

/-- The headers that replies and notifications have in common. -/
structure Holds (msg : HttpMessage) (p : ServicePacket) : Prop where
  cacheControl : httpmsgFindHdr msg .cacheControl = some ⟨bytes "CACHE-CONTROL", .cacheControl, maxAge p⟩
  location : headerText msg .location = some p.location
  usn : headerText msg .usn = some p.usn

theorem Holds.readExpires {msg : HttpMessage} {p : ServicePacket} (holds : Holds msg p)
    (duration : 0 < p.duration ∧ p.duration < 2 ^ 31) : readExpires msg = (.ok, p.duration) := by
  obtain ⟨status, value⟩ := matchstr_maxAge duration
  rw [Ssdp.readExpires, holds.cacheControl]
  simp only [status, value]

section Message
variable {env : Env} {p : ServicePacket} (readable : Readable env p) {u : Udn}
  (names : PacketNames u p.nt p.usn) (plain : u.Plain) (located : p.location ≠ [])
  (duration : 0 < p.duration ∧ p.duration < 2 ^ 31)
include readable names located

theorem replyLines_hold {msg : HttpMessage}
    (stored : msg.headers = (replyLines env p).map HeaderLine.header) : Holds msg p ∧
      headerText msg .date = some env.date.text ∧ headerText msg .nt = none ∧
        httpmsgFindHdr msg .st = some ⟨bytes "ST", .st, p.nt⟩ := by
  have plainNames := replyNames_plain env.nls.isSome (0 < p.powerState)
  have noNt := replyNames_noNt env.nls.isSome (0 < p.powerState)
  rw [← replyLines_names] at plainNames noNt
  obtain ⟨hasNt, hasUsn⟩ := names.ne_nil
  have date : env.date.text ≠ [] := List.append_ne_nil_of_right_ne_nil _ (by decide)
  refine ⟨⟨?_, ?_, ?_⟩, ?_, headerText_none stored nofun noNt, ?_⟩
  · exact findHdr_lineOf plainNames stored "CACHE-CONTROL" (by simp [replyLines]) (lookupHeader_known (by simp [httpHeaderNames])) (maxAge_ne_nil p)
  · exact headerText_lineOf plainNames stored "LOCATION" (by simp [replyLines]) (lookupHeader_known (by simp [httpHeaderNames]))
      readable.location located
  · exact headerText_lineOf plainNames stored "USN" (by simp [replyLines]) (lookupHeader_known (by simp [httpHeaderNames])) readable.usn hasUsn
  · exact headerText_lineOf plainNames stored "DATE" (by simp [replyLines]) (lookupHeader_known (by simp [httpHeaderNames]))
      (headerValue_date env.date) date
  · exact findHdr_lineOf plainNames stored "ST" (by simp [replyLines]) (lookupHeader_known (by simp [httpHeaderNames])) hasNt

theorem notifyLines_hold {nts : List UInt8} (named : nts ≠ []) {msg : HttpMessage}
    (stored : msg.headers = (notifyLines env nts p).map HeaderLine.header) : Holds msg p ∧
      headerText msg .date = none ∧ headerText msg .nt = some p.nt ∧
        httpmsgFindHdr msg .nts = some ⟨bytes "NTS", .nts, nts⟩ := by
  have plainNames := notifyNames_plain env.nls.isSome (0 < p.powerState)
  have noDate := notifyNames_noDate env.nls.isSome (0 < p.powerState)
  rw [← notifyLines_names env nts] at plainNames noDate
  obtain ⟨hasNt, hasUsn⟩ := names.ne_nil
  refine ⟨⟨?_, ?_, ?_⟩, headerText_none stored nofun noDate, ?_, ?_⟩
  · exact findHdr_lineOf plainNames stored "CACHE-CONTROL" (by simp [notifyLines]) (lookupHeader_known (by simp [httpHeaderNames])) (maxAge_ne_nil p)
  · exact headerText_lineOf plainNames stored "LOCATION" (by simp [notifyLines]) (lookupHeader_known (by simp [httpHeaderNames]))
      readable.location located
  · exact headerText_lineOf plainNames stored "USN" (by simp [notifyLines]) (lookupHeader_known (by simp [httpHeaderNames])) readable.usn hasUsn
  · exact headerText_lineOf plainNames stored "NT" (by simp [notifyLines]) (lookupHeader_known (by simp [httpHeaderNames])) readable.nt hasNt
  · exact findHdr_lineOf plainNames stored "NTS" (by simp [notifyLines]) (lookupHeader_known (by simp [httpHeaderNames])) named

include plain duration

theorem notify_reported {nts : List UInt8} {eventType : EventType}
    (kind : (nts = bytes "ssdp:alive" ∧ eventType = .advertisementAlive) ∨
      (nts = bytes "ssdp:byebye" ∧ eventType = .advertisementByebye))
    (notify : p.msgType ≠ .reply) {msg : HttpMessage}
    (stored : msg.headers = (notifyLines env nts p).map HeaderLine.header)
    (isRequest : msg.isRequest = true) (clients : List CtrlPt) (destAddr : SockAddr) :
    Tells env u p (readDiscovery msg destAddr) ∧
      ssdpHandleCtrlptMsg clients msg destAddr false = clients.map fun client =>
        ⟨client.callback, eventType, some (readDiscovery msg destAddr), client.cookie⟩ := by
  have named : nts ≠ [] := by
    obtain ⟨rfl, -⟩ | ⟨rfl, -⟩ := kind <;> decide
  obtain ⟨holds, date, nt, found⟩ := notifyLines_hold readable names located named stored
  have expires := holds.readExpires duration
  obtain ⟨ntFound, usnFound, heard⟩ := names.heard plain (ssdpRequestType p.nt).2.2
  have read : readNames msg =
      (true, true, (uniqueServiceName p.usn (ssdpRequestType p.nt).2.2).2) := by
    rw [readNames, nt, holds.usn]
    simp [ntFound, usnFound]
  have tells : Tells env u p (readDiscovery msg destAddr) := by
    simp only [readDiscovery, read, Bool.or_self, if_true, expires, holds.location, date,
      Option.getD_some, Option.getD_none]
    exact ⟨heard.udn, heard.deviceType, heard.serviceType, rfl, rfl, (if_neg notify).symm⟩
  have event : notifyEvent msg (readDiscovery msg destAddr) = some eventType := by
    have positive : ¬(readDiscovery msg destAddr).expires ≤ 0 := by
      rw [tells.expires]
      omega
    have here : (readDiscovery msg destAddr).location ≠ [] := by rwa [tells.location]
    rw [notifyEvent, read, found]
    obtain ⟨rfl, rfl⟩ | ⟨rfl, rfl⟩ := kind
    · have alive : memptrCmp (bytes "ssdp:alive") (bytes "ssdp:alive") = 0 := by decide
      simp [alive, positive, here]
    · have other : memptrCmp (bytes "ssdp:byebye") (bytes "ssdp:alive") ≠ 0 := by decide
      have byebye : memptrCmp (bytes "ssdp:byebye") (bytes "ssdp:byebye") = 0 := by decide
      simp [other, byebye]
  refine ⟨tells, ?_⟩
  rw [ssdpHandleCtrlptMsg, expires]
  simp [isRequest, event]

theorem reply_reported (reply : p.msgType = .reply) {msg : HttpMessage}
    (stored : msg.headers = (replyLines env p).map HeaderLine.header)
    (isReply : msg.isRequest = false) (status : msg.statusCode = 200) (clients : List CtrlPt)
    (destAddr : SockAddr) :
    Tells env u p (readDiscovery msg destAddr) ∧
      ssdpHandleCtrlptMsg clients msg destAddr false =
        clients.flatMap (searchReports (readDiscovery msg destAddr) p.nt) := by
  obtain ⟨holds, date, nt, found⟩ := replyLines_hold readable names located stored
  have expires := holds.readExpires duration
  obtain ⟨ntFound, usnFound, heard⟩ := names.heard plain .clear
  have read : readNames msg = (false, true, (uniqueServiceName p.usn .clear).2) := by
    rw [readNames, nt, holds.usn]
    simp [usnFound]
  have tells : Tells env u p (readDiscovery msg destAddr) := by
    simp only [readDiscovery, read, Bool.false_or, if_true, expires, holds.location, date,
      Option.getD_some]
    exact ⟨heard.udn, heard.deviceType, heard.serviceType, rfl, rfl, (if_pos reply).symm⟩
  have target : replyTarget msg (readDiscovery msg destAddr) = some p.nt := by
    have positive : ¬(readDiscovery msg destAddr).expires ≤ 0 := by
      rw [tells.expires]
      omega
    have here : (readDiscovery msg destAddr).location ≠ [] := by rwa [tells.location]
    rw [replyTarget, read, found]
    simp [status, positive, here, readable.nt.cstr_eq, ntFound]
  refine ⟨tells, ?_⟩
  rw [ssdpHandleCtrlptMsg, expires]
  simp [isReply, target]

theorem packet_reported (res : Resolver) (clients : List CtrlPt) (destAddr : SockAddr) :
    ∃ param, Tells env u p param ∧
      readFromSSDPSocket res clients destAddr (p.msgType = .reply) (createServicePacket env p) =
        reports clients p param := by
  have whole : (createServicePacket env p).take (BUFSIZE - 1) = createServicePacket env p := by
    have size := readable.size
    exact List.take_of_length_le (by omega)
  have notification {nts : List UInt8} {eventType : EventType}
      (kind : (nts = bytes "ssdp:alive" ∧ eventType = .advertisementAlive) ∨
        (nts = bytes "ssdp:byebye" ∧ eventType = .advertisementByebye))
      (notify : p.msgType ≠ .reply)
      (packet : createServicePacket env p = httpMakeMessage env (notifyParts env nts p)) :
      ∃ param, Tells env u p param ∧
        readFromSSDPSocket res clients destAddr (p.msgType = .reply) (createServicePacket env p) =
          clients.map fun client => ⟨client.callback, eventType, some param, client.cookie⟩ := by
    have isValue : HeaderValue nts := by
      obtain ⟨rfl, -⟩ | ⟨rfl, -⟩ := kind <;> exact .of_graphic (by decide)
    obtain ⟨msg, received, stored, isRequest, method⟩ := notify_received readable res isValue
    obtain ⟨tells, reported⟩ := notify_reported readable names plain located duration kind notify stored
      isRequest clients destAddr
    refine ⟨_, tells, ?_⟩
    rw [readFromSSDPSocket, whole, decide_eq_false notify, packet]
    simp only [Bool.false_eq_true, if_false, ssdpEventHandlerThread, received, method, decide_true,
      Bool.true_or, if_true, reported]
  cases kind : p.msgType with
  | reply =>
    obtain ⟨msg, received, stored, isReply, method, status⟩ := reply_received readable res kind
    obtain ⟨tells, reported⟩ := reply_reported readable names plain located duration kind stored isReply
      status clients destAddr
    refine ⟨_, tells, ?_⟩
    rw [readFromSSDPSocket, whole, reports, kind]
    simp only [decide_true, if_true, ssdpEventHandlerThread, received, method, Bool.or_true, reported]
  | advertisement =>
    obtain ⟨param, tells, reported⟩ := notification (.inl ⟨rfl, rfl⟩) (by rw [kind]; simp) (by
      rw [createServicePacket, kind])
    rw [kind] at reported
    exact ⟨param, tells, reported.trans (by rw [reports, kind])⟩
  | shutdown =>
    obtain ⟨param, tells, reported⟩ := notification (.inr ⟨rfl, rfl⟩) (by rw [kind]; simp) (by
      rw [createServicePacket, kind])
    rw [kind] at reported
    exact ⟨param, tells, reported.trans (by rw [reports, kind])⟩

end Message

/-! ### The packets of a device -/

def NamesOf (udn : List UInt8) (p : ServicePacket) : Prop :=
  (p.nt = udn ∧ p.usn = udn) ∨ (p.usn = udn ++ bytes "::" ++ p.nt ∧ UsnFits udn p.nt)

section Sent
variable {packet : List UInt8 → List UInt8 → ServicePacket}
  (given : ∀ nt usn, (packet nt usn).nt = nt ∧ (packet nt usn).usn = usn) {udn type : List UInt8}
include given

theorem namesOf_udn : NamesOf udn (packet udn udn) := .inl (given udn udn)

theorem namesOf_joined {name : List UInt8} (fits : UsnFits udn name) :
    NamesOf udn (packet name (udn ++ bytes "::" ++ name)) := by
  obtain ⟨nt, usn⟩ := given name (udn ++ bytes "::" ++ name)
  rw [NamesOf, nt, usn]
  exact .inr ⟨rfl, fits⟩

theorem announceDevice_names {rootDev : Bool} {p : ServicePacket}
    (sent : p ∈ announceDevice packet type rootDev udn) : NamesOf udn p := by
  rw [announceDevice_eq] at sent
  split at sent
  next fits =>
    obtain root | rest := List.mem_append.mp sent
    · split at root
      next isRoot =>
        rw [List.mem_singleton.mp root]
        exact namesOf_joined given (fits.1 isRoot)
      next => cases root
    · obtain rfl | last := List.mem_cons.mp rest
      · exact namesOf_udn given
      · rw [List.mem_singleton.mp last]
        exact namesOf_joined given fits.2
  next => cases sent

theorem announceService_names {p : ServicePacket} (sent : p ∈ announceService packet udn type) :
    NamesOf udn p := by
  rw [announceService_eq] at sent
  split at sent
  next fits =>
    rw [List.mem_singleton.mp sent]
    exact namesOf_joined given fits
  next => cases sent

theorem sendReply_names {rootDev byType : Bool} {p : ServicePacket}
    (sent : p ∈ sendReply packet type rootDev udn byType) : NamesOf udn p := by
  have joined {name usn : List UInt8} (built : milUsn udn name = some usn) (sent : p ∈ [packet name usn]) :
      NamesOf udn p := by
    rw [milUsn_eq] at built
    by_cases fits : UsnFits udn name
    · rw [if_pos fits] at built
      obtain rfl := Option.some.inj built
      rw [List.mem_singleton.mp sent]
      exact namesOf_joined given fits
    · rw [if_neg fits] at built
      cases built
  rw [sendReply] at sent
  split at sent
  next =>
    split at sent
    next => cases sent
    next usn built => exact joined built sent
  next =>
    split at sent
    next =>
      rw [List.mem_singleton.mp sent]
      exact namesOf_udn given
    next =>
      split at sent
      next => cases sent
      next usn built => exact joined built sent

end Sent

theorem typeReply_names {info : HandleInfo} {call : Call} {searched own udn : List UInt8}
    {p : ServicePacket} (sent : p ∈ typeReply info call searched own udn) : NamesOf udn p := by
  rw [typeReply] at sent
  cases compared : compareTypes searched own with
  | none =>
    rw [compared] at sent
    cases sent
  | some lower =>
    rw [compared] at sent
    exact sendReply_names (fun _ _ => ⟨rfl, rfl⟩) sent

theorem deviceMessages_names {info : HandleInfo} {call : Call} {root : Bool} {devType udn : List UInt8}
    {p : ServicePacket} (sent : p ∈ deviceMessages info call root devType udn) : NamesOf udn p := by
  rw [deviceMessages] at sent
  split at sent
  next => exact announceDevice_names (fun _ _ => ⟨rfl, rfl⟩) sent
  next =>
    cases target : call.searchType with
    | all =>
      simp only [target, deviceReply_eq] at sent
      exact announceDevice_names (fun _ _ => ⟨rfl, rfl⟩) sent
    | rootdevice =>
      simp only [target] at sent
      split at sent
      next => exact sendReply_names (fun _ _ => ⟨rfl, rfl⟩) sent
      next => cases sent
    | deviceudn =>
      simp only [target] at sent
      split at sent
      next => exact sendReply_names (fun _ _ => ⟨rfl, rfl⟩) sent
      next => cases sent
    | devicetype =>
      simp only [target] at sent
      exact typeReply_names sent
    | service =>
      simp only [target] at sent
      cases sent
    | serror =>
      simp only [target] at sent
      cases sent

theorem serviceMessages_names {info : HandleInfo} {call : Call} {udn servType : List UInt8}
    {p : ServicePacket} (sent : p ∈ serviceMessages info call udn servType) : NamesOf udn p := by
  rw [serviceMessages] at sent
  split at sent
  next => exact announceService_names (fun _ _ => ⟨rfl, rfl⟩) sent
  next =>
    cases target : call.searchType with
    | all =>
      simp only [target] at sent
      exact announceService_names (fun _ _ => ⟨rfl, rfl⟩) sent
    | service =>
      simp only [target] at sent
      exact typeReply_names sent
    | rootdevice =>
      simp only [target] at sent
      cases sent
    | deviceudn =>
      simp only [target] at sent
      cases sent
    | devicetype =>
      simp only [target] at sent
      cases sent
    | serror =>
      simp only [target] at sent
      cases sent

/-- The messages about a device and its services come back from the network with their names, their
location and their duration, where the names can be told apart: the identifier does not start with
`schemas`, and a type is a URN behind an identifier without `urn`. -/
theorem message_reported (env : Env) (res : Resolver) (clients : List CtrlPt) (destAddr : SockAddr)
    (info : HandleInfo) (call : Call) (root : Bool) (u : Udn) (devType servType : List UInt8)
    (p : ServicePacket)
    (sent : p ∈ deviceMessages info call root devType u.text ∨
      p ∈ serviceMessages info call u.text servType)
    (plain : u.Plain) (short : u.text.length < LINE_SIZE)
    (named : p.usn = u.text ∨ p.nt = UPNP_ROOTDEVICE ∨ TypeNamed u p.nt)
    (readable : Readable env p) (located : p.location ≠ [])
    (duration : 0 < p.duration ∧ p.duration < 2 ^ 31) :
    ∃ param, Tells env u p param ∧
      readFromSSDPSocket res clients destAddr (p.msgType = .reply) (createServicePacket env p) =
        reports clients p param := by
  have names : NamesOf u.text p := sent.elim deviceMessages_names serviceMessages_names
  have packetNames : PacketNames u p.nt p.usn := by
    obtain ⟨nt, usn⟩ | ⟨usn, fits⟩ := names
    · rw [nt, usn]
      exact .udn short
    · have longer : p.usn ≠ u.text := by
        intro same
        have length := congrArg List.length (usn.symm.trans same)
        rw [length_usn] at length
        omega
      obtain same | rootdevice | type := named
      · exact absurd same longer
      · rw [rootdevice] at usn fits ⊢
        rw [usn]
        exact .rootdevice fits
      · rw [usn]
        exact .type type fits
  exact packet_reported readable packetNames plain located duration res clients destAddr

/-! ### A light -/

def lightEnv : Env where
  date := ⟨4, 1, 0, 1970, 0, 0, 0⟩
  sysname := bytes "Linux"
  release := bytes "6.1"
  nls := none
  isUrlV6UlaGua := fun _ => false

def noNames : Resolver := ⟨fun _ => none, fun _ _ => none, 0⟩

def lightHandle : HandleInfo :=
  ⟨bytes "http://10.0.0.1/l.xml", bytes "http://10.0.0.1/l.xml", 1800, 0, 0, 0, .inet, []⟩

def announceLight : Call := ⟨1, .serror, .inet, [], [], [], 1800⟩

def lightType : List UInt8 := bytes "urn:schemas-upnp-org:device:Light:1"

def lightUdn : Udn := ⟨bytes "1", by decide, by decide⟩

def listener : CtrlPt := ⟨1, 2, []⟩

def listenerAddr : SockAddr := ⟨.inet, [], 1900, 0⟩

def lightPacket (nt usn : List UInt8) : ServicePacket :=
  lightHandle.packet .advertisement lightHandle.descURL 1800 .inet nt usn

theorem message_reported_light : ∃ param,
    Tells lightEnv lightUdn (lightPacket lightType (bytes "uuid:1::" ++ lightType)) param ∧
      readFromSSDPSocket noNames [listener] listenerAddr false
          (createServicePacket lightEnv (lightPacket lightType (bytes "uuid:1::" ++ lightType))) =
        reports [listener] (lightPacket lightType (bytes "uuid:1::" ++ lightType)) param :=
  message_reported lightEnv noNames [listener] listenerAddr lightHandle announceLight true lightUdn
    lightType [] (lightPacket lightType (bytes "uuid:1::" ++ lightType)) (.inl (by decide))
    (show ¬bytes "schemas" <+: bytes "1" by decide) (by decide)
    (.inr (.inr ⟨by decide, .inl ⟨by decide, by decide, by decide,
      by decide⟩⟩))
    { fits := ⟨by decide +kernel, by decide⟩
      info := ⟨.of_plain (by decide), by decide, by decide⟩
      nls := nofun
      location := .of_graphic (by decide)
      nt := .of_graphic (by decide)
      usn := .of_graphic (by decide)
      size := by decide +kernel }
    (by decide) (by decide)

/-- What a listener hears of an announcement of the light with these names. -/
def heardOf (nt usn : List UInt8) : List Report :=
  readFromSSDPSocket noNames [listener] listenerAddr false (createServicePacket lightEnv (lightPacket nt usn))

/-- A UDN that starts like a schema and a type that is no URN are announced, but not reported. -/
theorem names_not_reported :
    (lightPacket UPNP_ROOTDEVICE (bytes "uuid:schemas1::upnp:rootdevice") ∈
        deviceMessages lightHandle announceLight true lightType (bytes "uuid:schemas1") ∧
      heardOf UPNP_ROOTDEVICE (bytes "uuid:schemas1::upnp:rootdevice") = []) ∧
    (lightPacket (bytes "light") (bytes "uuid:1::light") ∈
        deviceMessages lightHandle announceLight true (bytes "light") (bytes "uuid:1") ∧
      heardOf (bytes "light") (bytes "uuid:1::light") = []) := by
  decide +kernel

end Pupnp.Ssdp
