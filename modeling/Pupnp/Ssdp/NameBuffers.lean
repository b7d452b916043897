import Pupnp.Library.Buffer
import Pupnp.Library.Substring
import Pupnp.Ssdp.Target

/-!
The names of `SsdpEvent` in the lines that hold them, and the buffers of `AdvertiseAndReply` that they are
compared with. A write outside a buffer, a string without an end, a length below zero and a search by
`strrchr` that fails are all `none`.
-/

namespace Pupnp.Ssdp.NameBuffers
open Pupnp.CString Pupnp.Uri

structure EventLines where
  udn : List UInt8
  deviceType : List UInt8
  serviceType : List UInt8
  deriving DecidableEq, Repr

def TEMP_SIZE : Nat := LINE_SIZE - 3

def ptrDiff (ptr base : Nat) : Nat := if base ≤ ptr then ptr - base else 2 ^ 64 - (base - ptr)

def copyUpTo (line src : List UInt8) (n : Nat) : Option (List UInt8) := do
  let n := if LINE_SIZE ≤ n then LINE_SIZE - 1 else n
  let line ← strncpy line src n
  store line n 0

def copyCleared (line src : List UInt8) : Option (List UInt8) := do
  let line ← memset line LINE_SIZE
  strncpy line src (LINE_SIZE - 1)

def uuidName (cmd line : List UInt8) : Option (Bool × List UInt8) :=
  match strstr (bytes "uuid") cmd with
  | none => some (false, line)
  | some tempPtr => do
      let line ← match strstr (bytes "::") cmd with
        | some ptr => copyUpTo line (cmd.drop tempPtr) (ptrDiff ptr tempPtr)
        | none => copyCleared line (cmd.drop tempPtr)
      some (true, line)

def urnName (kind : String) (cmd line : List UInt8) : Option (Bool × List UInt8) :=
  if hasStr "urn:" cmd && hasStr kind cmd then
    match strstr (bytes "urn") cmd with
    | none => some (false, line)
    | some tempPtr => do
        let line ← copyCleared line (cmd.drop tempPtr)
        some (true, line)
  else some (false, line)

def rootName (cmd line : List UInt8) : Option (Bool × List UInt8) :=
  match strstr (bytes "::upnp:rootdevice") cmd with
  | some (n + 1) => do
      let line ← copyUpTo line cmd (n + 1)
      some (true, line)
  | _ => some (false, line)

/-- The device type of the branch for names with `uuid:schemas`, from its first colon up to `ptr3`. -/
def schemasType (cmd tempBuf line : List UInt8) (ptr3 : Nat) : Option (Int × List UInt8) :=
  match strstr (bytes ":") cmd with
  | none => some (-1, line)
  | some ptr1 => do
      let n := ptrDiff ptr3 ptr1
      let n := if TEMP_SIZE ≤ n then TEMP_SIZE - 1 else n
      let tempBuf ← strncpy tempBuf (cmd.drop ptr1) n
      let tempBuf ← store tempBuf n 0
      let temp ← cstrAt tempBuf 0
      if LINE_SIZE ≤ 3 + temp.length then some (-1, line)
      else
        let line ← snprintf line LINE_SIZE (bytes "urn" ++ temp)
        some (0, line)

def schemasName (cmd tempBuf : List UInt8) (evt : EventLines) : Option (Int × EventLines) :=
  match strstr (bytes ":device") cmd with
  | none => some (-1, evt)
  | some ptr1 =>
      match strstr (bytes ":") (cmd.drop (ptr1 + 1)) with
      | none => some (-1, evt)
      | some more =>
          let ptr2 := ptr1 + 1 + more
          match strstr (bytes ":") (cmd.drop (ptr2 + 1)) with
          | none => some (-1, evt)
          | some more =>
              let ptr3 := ptr2 + 1 + more
              if LINE_SIZE ≤ 5 + (cmd.drop (ptr3 + 1)).length then some (-1, evt)
              else do
                let udn ← snprintf evt.udn LINE_SIZE (bytes "uuid:" ++ cmd.drop (ptr3 + 1))
                let (ret, deviceType) ← schemasType cmd tempBuf evt.deviceType ptr3
                some (ret, { evt with udn := udn, deviceType := deviceType })

/-- `unique_service_name`, with what `TempBuf` holds before it is written. -/
def uniqueServiceName (cmd tempBuf : List UInt8) (evt : EventLines) : Option (Int × EventLines) :=
  if hasStr "uuid:schemas" cmd then schemasName cmd tempBuf evt
  else do
    let (uuid, udn) ← uuidName cmd evt.udn
    let (service, serviceType) ← urnName ":service:" cmd evt.serviceType
    let (device, deviceType) ← urnName ":device:" cmd evt.deviceType
    let (root, udn) ← rootName cmd udn
    some (if uuid || service || device || root then 0 else -1, ⟨udn, deviceType, serviceType⟩)

def ssdpRequestType (cmd tempBuf : List UInt8) (evt : EventLines) : Option (Int × SsdpSearchType × EventLines) := do
  let udn ← memset evt.udn LINE_SIZE
  let deviceType ← memset evt.deviceType LINE_SIZE
  let serviceType ← memset evt.serviceType LINE_SIZE
  let (_, evt) ← uniqueServiceName cmd tempBuf ⟨udn, deviceType, serviceType⟩
  let requestType := ssdpRequestType1 cmd
  some (if requestType = .serror then -1 else 0, requestType, evt)

/-! ### The comparisons of `AdvertiseAndReply` -/

def TYPE_SIZE : Nat := 100

structure TypeBuffers where
  udnStr : List UInt8
  devType : List UInt8
  servType : List UInt8
  deriving DecidableEq, Repr

def strrchrColon (s : List UInt8) : Option (List UInt8) := if COLON ∈ s then some (behindLastColon s) else none

def compareTypes (searched own : List UInt8) : Option (Option Bool) := do
  let searched ← cstrAt searched 0
  let own ← cstrAt own 0
  if searched.length < 2 then none
  else if strncasecmp searched own (searched.length - 2) = 0 then
    let version ← strrchrColon searched
    if own.length < 1 then none
    else
      let ownVersion := atoi (own.drop (own.length - 1))
      if atoi version < ownVersion then some (some true)
      else if atoi version = ownVersion then some (some false)
      else some none
  else some none

def compareUdn (searched own : List UInt8) : Option (Option Bool) := do
  let searched ← cstrAt searched 0
  let own ← cstrAt own 0
  some (if searched ≠ [] ∧ sameIgnoringCase searched own then some false else none)

def matchDevice (searchType : SsdpSearchType) (evt : EventLines) (bufs : TypeBuffers) : Option (Option Bool) :=
  match searchType with
  | .deviceudn => compareUdn evt.udn bufs.udnStr
  | .devicetype => compareTypes evt.deviceType bufs.devType
  | _ => some none

def matchService (searchType : SsdpSearchType) (evt : EventLines) (bufs : TypeBuffers) : Option (Option Bool) :=
  match searchType with
  | .service => compareTypes evt.serviceType bufs.servType
  | _ => some none

def serviceRound (searchType : SsdpSearchType) (evt : EventLines) (bufs : TypeBuffers) (service : Node) :
    Option TypeBuffers :=
  match firstText "serviceType" service with
  | none => some bufs
  | some text => do
      let servType ← strncpy bufs.servType text (TYPE_SIZE - 1)
      let bufs := { bufs with servType := servType }
      let _ ← matchService searchType evt bufs
      some bufs

/-- The walk over a device; the buffers keep what they hold from one device to the next. -/
def deviceRound (searchType : SsdpSearchType) (evt : EventLines) (bufs : TypeBuffers) (device : Node) :
    Option TypeBuffers :=
  match firstText "deviceType" device with
  | none => some bufs
  | some text => do
      let devType ← strncpy bufs.devType text (TYPE_SIZE - 1)
      let bufs := { bufs with devType := devType }
      match firstText "UDN" device with
      | none => some bufs
      | some text => do
          let udnStr ← strncpy bufs.udnStr text (TYPE_SIZE - 1)
          let bufs := { bufs with udnStr := udnStr }
          let _ ← matchDevice searchType evt bufs
          (serviceElements device).foldlM (serviceRound searchType evt) bufs

def advertiseAndReply (searchType : SsdpSearchType) (evt : EventLines) (deviceList : List Node) :
    Option TypeBuffers :=
  let cleared := List.replicate TYPE_SIZE 0
  deviceList.foldlM (deviceRound searchType evt) ⟨cleared, cleared, cleared⟩

/-- What becomes of the ST of a search: the names that are read, and the walk for it. -/
def answerSearch (st tempBuf : List UInt8) (evt : EventLines) (deviceList : List Node) :
    Option (Option TypeBuffers) := do
  let (ret, searchType, evt) ← ssdpRequestType st tempBuf evt
  if ret = -1 then some none
  else
    let bufs ← advertiseAndReply searchType evt deviceList
    some (some bufs)

/-! ### The lines -/

theorem copyUpTo_holds {line : List UInt8} (size : line.length = LINE_SIZE) (src : List UInt8) (n : Nat) :
    ∃ after, copyUpTo line src n = some after ∧
      CString.Holds after LINE_SIZE ((cstr src).take (min n (LINE_SIZE - 1))) := by
  have clipped : (if LINE_SIZE ≤ n then LINE_SIZE - 1 else n) = min n (LINE_SIZE - 1) := by
    unfold LINE_SIZE
    split <;> omega
  have inside : min n (LINE_SIZE - 1) < LINE_SIZE := by
    unfold LINE_SIZE
    omega
  have copied := @strncpy_store line (min n (LINE_SIZE - 1)) (by rwa [size]) src
  refine ⟨_, ?_, CString.Holds.copy inside size src⟩
  rw [copyUpTo, clipped]
  exact copied

theorem copyCleared_holds {line : List UInt8} (size : line.length = LINE_SIZE) (src : List UInt8) :
    ∃ after, copyCleared line src = some after ∧ CString.Holds after LINE_SIZE ((cstr src).take (LINE_SIZE - 1)) := by
  have length : (List.replicate LINE_SIZE (0 : UInt8)).length = LINE_SIZE := List.length_replicate
  have last : (List.replicate LINE_SIZE (0 : UInt8)).drop (LINE_SIZE - 1) =
      0 :: (List.replicate LINE_SIZE 0).drop (LINE_SIZE - 1 + 1) := by decide
  refine ⟨_, ?_, CString.Holds.copy (by decide) length src⟩
  rw [copyCleared, memset_whole size]
  change strncpy _ _ _ = _
  rw [strncpy_eq (by rw [length]; exact Nat.sub_le _ _), last]

section
variable {cmd line text : List UInt8}

theorem cstr_drop (noNul : 0 ∉ cmd) (n : Nat) : cstr (cmd.drop n) = cmd.drop n :=
  cstr_eq_self fun member => noNul (List.mem_of_mem_drop member)

theorem copyUpTo_length (cmd : List UInt8) {tempPtr ptr : Nat} (inside : tempPtr ≤ cmd.length)
    (fits : cmd.length < 2 ^ 64 - LINE_SIZE) :
    (cmd.drop tempPtr).take (min (ptrDiff ptr tempPtr) (LINE_SIZE - 1)) = Ssdp.copyUpTo cmd tempPtr ptr := by
  rw [ptrDiff, Ssdp.copyUpTo]
  split
  · rfl
  · congr 1
    unfold LINE_SIZE at fits ⊢
    omega

theorem uuidName_holds (noNul : 0 ∉ cmd) (holds : CString.Holds line LINE_SIZE text) :
    ∃ after udn, uuidName cmd line = some ((Ssdp.uuidName cmd).isSome, after) ∧ CString.Holds after LINE_SIZE udn ∧
      (cmd.length < 2 ^ 64 - LINE_SIZE → udn = (Ssdp.uuidName cmd).getD text) := by
  rw [uuidName, Ssdp.uuidName]
  cases found : strstr (bytes "uuid") cmd with
  | none => exact ⟨line, text, rfl, holds, fun _ => rfl⟩
  | some tempPtr =>
    have inside : tempPtr ≤ cmd.length := by
      by_contra outside
      have start := strstr_some found
      rw [List.drop_eq_nil_of_le (by omega)] at start
      exact absurd (List.prefix_nil.mp start) (by decide)
    dsimp only [Option.map_some, Option.isSome_some, Option.getD_some]
    cases strstr (bytes "::") cmd with
    | none =>
      obtain ⟨after, copied, text⟩ := copyCleared_holds holds.size (cmd.drop tempPtr)
      rw [cstr_drop noNul] at text
      exact ⟨after, _, by simp [copied], text, fun _ => rfl⟩
    | some ptr =>
      obtain ⟨after, copied, text⟩ := copyUpTo_holds holds.size (cmd.drop tempPtr) (ptrDiff ptr tempPtr)
      rw [cstr_drop noNul] at text
      exact ⟨after, _, by simp [copied], text, copyUpTo_length cmd inside⟩

theorem urnName_holds (kind : String) (noNul : 0 ∉ cmd) (holds : CString.Holds line LINE_SIZE text) :
    ∃ after, urnName kind cmd line = some ((Ssdp.urnName kind cmd).isSome, after) ∧
      CString.Holds after LINE_SIZE ((Ssdp.urnName kind cmd).getD text) := by
  rw [urnName, Ssdp.urnName]
  split
  next =>
    cases strstr (bytes "urn") cmd with
    | none => exact ⟨line, rfl, holds⟩
    | some tempPtr =>
      obtain ⟨after, copied, text⟩ := copyCleared_holds holds.size (cmd.drop tempPtr)
      rw [cstr_drop noNul] at text
      exact ⟨after, by simp [copied], text⟩
  next => exact ⟨line, rfl, holds⟩

theorem rootName_holds (noNul : 0 ∉ cmd) (holds : CString.Holds line LINE_SIZE text) :
    ∃ after, rootName cmd line = some ((Ssdp.rootName cmd).isSome, after) ∧
      CString.Holds after LINE_SIZE ((Ssdp.rootName cmd).getD text) := by
  rw [rootName, Ssdp.rootName]
  cases strstr (bytes "::upnp:rootdevice") cmd with
  | none => exact ⟨line, rfl, holds⟩
  | some n =>
    cases n with
    | zero => exact ⟨line, rfl, holds⟩
    | succ n =>
      obtain ⟨after, copied, text⟩ := copyUpTo_holds holds.size cmd (n + 1)
      rw [cstr_eq_self noNul] at text
      exact ⟨after, by simp [copied], text⟩

end

structure EventLines.Names (evt : EventLines) (names : SsdpEvent) : Prop where
  udn : CString.Holds evt.udn LINE_SIZE names.udn
  deviceType : CString.Holds evt.deviceType LINE_SIZE names.deviceType
  serviceType : CString.Holds evt.serviceType LINE_SIZE names.serviceType

section
variable {cmd tempBuf : List UInt8}

/-- The device type of a name with `uuid:schemas`, which ends behind the first colon of the name. -/
theorem schemasType_holds (noNul : 0 ∉ cmd) (size : tempBuf.length = TEMP_SIZE) {line text : List UInt8}
    (holds : CString.Holds line LINE_SIZE text) {ptr3 : Nat} (behind : ∃ k ≤ ptr3, bytes ":" <+: cmd.drop k) :
    ∃ after ptr1, strstr (bytes ":") cmd = some ptr1 ∧
      schemasType cmd tempBuf line ptr3 = some (0, after) ∧
      CString.Holds after LINE_SIZE (bytes "urn" ++ (cmd.drop ptr1).take (min (ptr3 - ptr1) (LINE_SIZE - 4))) := by
  obtain ⟨k, before, colon⟩ := behind
  have some_colon : (strstr (bytes ":") cmd).isSome := by
    rw [strstr_isSome]
    exact colon.isInfix.trans (List.drop_suffix k cmd).isInfix
  obtain ⟨ptr1, found⟩ := Option.isSome_iff_exists.mp some_colon
  have first := strstr_first found colon
  have clipped : (if TEMP_SIZE ≤ ptrDiff ptr3 ptr1 then TEMP_SIZE - 1 else ptrDiff ptr3 ptr1) =
      min (ptr3 - ptr1) (LINE_SIZE - 4) := by
    have ahead : ptrDiff ptr3 ptr1 = ptr3 - ptr1 := if_pos (first.trans before)
    rw [ahead]
    unfold TEMP_SIZE LINE_SIZE
    split <;> omega
  set n := min (ptr3 - ptr1) (LINE_SIZE - 4) with n_def
  have inside : n < TEMP_SIZE := by
    unfold TEMP_SIZE LINE_SIZE
    unfold LINE_SIZE at n_def
    omega
  have copied := @strncpy_store tempBuf n (by rwa [size]) (cmd.drop ptr1)
  have temp := (CString.Holds.copy inside size (cmd.drop ptr1)).text
  rw [cstr_drop noNul] at temp
  have short : ((cmd.drop ptr1).take n).length ≤ 176 := by
    rw [List.length_take]
    unfold LINE_SIZE at n_def
    omega
  have room : (bytes "urn" ++ (cmd.drop ptr1).take n).length < LINE_SIZE := by
    rw [List.length_append, show (bytes "urn").length = 3 by decide, LINE_SIZE]
    omega
  have name : 0 ∉ bytes "urn" ++ (cmd.drop ptr1).take n := by
    intro member
    obtain front | back := List.mem_append.mp member
    · exact absurd front (by decide)
    · exact noNul (List.mem_of_mem_drop (List.mem_of_mem_take back))
  obtain ⟨after, written, text⟩ := snprintf_holds holds.size name room
  refine ⟨after, ptr1, found, ?_, text⟩
  rw [schemasType, found]
  dsimp only
  rw [clipped]
  cases stored : strncpy tempBuf (cmd.drop ptr1) n with
  | none => rw [stored] at copied; cases copied
  | some filled =>
    rw [stored] at copied
    change store filled n 0 = _ at copied
    simp only [Option.bind_eq_bind, Option.bind_some, copied, temp, written]
    rw [if_neg (by unfold LINE_SIZE; omega)]

theorem schemasName_holds (noNul : 0 ∉ cmd) (size : tempBuf.length = TEMP_SIZE) {evt : EventLines}
    {names : SsdpEvent} (holds : evt.Names names) :
    ∃ after, schemasName cmd tempBuf evt = some ((Ssdp.schemasName cmd names).1, after) ∧
      after.Names (Ssdp.schemasName cmd names).2 := by
  rw [schemasName, Ssdp.schemasName]
  cases device : strstr (bytes ":device") cmd with
  | none => exact ⟨evt, rfl, holds⟩
  | some ptr1 =>
    dsimp only
    cases strstr (bytes ":") (cmd.drop (ptr1 + 1)) with
    | none => exact ⟨evt, rfl, holds⟩
    | some second =>
      dsimp only
      cases strstr (bytes ":") (cmd.drop (ptr1 + 1 + second + 1)) with
      | none => exact ⟨evt, rfl, holds⟩
      | some third =>
        dsimp only
        set ptr3 := ptr1 + 1 + second + 1 + third with ptr3_def
        by_cases long : LINE_SIZE ≤ 5 + (cmd.drop (ptr3 + 1)).length
        · rw [if_pos long, if_pos long]
          exact ⟨evt, rfl, holds⟩
        rw [if_neg long, if_neg long]
        have name : 0 ∉ bytes "uuid:" ++ cmd.drop (ptr3 + 1) := by
          intro member
          obtain front | back := List.mem_append.mp member
          · exact absurd front (by decide)
          · exact noNul (List.mem_of_mem_drop back)
        have room : (bytes "uuid:" ++ cmd.drop (ptr3 + 1)).length < LINE_SIZE := by
          rw [List.length_append, show (bytes "uuid:").length = 5 by decide]
          omega
        obtain ⟨udn, written, udnText⟩ := snprintf_holds holds.udn.size name room
        have colon : bytes ":" <+: cmd.drop ptr1 := by
          have start : bytes ":" <+: bytes ":device" := by decide
          exact start.trans (strstr_some device)
        obtain ⟨deviceType, first, found, typed, typeText⟩ :=
          @schemasType_holds cmd tempBuf noNul size _ _ holds.deviceType ptr3 ⟨ptr1, by omega, colon⟩
        have short : ¬LINE_SIZE ≤ 3 + ((cmd.drop first).take (min (ptr3 - first) (LINE_SIZE - 4))).length := by
          rw [List.length_take]
          unfold LINE_SIZE
          omega
        refine ⟨{ evt with udn := udn, deviceType := deviceType }, ?_, ?_⟩
        · simp only [written, typed, found]
          rw [if_neg short]
          rfl
        · simp only [found]
          rw [if_neg short]
          exact ⟨udnText, typeText, holds.serviceType⟩

/-- `unique_service_name` writes its names into their lines, and ends them there. The UDN is the one of the
text where the text fits in the memory. -/
theorem uniqueServiceName_holds (noNul : 0 ∉ cmd) (size : tempBuf.length = TEMP_SIZE) {evt : EventLines}
    {names : SsdpEvent} (holds : evt.Names names) :
    ∃ after udn, uniqueServiceName cmd tempBuf evt = some ((Ssdp.uniqueServiceName cmd names).1, after) ∧
      after.Names { (Ssdp.uniqueServiceName cmd names).2 with udn := udn } ∧
      (cmd.length < 2 ^ 64 - LINE_SIZE → udn = (Ssdp.uniqueServiceName cmd names).2.udn) := by
  rw [uniqueServiceName, Ssdp.uniqueServiceName]
  split
  next =>
    obtain ⟨after, named, right⟩ := schemasName_holds noNul size holds
    exact ⟨after, _, named, right, fun _ => rfl⟩
  next =>
    obtain ⟨line, udn, uuid, uuidHolds, same⟩ := uuidName_holds noNul holds.udn
    obtain ⟨serviceType, service, serviceHolds⟩ := urnName_holds ":service:" noNul holds.serviceType
    obtain ⟨deviceType, device, deviceHolds⟩ := urnName_holds ":device:" noNul holds.deviceType
    obtain ⟨line', root, rootHolds⟩ := rootName_holds noNul uuidHolds
    refine ⟨⟨line', deviceType, serviceType⟩, _, ?_, ⟨rootHolds, deviceHolds, serviceHolds⟩, ?_⟩
    · rw [uuid, Option.bind_eq_bind, Option.bind_some]
      dsimp only
      rw [service, Option.bind_some, device, Option.bind_some, root, Option.bind_some]
      simp [Bool.or_assoc]
    · intro fits
      rw [same fits]
      cases Ssdp.rootName cmd <;> rfl

end

/-! ### The comparisons -/

structure Ended (buf : List UInt8) : Prop where
  size : buf.length = TYPE_SIZE
  last : buf.drop (TYPE_SIZE - 1) = [0]

theorem Ended.text {buf : List UInt8} (ended : Ended buf) : CString.Holds buf TYPE_SIZE (cstr buf) := by
  apply CString.Holds.of_ended ended.size
  apply List.mem_of_mem_drop
  rw [ended.last]
  exact List.mem_cons_self

theorem Ended.cstr_length {buf : List UInt8} (ended : Ended buf) : (cstr buf).length ≤ 99 := by
  have start : cstr buf <+: buf := List.takeWhile_prefix _
  by_contra long
  have size := ended.size
  unfold TYPE_SIZE at size
  have whole := start.eq_of_length_le (by omega)
  apply cstr_noNul buf
  rw [whole]
  apply List.mem_of_mem_drop
  rw [ended.last]
  exact List.mem_cons_self

theorem Ended.copy {buf : List UInt8} (ended : Ended buf) (src : List UInt8) :
    ∃ after, strncpy buf src (TYPE_SIZE - 1) = some after ∧ Ended after ∧ cstr after = copyType (cstr src) := by
  have room : TYPE_SIZE - 1 ≤ buf.length := by
    rw [ended.size]
    exact Nat.sub_le _ _
  refine ⟨padded src (TYPE_SIZE - 1) ++ [0], ?_, ⟨?_, ?_⟩, cstr_padded src _ []⟩
  · rw [strncpy_eq room, ended.last]
  · rw [List.length_append, padded_length]
    rfl
  · exact List.drop_left' (padded_length src _)

theorem colon_behind_urn {cmd : List UInt8} {k : Nat} (found : strstr (bytes "urn") cmd = some k)
    (urn : hasStr "urn:" cmd = true) : COLON ∈ cmd.drop k := by
  obtain ⟨before, behind, whole⟩ := hasStr_iff.mp urn
  have there : cmd.drop before.length = bytes "urn:" ++ behind := by
    rw [← whole, List.append_assoc, List.drop_left]
  have start : bytes "urn" <+: bytes "urn:" := by decide
  have first : k ≤ before.length := by
    apply strstr_first found
    rw [there]
    exact start.trans (List.prefix_append _ _)
  apply @List.mem_of_mem_drop _ _ (before.length - k)
  rw [List.drop_drop, Nat.add_sub_cancel' first, there]
  exact List.mem_append_left _ (by decide)

/-- A searched type that agrees with the type of a device is a whole one, with a colon, and the type of the
device has a last character. -/
theorem compareTypes_safe {cmd line own : List UInt8} (noNul : 0 ∉ cmd) {k : Nat}
    (found : strstr (bytes "urn") cmd = some k) (urn : hasStr "urn:" cmd = true)
    (searched : CString.Holds line LINE_SIZE (Ssdp.copyLine (cmd.drop k))) (ended : Ended own) :
    compareTypes line own = some (Ssdp.compareTypes (Ssdp.copyLine (cmd.drop k)) (cstr own)) := by
  have three : 3 ≤ (cmd.drop k).length := (strstr_some found).length_le
  have length : (Ssdp.copyLine (cmd.drop k)).length = min 179 (cmd.drop k).length := List.length_take
  have text : ∀ c ∈ Ssdp.copyLine (cmd.drop k), c ≠ 0 := by
    rintro c member rfl
    exact noNul (List.mem_of_mem_drop (List.mem_of_mem_take member))
  have short := ended.cstr_length
  rw [compareTypes, Ssdp.compareTypes, searched.text, ended.text.text]
  simp only [Option.bind_eq_bind, Option.bind_some]
  rw [if_neg (by omega)]
  by_cases same : strncasecmp (Ssdp.copyLine (cmd.drop k)) (cstr own) ((Ssdp.copyLine (cmd.drop k)).length - 2) = 0
  · rw [if_pos same, if_pos same]
    have lengths := congrArg List.length ((strncasecmp_zero (Nat.sub_le _ _) text).mp same)
    simp only [List.length_map, List.length_take] at lengths
    have whole : Ssdp.copyLine (cmd.drop k) = cmd.drop k := by
      rw [Ssdp.copyLine, List.take_of_length_le]
      unfold LINE_SIZE
      omega
    have colon : COLON ∈ Ssdp.copyLine (cmd.drop k) := by
      rw [whole]
      exact colon_behind_urn found urn
    rw [strrchrColon, if_pos colon, Option.bind_some, if_neg (by omega)]
    split_ifs <;> rfl
  · rw [if_neg same, if_neg same]

theorem compareUdn_safe {line own text : List UInt8} (searched : CString.Holds line LINE_SIZE text) (ended : Ended own) :
    (compareUdn line own).isSome := by
  rw [compareUdn, searched.text, ended.text.text]
  rfl

/-! ### The walk -/

/-- The names that `ssdp_request_type` leaves, as far as the walk of a search compares them. -/
structure Searched (cmd : List UInt8) (searchType : SsdpSearchType) (evt : EventLines) : Prop where
  udn : ∃ text, CString.Holds evt.udn LINE_SIZE text
  device : searchType = .devicetype → ∃ k, strstr (bytes "urn") cmd = some k ∧ hasStr "urn:" cmd = true ∧
    CString.Holds evt.deviceType LINE_SIZE (Ssdp.copyLine (cmd.drop k))
  service : searchType = .service → ∃ k, strstr (bytes "urn") cmd = some k ∧ hasStr "urn:" cmd = true ∧
    CString.Holds evt.serviceType LINE_SIZE (Ssdp.copyLine (cmd.drop k))

structure TypeBuffers.Ended (bufs : TypeBuffers) : Prop where
  udnStr : NameBuffers.Ended bufs.udnStr
  devType : NameBuffers.Ended bufs.devType
  servType : NameBuffers.Ended bufs.servType

section
variable {cmd : List UInt8} {searchType : SsdpSearchType} {evt : EventLines} {bufs : TypeBuffers}

theorem matchDevice_safe (noNul : 0 ∉ cmd) (searched : Searched cmd searchType evt) (ended : bufs.Ended) :
    (matchDevice searchType evt bufs).isSome := by
  cases searchType with
  | deviceudn =>
    obtain ⟨text, holds⟩ := searched.udn
    exact compareUdn_safe holds ended.udnStr
  | devicetype =>
    obtain ⟨k, found, urn, holds⟩ := searched.device rfl
    rw [matchDevice, compareTypes_safe noNul found urn holds ended.devType, Option.isSome_some]
  | serror | all | rootdevice | service => rfl

theorem matchService_safe (noNul : 0 ∉ cmd) (searched : Searched cmd searchType evt) (ended : bufs.Ended) :
    (matchService searchType evt bufs).isSome := by
  cases searchType with
  | service =>
    obtain ⟨k, found, urn, holds⟩ := searched.service rfl
    rw [matchService, compareTypes_safe noNul found urn holds ended.servType, Option.isSome_some]
  | serror | all | rootdevice | deviceudn | devicetype => rfl

theorem serviceRound_safe (noNul : 0 ∉ cmd) (searched : Searched cmd searchType evt) (ended : bufs.Ended)
    (service : Node) : ∃ after, serviceRound searchType evt bufs service = some after ∧ after.Ended := by
  rw [serviceRound]
  split
  next => exact ⟨bufs, rfl, ended⟩
  next text _ =>
    obtain ⟨servType, copied, typed, -⟩ := ended.servType.copy text
    have kept : ({ bufs with servType := servType } : TypeBuffers).Ended := ⟨ended.udnStr, ended.devType, typed⟩
    obtain ⟨matched, found⟩ := Option.isSome_iff_exists.mp (matchService_safe noNul searched kept)
    exact ⟨_, by simp [copied, found], kept⟩

theorem foldlM_safe {f : TypeBuffers → Node → Option TypeBuffers}
    (safe : ∀ bufs node, bufs.Ended → ∃ after, f bufs node = some after ∧ after.Ended) (nodes : List Node)
    (ended : bufs.Ended) : ∃ after, nodes.foldlM f bufs = some after ∧ after.Ended := by
  induction nodes generalizing bufs with
  | nil => exact ⟨bufs, rfl, ended⟩
  | cons node nodes ih =>
    obtain ⟨next, round, kept⟩ := safe bufs node ended
    rw [List.foldlM_cons, round]
    exact ih kept

theorem deviceRound_safe (noNul : 0 ∉ cmd) (searched : Searched cmd searchType evt) (ended : bufs.Ended)
    (device : Node) : ∃ after, deviceRound searchType evt bufs device = some after ∧ after.Ended := by
  rw [deviceRound]
  split
  next => exact ⟨bufs, rfl, ended⟩
  next text _ =>
    obtain ⟨devType, copied, typed, -⟩ := ended.devType.copy text
    rw [copied, Option.bind_eq_bind, Option.bind_some]
    dsimp only
    split
    next => exact ⟨_, rfl, ended.udnStr, typed, ended.servType⟩
    next text _ =>
      obtain ⟨udnStr, copied, named, -⟩ := ended.udnStr.copy text
      have kept : (⟨udnStr, devType, bufs.servType⟩ : TypeBuffers).Ended := ⟨named, typed, ended.servType⟩
      obtain ⟨matched, found⟩ := Option.isSome_iff_exists.mp (matchDevice_safe noNul searched kept)
      rw [copied, Option.bind_some, found]
      exact foldlM_safe (fun _ node ended => serviceRound_safe noNul searched ended node) _ kept

theorem advertiseAndReply_safe (noNul : 0 ∉ cmd) (searched : Searched cmd searchType evt)
    (deviceList : List Node) : (advertiseAndReply searchType evt deviceList).isSome := by
  have cleared : Ended (List.replicate TYPE_SIZE 0) := ⟨List.length_replicate, by decide⟩
  have start : TypeBuffers.Ended ⟨List.replicate TYPE_SIZE 0, List.replicate TYPE_SIZE 0, List.replicate TYPE_SIZE 0⟩ :=
    ⟨cleared, cleared, cleared⟩
  obtain ⟨after, walked, -⟩ := foldlM_safe (fun _ node ended => deviceRound_safe noNul searched ended node)
    deviceList start
  exact Option.isSome_iff_exists.mpr ⟨after, walked⟩

end

/-! ### Every text -/

structure Chars (n : Nat) where
  bytes : List UInt8
  size : bytes.length = n

structure Line extends Chars LINE_SIZE where
  ended : 0 ∈ bytes

structure EventNames where
  udn : Line
  deviceType : Line
  serviceType : Line

def EventNames.lines (evt : EventNames) : EventLines :=
  ⟨evt.udn.bytes, evt.deviceType.bytes, evt.serviceType.bytes⟩

theorem Line.holds (line : Line) : CString.Holds line.bytes LINE_SIZE (cstr line.bytes) :=
  CString.Holds.of_ended line.size line.ended

theorem EventNames.names (evt : EventNames) :
    evt.lines.Names ⟨cstr evt.udn.bytes, cstr evt.deviceType.bytes, cstr evt.serviceType.bytes⟩ :=
  ⟨evt.udn.holds, evt.deviceType.holds, evt.serviceType.holds⟩

def Line.of_holds {line text : List UInt8} (holds : CString.Holds line LINE_SIZE text) : Line where
  bytes := line
  size := holds.size
  ended := by
    have text := holds.text
    rw [cstrAt, List.drop_zero] at text
    split at text
    next ended => exact ended
    next => cases text

theorem ssdpRequestType1_type {cmd : List UInt8} (byType : ssdpRequestType1 cmd = .devicetype ∨
    ssdpRequestType1 cmd = .service) : hasStr "uuid:schemas" cmd = false ∧ hasStr "urn:" cmd = true ∧
      (ssdpRequestType1 cmd = .devicetype → hasStr ":device:" cmd = true) ∧
      (ssdpRequestType1 cmd = .service → hasStr ":service:" cmd = true) := by
  have noSchemas (noUuid : hasStr "uuid:" cmd = false) : hasStr "uuid:schemas" cmd = false := by
    rw [Bool.eq_false_iff] at noUuid ⊢
    intro schemas
    have inside : bytes "uuid:" <+: bytes "uuid:schemas" := by decide
    exact noUuid (hasStr_iff.mpr (inside.isInfix.trans (hasStr_iff.mp schemas)))
  rw [ssdpRequestType1] at byType ⊢
  split_ifs at byType ⊢ with all root uuid device service <;> simp_all

theorem urnName_found {kind : String} {cmd : List UInt8} (urn : hasStr "urn:" cmd = true)
    (found : hasStr kind cmd = true) :
    ∃ k, strstr (bytes "urn") cmd = some k ∧ Ssdp.urnName kind cmd = some (Ssdp.copyLine (cmd.drop k)) := by
  have start : bytes "urn" <+: bytes "urn:" := by decide
  obtain ⟨k, first⟩ := Option.isSome_iff_exists.mp (strstr_isSome.mpr (start.isInfix.trans (hasStr_iff.mp urn)))
  exact ⟨k, first, by rw [Ssdp.urnName, urn, found, first]; rfl⟩

theorem ssdpRequestType_searched {cmd tempBuf : List UInt8} (noNul : 0 ∉ cmd) (size : tempBuf.length = TEMP_SIZE)
    (udn deviceType serviceType : Chars LINE_SIZE) :
    ∃ ret evt, ssdpRequestType cmd tempBuf ⟨udn.bytes, deviceType.bytes, serviceType.bytes⟩ =
        some (ret, ssdpRequestType1 cmd, evt) ∧ Searched cmd (ssdpRequestType1 cmd) evt := by
  have empty : CString.Holds (List.replicate LINE_SIZE 0) LINE_SIZE [] := ⟨List.length_replicate, by decide⟩
  have names : EventLines.Names ⟨List.replicate LINE_SIZE 0, List.replicate LINE_SIZE 0, List.replicate LINE_SIZE 0⟩ .clear :=
    ⟨empty, empty, empty⟩
  obtain ⟨after, name, read, holds, -⟩ := uniqueServiceName_holds noNul size names
  have ran : ssdpRequestType cmd tempBuf ⟨udn.bytes, deviceType.bytes, serviceType.bytes⟩ =
      some (if ssdpRequestType1 cmd = .serror then -1 else 0, ssdpRequestType1 cmd, after) := by
    rw [ssdpRequestType, memset_whole udn.size, memset_whole deviceType.size, memset_whole serviceType.size]
    simp only [Option.bind_eq_bind, Option.bind_some]
    rw [read, Option.bind_some]
  refine ⟨_, after, ran, ⟨_, holds.udn⟩, ?_, ?_⟩
  · intro device
    obtain ⟨noSchemas, urn, kind, -⟩ := ssdpRequestType1_type (.inl device)
    obtain ⟨k, found, named⟩ := urnName_found urn (kind device)
    have line := holds.deviceType
    simp only [Ssdp.uniqueServiceName, noSchemas, named] at line
    exact ⟨k, found, urn, line⟩
  · intro service
    obtain ⟨noSchemas, urn, -, kind⟩ := ssdpRequestType1_type (.inr service)
    obtain ⟨k, found, named⟩ := urnName_found urn (kind service)
    have line := holds.serviceType
    simp only [Ssdp.uniqueServiceName, noSchemas, named] at line
    exact ⟨k, found, urn, line⟩

/-- The names of a text stay in their lines as strings, and a search with the text as its target goes
through the walk over a description without a length, an index or a pointer out of bounds. -/
theorem uniqueServiceName_safe (value : List UInt8) (tempBuf : Chars TEMP_SIZE) :
    (∀ evt : EventNames, ∃ ret, ∃ after : EventNames,
      uniqueServiceName (cstr value) tempBuf.bytes evt.lines = some (ret, after.lines)) ∧
    ∀ (udn deviceType serviceType : Chars LINE_SIZE) (deviceList : List Node),
      (answerSearch (cstr value) tempBuf.bytes ⟨udn.bytes, deviceType.bytes, serviceType.bytes⟩ deviceList).isSome := by
  have noNul := cstr_noNul value
  constructor
  · intro evt
    obtain ⟨after, udn, named, holds, -⟩ := uniqueServiceName_holds noNul tempBuf.size evt.names
    exact ⟨_, ⟨.of_holds holds.udn, .of_holds holds.deviceType, .of_holds holds.serviceType⟩, named⟩
  · intro udn deviceType serviceType deviceList
    obtain ⟨ret, evt, read, searched⟩ := ssdpRequestType_searched noNul tempBuf.size udn deviceType serviceType
    have walked := advertiseAndReply_safe noNul searched deviceList
    rw [answerSearch, read, Option.bind_eq_bind, Option.bind_some]
    dsimp only
    split
    · rfl
    · obtain ⟨bufs, found⟩ := Option.isSome_iff_exists.mp walked
      rw [found]
      rfl

end Pupnp.Ssdp.NameBuffers
