import Pupnp.Ssdp.CtrlPt

/-! What a control point makes of the names that a device puts together for its packets. -/

namespace Pupnp.Ssdp
open Pupnp.CString

/-- A UDN: `uuid:` and one or more characters other than a colon. -/
structure Udn where
  id : List UInt8
  nonempty : id ≠ []
  noColon : 58 ∉ id

def Udn.text (u : Udn) : List UInt8 := bytes "uuid:" ++ u.id

/-- The identifiers that the branch for schemas does not take. -/
def Udn.Plain (u : Udn) : Prop := ¬bytes "schemas" <+: u.id

structure UrnType (kind : String) (type : List UInt8) : Prop where
  urn : bytes "urn:" <+: type
  kind : hasStr kind type = true
  noSchemas : hasStr "uuid:schemas" type = false
  noRoot : hasStr "::upnp:rootdevice" type = false

section
variable (u : Udn)

theorem Udn.text_eq : u.text = bytes "uuid" ++ 58 :: u.id := by
  simp [Udn.text, bytes]

theorem Udn.text_length : u.text.length = u.id.length + 5 := by
  rw [Udn.text_eq]
  simp only [List.length_append, List.length_cons, show (bytes "uuid").length = 4 by decide]
  omega

theorem Udn.usn_eq (type : List UInt8) :
    u.text ++ bytes "::" ++ type = bytes "uuid" ++ 58 :: (u.id ++ 58 :: ([] ++ 58 :: type)) := by
  simp [Udn.text, bytes]

theorem Udn.noColon_front : (58 : UInt8) ∉ bytes "uuid" := by decide

theorem Udn.strstr_usn {x : List UInt8} (noColon : 58 ∉ x) (y type : List UInt8) :
    strstr (x ++ 58 :: y) (u.text ++ bytes "::" ++ type) =
      if x <:+ bytes "uuid" ∧ y <+: u.id ++ 58 :: 58 :: type then some (4 - x.length)
      else if x <:+ u.id ∧ y <+: 58 :: type then some (u.id.length - x.length + 5)
      else if x = [] ∧ y <+: type then some (u.text.length + 1)
      else (strstr (x ++ 58 :: y) type).map (· + (u.text.length + 2)) := by
  have front : (bytes "uuid").length = 4 := by decide
  rw [Udn.usn_eq, strstr_sep noColon Udn.noColon_front, strstr_sep noColon u.noColon,
    strstr_sep noColon List.not_mem_nil, front, Udn.text_length]
  simp only [List.nil_append, List.suffix_nil, List.length_nil]
  split
  next => rfl
  next =>
    split
    next => simp
    next =>
      split
      next => simp [Nat.add_comm, Nat.add_left_comm]
      next =>
        rw [Option.map_map, Option.map_map]
        congr 1
        funext k
        simp only [Function.comp]
        omega

theorem Udn.strstr_usn_split {needle : List UInt8} (nonempty : needle ≠ []) (noColon : 58 ∉ needle)
    (type : List UInt8) : strstr needle (u.text ++ bytes "::" ++ type) =
      (strstr needle (bytes "uuid") <|> (strstr needle u.id).map (· + 5) <|>
        (strstr needle type).map (· + (u.text.length + 2))) := by
  have front : (bytes "uuid").length = 4 := by decide
  have nothing : strstr needle [] = none := by rw [strstr, if_neg nonempty]
  rw [Udn.usn_eq, strstr_split nonempty noColon, strstr_split nonempty noColon,
    strstr_split nonempty noColon, front, Udn.text_length, nothing]
  cases strstr needle (bytes "uuid") with
  | some k => rfl
  | none =>
    cases strstr needle u.id with
    | some k => rfl
    | none =>
      cases strstr needle type with
      | none => rfl
      | some k =>
        have place : k + 0 + 1 + (u.id.length + 1) + (4 + 1) = k + (u.id.length + 5 + 2) := by omega
        exact congrArg some place

theorem Udn.not_colon_prefix (y rest : List UInt8) : ¬58 :: y <+: u.id ++ rest := by
  intro starts
  cases shape : u.id with
  | nil => exact u.nonempty shape
  | cons c id =>
    rw [shape, List.cons_append, List.cons_prefix_cons] at starts
    exact u.noColon (by rw [shape, starts.1]; exact List.mem_cons_self)

theorem Udn.strstr_uuid (type : List UInt8) :
    strstr (bytes "uuid") (u.text ++ bytes "::" ++ type) = some 0 := by
  rw [Udn.usn_eq]
  exact strstr_prefix _ _

theorem Udn.strstr_colons (type : List UInt8) :
    strstr (bytes "::") (u.text ++ bytes "::" ++ type) = some u.text.length := by
  have front := u.not_colon_prefix [] (58 :: 58 :: type)
  have found := u.strstr_usn List.not_mem_nil [58] type
  rw [if_neg (fun here => front here.2), if_pos ⟨List.nil_suffix, by simp⟩] at found
  rw [Udn.text_length]
  exact found

theorem Udn.hasStr_schemas (plain : u.Plain) {type : List UInt8} :
    hasStr "uuid:schemas" (u.text ++ bytes "::" ++ type) = hasStr "uuid:schemas" type := by
  have noColon : (58 : UInt8) ∉ bytes "uuid" := by decide
  have front : ¬bytes "schemas" <+: u.id ++ 58 :: 58 :: type := by
    rw [prefix_sep (by decide)]
    exact plain
  have middle : ¬bytes "schemas" <+: 58 :: type := by
    simp [bytes, List.cons_prefix_cons]
  have found := u.strstr_usn noColon (bytes "schemas") type
  rw [if_neg (fun here => front here.2), if_neg (fun here => middle here.2),
    if_neg (fun here => absurd here.1 (by decide))] at found
  change (strstr (bytes "uuid" ++ 58 :: bytes "schemas") _).isSome = _
  rw [found, Option.isSome_map]
  rfl

theorem Udn.strstr_root (type : List UInt8) :
    strstr (bytes "::upnp:rootdevice") (u.text ++ bytes "::" ++ type) =
      if bytes "upnp:rootdevice" <+: type then some u.text.length
      else if bytes ":upnp:rootdevice" <+: type then some (u.text.length + 1)
      else (strstr (bytes "::upnp:rootdevice") type).map (· + (u.text.length + 2)) := by
  have front := u.not_colon_prefix (bytes "upnp:rootdevice") (58 :: 58 :: type)
  have found := u.strstr_usn List.not_mem_nil (58 :: bytes "upnp:rootdevice") type
  rw [if_neg (fun here => front here.2)] at found
  change strstr ([] ++ 58 :: (58 :: bytes "upnp:rootdevice")) _ = _
  rw [found]
  have length : u.id.length - ([] : List UInt8).length + 5 = u.text.length := by
    rw [Udn.text_length]
    rfl
  simp only [List.nil_suffix, List.cons_prefix_cons, true_and, length]
  rfl

theorem hasStr_behind {needle : String} {type : List UInt8} (inside : hasStr needle type = true)
    (front : List UInt8) : hasStr needle (front ++ type) = true := by
  rw [hasStr_iff] at inside ⊢
  exact inside.trans (List.suffix_append front type).isInfix

theorem copyLine_whole {s : List UInt8} (short : s.length < LINE_SIZE) : copyLine s = s :=
  List.take_of_length_le (by omega)

theorem Udn.uuidName_usn {type : List UInt8} (fits : UsnFits u.text type) :
    uuidName (u.text ++ bytes "::" ++ type) = some u.text := by
  have short : u.text.length ≤ LINE_SIZE - 1 := by
    unfold UsnFits at fits
    omega
  rw [uuidName, Udn.strstr_uuid, Udn.strstr_colons]
  simp only [Option.map_some, copyUpTo, Nat.zero_le, if_true, List.drop_zero, Nat.sub_zero,
    Nat.min_eq_left short, List.append_assoc, List.take_left]

theorem Udn.urnName_usn {type : List UInt8} (fits : UsnFits u.text type)
    (noUrn : hasStr "urn" u.id = false) (urn : bytes "urn:" <+: type) (kind : String) :
    urnName kind (u.text ++ bytes "::" ++ type) =
      if hasStr kind (u.text ++ bytes "::" ++ type) then some type else none := by
  obtain ⟨rest, shape⟩ := urn
  have place : strstr (bytes "urn") type = some 0 := by
    rw [← shape]
    exact strstr_prefix (bytes "urn") (58 :: rest)
  have noId : strstr (bytes "urn") u.id = none := by simpa [hasStr] using noUrn
  have front : strstr (bytes "urn") (bytes "uuid") = none := by decide
  have found : strstr (bytes "urn") (u.text ++ bytes "::" ++ type) = some (u.text.length + 2) := by
    rw [u.strstr_usn_split (by decide) (by decide), front, noId, place]
    simp
  have here : hasStr "urn:" (u.text ++ bytes "::" ++ type) = true := by
    apply hasStr_behind
    rw [hasStr_iff, ← shape]
    exact (List.prefix_append _ _).isInfix
  have behind : (u.text ++ bytes "::" ++ type).drop (u.text.length + 2) = type :=
    List.drop_left' (by rw [List.length_append]; rfl)
  have short : type.length < LINE_SIZE := by
    unfold UsnFits at fits
    omega
  rw [urnName, here, found, Bool.true_and, Option.map_some, behind, copyLine_whole short]

theorem UrnType.no_rootName {kind : String} {type : List UInt8} (isType : UrnType kind type) :
    rootName (u.text ++ bytes "::" ++ type) = none := by
  obtain ⟨rest, shape⟩ := isType.urn
  have notHere : ¬bytes "upnp:rootdevice" <+: type := by
    rw [← shape]
    simp [bytes, List.cons_prefix_cons]
  have notNext : ¬bytes ":upnp:rootdevice" <+: type := by
    rw [← shape]
    simp [bytes, List.cons_prefix_cons]
  have nowhere : strstr (bytes "::upnp:rootdevice") type = none := by
    have absent := isType.noRoot
    rwa [hasStr, Option.isSome_eq_false_iff, Option.isNone_iff_eq_none] at absent
  rw [rootName, Udn.strstr_root, if_neg notHere, if_neg notNext, nowhere]
  rfl

theorem UrnType.uniqueServiceName_usn {kind : String} {type : List UInt8} (isType : UrnType kind type)
    (plain : u.Plain) (noUrn : hasStr "urn" u.id = false) (fits : UsnFits u.text type)
    (evt : SsdpEvent) :
    uniqueServiceName (u.text ++ bytes "::" ++ type) evt =
      (0, ⟨u.text,
        if hasStr ":device:" (u.text ++ bytes "::" ++ type) then type else evt.deviceType,
        if hasStr ":service:" (u.text ++ bytes "::" ++ type) then type else evt.serviceType⟩) := by
  have noSchemas : hasStr "uuid:schemas" (u.text ++ bytes "::" ++ type) = false :=
    (u.hasStr_schemas plain).trans isType.noSchemas
  rw [uniqueServiceName, noSchemas, if_neg Bool.false_ne_true, u.uuidName_usn fits,
    isType.no_rootName u, u.urnName_usn fits noUrn isType.urn, u.urnName_usn fits noUrn isType.urn]
  cases hasStr ":device:" (u.text ++ bytes "::" ++ type) <;>
    cases hasStr ":service:" (u.text ++ bytes "::" ++ type) <;> rfl

theorem Udn.uniqueServiceName_root (plain : u.Plain) (fits : UsnFits u.text UPNP_ROOTDEVICE)
    (evt : SsdpEvent) :
    (uniqueServiceName (u.text ++ bytes "::" ++ UPNP_ROOTDEVICE) evt).1 = 0 ∧
      (uniqueServiceName (u.text ++ bytes "::" ++ UPNP_ROOTDEVICE) evt).2.udn = u.text := by
  have noSchemas : hasStr "uuid:schemas" (u.text ++ bytes "::" ++ UPNP_ROOTDEVICE) = false :=
    (u.hasStr_schemas plain).trans (by decide)
  have root : rootName (u.text ++ bytes "::" ++ UPNP_ROOTDEVICE) = some u.text := by
    have found := u.strstr_root UPNP_ROOTDEVICE
    rw [if_pos (show bytes "upnp:rootdevice" <+: UPNP_ROOTDEVICE from List.prefix_rfl),
      Udn.text_length] at found
    have short : u.id.length + 5 ≤ LINE_SIZE - 1 := by
      have length := u.text_length
      unfold UsnFits at fits
      omega
    rw [rootName, found]
    simp only [Nat.min_eq_left short, ← Udn.text_length, List.append_assoc, List.take_left]
  rw [uniqueServiceName, noSchemas, if_neg Bool.false_ne_true, root, u.uuidName_usn fits]
  exact ⟨rfl, rfl⟩

theorem Udn.uniqueServiceName_self (plain : u.Plain) (fits : u.text.length < LINE_SIZE)
    (evt : SsdpEvent) : (uniqueServiceName u.text evt).1 = 0 ∧
      (uniqueServiceName u.text evt).2.udn = u.text := by
  have across {x : List UInt8} (y : List UInt8) (noColon : 58 ∉ x) (apart : ¬y <+: u.id) :
      strstr (x ++ 58 :: y) u.text = none := by
    rw [Udn.text_eq, strstr_sep noColon Udn.noColon_front, if_neg (fun here => apart here.2),
      strstr_noSep (List.mem_append_right x List.mem_cons_self) u.noColon]
    rfl
  have noColons (y : List UInt8) : ¬58 :: y <+: u.id := by
    have front := u.not_colon_prefix y []
    rwa [List.append_nil] at front
  have noSchemas : hasStr "uuid:schemas" u.text = false := by
    have none := @across (bytes "uuid") (bytes "schemas") (by decide) plain
    change (strstr (bytes "uuid" ++ 58 :: bytes "schemas") u.text).isSome = false
    rw [none]
    rfl
  have uuid : uuidName u.text = some u.text := by
    have here : strstr (bytes "uuid") u.text = some 0 := by
      rw [Udn.text_eq]
      exact strstr_prefix _ _
    have colons : strstr (bytes "::") u.text = none :=
      @across [] [58] List.not_mem_nil (noColons [])
    rw [uuidName, here, colons]
    simp only [Option.map_some, List.drop_zero, copyLine_whole fits]
  have root : rootName u.text = none := by
    have none : strstr (bytes "::upnp:rootdevice") u.text = none :=
      @across [] (bytes ":upnp:rootdevice") List.not_mem_nil (noColons _)
    rw [rootName, none]
  rw [uniqueServiceName, noSchemas, if_neg Bool.false_ne_true, uuid, root]
  exact ⟨rfl, rfl⟩

theorem ssdpRequestType_udn : (ssdpRequestType u.text).1 = 0 := by
  have uuid : hasStr "uuid:" u.text = true := hasStr_iff.mpr (List.prefix_append _ _).isInfix
  have kind : ssdpRequestType1 u.text ≠ .serror := by
    rw [ssdpRequestType1, uuid]
    split_ifs <;> simp_all
  simp [ssdpRequestType, kind]

end

theorem UrnType.ssdpRequestType_ok {kind : String} {type : List UInt8} (isType : UrnType kind type)
    (known : kind = ":device:" ∨ kind = ":service:") : (ssdpRequestType type).1 = 0 := by
  have urn : hasStr "urn:" type = true := hasStr_iff.mpr isType.urn.isInfix
  have found : ssdpRequestType1 type ≠ .serror := by
    have here := isType.kind
    rw [ssdpRequestType1, urn]
    obtain rfl | rfl := known
    · rw [here]
      split_ifs <;> simp_all
    · rw [here]
      split_ifs <;> simp_all
  simp [ssdpRequestType, found]

end Pupnp.Ssdp
