import Pupnp.Library.Decimal
import Pupnp.Library.Substring

/-! What SSDP makes of a search target, a notification type or a unique service name. -/

namespace Pupnp.Ssdp
open Pupnp.CString

def LINE_SIZE : Nat := 180

inductive SsdpSearchType where
  | serror
  | all
  | rootdevice
  | deviceudn
  | devicetype
  | service
  deriving DecidableEq, Repr

structure SsdpEvent where
  udn : List UInt8
  deviceType : List UInt8
  serviceType : List UInt8
  deriving DecidableEq, Repr

def SsdpEvent.clear : SsdpEvent := ⟨[], [], []⟩

def hasStr (needle : String) (s : List UInt8) : Bool := (strstr (bytes needle) s).isSome

def copyLine (s : List UInt8) : List UInt8 := s.take (LINE_SIZE - 1)

/-- The branch of `unique_service_name` for names with `uuid:schemas`. -/
def schemasName (cmd : List UInt8) (evt : SsdpEvent) : Int × SsdpEvent :=
  match strstr (bytes ":device") cmd with
  | none => (-1, evt)
  | some ptr1 =>
      match strstr (bytes ":") (cmd.drop (ptr1 + 1)) with
      | none => (-1, evt)
      | some more =>
          let ptr2 := ptr1 + 1 + more
          match strstr (bytes ":") (cmd.drop (ptr2 + 1)) with
          | none => (-1, evt)
          | some more =>
              let ptr3 := ptr2 + 1 + more
              let tail := cmd.drop (ptr3 + 1)
              if LINE_SIZE ≤ 5 + tail.length then (-1, evt)
              else
                let evt := { evt with udn := bytes "uuid:" ++ tail }
                match strstr (bytes ":") cmd with
                | none => (-1, evt)
                | some ptr1 =>
                    let tempBuf := (cmd.drop ptr1).take (min (ptr3 - ptr1) (LINE_SIZE - 4))
                    if LINE_SIZE ≤ 3 + tempBuf.length then (-1, evt)
                    else (0, { evt with deviceType := bytes "urn" ++ tempBuf })

def copyUpTo (cmd : List UInt8) (tempPtr ptr : Nat) : List UInt8 :=
  (cmd.drop tempPtr).take (if tempPtr ≤ ptr then min (ptr - tempPtr) (LINE_SIZE - 1) else LINE_SIZE - 1)

def uuidName (cmd : List UInt8) : Option (List UInt8) :=
  (strstr (bytes "uuid") cmd).map fun tempPtr =>
    match strstr (bytes "::") cmd with
    | some ptr => copyUpTo cmd tempPtr ptr
    | none => copyLine (cmd.drop tempPtr)

/-- A type behind its first `urn`, where the name has `urn:` and this kind. -/
def urnName (kind : String) (cmd : List UInt8) : Option (List UInt8) :=
  if hasStr "urn:" cmd && hasStr kind cmd then
    (strstr (bytes "urn") cmd).map fun tempPtr => copyLine (cmd.drop tempPtr)
  else none

def rootName (cmd : List UInt8) : Option (List UInt8) :=
  match strstr (bytes "::upnp:rootdevice") cmd with
  | some (n + 1) => some (cmd.take (min (n + 1) (LINE_SIZE - 1)))
  | _ => none

def uniqueServiceName (cmd : List UInt8) (evt : SsdpEvent) : Int × SsdpEvent :=
  if hasStr "uuid:schemas" cmd then schemasName cmd evt
  else
    let uuid := uuidName cmd
    let service := urnName ":service:" cmd
    let device := urnName ":device:" cmd
    let root := rootName cmd
    let evt : SsdpEvent :=
      { udn := (root <|> uuid).getD evt.udn
        deviceType := device.getD evt.deviceType
        serviceType := service.getD evt.serviceType }
    (if (uuid <|> service <|> device <|> root).isSome then 0 else -1, evt)

def ssdpRequestType1 (cmd : List UInt8) : SsdpSearchType :=
  if hasStr ":all" cmd then .all
  else if hasStr ":rootdevice" cmd then .rootdevice
  else if hasStr "uuid:" cmd then .deviceudn
  else if hasStr "urn:" cmd && hasStr ":device:" cmd then .devicetype
  else if hasStr "urn:" cmd && hasStr ":service:" cmd then .service
  else .serror

def ssdpRequestType (cmd : List UInt8) : Int × SsdpSearchType × SsdpEvent :=
  let evt := (uniqueServiceName cmd .clear).2
  let requestType := ssdpRequestType1 cmd
  (if requestType = .serror then -1 else 0, requestType, evt)

/-! ### Substrings -/

theorem hasStr_iff {needle : String} {s : List UInt8} : hasStr needle s = true ↔ bytes needle <:+: s :=
  strstr_isSome

theorem schemasName_udn (cmd : List UInt8) (evt : SsdpEvent) :
    (schemasName cmd evt).2.udn = evt.udn ∨ ∃ tail, (schemasName cmd evt).2.udn = bytes "uuid:" ++ tail := by
  unfold schemasName
  cases strstr (bytes ":device") cmd with
  | none => exact .inl rfl
  | some ptr1 =>
    dsimp only
    cases strstr (bytes ":") (cmd.drop (ptr1 + 1)) with
    | none => exact .inl rfl
    | some ptr2 =>
      dsimp only
      cases strstr (bytes ":") (cmd.drop (ptr1 + 1 + ptr2 + 1)) with
      | none => exact .inl rfl
      | some ptr3 =>
        dsimp only
        split
        · exact .inl rfl
        · cases strstr (bytes ":") cmd with
          | none => exact .inr ⟨_, rfl⟩
          | some first =>
            dsimp only
            split <;> exact .inr ⟨_, rfl⟩

theorem uniqueServiceName_udn {cmd : List UInt8} (noRoot : hasStr "::upnp:rootdevice" cmd = false) :
    ∀ c, (uniqueServiceName cmd .clear).2.udn[1]? = some c → c = 117 := by
  have uuid (rest : List UInt8) (k : Nat) :
      ∀ c, ((bytes "uuid" ++ rest).take k)[1]? = some c → c = 117 := by
    intro c second
    rw [List.getElem?_take] at second
    split at second
    · simpa [bytes] using second.symm
    · cases second
  have root : rootName cmd = none := by
    rw [rootName]
    cases found : strstr (bytes "::upnp:rootdevice") cmd with
    | none => rfl
    | some k => simp [hasStr, found] at noRoot
  rw [uniqueServiceName]
  split
  next =>
    obtain empty | ⟨tail, name⟩ := schemasName_udn cmd .clear
    · rw [empty]
      simp [SsdpEvent.clear]
    · intro c second
      rw [name] at second
      simpa [bytes] using second.symm
  next =>
    rw [root, uuidName]
    cases found : strstr (bytes "uuid") cmd with
    | none => simp [SsdpEvent.clear]
    | some tempPtr =>
      obtain ⟨rest, ahead⟩ := strstr_some found
      change ∀ c, (match strstr (bytes "::") cmd with
        | some ptr => copyUpTo cmd tempPtr ptr
        | none => copyLine (cmd.drop tempPtr))[1]? = some c → c = 117
      split
      · rw [copyUpTo, ← ahead]
        exact uuid rest _
      · rw [copyLine, ← ahead]
        exact uuid rest _

end Pupnp.Ssdp
