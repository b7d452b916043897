import Pupnp.Api.Registration
import Pupnp.Ixml.Document
import Pupnp.Web.UrlConfig

/-!
`UpnpRegisterRootDevice2` with the description that it gets: the table of handles, the flags and the alias
document of the web server, and what a failed call leaves of them.
-/

namespace Pupnp.Api.RootDevice
open Pupnp.CString Pupnp.Path Pupnp.RefCount Pupnp.Run Pupnp.Uri
open Pupnp.Web.AliasDocument (State Settings XmlAlias isValidAlias aliasGrab aliasRelease)
open Pupnp.Web.UrlConfig (ServerAddr LINE_SIZE UPNP_E_URL_TOO_BIG addrToString calcAlias calcDescURL
  configDescriptionDoc firstNamedIn)
open Pupnp.Ixml (Node)

def UPNP_E_FILE_NOT_FOUND : Int := -502
def UPNP_E_FILE_READ_ERROR : Int := -503
def UPNP_E_EXT_NOT_XML : Int := -504

inductive DescType where
  | url
  | filename
  | buf
  | other
  deriving DecidableEq, Repr

inductive FileRead where
  | notFound
  | outOfMemory
  | short
  | text (membuf : List UInt8) (mtime : Int)
  deriving DecidableEq, Repr

/-- What a call meets outside. Each of the flags says whether a part of it has memory. -/
structure World where
  res : Resolver
  /-- The character of `ixmlRelaxParser`. -/
  errorChar : Int
  /-- `UpnpDownloadXmlDoc` -/
  download : List UInt8 → Int × List Node
  readFile : List UInt8 → FileRead
  time : Int
  serverAddr : ServerAddr
  /-- Where a new element is put. -/
  addr : Nat
  /-- `ixmlPrintDocument`; `none` is `NULL`. -/
  printDocument : List Node → Option (List UInt8)
  serviceTable : List Node → List UInt8 → List ServiceInfo
  active : ∀ doc descURL, ∀ service ∈ serviceTable doc descURL, service.active = true
  hinfo : Bool
  parsing : Bool
  configuring : Bool
  aliasing : Bool
  listing : Bool

/-- The arguments of a call; a description is `none` for a null pointer. -/
structure Arguments where
  descriptionType : DescType
  description : Option (List UInt8)
  configBaseURL : Bool
  func : Bool
  hnd : Bool
  deriving DecidableEq, Repr

def strrchr (c : UInt8) (s : List UInt8) : Option (List UInt8) :=
  if c ∈ s then some (c :: s.rtakeWhile (· ≠ c)) else none

def DOT : UInt8 := 46

def getNameForAlias (name : List UInt8) : Except Int (List UInt8) :=
  match strrchr DOT name with
  | none => .error UPNP_E_EXT_NOT_XML
  | some ext =>
      if ext.map toLower ≠ bytes ".xml" then .error UPNP_E_EXT_NOT_XML
      else .ok ((strrchr SLASH name).getD name)

/-- `ixmlParseBufferEx`, with the code that its caller gives for its errors. -/
def parseBuffer (w : World) (text : List UInt8) : Except Int (List Node) :=
  if !w.parsing then .error UPNP_E_OUTOF_MEMORY
  else
    match Ixml.ixmlParseBufferEx w.errorChar text with
    | .error _ => .error UPNP_E_INVALID_DESC
    | .ok doc => .ok doc.children

/-- The first part of `GetDescDocumentAndURL`: the document and when it was changed last. -/
def getDocument (w : World) (args : Arguments) (description : List UInt8) : Except Int (List Node × Int) :=
  match args.descriptionType with
  | .url =>
      let (retVal, doc) := w.download description
      if retVal ≠ UPNP_E_SUCCESS then .error retVal else .ok (doc, w.time)
  | .filename =>
      match w.readFile description with
      | .notFound => .error UPNP_E_FILE_NOT_FOUND
      | .outOfMemory => .error UPNP_E_OUTOF_MEMORY
      | .short => .error UPNP_E_FILE_READ_ERROR
      | .text membuf mtime => (parseBuffer w (cstr membuf)).map (·, mtime)
  | .buf => (parseBuffer w description).map (·, w.time)
  | .other => .error UPNP_E_INVALID_PARAM

def aliasStr (args : Arguments) (description : List UInt8) : Except Int (List UInt8) :=
  match args.descriptionType with
  | .buf => .ok (bytes "description.xml")
  | _ => do
      let name ← getNameForAlias description
      if LINE_SIZE - 1 < name.length then .error UPNP_E_URL_TOO_BIG else .ok name

def webServerSetAlias (memory : Bool) (settings : Settings) (web : State) : Int × State :=
  let web := web.releaseAlias
  if memory then (UPNP_E_SUCCESS, web.publish settings) else (UPNP_E_OUTOF_MEMORY, web)

/-- `configure_urlbase` up to the call of `web_server_set_alias`: the document, its URL, and the arguments of
that call, which is left out where the document cannot be printed. -/
def configureUrlbase (w : World) (doc : List Node) (alias_ : List UInt8) (lastModified : Int) :
    Except Int (List Node × List UInt8 × Option Settings) := do
  let ipaddrPort := addrToString w.serverAddr
  if !w.configuring then .error UPNP_E_OUTOF_MEMORY
  let (doc, rootPath) ← configDescriptionDoc w.res w.addr doc ipaddrPort
  let newAlias := calcAlias (cstr alias_) rootPath
  let docURL ← calcDescURL ipaddrPort newAlias
  return (doc, docURL, (w.printDocument doc).map fun xmlStr => ⟨newAlias, cstr xmlStr, lastModified⟩)

/-- `GetDescDocumentAndURL` up to the call of `web_server_set_alias`. -/
def prepare (w : World) (args : Arguments) : Except Int (List Node × List UInt8 × Option Settings) :=
  match args.description.map cstr with
  | none => .error UPNP_E_INVALID_PARAM
  | some description =>
      if args.descriptionType ≠ .url && !args.configBaseURL then .error UPNP_E_INVALID_PARAM
      else do
        let (doc, lastModified) ← getDocument w args description
        if args.configBaseURL then
          let alias_ ← aliasStr args description
          configureUrlbase w doc alias_ lastModified
        else if LINE_SIZE - 1 < description.length then .error UPNP_E_URL_TOO_BIG
        else .ok (doc, description, none)

def getDescDocumentAndURL (w : World) (args : Arguments) (web : State) : Except Int (List Node × List UInt8) × State :=
  match prepare w args with
  | .error retVal => (.error retVal, web)
  | .ok (doc, descURL, none) => (.ok (doc, descURL), web)
  | .ok (doc, descURL, some settings) =>
      let (retVal, web) := webServerSetAlias w.aliasing settings web
      if retVal ≠ UPNP_E_SUCCESS then (.error retVal, web) else (.ok (doc, descURL), web)

/-- `ixmlDocument_getElementsByTagName` for "device" finds something. -/
def hasDevice (w : World) (doc : List Node) : Bool := w.listing && (firstNamedIn (bytes "device") doc).isSome

/-- `UpnpRegisterRootDevice2`. The entry of a new handle counts for a client until it is filled in. -/
def upnpRegisterRootDevice2 (w : World) (args : Arguments) (sdk : Sdk) (web : State) : Sdk × State × Outcome :=
  if !sdk.sdkInit then (sdk, web, ⟨UPNP_E_FINISH, none⟩)
  else if !(args.hnd && args.func) then (sdk, web, ⟨UPNP_E_INVALID_PARAM, none⟩)
  else
    match getFreeHandle sdk.registry with
    | none => (sdk, web, ⟨UPNP_E_OUTOF_MEMORY, some UPNP_E_OUTOF_HANDLE⟩)
    | some hnd =>
        if !w.hinfo then (sdk, web, ⟨UPNP_E_OUTOF_MEMORY, some hnd⟩)
        else
          let entered := sdk.registry.put hnd (some .client) client_active
          match getDescDocumentAndURL w args web with
          | (.error retVal, web) =>
              ({ sdk with registry := (freeHandle entered hnd).1 }, web, ⟨retVal, some hnd⟩)
          | (.ok (doc, descURL), web) =>
              if !hasDevice w doc then
                ({ sdk with registry := (freeHandle entered hnd).1 }, web, ⟨UPNP_E_INVALID_DESC, some hnd⟩)
              else
                let filled := entered.put hnd (some (.device .inet (w.serviceTable doc descURL))) (by
                  rintro _ ⟨⟩
                  exact w.active doc descURL)
                ({ sdk with registry := filled.setRegistered .inet true }, web, ⟨UPNP_E_SUCCESS, some hnd⟩)

/-! ### The alias document -/

def HasCounter (web : State) : Prop :=
  isValidAlias web.gAliasDoc = true → ∃ d, web.gAliasDoc.ct = some d ∧ d < web.documents.length

@[simp] theorem check_gAliasDoc (good : Bool) (fault : Web.AliasDocument.Fault) (web : State) :
    (web.check good fault).gAliasDoc = web.gAliasDoc := by
  cases good <;> rfl

@[simp] theorem check_documents (good : Bool) (fault : Web.AliasDocument.Fault) (web : State) :
    (web.check good fault).documents = web.documents := by
  cases good <;> rfl

@[simp] theorem check_setting (good : Bool) (fault : Web.AliasDocument.Fault) (web : State) :
    (web.check good fault).setting = web.setting := by
  cases good <;> rfl

@[simp] theorem use_gAliasDoc (d : Nat) (web : State) : (web.use d).gAliasDoc = web.gAliasDoc :=
  check_gAliasDoc _ _ _

@[simp] theorem use_documents (d : Nat) (web : State) : (web.use d).documents = web.documents :=
  check_documents _ _ _

@[simp] theorem use_setting (d : Nat) (web : State) : (web.use d).setting = web.setting := check_setting _ _ _

theorem aliasRelease_documents (a : XmlAlias) (web : State) : (aliasRelease a web).2.documents =
    if isValidAlias a then (a.ct.map (release · web.documents)).getD web.documents else web.documents := by
  rw [aliasRelease]
  cases isValidAlias a with
  | false => rfl
  | true =>
    cases ct : a.ct with
    | none => simp
    | some d => simp

theorem aliasRelease_gAliasDoc (a : XmlAlias) (web : State) : (aliasRelease a web).2.gAliasDoc = web.gAliasDoc := by
  rw [aliasRelease]
  split
  · rfl
  · split <;> simp

theorem aliasRelease_fst (a : XmlAlias) (web : State) :
    (aliasRelease a web).1.ct = a.ct ∧ (isValidAlias (aliasRelease a web).1 = true → isValidAlias a = true) := by
  rw [aliasRelease]
  split
  · exact ⟨rfl, id⟩
  · split
    · exact ⟨rfl, id⟩
    · dsimp only
      split
      · exact ⟨rfl, fun valid => by cases valid⟩
      · exact ⟨rfl, id⟩

theorem aliasRelease_length (a : XmlAlias) (web : State) :
    (aliasRelease a web).2.documents.length = web.documents.length := by
  rw [aliasRelease_documents]
  split
  · cases a.ct <;> simp
  · rfl

theorem aliasGrab_kept (web : State) : (aliasGrab web).2.gAliasDoc = web.gAliasDoc ∧
    (aliasGrab web).2.documents.length = web.documents.length := by
  rw [aliasGrab]
  dsimp only
  split <;> simp

theorem releaseAlias_hasCounter {web : State} (counter : HasCounter web) : HasCounter web.releaseAlias := by
  intro valid
  obtain ⟨ct, before⟩ := aliasRelease_fst web.gAliasDoc web
  obtain ⟨d, here, known⟩ := counter (before valid)
  exact ⟨d, ct.trans here, by rwa [← aliasRelease_length web.gAliasDoc web] at known⟩

theorem step_hasCounter (label : Web.AliasDocument.Step) (web after : State)
    (taken : Web.AliasDocument.step label web = some after) (counter : HasCounter web) : HasCounter after := by
  cases label with
  | setRelease settings =>
    obtain rfl := Option.some.inj taken
    exact releaseAlias_hasCounter counter
  | setPublish i =>
    obtain ⟨settings, -, rfl⟩ := Option.map_eq_some_iff.mp taken
    intro _
    refine ⟨web.documents.length, rfl, ?_⟩
    change _ < (allocate _ web.documents).length
    rw [length_allocate]
    exact Nat.lt_succ_self _
  | setFail i =>
    obtain ⟨settings, -, rfl⟩ := Option.map_eq_some_iff.mp taken
    exact counter
  | destroyRelease =>
    obtain rfl := Option.some.inj taken
    exact releaseAlias_hasCounter counter
  | destroyClear =>
    simp only [Web.AliasDocument.step] at taken
    split at taken
    · cases taken
    · obtain rfl := Option.some.inj taken
      intro valid
      cases valid
  | check =>
    obtain rfl := Option.some.inj taken
    exact counter
  | grab =>
    simp only [Web.AliasDocument.step] at taken
    split at taken
    · cases taken
    · obtain rfl := Option.some.inj taken
      obtain ⟨same, length⟩ := aliasGrab_kept web
      intro valid
      dsimp only at valid ⊢
      rw [same] at valid ⊢
      rw [length]
      exact counter valid
  | read i =>
    obtain ⟨copy, -, rfl⟩ := Option.map_eq_some_iff.mp taken
    cases copy.buf <;> simpa [HasCounter] using counter
  | release i =>
    obtain ⟨copy, -, rfl⟩ := Option.map_eq_some_iff.mp taken
    intro valid
    dsimp only at valid ⊢
    rw [aliasRelease_gAliasDoc] at valid ⊢
    rw [aliasRelease_length]
    exact counter valid

theorem reachable_hasCounter {labels : List Web.AliasDocument.Step} {web : State}
    (reached : run Web.AliasDocument.step labels .initial = some web) : HasCounter web :=
  run_invariant step_hasCounter (fun valid => by cases valid) reached

/-- A new alias document, or the loss of the old one where the memory for it is out. -/
theorem webServerSetAlias_documents {web : State} (counter : HasCounter web) (memory : Bool) (settings : Settings) :
    (webServerSetAlias memory settings web).2.documents = web.documents ↔
      memory = false ∧ isValidAlias web.gAliasDoc = false := by
  have released : web.releaseAlias.documents = (aliasRelease web.gAliasDoc web).2.documents := rfl
  cases memory with
  | true =>
    apply iff_of_false
    · intro same
      have longer := congrArg List.length same
      change (allocate _ web.releaseAlias.documents).length = _ at longer
      rw [length_allocate, released, aliasRelease_length] at longer
      omega
    · rintro ⟨⟨⟩, -⟩
  | false =>
    change web.releaseAlias.documents = web.documents ↔ _
    rw [released, aliasRelease_documents]
    cases valid : isValidAlias web.gAliasDoc with
    | false => simp
    | true =>
      obtain ⟨d, ct, known⟩ := counter valid
      apply iff_of_false
      · rw [ct]
        intro same
        have counts := congrArg (count d) same
        change count d (release d web.documents) = count d web.documents at counts
        rw [count_release known] at counts
        omega
      · rintro ⟨-, ⟨⟩⟩

theorem webServerSetAlias_kept {web : State} (invalid : isValidAlias web.gAliasDoc = false) (settings : Settings) :
    (webServerSetAlias false settings web).2.gAliasDoc = web.gAliasDoc := by
  change (aliasRelease web.gAliasDoc web).1 = web.gAliasDoc
  rw [aliasRelease, invalid]
  rfl

/-! ### A call -/

/-- The table of handles, the flags and the alias document are as before. -/
structure Same (sdk : Sdk) (web : State) (sdk' : Sdk) (web' : State) : Prop where
  table : sdk'.registry.handleTable = sdk.registry.handleTable
  flags : ∀ af, sdk'.registry.registered af = sdk.registry.registered af
  clients : sdk'.clientRegistered = sdk.clientRegistered
  gAliasDoc : web'.gAliasDoc = web.gAliasDoc
  documents : web'.documents = web.documents

theorem Same.refl (sdk : Sdk) (web : State) : Same sdk web sdk web := ⟨rfl, fun _ => rfl, rfl, rfl, rfl⟩

structure Begins (w : World) (args : Arguments) (sdk : Sdk) : Prop where
  sdkInit : sdk.sdkInit = true
  hnd : args.hnd = true
  func : args.func = true
  free : (getFreeHandle sdk.registry).isSome = true
  hinfo : w.hinfo = true

/-- Where a call comes to setting the alias, the document has a device; or the memory for the alias is out
and there was none before. -/
def AliasKept (w : World) (args : Arguments) (sdk : Sdk) (web : State) : Prop :=
  Begins w args sdk → ∀ doc descURL settings, prepare w args = .ok (doc, descURL, some settings) →
    if w.aliasing then hasDevice w doc = true else isValidAlias web.gAliasDoc = false

theorem freeHandle_entered {sdk : Sdk} {hnd : Nat} (free : getFreeHandle sdk.registry = some hnd)
    {entered : Registry} (table : entered.handleTable = sdk.registry.handleTable.set hnd (some .client))
    (flags : ∀ af, entered.registered af = sdk.registry.registered af) {web web' : State}
    (alias_ : web'.gAliasDoc = web.gAliasDoc) (documents : web'.documents = web.documents) :
    Same sdk web { sdk with registry := (freeHandle entered hnd).1 } web' := by
  obtain ⟨inside, empty⟩ := getFreeHandle_some free
  have here : getHandleInfo entered hnd = some .client := by
    rw [getHandleInfo_set table inside, if_pos rfl]
  obtain ⟨freed, same⟩ := freeHandle_table here
  obtain ⟨room, value⟩ := List.getElem?_eq_some_iff.mp empty
  refine ⟨?_, fun af => (same af).trans (flags af), rfl, alias_, documents⟩
  rw [freed, table, Int.toNat_natCast, List.set_set, ← value]
  exact List.set_getElem_self room

section
variable {w : World} {args : Arguments} {sdk : Sdk} {web : State}

theorem upnpRegisterRootDevice2_stopped (stopped : ¬Begins w args sdk) :
    ∃ out, upnpRegisterRootDevice2 w args sdk web = (sdk, web, out) := by
  rw [upnpRegisterRootDevice2]
  split
  · exact ⟨_, rfl⟩
  next sdkInit =>
    split
    · exact ⟨_, rfl⟩
    next valid =>
      split
      next => exact ⟨_, rfl⟩
      next hnd free =>
        split
        · exact ⟨_, rfl⟩
        next hinfo =>
          simp only [Bool.not_eq_true', Bool.not_eq_false, Bool.and_eq_true] at sdkInit valid hinfo
          exact absurd ⟨sdkInit, valid.1, valid.2, by rw [free]; rfl, hinfo⟩ stopped

theorem upnpRegisterRootDevice2_begun (begins : Begins w args sdk) :
    ∃ hnd, getFreeHandle sdk.registry = some hnd ∧ ∃ entered : Registry,
      entered.handleTable = sdk.registry.handleTable.set hnd (some .client) ∧
      (∀ af, entered.registered af = sdk.registry.registered af) ∧
      match getDescDocumentAndURL w args web with
      | (.error retVal, web') => upnpRegisterRootDevice2 w args sdk web =
          ({ sdk with registry := (freeHandle entered hnd).1 }, web', ⟨retVal, some (hnd : Int)⟩)
      | (.ok (doc, _), web') =>
        if hasDevice w doc then (upnpRegisterRootDevice2 w args sdk web).2.2.retVal = UPNP_E_SUCCESS
        else upnpRegisterRootDevice2 w args sdk web =
          ({ sdk with registry := (freeHandle entered hnd).1 }, web', ⟨UPNP_E_INVALID_DESC, some (hnd : Int)⟩) := by
  obtain ⟨hnd, free⟩ := Option.isSome_iff_exists.mp begins.free
  refine ⟨hnd, free, sdk.registry.put hnd (some .client) (by rintro _ ⟨⟩; trivial), rfl, ?_, ?_⟩
  · intro af
    cases af <;> rfl
  · have valid : (!(args.hnd && args.func)) = false := by
      rw [begins.hnd, begins.func]
      rfl
    simp only [upnpRegisterRootDevice2, begins.sdkInit, valid, free, begins.hinfo]
    obtain ⟨result, web'⟩ := getDescDocumentAndURL w args web
    cases result with
    | error retVal => rfl
    | ok got =>
      dsimp only
      cases hasDevice w got.1 <;> rfl

/-- A failed call leaves the table, the flags and the alias document as they were, just if it does not
come to setting the alias, or has no reason to fail behind that. -/
theorem upnpRegisterRootDevice2_undone {labels : List Web.AliasDocument.Step}
    (reached : run Web.AliasDocument.step labels .initial = some web) :
    ((upnpRegisterRootDevice2 w args sdk web).2.2.retVal ≠ UPNP_E_SUCCESS →
      Same sdk web (upnpRegisterRootDevice2 w args sdk web).1 (upnpRegisterRootDevice2 w args sdk web).2.1) ↔
      AliasKept w args sdk web := by
  by_cases begins : Begins w args sdk
  · obtain ⟨hnd, free, entered, table, flags, rest⟩ := @upnpRegisterRootDevice2_begun w args sdk web begins
    have undone {web' : State} (alias_ : web'.gAliasDoc = web.gAliasDoc) (documents : web'.documents = web.documents) :
        Same sdk web { sdk with registry := (freeHandle entered hnd).1 } web' :=
      freeHandle_entered free table flags alias_ documents
    have kept : AliasKept w args sdk web ↔
        ∀ doc descURL settings, prepare w args = .ok (doc, descURL, some settings) →
          if w.aliasing then hasDevice w doc = true else isValidAlias web.gAliasDoc = false :=
      ⟨fun right => right begins, fun right _ => right⟩
    rw [kept]
    simp only [getDescDocumentAndURL] at rest
    cases prepared : prepare w args with
    | error retVal =>
        simp only [prepared] at rest
        rw [rest]
        exact iff_of_true (fun _ => undone rfl rfl) (by simp)
    | ok got =>
        obtain ⟨doc, descURL, settings⟩ := got
        cases settings with
        | none =>
            simp only [prepared] at rest
            refine iff_of_true (fun failed => ?_) (by simp)
            split at rest
            next => exact absurd rest failed
            next =>
              rw [rest]
              exact undone rfl rfl
        | some settings =>
            have called : (∀ doc' descURL' settings', Except.ok (doc, descURL, some settings) =
                (Except.ok (doc', descURL', some settings') : Except Int _) →
                  if w.aliasing then hasDevice w doc' = true else isValidAlias web.gAliasDoc = false) ↔
                if w.aliasing then hasDevice w doc = true else isValidAlias web.gAliasDoc = false := by
              constructor
              · intro right
                exact right doc descURL settings rfl
              · rintro right _ _ _ ⟨⟩
                exact right
            rw [called]
            have documents := webServerSetAlias_documents (reachable_hasCounter reached) w.aliasing settings
            simp only [prepared] at rest
            cases memory : w.aliasing with
            | true =>
                have changed : (webServerSetAlias true settings web).2.documents ≠ web.documents := by
                  rw [memory] at documents
                  intro same
                  cases (documents.mp same).1
                rw [memory] at rest
                change if hasDevice w doc = true then _ else _ at rest
                rw [if_pos rfl]
                split at rest
                next device => exact iff_of_true (fun failed => absurd rest failed) device
                next noDevice =>
                  rw [rest]
                  apply iff_of_false
                  · intro right
                    exact changed (right (by decide : UPNP_E_INVALID_DESC ≠ UPNP_E_SUCCESS)).documents
                  · exact noDevice
            | false =>
                rw [memory] at documents rest
                change upnpRegisterRootDevice2 w args sdk web = _ at rest
                rw [rest, if_neg Bool.false_ne_true]
                constructor
                · intro right
                  exact (documents.mp (right (by decide : UPNP_E_OUTOF_MEMORY ≠ UPNP_E_SUCCESS)).documents).2
                · intro invalid _
                  exact undone (webServerSetAlias_kept invalid settings) (documents.mpr ⟨rfl, invalid⟩)
  · obtain ⟨out, same⟩ := @upnpRegisterRootDevice2_stopped w args sdk web begins
    rw [same]
    exact iff_of_true (fun _ => .refl sdk web) fun begun => absurd begun begins

end

/-! ### A call without a device -/

/-- The element of a document with this name and nothing in it. -/
def emptyElement (name : String) : Node := .element ⟨0, bytes name, none, bytes name⟩ [] []

/-- A world with memory enough, where every download is this document and there are no files. -/
def plainWorld (doc : List Node) : World where
  res := ⟨fun _ => none, fun _ _ => none, 0⟩
  errorChar := 0
  download _ := (UPNP_E_SUCCESS, doc)
  readFile _ := .notFound
  time := 0
  serverAddr := .inet ⟨192, 168, 0, 7⟩ 49152
  addr := 1
  printDocument _ := some (bytes "<root/>")
  serviceTable _ _ := []
  active := by
    intro doc descURL service member
    cases member
  hinfo := true
  parsing := true
  configuring := true
  aliasing := true
  listing := true

def emptySdk : Sdk := ⟨emptyRegistry, 0, true⟩

/-- A call with `config_baseURL` left out, for a description without a device. -/
def noDeviceCall (web : State) : Sdk × State × Outcome :=
  upnpRegisterRootDevice2 (plainWorld [emptyElement "root"]) ⟨.url, some (bytes "http://a/d.xml"), false, true, true⟩
    emptySdk web

/-- The description is downloaded and turned down, and the alias of an earlier call stays. -/
theorem upnpRegisterRootDevice2_undone_installed :
    ∃ web, run Web.AliasDocument.step [.setRelease (some ⟨bytes "e.xml", bytes "<root/>", 5⟩), .setPublish 0] .initial =
        some web ∧
      isValidAlias web.gAliasDoc = true ∧ (noDeviceCall web).2.2.retVal = UPNP_E_INVALID_DESC ∧
      Same emptySdk web (noDeviceCall web).1 (noDeviceCall web).2.1 := by
  have reads : (run Web.AliasDocument.step [.setRelease (some ⟨bytes "e.xml", bytes "<root/>", 5⟩), .setPublish 0]
      .initial).map (fun web => (isValidAlias web.gAliasDoc, (noDeviceCall web).2.2.retVal)) =
        some (true, UPNP_E_INVALID_DESC) := by decide +kernel
  obtain ⟨web, reached, found⟩ := Option.map_eq_some_iff.mp reads
  obtain ⟨installed, turnedDown⟩ := Prod.mk.inj found
  have kept : AliasKept (plainWorld [emptyElement "root"])
      ⟨.url, some (bytes "http://a/d.xml"), false, true, true⟩ emptySdk web := by
    intro _ doc descURL settings prepared
    cases prepared
  refine ⟨web, reached, installed, turnedDown, (upnpRegisterRootDevice2_undone reached).mpr kept ?_⟩
  rw [← noDeviceCall, turnedDown]
  decide

/-- A description without a device is turned down, but its alias stays. -/
theorem upnpRegisterRootDevice2_alias :
    (upnpRegisterRootDevice2 (plainWorld [emptyElement "root"]) ⟨.url, some (bytes "http://a/d.xml"), true, true, true⟩
        emptySdk .initial).2.2.retVal = UPNP_E_INVALID_DESC ∧
      isValidAlias (State.initial).gAliasDoc = false ∧
      isValidAlias (upnpRegisterRootDevice2 (plainWorld [emptyElement "root"])
        ⟨.url, some (bytes "http://a/d.xml"), true, true, true⟩ emptySdk .initial).2.1.gAliasDoc = true := by
  decide +kernel

end Pupnp.Api.RootDevice
