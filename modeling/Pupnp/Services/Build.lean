import Pupnp.Services.Table
import Pupnp.Library.Cells
import Pupnp.Uri.Resolve
import Pupnp.Uri.Tokens

/-!
The service table of a description document. `getServiceList` makes a `service_info` for every service element
and takes it back where an element is missing, but the two URLs that may be missing reset its flag.
-/

namespace Pupnp.Services
open Pupnp.CString Pupnp.Uri Pupnp.LinkedHeap
open Pupnp.Ixml (Node)

def urlOf (res : Resolver) (urlBase : Option (List UInt8)) (elementName : List UInt8) (currentService : List Node) :
    Option (List UInt8) :=
  (valueOf elementName currentService).bind (resolveRelUrl res urlBase)

/-- The children of a service element as they are read, and the flag `fail` behind them. -/
def readService (res : Resolver) (urlBase udn : Option (List UInt8)) (currentService : List Node) : ServiceInfo × Bool :=
  let serviceType := valueOf (bytes "serviceType") currentService
  let serviceId := valueOf (bytes "serviceId") currentService
  let SCPDURL := urlOf res urlBase (bytes "SCPDURL") currentService
  let controlURL := urlOf res urlBase (bytes "controlURL") currentService
  let eventURL := urlOf res urlBase (bytes "eventSubURL") currentService
  let fail := udn.isNone || (serviceType.isNone || (serviceId.isNone || SCPDURL.isNone))
  let fail := if controlURL.isNone then false else fail
  let fail := if eventURL.isNone then false else fail
  (⟨serviceType, serviceId, SCPDURL, controlURL, eventURL, udn, 1, 0, none⟩, fail)

def freshAddress (heap : Heap ServiceInfo) : Nat := heap.keys.foldr max 0 + 1

structure Building where
  head : Option Nat
  current : Option Nat
  previous : Option Nat
  heap : Heap ServiceInfo

/-- A round of the loop. `none` stands for a pointer that is dangling and is dereferenced. -/
def addService (res : Resolver) (urlBase udn : Option (List UInt8)) (b : Building) (currentService : Node) :
    Option Building := do
  let read := readService res urlBase udn (childNodes currentService)
  let a := freshAddress b.heap
  let (head, heap) ← relink b.current (some a) b.head (b.heap.insert a ⟨read.1, none⟩)
  let previous := if b.current.isSome then b.current else b.previous
  if read.2 then
    let (head, heap) ← relink previous none head (heap.erase a)
    return ⟨head, previous, previous, heap⟩
  else return ⟨head, some a, previous, heap⟩

def getServiceList (res : Resolver) (urlBase : Option (List UInt8)) (heap : Heap ServiceInfo) (node : List Node) :
    Option (Option Nat × Option Nat × Heap ServiceInfo) :=
  match getSubElement (bytes "UDN") node, getSubElement (bytes "serviceList") node with
  | some udn, some serviceList =>
      ((getElementsByTagName (bytes "service") serviceList).foldlM (addService res urlBase (getElementValue udn))
        ⟨none, none, none, heap⟩).map fun b => (b.head, b.current, b.heap)
  | _, _ => some (none, none, heap)

structure Collection where
  head : Option Nat
  end_ : Option Nat
  nextEnd : Option Nat
  heap : Heap ServiceInfo

def addDevice (res : Resolver) (urlBase : Option (List UInt8)) (c : Collection) (currentDevice : Node) :
    Option Collection := do
  let (list, listEnd, heap) ← getServiceList res urlBase c.heap (childNodes currentDevice)
  if c.head.isSome then
    let e ← c.end_
    let (head, heap) ← relink (some e) list c.head heap
    return ⟨head, if listEnd.isSome then listEnd else c.end_, listEnd, heap⟩
  else return ⟨list, listEnd, c.nextEnd, heap⟩

def getAllServiceList (res : Resolver) (urlBase : Option (List UInt8)) (heap : Heap ServiceInfo) (node : Node) :
    Option Collection :=
  (getElementsByTagName (bytes "device") node).foldlM (addDevice res urlBase) ⟨none, none, none, heap⟩

def urlBaseOf (root : Node) (defaultURLBase : Option (List UInt8)) : Option (List UInt8) :=
  match getSubElement (bytes "URLBase") (childNodes root) with
  | some urlBase => getElementValue urlBase
  | none => some ((defaultURLBase.map cstr).getD [])

/-- `getServiceTable`; the node is a document. -/
def getServiceTable (res : Resolver) (node : List Node) (out : ServiceTable) (defaultURLBase : Option (List UInt8)) :
    Option (Int × ServiceTable) :=
  match getSubElement (bytes "root") node with
  | none => some (0, out)
  | some root =>
      let urlBase := urlBaseOf root defaultURLBase
      (getAllServiceList res urlBase out.heap root).map fun c =>
        (if c.head.isSome then 1 else 0, ⟨urlBase, c.head, c.end_, c.heap⟩)

def emptyTable : ServiceTable := ⟨none, none, none, ∅⟩

/-! ### The services of a document -/

def servicesOf (res : Resolver) (urlBase : Option (List UInt8)) (device : List Node) : List ServiceInfo :=
  match getSubElement (bytes "UDN") device, getSubElement (bytes "serviceList") device with
  | some udn, some serviceList =>
      (getElementsByTagName (bytes "service") serviceList).filterMap fun service =>
        let read := readService res urlBase (getElementValue udn) (childNodes service)
        if read.2 then none else some read.1
  | _, _ => []

def allServices (res : Resolver) (urlBase : Option (List UInt8)) (root : Node) : List ServiceInfo :=
  (getElementsByTagName (bytes "device") root).flatMap fun device => servicesOf res urlBase (childNodes device)

/-- These cells have been made since `base`, and what was there is unchanged. -/
structure Made (base heap : Heap ServiceInfo) (cells : List (Nat × ServiceInfo)) : Prop where
  fresh : ∀ a ∈ addresses cells, base.lookup a = none
  kept : ∀ a, base.lookup a ≠ none → heap.lookup a = base.lookup a

/-- The services so far are linked from the head, and `current` is the last one. -/
structure Built (base : Heap ServiceInfo) (b : Building) (cells : List (Nat × ServiceInfo)) : Prop where
  listed : Listed b.heap b.head cells
  current : b.current = lastAddress cells
  previous : b.current = none → b.previous = none
  made : Made base b.heap cells

section Build
variable {res : Resolver} {urlBase : Option (List UInt8)} {base heap : Heap ServiceInfo}

theorem freshAddress_free (heap : Heap ServiceInfo) : heap.lookup (freshAddress heap) = none :=
  Cells.addressBehind_fresh heap

/-- A service that is complete enough becomes the last one; another one leaves the list as it was. -/
theorem addService_built {udn : Option (List UInt8)} {b : Building} {cells : List (Nat × ServiceInfo)} (built : Built base b cells)
    (service : Node) :
    ∃ b' cells', addService res urlBase udn b service = some b' ∧ Built base b' cells' ∧
      cells'.map Prod.snd = cells.map Prod.snd ++
        (let read := readService res urlBase udn (childNodes service)
          if read.2 then none else some read.1).toList := by
  obtain ⟨listed, current, previous, made⟩ := built
  unfold addService
  dsimp only
  generalize readService res urlBase udn (childNodes service) = read
  have free := freshAddress_free b.heap
  generalize freshAddress b.heap = a at free ⊢
  have outside : a ∉ addresses cells := by
    intro inside
    obtain ⟨cell, member, rfl⟩ := List.mem_map.mp inside
    obtain ⟨next, found⟩ := listed.lookup member
    rw [found] at free
    contradiction
  have unused : base.lookup a = none := by
    by_contra used
    exact used ((made.kept a used).symm.trans free)
  have other {x : Nat} (old : base.lookup x ≠ none) : x ∉ addresses cells ∧ x ≠ a := by
    refine ⟨fun inside => old (made.fresh x inside), ?_⟩
    rintro rfl
    exact old unused
  have nodup : (addresses (cells ++ [(a, read.1)])).Nodup := by
    rw [addresses_append, List.nodup_append]
    refine ⟨listed.nodup, List.nodup_singleton a, fun x inside y mine => ?_⟩
    rw [List.mem_singleton.mp mine]
    exact ne_of_mem_of_not_mem inside outside
  have own : Path (b.heap.insert a ⟨read.1, none⟩) (some a) [(a, read.1)] none :=
    ⟨rfl, none, AList.lookup_insert b.heap, rfl⟩
  obtain ⟨head', heap', linked, path, frame⟩ := relink_path (listed.insert outside _) own nodup
  have last : (if b.current.isSome then b.current else b.previous) = lastAddress cells := by
    cases here : b.current with
    | none => rw [← current, here]; exact previous here
    | some c => rw [← current, here]; rfl
  rw [last, current, linked]
  simp only [Option.bind_eq_bind, Option.bind_some, pure]
  cases read.2 with
  | false =>
    refine ⟨⟨head', some a, lastAddress cells, heap'⟩, cells ++ [(a, read.1)], rfl, ⟨path, (lastAddress_snoc cells a read.1).symm, ?_, ?_, ?_⟩, by simp⟩
    · intro none
      exact absurd none (Option.some_ne_none a)
    · intro x inside
      rw [addresses_append, List.mem_append] at inside
      rcases inside with inside | mine
      · exact made.fresh x inside
      · rw [List.mem_singleton.mp mine]
        exact unused
    · intro x old
      obtain ⟨apart, more⟩ := other old
      rw [frame x apart, AList.lookup_insert_ne more]
      exact made.kept x old
  | true =>
    obtain ⟨mid, before, -⟩ := path_append.mp path
    have nothing : Path (heap'.erase a) none ([] : List (Nat × ServiceInfo)) none := rfl
    obtain ⟨head'', heap'', undone, path', frame'⟩ := relink_path (before.erase outside) nothing (by simpa using listed.nodup)
    simp only [if_true, undone, Option.bind_some]
    refine ⟨⟨head'', lastAddress cells, lastAddress cells, heap''⟩, cells, rfl,
      ⟨by simpa using path', rfl, id, made.fresh, ?_⟩, by simp⟩
    intro x old
    obtain ⟨apart, more⟩ := other old
    rw [frame' x apart, AList.lookup_erase_ne more, frame x apart, AList.lookup_insert_ne more]
    exact made.kept x old

theorem addServices_built {udn : Option (List UInt8)} {b : Building} {cells : List (Nat × ServiceInfo)}
    (built : Built base b cells) (services : List Node) :
    ∃ b' cells', services.foldlM (addService res urlBase udn) b = some b' ∧ Built base b' cells' ∧
      cells'.map Prod.snd = cells.map Prod.snd ++ services.filterMap fun service =>
        let read := readService res urlBase udn (childNodes service)
        if read.2 then none else some read.1 := by
  induction services generalizing b cells with
  | nil => exact ⟨b, cells, rfl, built, by simp⟩
  | cons service services ih =>
    obtain ⟨b₁, cells₁, added, built₁, more₁⟩ := @addService_built res urlBase base udn b cells built service
    obtain ⟨b₂, cells₂, rest, built₂, more₂⟩ := ih built₁
    refine ⟨b₂, cells₂, ?_, built₂, ?_⟩
    · rw [List.foldlM_cons, added]
      exact rest
    · rw [more₂, more₁, List.append_assoc, List.filterMap_cons]
      dsimp only
      cases (readService res urlBase udn (childNodes service)).2 <;> rfl

theorem getServiceList_made (heap : Heap ServiceInfo) (device : List Node) :
    ∃ head heap' cells, getServiceList res urlBase heap device = some (head, lastAddress cells, heap') ∧
      Listed heap' head cells ∧ cells.map Prod.snd = servicesOf res urlBase device ∧ Made heap heap' cells := by
  have nothing : Made heap heap [] := ⟨fun a none => absurd none List.not_mem_nil, fun _ _ => rfl⟩
  unfold getServiceList servicesOf
  split
  next udn serviceList _ _ =>
    obtain ⟨b, cells, added, built, more⟩ := @addServices_built res urlBase heap (getElementValue udn)
      ⟨none, none, none, heap⟩ [] ⟨rfl, rfl, id, nothing⟩ (getElementsByTagName (bytes "service") serviceList)
    exact ⟨b.head, b.heap, cells, by rw [added, Option.map_some, built.current], built.listed, more, built.made⟩
  next => exact ⟨none, heap, [], rfl, rfl, rfl, nothing⟩

/-- The services of the devices so far are linked from the head to the recorded end. -/
structure Collected (c : Collection) (cells : List (Nat × ServiceInfo)) : Prop where
  listed : Listed c.heap c.head cells
  last : c.end_ = lastAddress cells

theorem lastAddress_append (cells more : List (Nat × ServiceInfo)) :
    lastAddress (cells ++ more) = if (lastAddress more).isSome then lastAddress more else lastAddress cells := by
  cases more using List.reverseRecOn with
  | nil => simp [lastAddress]
  | append_singleton more cell =>
    obtain ⟨a, service⟩ := cell
    rw [← List.append_assoc, lastAddress_snoc, lastAddress_snoc]
    rfl

theorem addDevice_collected {c : Collection} {cells : List (Nat × ServiceInfo)} (collected : Collected c cells) (device : Node) :
    ∃ c' cells', addDevice res urlBase c device = some c' ∧ Collected c' cells' ∧
      cells'.map Prod.snd = cells.map Prod.snd ++ servicesOf res urlBase (childNodes device) := by
  obtain ⟨listed, last⟩ := collected
  obtain ⟨list, heap', more, called, added, services, made⟩ :=
    @getServiceList_made res urlBase c.heap (childNodes device)
  unfold addDevice
  simp only [called, Option.bind_eq_bind, Option.bind_some, pure]
  cases cells using List.reverseRecOn with
  | nil =>
    have empty : c.head = none := listed
    rw [empty]
    exact ⟨_, more, rfl, ⟨added, rfl⟩, by rw [services]; rfl⟩
  | append_singleton front cell =>
    obtain ⟨e, service⟩ := cell
    have ended : c.end_ = some e := by rw [last, lastAddress_snoc]
    have known {x : Nat} (inside : x ∈ addresses (front ++ [(e, service)])) : c.heap.lookup x ≠ none := by
      obtain ⟨old, member, rfl⟩ := List.mem_map.mp inside
      obtain ⟨next, found⟩ := listed.lookup member
      rw [found]
      exact Option.some_ne_none _
    have same : Listed heap' c.head (front ++ [(e, service)]) := listed.congr fun x inside => made.kept x (known inside)
    have nodup : (addresses (front ++ [(e, service)] ++ more)).Nodup := by
      rw [addresses_append]
      refine List.nodup_append.mpr ⟨listed.nodup, added.nodup, fun x inside y mine same => ?_⟩
      exact known inside (made.fresh x (same ▸ mine))
    obtain ⟨head', heap'', linked, path, -⟩ := relink_path same added nodup
    rw [lastAddress_snoc] at linked
    have some : c.head.isSome = true := by
      cases none : c.head with
      | none =>
        rw [none] at listed
        cases front with
        | nil => exact absurd listed.1 (Option.some_ne_none e).symm
        | cons first front => exact absurd listed.1 (Option.some_ne_none _).symm
      | some a => rfl
    simp only [some, if_true, ended, Option.bind_some, linked]
    refine ⟨_, front ++ [(e, service)] ++ more, rfl, ⟨path, ?_⟩, by rw [List.map_append, services]⟩
    rw [lastAddress_append, lastAddress_snoc]

theorem getAllServiceList_collected (root : Node) (heap : Heap ServiceInfo) :
    ∃ c cells, getAllServiceList res urlBase heap root = some c ∧ Collected c cells ∧
      cells.map Prod.snd = allServices res urlBase root := by
  have all (devices : List Node) {c : Collection} {cells : List (Nat × ServiceInfo)} (collected : Collected c cells) :
      ∃ c' cells', devices.foldlM (addDevice res urlBase) c = some c' ∧ Collected c' cells' ∧
        cells'.map Prod.snd = cells.map Prod.snd ++
          devices.flatMap fun device => servicesOf res urlBase (childNodes device) := by
    induction devices generalizing c cells with
    | nil => exact ⟨c, cells, rfl, collected, by simp⟩
    | cons device devices ih =>
      obtain ⟨c₁, cells₁, added, collected₁, more₁⟩ := @addDevice_collected res urlBase c cells collected device
      obtain ⟨c₂, cells₂, rest, collected₂, more₂⟩ := ih collected₁
      refine ⟨c₂, cells₂, ?_, collected₂, ?_⟩
      · rw [List.foldlM_cons, added]
        exact rest
      · rw [more₂, more₁, List.append_assoc, List.flatMap_cons]
  obtain ⟨c, cells, added, collected, more⟩ :=
    @all (getElementsByTagName (bytes "device") root) ⟨none, none, none, heap⟩ [] ⟨rfl, rfl⟩
  exact ⟨c, cells, added, collected, more⟩

end Build

/-! ### What the lookups rely on -/

def ServiceInfo.complete (service : ServiceInfo) : Bool :=
  service.UDN.isSome && (service.serviceType.isSome && (service.serviceId.isSome && service.SCPDURL.isSome))

/-- The services are complete and linked up to the recorded end, and no lookup dereferences NULL. -/
structure Usable (table : ServiceTable) : Prop where
  complete : ∃ services, table.Holds services ∧ ∀ service ∈ services, service.2.complete = true
  serviceId : ∀ serviceId udn, (findServiceId table serviceId udn).isSome
  eventURL : ∀ res path, (findServiceEventURLPath res table path).isSome
  controlURL : ∀ res path, (findServiceControlURLPath res table path).isSome

def hasRequired (res : Resolver) (urlBase udn : Option (List UInt8)) (service : List Node) : Bool :=
  udn.isSome && ((valueOf (bytes "serviceType") service).isSome && ((valueOf (bytes "serviceId") service).isSome &&
    (urlOf res urlBase (bytes "SCPDURL") service).isSome))

def hasUrls (res : Resolver) (urlBase : Option (List UInt8)) (service : List Node) : Bool :=
  (urlOf res urlBase (bytes "controlURL") service).isSome && (urlOf res urlBase (bytes "eventSubURL") service).isSome

/-- Every service element of a device that lacks something has both URLs. -/
def Described (res : Resolver) (node : List Node) (defaultURLBase : Option (List UInt8)) : Prop :=
  ∀ root, getSubElement (bytes "root") node = some root →
    ∀ device ∈ getElementsByTagName (bytes "device") root,
      ∀ udn serviceList, getSubElement (bytes "UDN") (childNodes device) = some udn →
        getSubElement (bytes "serviceList") (childNodes device) = some serviceList →
          ∀ service ∈ getElementsByTagName (bytes "service") serviceList,
            (hasRequired res (urlBaseOf root defaultURLBase) (getElementValue udn) (childNodes service) ||
              hasUrls res (urlBaseOf root defaultURLBase) (childNodes service)) = true

theorem readService_complete (res : Resolver) (urlBase udn : Option (List UInt8)) (service : List Node) :
    let read := readService res urlBase udn service
    (read.2 || read.1.complete) = (hasRequired res urlBase udn service || hasUrls res urlBase service) := by
  unfold readService hasRequired hasUrls ServiceInfo.complete
  dsimp only
  generalize valueOf (bytes "serviceType") service = serviceType
  generalize valueOf (bytes "serviceId") service = serviceId
  generalize urlOf res urlBase (bytes "SCPDURL") service = SCPDURL
  generalize urlOf res urlBase (bytes "controlURL") service = controlURL
  generalize urlOf res urlBase (bytes "eventSubURL") service = eventURL
  cases udn <;> cases serviceType <;> cases serviceId <;> cases SCPDURL <;> cases controlURL <;> cases eventURL <;> rfl

theorem servicesOf_complete (res : Resolver) (urlBase : Option (List UInt8)) (device : List Node) :
    (∀ service ∈ servicesOf res urlBase device, service.complete = true) ↔
      ∀ udn serviceList, getSubElement (bytes "UDN") device = some udn →
        getSubElement (bytes "serviceList") device = some serviceList →
          ∀ service ∈ getElementsByTagName (bytes "service") serviceList,
            (hasRequired res urlBase (getElementValue udn) (childNodes service) ||
              hasUrls res urlBase (childNodes service)) = true := by
  unfold servicesOf
  split
  next udn serviceList named listed =>
    rw [named, listed]
    constructor
    · rintro all udn' list' ⟨⟩ ⟨⟩ service member
      have here := readService_complete res urlBase (getElementValue udn) (childNodes service)
      rw [← here]
      cases failed : (readService res urlBase (getElementValue udn) (childNodes service)).2 with
      | true => rfl
      | false =>
        refine all _ (List.mem_filterMap.mpr ⟨service, member, ?_⟩)
        simp [failed]
    · intro good info member
      obtain ⟨service, inside, kept⟩ := List.mem_filterMap.mp member
      have here := readService_complete res urlBase (getElementValue udn) (childNodes service)
      have fits := good udn serviceList rfl rfl service inside
      rw [← here] at fits
      dsimp only at kept fits
      split at kept
      next => contradiction
      next passed =>
        rw [← Option.some.inj kept]
        simpa [passed] using fits
  next missing =>
    constructor
    · intro _ udn serviceList named listed
      exact absurd listed (missing udn serviceList named)
    · intro _ info none
      exact absurd none List.not_mem_nil

def isService (serviceId udn : List UInt8) (service : ServiceInfo) : Bool :=
  cstr serviceId = cstr (service.serviceId.getD []) && cstr udn = cstr (service.UDN.getD [])

theorem hasServiceId_complete (serviceId udn : List UInt8) {service : ServiceInfo} (complete : service.complete = true) :
    hasServiceId serviceId udn service = some (isService serviceId udn service) := by
  simp only [ServiceInfo.complete, Bool.and_eq_true, Option.isSome_iff_exists] at complete
  obtain ⟨⟨own, named⟩, -, ⟨id, identified⟩, -⟩ := complete
  unfold hasServiceId isService
  rw [named, identified]
  simp only [Option.bind_some, Option.map_some, Option.getD_some]
  split
  next same => simp [same]
  next other => simp [other]

theorem usable_of_complete {table : ServiceTable} {services : List (Nat × ServiceInfo)} (holds : table.Holds services)
    (complete : ∀ service ∈ services, service.2.complete = true) : Usable table where
  complete := ⟨services, holds, complete⟩
  serviceId := by
    intro serviceId udn
    have found := @ServiceTable.Holds.find table services (hasServiceId serviceId udn) (isService serviceId udn) holds
      fun service member => hasServiceId_complete serviceId udn (complete service member)
    rw [findServiceId, found]
    rfl
  eventURL := fun res path => holds.findURLPath res ServiceInfo.eventURL path
  controlURL := fun res path => holds.findURLPath res ServiceInfo.controlURL path

/-- The table of a description can be used if and only if no service element lacks a required element together
with one of the two URLs. -/
theorem getServiceTable_usable (res : Resolver) (node : List Node) (defaultURLBase : Option (List UInt8)) :
    (∃ rc table, getServiceTable res node emptyTable defaultURLBase = some (rc, table) ∧ Usable table) ↔
      Described res node defaultURLBase := by
  unfold getServiceTable Described
  cases rooted : getSubElement (bytes "root") node with
  | none =>
      have empty : emptyTable.Holds [] := ⟨rfl, rfl⟩
      have usable := usable_of_complete empty fun service none => absurd none List.not_mem_nil
      exact iff_of_true ⟨0, emptyTable, rfl, usable⟩ fun root none => absurd none (Option.some_ne_none root).symm
  | some root =>
      obtain ⟨c, cells, collected, kept, services⟩ :=
        @getAllServiceList_collected res (urlBaseOf root defaultURLBase) root emptyTable.heap
      simp only [collected, Option.map_some]
      have holds : ServiceTable.Holds ⟨urlBaseOf root defaultURLBase, c.head, c.end_, c.heap⟩ cells := ⟨kept.listed, kept.last⟩
      have all : (∀ service ∈ cells, service.2.complete = true) ↔
          ∀ device ∈ getElementsByTagName (bytes "device") root, ∀ service ∈
            servicesOf res (urlBaseOf root defaultURLBase) (childNodes device), service.complete = true := by
        have values : (∀ service ∈ cells, service.2.complete = true) ↔
            ∀ service ∈ cells.map Prod.snd, service.complete = true := by simp only [List.forall_mem_map]
        rw [values, services, allServices]
        simp only [List.mem_flatMap, forall_exists_index, and_imp]
        exact ⟨fun good device member service => good service device member,
          fun good service device member => good device member service⟩
      constructor
      · rintro ⟨rc, table, same, usable⟩ root' ⟨⟩ device member
        obtain ⟨services', listed, complete⟩ := usable.complete
        obtain ⟨rfl, rfl⟩ := Prod.mk.inj (Option.some.inj same)
        rw [listed.1.unique holds.1] at complete
        exact (servicesOf_complete res _ _).mp (all.mp complete device member)
      · intro described
        refine ⟨_, _, rfl, usable_of_complete holds (all.mpr fun device member => ?_)⟩
        exact (servicesOf_complete res _ _).mpr (described root rfl device member)

/-- A service without `serviceId` and without `controlURL`. -/
def namelessService : List Node :=
  [element 0 (bytes "root") [element 1 (bytes "device") [element 2 (bytes "UDN") [.text (bytes "uuid:1")],
    element 3 (bytes "serviceList") [element 4 (bytes "service") [
      element 5 (bytes "serviceType") [.text (bytes "urn:schemas-upnp-org:service:Lamp:1")],
      element 6 (bytes "SCPDURL") [.text (bytes "/scpd.xml")],
      element 7 (bytes "eventSubURL") [.text (bytes "/event")]]]]]]

/-- It is put into the table, and `FindServiceId` compares a string with its `serviceId`, which is NULL. -/
theorem getServiceTable_nameless :
    (getServiceTable numericHosts namelessService emptyTable (some (bytes "http://10.0.0.1/"))).map (fun result =>
        (result.1, findServiceId result.2 (bytes "urn:upnp-org:serviceId:Lamp") (bytes "uuid:1"))) = some (1, none) ∧
      ¬∃ rc table, getServiceTable numericHosts namelessService emptyTable (some (bytes "http://10.0.0.1/")) = some (rc, table) ∧
        Usable table := by
  have found : (getServiceTable numericHosts namelessService emptyTable (some (bytes "http://10.0.0.1/"))).map (fun result =>
      (result.1, findServiceId result.2 (bytes "urn:upnp-org:serviceId:Lamp") (bytes "uuid:1"))) = some (1, none) := by
    decide +kernel
  refine ⟨found, ?_⟩
  rintro ⟨rc, table, same, usable⟩
  rw [same] at found
  have null := (Prod.mk.inj (Option.some.inj found)).2
  have safe := usable.serviceId (bytes "urn:upnp-org:serviceId:Lamp") (bytes "uuid:1")
  rw [null] at safe
  exact Bool.false_ne_true safe

end Pupnp.Services
