import Pupnp.Ixml.Root
import Pupnp.Services.Table

/-!
Services that are taken out of the table again. `removeServiceTable` goes through the devices of a description
document and looks for the UDN of each of them, but in the document and not in the device.
-/

namespace Pupnp.Services
open Pupnp.CString Pupnp.LinkedHeap
open Pupnp.Ixml (Node Document)

/-- A document as the parser makes it: one element at most, the root. -/
structure Description where
  document : Document
  single : document.children.length ≤ 1
  elements : ∀ node ∈ document.children, node.isElement = true

def Description.parsed {errorChar : Int} {buffer : List UInt8} {document : Document}
    (parsed : Ixml.ixmlParseBufferEx errorChar buffer = .ok document) : Description where
  document := document
  single := (Ixml.ixmlParseBufferEx_root parsed).1
  elements := (Ixml.ixmlParseBufferEx_root parsed).2

/-- The locals of `removeServiceTable` that stay from one device to the next. -/
structure Removal where
  table : ServiceTable
  startSearch : Option Nat
  prevService : Option Nat

/-- The loop that goes on to the first service with the UDN: `current_service` and `prev_service`. `none`
stands for a pointer that is NULL or dangling and is dereferenced; the number bounds the rounds. -/
def skipLoop (udn : List UInt8) (heap : Heap ServiceInfo) :
    Nat → Option Nat → Option Nat → Option (Option Nat × Option Nat)
  | _, none, prevService => some (none, prevService)
  | 0, some _, _ => none
  | rounds + 1, some currentService, prevService => do
      let service ← heap.lookup currentService
      let own ← service.value.UDN
      if own = udn then some (some currentService, prevService)
      else match service.next with
        | none => skipLoop udn heap rounds none prevService
        | some next => do
            let behind ← heap.lookup next
            skipLoop udn heap rounds (some next) behind.next

/-- The loop that frees the services with the UDN, from `current_service` on. -/
def removeLoop (udn : List UInt8) : Nat → Option Nat → Removal → Option Removal
  | _, none, r => some r
  | 0, some _, _ => none
  | rounds + 1, some currentService, r => do
      let service ← r.table.heap.lookup currentService
      let own ← service.value.UDN
      if own ≠ udn then some r
      else do
        let (serviceList, heap) ← relink r.prevService service.next r.table.serviceList r.table.heap
        let endServiceList :=
          if r.table.endServiceList = some currentService then r.prevService else r.table.endServiceList
        let unlinked ← heap.lookup currentService
        let table : ServiceTable :=
          { r.table with serviceList := serviceList, endServiceList := endServiceList, heap := heap.erase currentService }
        removeLoop udn rounds unlinked.next { r with table := table, startSearch := unlinked.next }

def removeDevice (node : List Node) (r : Removal) : Option Removal :=
  match r.startSearch, valueOf (bytes "UDN") node with
  | some startSearch, some udn => do
      let rounds := r.table.heap.entries.length
      let (currentService, prevService) ← skipLoop udn r.table.heap rounds (some startSearch) r.prevService
      removeLoop udn rounds currentService { r with prevService := prevService }
  | _, _ => some r

/-- `removeServiceTable`; the node is a document. -/
def removeServiceTable (node : List Node) (table : ServiceTable) : Option ServiceTable :=
  match getSubElement (bytes "root") node with
  | none => some table
  | some root =>
      let deviceList := getElementsByTagName (bytes "device") root
      (deviceList.foldlM (fun r _ => removeDevice node r) ⟨table, table.serviceList, none⟩).map (·.table)

def deviceUDNs (node : List Node) : List (List UInt8) :=
  (getElementsByTagNameRecursive (bytes "device") node).filterMap fun device =>
    valueOf (bytes "UDN") (childNodes device)

/-- The service belongs to a device of the document. -/
def ServiceInfo.isOf (node : List Node) (service : ServiceInfo) : Bool :=
  service.UDN.any fun udn => udn ∈ deviceUDNs node

theorem valueOf_description (doc : Description) {root : Node} (rooted : getSubElement (bytes "root") doc.document.children = some root) :
    valueOf (bytes "UDN") doc.document.children = none := by
  have member := List.mem_of_find?_eq_some rooted
  have named := List.find?_some rooted
  obtain ⟨first, rest, split⟩ := List.exists_cons_of_ne_nil (List.ne_nil_of_mem member)
  have single := doc.single
  rw [split, List.length_cons] at single
  obtain rfl : rest = [] := List.eq_nil_of_length_eq_zero (by omega)
  rw [split] at member ⊢
  obtain rfl := List.mem_singleton.mp member
  cases root with
  | element tag attrs children =>
    have name : tag.nodeName = bytes "root" := of_decide_eq_true named
    have other : bytes "root" ≠ bytes "UDN" := by decide
    simp [valueOf, getSubElement, isElement, name, other]
  | text value => contradiction
  | cdataSection value => contradiction

theorem removeServiceTable_description (doc : Description) (table : ServiceTable) :
    removeServiceTable doc.document.children table = some table := by
  unfold removeServiceTable
  cases rooted : getSubElement (bytes "root") doc.document.children with
  | none => rfl
  | some root =>
    have nothing := valueOf_description doc rooted
    have same (r : Removal) : removeDevice doc.document.children r = some r := by
      unfold removeDevice
      rw [nothing]
      cases r.startSearch <;> rfl
    have fold (devices : List Node) (r : Removal) :
        devices.foldlM (fun r _ => removeDevice doc.document.children r) r = some r := by
      induction devices generalizing r with
      | nil => rfl
      | cons device devices ih =>
        rw [List.foldlM_cons, same]
        exact ih r
    simp only [fold, Option.map_some]

/-- For every table and description document: exactly the services of the document's devices are removed if
and only if the table has none of them. -/
theorem removeServiceTable_exact (doc : Description) (table : ServiceTable) (services : List (Nat × ServiceInfo))
    (holds : table.Holds services) :
    (∃ after, removeServiceTable doc.document.children table = some after ∧
        after.Holds (services.filter fun service => !service.2.isOf doc.document.children)) ↔
      ∀ service ∈ services, service.2.isOf doc.document.children = false := by
  rw [removeServiceTable_description]
  constructor
  · rintro ⟨after, same, left⟩
    obtain rfl := Option.some.inj same
    have all := holds.1.unique left.1
    intro service member
    rw [all] at member
    simpa using (List.mem_filter.mp member).2
  · intro none
    refine ⟨table, rfl, ?_⟩
    have all : (services.filter fun service => !service.2.isOf doc.document.children) = services := by
      apply List.filter_eq_self.mpr
      intro service member
      simpa using none service member
    exact all.symm ▸ holds

def rootDevice (udn : List UInt8) : List Node :=
  [element 0 (bytes "root") [element 1 (bytes "device") [element 2 (bytes "UDN") [.text udn]]]]

def rootDescription (udn : List UInt8) : Description where
  document := ⟨rootDevice udn, fun _ => none⟩
  single := le_rfl
  elements := fun node member => by rw [List.mem_singleton.mp member]; rfl

def lamp : ServiceInfo :=
  ⟨some (bytes "urn:service:Lamp:1"), some (bytes "urn:serviceId:Lamp"), some (bytes "/scpd"), none, none,
    some (bytes "uuid:1"), 1, 0, none⟩

def lampTable : ServiceTable := ⟨some [], some 1, some 1, AList.insert 1 ⟨lamp, none⟩ ∅⟩

theorem lampTable_holds : lampTable.Holds [(1, lamp)] := ⟨⟨rfl, none, rfl, rfl⟩, rfl⟩

/-- The device of the document is another one. -/
theorem removeServiceTable_exact_other :
    ∃ after, removeServiceTable (rootDevice (bytes "uuid:2")) lampTable = some after ∧
      after.Holds ([(1, lamp)].filter fun service => !service.2.isOf (rootDevice (bytes "uuid:2"))) := by
  have none : ∀ service ∈ [(1, lamp)], service.2.isOf (rootDevice (bytes "uuid:2")) = false := by decide
  exact (removeServiceTable_exact (rootDescription (bytes "uuid:2")) lampTable [(1, lamp)] lampTable_holds).mpr none

/-- The service of the document's device stays in the table. -/
theorem removeServiceTable_stays :
    lamp.isOf (rootDevice (bytes "uuid:1")) = true ∧
      (removeServiceTable (rootDevice (bytes "uuid:1")) lampTable).map (·.serviceList) = some (some 1) ∧
      ¬∃ after, removeServiceTable (rootDevice (bytes "uuid:1")) lampTable = some after ∧
        after.Holds ([(1, lamp)].filter fun service => !service.2.isOf (rootDevice (bytes "uuid:1"))) := by
  have own : lamp.isOf (rootDevice (bytes "uuid:1")) = true := by decide
  have unchanged := removeServiceTable_description (rootDescription (bytes "uuid:1")) lampTable
  have unchanged : removeServiceTable (rootDevice (bytes "uuid:1")) lampTable = some lampTable := unchanged
  refine ⟨own, by rw [unchanged]; rfl, ?_⟩
  rintro ⟨after, same, empty, -⟩
  rw [unchanged] at same
  obtain rfl := Option.some.inj same
  rw [List.filter_cons_of_neg (by simp [own])] at empty
  exact Option.some_ne_none 1 empty

end Pupnp.Services
