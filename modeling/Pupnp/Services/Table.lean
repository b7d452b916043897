import Pupnp.Ixml.Document
import Pupnp.Library.LinkedHeap
import Pupnp.Uri.Parse

/-!
The service table of a root device: linked `service_info`s that are made from the description document, and the
functions that look for one of them.
-/

namespace Pupnp.Services
open Pupnp.CString Pupnp.Uri Pupnp.LinkedHeap
open Pupnp.Ixml (Node)

/-! ### The document -/

def childNodes : Node → List Node
  | .element _ _ children => children
  | _ => []

def isElement (elementName : List UInt8) : Node → Bool
  | .element tag _ _ => tag.nodeName = elementName
  | _ => false

def element (addr : Nat) (name : List UInt8) (children : List Node) : Node :=
  .element ⟨addr, name, none, name⟩ [] children

mutual

/-- `ixmlElement_getElementsByTagName`: the elements of this name, from the node itself on. -/
def getElementsByTagName (tagName : List UInt8) : Node → List Node
  | .element tag attrs children =>
      let behind := getElementsByTagNameRecursive tagName children
      if tagName = tag.nodeName || tagName = bytes "*" then .element tag attrs children :: behind else behind
  | _ => []

def getElementsByTagNameRecursive (tagName : List UInt8) : List Node → List Node
  | [] => []
  | node :: siblings => getElementsByTagName tagName node ++ getElementsByTagNameRecursive tagName siblings

end

def getSubElement (elementName : List UInt8) (children : List Node) : Option Node :=
  children.find? (isElement elementName)

def getElementValue (node : Node) : Option (List UInt8) :=
  match childNodes node with
  | .text nodeValue :: _ => some (cstr nodeValue)
  | _ => none

def valueOf (elementName : List UInt8) (children : List Node) : Option (List UInt8) :=
  (getSubElement elementName children).bind getElementValue

/-! ### The table -/

/-- `service_info` without its link; `none` is NULL, and the list of subscriptions is a pointer. -/
structure ServiceInfo where
  serviceType : Option (List UInt8)
  serviceId : Option (List UInt8)
  SCPDURL : Option (List UInt8)
  controlURL : Option (List UInt8)
  eventURL : Option (List UInt8)
  UDN : Option (List UInt8)
  active : Int
  totalSubscriptions : Int
  subscriptionList : Option Nat
  deriving DecidableEq, Repr

/-- `service_table`, with the memory of its services. -/
structure ServiceTable where
  URLBase : Option (List UInt8)
  serviceList : Option Nat
  endServiceList : Option Nat
  heap : Heap ServiceInfo

/-- The services of a table, from its first to its last. -/
def ServiceTable.Holds (table : ServiceTable) (services : List (Nat × ServiceInfo)) : Prop :=
  Listed table.heap table.serviceList services ∧ table.endServiceList = lastAddress services

/-! ### Lookups

`none` stands for a pointer that is NULL or dangling and is dereferenced; the number bounds the rounds. -/

def findService (heap : Heap ServiceInfo) (wanted : ServiceInfo → Option Bool) : Nat → Option Nat → Option (Option Nat)
  | _, none => some none
  | 0, some _ => none
  | rounds + 1, some finger =>
      (heap.lookup finger).bind fun service => (wanted service.value).bind fun found =>
        if found then some (some finger) else findService heap wanted rounds service.next

def ServiceTable.find (table : ServiceTable) (wanted : ServiceInfo → Option Bool) : Option (Option Nat) :=
  findService table.heap wanted table.heap.entries.length table.serviceList

/-- The comparison in `FindServiceId`, with `strcmp` of a string and a pointer. -/
def hasServiceId (serviceId udn : List UInt8) (service : ServiceInfo) : Option Bool :=
  service.serviceId.bind fun id =>
    if cstr serviceId = cstr id then service.UDN.map fun own => cstr udn = cstr own else some false

def findServiceId (table : ServiceTable) (serviceId udn : List UInt8) : Option (Option Nat) :=
  table.find (hasServiceId serviceId udn)

def samePathquery (res : Resolver) (url : Option (List UInt8)) (pathquery : List UInt8) : Bool :=
  match url with
  | none => false
  | some url =>
      match parseUri res url url.length with
      | none => false
      | some parsedUrl => parsedUrl.pathquery.read url = pathquery

/-- `FindServiceEventURLPath` and `FindServiceControlURLPath`, which look at one of the URLs. -/
def findServiceURLPath (res : Resolver) (urlOf : ServiceInfo → Option (List UInt8)) (table : ServiceTable)
    (urlPath : List UInt8) : Option (Option Nat) :=
  match parseUri res urlPath urlPath.length with
  | none => some none
  | some parsedUrlIn => table.find fun service => some (samePathquery res (urlOf service) (parsedUrlIn.pathquery.read urlPath))

def findServiceEventURLPath (res : Resolver) (table : ServiceTable) (eventURLPath : List UInt8) : Option (Option Nat) :=
  findServiceURLPath res ServiceInfo.eventURL table eventURLPath

def findServiceControlURLPath (res : Resolver) (table : ServiceTable) (controlURLPath : List UInt8) :
    Option (Option Nat) :=
  findServiceURLPath res ServiceInfo.controlURL table controlURLPath

section Find
variable {heap : Heap ServiceInfo} {wanted : ServiceInfo → Option Bool} {head : Option Nat}
variable {services : List (Nat × ServiceInfo)} {rounds : Nat}

theorem findService_listed {test : ServiceInfo → Bool} (listed : Listed heap head services)
    (enough : services.length ≤ rounds) (safe : ∀ service ∈ services, wanted service.2 = some (test service.2)) :
    findService heap wanted rounds head = some ((services.find? (test ·.2)).map Prod.fst) := by
  induction services generalizing head rounds with
  | nil =>
    obtain rfl : head = none := listed
    cases rounds <;> rfl
  | cons service services ih =>
    obtain ⟨rfl, next, found, rest⟩ := listed
    obtain ⟨rounds, rfl⟩ : ∃ less, rounds = less + 1 := ⟨rounds - 1, by rw [List.length_cons] at enough; omega⟩
    have later := ih rest (Nat.le_of_succ_le_succ enough) fun service member => safe service (List.mem_cons_of_mem _ member)
    simp only [findService, found, Option.bind_some, safe service List.mem_cons_self, List.find?_cons, later]
    cases test service.2 <;> rfl

end Find

theorem ServiceTable.Holds.find {table : ServiceTable} {services : List (Nat × ServiceInfo)}
    {wanted : ServiceInfo → Option Bool} {test : ServiceInfo → Bool} (holds : table.Holds services)
    (safe : ∀ service ∈ services, wanted service.2 = some (test service.2)) :
    table.find wanted = some ((services.find? (test ·.2)).map Prod.fst) :=
  findService_listed holds.1 holds.1.length_le safe

theorem ServiceTable.Holds.findURLPath {table : ServiceTable} {services : List (Nat × ServiceInfo)} (holds : table.Holds services)
    (res : Resolver) (urlOf : ServiceInfo → Option (List UInt8)) (urlPath : List UInt8) :
    (findServiceURLPath res urlOf table urlPath).isSome = true := by
  unfold findServiceURLPath
  split
  next => rfl
  next parsedUrlIn _ =>
    rw [@ServiceTable.Holds.find table services _
      (fun service => samePathquery res (urlOf service) (parsedUrlIn.pathquery.read urlPath)) holds fun _ _ => rfl]
    rfl

end Pupnp.Services
