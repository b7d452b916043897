import Pupnp.Api.HandleTable
import Pupnp.Api.Registration
import Pupnp.Gena.Subscribe
import Pupnp.MiniServer.HostHeader
import Pupnp.Services.Table
import Pupnp.Soap.Request
import Pupnp.Util.MembufferRuns

/-!
Functions of the source that more than one part of the model has, each over the data that the part keeps: their forms
agree.
-/

namespace Pupnp.Api
open Pupnp.CString Pupnp.Uri

/-! ### The table of handles -/

def Registry.table (r : Registry) : HandleTable HandleInfo := ⟨r.handleTable, r.size⟩

theorem getHandleInfo_table (r : Registry) (hnd : Int) : getHandleInfo r hnd = r.table.get hnd := rfl

theorem getFreeHandle_table (r : Registry) : r.table.getFreeHandle = (getFreeHandle r).map Nat.cast := by
  rw [getFreeHandle, Option.map_map]
  rfl

/-! ### Lookups of services by a path -/

section Lookups
variable {res : Resolver} {path : List UInt8}

theorem pathOf_noNul {url : List UInt8} (noNul : 0 ∉ url) : pathOf res url = Gena.Subscribe.pathqueryOf res url := by
  rw [pathOf, cstr_eq_self noNul]
  rfl

/-- The first service of a list whose URL has the path. -/
def firstWith {α : Type} (res : Resolver) (url : α → Option (List UInt8)) (services : List α) (path : List UInt8) :
    Option Nat :=
  (pathOf res path).bind fun parsed => services.findIdx? fun service => (url service).bind (pathOf res) = some parsed

theorem firstWith_map {α β : Type} (f : α → β) (url : β → Option (List UInt8)) (services : List α) :
    firstWith res url (services.map f) path = firstWith res (url ∘ f) services path := by
  unfold firstWith
  congr
  funext parsed
  rw [List.findIdx?_map]
  rfl

theorem findServiceControlURLPath_firstWith (table : List ServiceInfo) :
    findServiceControlURLPath res table (some path) = firstWith res ServiceInfo.controlURL table path := rfl

theorem findServiceEventURLPath_firstWith (table : List ServiceInfo) :
    findServiceEventURLPath res table (some path) = firstWith res ServiceInfo.eventURL table path := rfl

/-- No URL of these services has a NUL in it. -/
def Strings {α : Type} (url : α → Option (List UInt8)) (services : List α) : Prop :=
  ∀ service ∈ services, ∀ text ∈ url service, 0 ∉ text

theorem Strings.tail {α : Type} {url : α → Option (List UInt8)} {service : α} {services : List α}
    (strings : Strings url (service :: services)) : Strings url services :=
  fun other member => strings other (List.mem_cons_of_mem _ member)

theorem Strings.bound {α : Type} {url : α → Option (List UInt8)} {services : List α} (strings : Strings url services)
    {service : α} (member : service ∈ services) :
    (url service).bind (pathOf res) = (url service).bind (Gena.Subscribe.pathqueryOf res) := by
  cases found : url service with
  | none => rfl
  | some text => exact pathOf_noNul (strings service member text found)

theorem findServicePath_firstWith {url : Gena.Subscribe.ServiceInfo → Option (List UInt8)}
    {table : List Gena.Subscribe.ServiceInfo} (strings : Strings url table) (noNul : 0 ∉ path) :
    Gena.Subscribe.findServicePath res url table path = firstWith res url table path := by
  rw [Gena.Subscribe.findServicePath, firstWith, pathOf_noNul noNul]
  congr
  funext wanted
  induction table with
  | nil => rfl
  | cons service table ih =>
    rw [List.findIdx?_cons, List.findIdx?_cons, strings.bound List.mem_cons_self, ih strings.tail]

def subscribed (service : Gena.Subscribe.ServiceInfo) : ServiceInfo :=
  ⟨service.controlURL, service.eventURL, service.active⟩

/-- A subscription finds its service where the table of handles has it. -/
theorem findServiceEventURLPath_subscribed {table : List Gena.Subscribe.ServiceInfo}
    (strings : Strings Gena.Subscribe.ServiceInfo.eventURL table) (noNul : 0 ∉ path) :
    Gena.Subscribe.findServiceEventURLPath res table path =
      findServiceEventURLPath res (table.map subscribed) (some path) := by
  rw [findServiceEventURLPath_firstWith, firstWith_map]
  exact findServicePath_firstWith strings noNul

theorem findServiceControlURLPath_subscribed {table : List Gena.Subscribe.ServiceInfo}
    (strings : Strings Gena.Subscribe.ServiceInfo.controlURL table) (noNul : 0 ∉ path) :
    Gena.Subscribe.findServiceControlURLPath res table path =
      findServiceControlURLPath res (table.map subscribed) (some path) := by
  rw [findServiceControlURLPath_firstWith, firstWith_map]
  exact findServicePath_firstWith strings noNul

def subscribedHandle (info : Gena.Subscribe.HandleInfo) : Option HandleInfo :=
  some (.device info.deviceAf (info.serviceTable.map subscribed))

/-- A subscription comes to the service of the first handle that the table has for its path. -/
theorem searchHandles_subscribed {handles : List Gena.Subscribe.HandleInfo} (af : AddrFamily)
    (strings : ∀ info ∈ handles, Strings Gena.Subscribe.ServiceInfo.controlURL info.serviceTable ∧
      Strings Gena.Subscribe.ServiceInfo.eventURL info.serviceTable) (noNul : 0 ∉ path) :
    searchHandles res af (some path) 1 (handles.map subscribedHandle) =
      (Gena.Subscribe.getDeviceHandleInfoForPath res handles path af).map fun place => ⟨1 + place.1, place.2⟩ := by
  rw [Gena.Subscribe.getDeviceHandleInfoForPath]
  suffices from_ : ∀ before, searchHandles res af (some path) (1 + before) (handles.map subscribedHandle) =
      ((handles.zipIdx before).findSome? _).map _ from from_ 0
  induction handles with
  | nil => exact fun _ => rfl
  | cons info handles ih =>
    intro before
    obtain ⟨control, event⟩ := strings info List.mem_cons_self
    have later := ih (fun other member => strings other (List.mem_cons_of_mem _ member)) (before + 1)
    rw [List.map_cons, searchHandles, List.zipIdx_cons, List.findSome?_cons]
    rw [subscribedHandle, searchHandle, ← findServiceControlURLPath_subscribed control noNul,
      ← findServiceEventURLPath_subscribed event noNul]
    dsimp only
    by_cases family : info.deviceAf = af
    · rw [if_pos family, if_pos family]
      cases (Gena.Subscribe.findServiceControlURLPath res info.serviceTable path).or
          (Gena.Subscribe.findServiceEventURLPath res info.serviceTable path) with
      | none => exact later
      | some index => rfl
    · rw [if_neg family, if_neg family]
      exact later

theorem samePathquery_bind {url : Option (List UInt8)} {wanted : List UInt8} :
    Services.samePathquery res url wanted = decide (url.bind (Gena.Subscribe.pathqueryOf res) = some wanted) := by
  unfold Services.samePathquery
  cases url with
  | none => rfl
  | some url =>
    rw [Option.bind_some, Gena.Subscribe.pathqueryOf]
    dsimp only
    cases parseUri res url url.length with
    | none => rfl
    | some parsedUrl => simp

def listed (service : Nat × Services.ServiceInfo) : ServiceInfo :=
  ⟨service.2.controlURL, service.2.eventURL, service.2.active ≠ 0⟩

theorem findServiceURLPath_firstWith {urlOf : Services.ServiceInfo → Option (List UInt8)} {table : Services.ServiceTable}
    {services : List (Nat × Services.ServiceInfo)} (holds : table.Holds services)
    (strings : Strings (fun service => urlOf service.2) services) (noNul : 0 ∉ path) :
    Services.findServiceURLPath res urlOf table path =
      some ((firstWith res (fun service => urlOf service.2) services path).bind fun i => services[i]?.map Prod.fst) := by
  unfold Services.findServiceURLPath firstWith
  rw [pathOf_noNul noNul, Gena.Subscribe.pathqueryOf]
  cases parseUri res path path.length with
  | none => rfl
  | some parsed =>
    dsimp only
    have tested := @Services.ServiceTable.Holds.find table services
      (fun service => some (Services.samePathquery res (urlOf service) (parsed.pathquery.read path)))
      (fun service => Services.samePathquery res (urlOf service) (parsed.pathquery.read path)) holds fun _ _ => rfl
    have same : services.findIdx? (fun service => Services.samePathquery res (urlOf service.2) (parsed.pathquery.read path)) =
        services.findIdx? (fun service => (urlOf service.2).bind (pathOf res) = some (parsed.pathquery.read path)) := by
      clear holds tested
      induction services with
      | nil => rfl
      | cons service services ih =>
        have here := @Strings.bound res _ _ _ strings _ List.mem_cons_self
        rw [List.findIdx?_cons, List.findIdx?_cons, samePathquery_bind, ← here, ih strings.tail]
    rw [tested, List.find?_eq_bind_findIdx?_getElem?, same, Option.map_some, Option.bind_some, Option.map_bind]
    rfl

/-- The service table of a description has its services where the table of handles has them. -/
theorem findServiceEventURLPath_listed {table : Services.ServiceTable} {services : List (Nat × Services.ServiceInfo)}
    (holds : table.Holds services) (strings : Strings (fun service => service.2.eventURL) services) (noNul : 0 ∉ path) :
    Services.findServiceEventURLPath res table path =
      some ((findServiceEventURLPath res (services.map listed) (some path)).bind fun i => services[i]?.map Prod.fst) := by
  rw [findServiceEventURLPath_firstWith, firstWith_map]
  exact findServiceURLPath_firstWith holds strings noNul

theorem findServiceControlURLPath_listed {table : Services.ServiceTable} {services : List (Nat × Services.ServiceInfo)}
    (holds : table.Holds services) (strings : Strings (fun service => service.2.controlURL) services) (noNul : 0 ∉ path) :
    Services.findServiceControlURLPath res table path =
      some ((findServiceControlURLPath res (services.map listed) (some path)).bind fun i => services[i]?.map Prod.fst) := by
  rw [findServiceControlURLPath_firstWith, firstWith_map]
  exact findServiceURLPath_firstWith holds strings noNul

end Lookups

/-! ### The Host header -/

theorem noMark_passed {text : List UInt8} (plain : MiniServer.NoMark text) :
    ∀ d ∈ text.reverse, (decide (d ≠ 93) && decide (d ≠ 58)) = true := by
  intro d member
  obtain ⟨close, colon⟩ := plain d (List.mem_reverse.mp member)
  rw [decide_eq_true close, decide_eq_true colon]
  rfl

theorem noMark_length {value : List UInt8} (plain : MiniServer.NoMark value) :
    (value.reverse.takeWhile fun c => c ≠ 93 && c ≠ 58).length = value.length := by
  rw [List.takeWhile_eq_self_iff.mpr (noMark_passed plain), List.length_reverse]

theorem lastMark_length {front rest : List UInt8} {c : UInt8} (plain : MiniServer.NoMark rest)
    (mark : c = 93 ∨ c = 58) :
    ((front ++ c :: rest).reverse.takeWhile fun c => c ≠ 93 && c ≠ 58).length = rest.length := by
  have stop : ¬(fun c : UInt8 => decide (c ≠ 93) && decide (c ≠ 58)) c = true := by
    rcases mark with rfl | rfl <;> decide
  rw [List.reverse_append, List.reverse_cons, List.append_assoc, List.takeWhile_append_of_pos (noMark_passed plain),
    List.singleton_append, @List.takeWhile_cons_of_neg _ (fun c => decide (c ≠ 93) && decide (c ≠ 58)) c front.reverse
    stop, List.append_nil, List.length_reverse]

/-- The check of a subscription's Host header is that of the mini server on its copy of the value. -/
theorem hostHeaderIsNumeric_copy (res : Resolver) {value : List UInt8} (nonempty : value ≠ []) (noNul : 0 ∉ value) :
    MiniServer.hostHeaderIsNumeric res (value ++ [0]) value.length = some (Gena.Subscribe.hostHeaderIsNumeric res value) := by
  obtain ⟨front, c, rest, rfl, plain, stop⟩ := MiniServer.lastMark nonempty
  rw [MiniServer.hostHeaderIsNumeric_split res plain stop noNul]
  have total : (front ++ c :: rest).length = front.length + rest.length + 1 := by
    rw [List.length_append, List.length_cons, Nat.add_assoc]
  unfold Gena.Subscribe.hostHeaderIsNumeric
  by_cases mark : c = 93 ∨ c = 58
  · have behind := @lastMark_length front rest c plain mark
    have place : (front ++ c :: rest).length - rest.length - 1 = front.length := by omega
    have here : charAt (front ++ c :: rest) front.length = c := by simp [charAt]
    simp only [behind, place, here, List.take_left]
    by_cases colon : c = 58
    · rw [if_pos colon, decide_eq_true (by omega : rest.length < _), decide_eq_true colon]
      rfl
    · rw [if_neg colon, decide_eq_false colon, Bool.and_false]
      rfl
  · obtain ⟨close, colon⟩ := not_or.mp mark
    obtain rfl : front = [] := (stop.resolve_left close).resolve_left colon
    have whole : MiniServer.NoMark (c :: rest) := by
      intro d member
      rcases List.mem_cons.mp member with rfl | later
      · exact ⟨close, colon⟩
      · exact plain d later
    have behind := noMark_length whole
    rw [List.nil_append]
    simp only [behind, lt_irrefl, decide_false, Bool.false_and, Bool.false_eq_true, if_false, if_neg colon]
    rfl

end Pupnp.Api

/-! ### Buffers -/

namespace Pupnp.Util
variable {avail : Nat → Bool} {m : Membuffer} {content : List UInt8}

/-- A buffer of headers takes the text that is put in, or is out of memory. -/
theorem membufferInsert_headers (keeps : Keeps m content) (object : Object) (i : Nat) :
    Makes ((Soap.membufferInsert content object.val i).getD content) (membufferInsert avail m (some object) i) := by
  have made := @membufferInsert_makes avail m content keeps (some object) i
  rw [Soap.membufferInsert]
  by_cases inside : i ≤ content.length
  · rw [if_pos inside] at made
    rw [if_neg (Nat.not_lt.mpr inside), Option.getD_some, List.append_assoc]
    exact made
  · rw [if_neg inside] at made
    rw [if_pos (Nat.lt_of_not_le inside), Option.getD_none]
    exact made

/-- The buffer of a parser loses the bytes that are taken out of its message, or is out of memory. -/
theorem membufferDelete_message (keeps : Keeps m content) {i n : Nat} (inside : i ≤ m.length) (fits : i + n < 2 ^ 64) :
    Makes (Http.membufferDelete content i n) (membufferDelete avail m i n) := by
  by_cases empty : m.length = 0
  · obtain rfl := List.eq_nil_of_length_eq_zero (keeps.length.symm.trans empty)
    rw [membufferDelete, if_pos empty, Http.membufferDelete, List.take_nil, List.drop_nil]
    exact keeps.makes 0
  · exact membufferDelete_inside keeps empty inside fits

end Pupnp.Util
