import Pupnp.Gena.ClientHeap

/-!
What a call of `genaSubscribe` that fails leaves behind, in every run in which the earlier calls could schedule
the renewals of what they had put into the list.
-/

namespace Pupnp.Gena.ClientHeap
open Pupnp.CString Pupnp.Run Pupnp.LinkedHeap Pupnp.TimerThread
open Pupnp.Gena.AutoRenew (Job AUTO_RENEW_TIME UPNP_INFINITE freeClientSubscription)

/-- The list is as before, with all of its objects allocated. -/
def Undone (s t : State) : Prop :=
  ∃ list, Listed s.heap s.clientSubList list ∧ Listed t.heap t.clientSubList list

/-- The call ends before it puts its object into the list, or it can schedule the renewal. -/
def renewable (newSubscription : Option Nat) (exchange : Exchange) (uuid : List UInt8) (alloc : ScheduleAllocations)
    (s : State) : Bool :=
  exchange.rc ≠ UPNP_E_SUCCESS || (!s.registered || (SID_SIZE ≤ (bytes "uuid:" ++ uuid).length || (newSubscription.isNone ||
    (exchange.timeOut = UPNP_INFINITE || alloc.all))))

def sound : Label → State → Bool
  | .subscribeEnd i exchange uuid _ alloc _, s =>
      match s.threads[i]? with
      | some (.subscribing newSubscription) => renewable newSubscription exchange uuid alloc s
      | _ => true
  | _, _ => true

def Thread.objects : Thread → List Nat
  | .subscribing newSubscription => newSubscription.toList
  | .done => []

def State.objects (s : State) : List Nat := s.threads.flatMap Thread.objects

/-- The objects of the list, and those of the calls that are under way, are allocated and different. -/
structure Owned (s : State) (list : List (Nat × ClientSubscription)) : Prop where
  listed : Listed s.heap s.clientSubList list
  apart : (addresses list ++ s.objects).Nodup
  live : ∀ a ∈ s.objects, (s.heap.lookup a).isSome

section Calls
variable {s : State} {list : List (Nat × ClientSubscription)} {sid : List UInt8}

theorem Owned.other (owned : Owned s list) {a : Nat} (object : a ∈ s.objects) : a ∉ addresses list :=
  fun inside => (List.nodup_append.mp owned.apart).2.2 a inside a object rfl

theorem removeLoop_listed {head : Option Nat} {heap : Heap ClientSubscription}
    {front back : List (Nat × ClientSubscription)} {finger : Option Nat} {rounds : Nat}
    (before : Path heap head front finger) (behind : Listed heap finger back) (enough : back.length ≤ rounds) :
    ∃ removed head' heap', removeLoop sid head heap rounds (lastAddress front) finger = some (removed, head', heap') ∧
      Listed heap' head' (front ++ back.eraseP (fun cell => sid = cell.2.sid)) ∧
      ∀ a ∉ addresses (front ++ back), heap'.lookup a = heap.lookup a := by
  induction back generalizing front finger rounds with
  | nil =>
    obtain rfl : finger = none := behind
    exact ⟨none, head, heap, by simp [removeLoop], path_append.mpr ⟨none, before, rfl⟩, fun _ _ => rfl⟩
  | cons cell back ih =>
    have whole : Listed heap head (front ++ cell :: back) := path_append.mpr ⟨finger, before, behind⟩
    obtain ⟨rfl, next, found, rest⟩ := behind
    obtain ⟨rounds, rfl⟩ : ∃ less, rounds = less + 1 := ⟨rounds - 1, by rw [List.length_cons] at enough; omega⟩
    by_cases own : sid = cell.2.sid
    · obtain ⟨head', heap', linked, path, frame⟩ := relink_erase whole found
      refine ⟨some cell.2, head', heap'.erase cell.1, ?_, ?_, frame⟩
      · simp only [removeLoop, found, Option.bind_some, if_pos own, linked, Option.map_some]
      · rwa [List.eraseP_cons_of_pos (by simpa using own)]
    · have step : Path heap head (front ++ [cell]) next := path_append.mpr ⟨some cell.1, before, rfl, next, found, rfl⟩
      obtain ⟨removed, head', heap', loop, path, frame⟩ := ih step rest (Nat.le_of_succ_le_succ enough)
      rw [lastAddress_snoc] at loop
      refine ⟨removed, head', heap', ?_, ?_, ?_⟩
      · simp only [removeLoop, found, Option.bind_some, if_neg own]
        exact loop
      · rw [List.eraseP_cons_of_neg (by simpa using own)]
        simpa using path
      · simpa using frame

theorem removeClientSubClientSID_owned (owned : Owned s list) (sid : List UInt8) :
    ∃ t, removeClientSubClientSID sid s = some t ∧ Owned t (list.eraseP fun cell => sid = cell.2.sid) := by
  obtain ⟨removed, head', heap', loop, listed, frame⟩ :=
    @removeLoop_listed sid s.clientSubList s.heap [] list s.clientSubList s.heap.entries.length rfl owned.listed
      owned.listed.length_le
  have loop : removeLoop sid s.clientSubList s.heap s.heap.entries.length none s.clientSubList =
      some (removed, head', heap') := loop
  refine ⟨_, by rw [removeClientSubClientSID, loop, Option.map_some], listed, ?_, ?_⟩
  · have fewer : (addresses (list.eraseP fun cell => sid = cell.2.sid)).Sublist (addresses list) :=
      List.eraseP_sublist.map _
    exact owned.apart.sublist (fewer.append_right _)
  · intro a object
    rw [frame a (owned.other object)]
    exact owned.live a object

theorem getClientSubClientSID_listed {heap : Heap ClientSubscription} {head : Option Nat} {rounds : Nat}
    (listed : Listed heap head list) (enough : list.length ≤ rounds) :
    getClientSubClientSID sid heap rounds head = some ((list.find? fun cell => cell.2.sid = sid).map Prod.fst) := by
  induction list generalizing head rounds with
  | nil =>
    obtain rfl : head = none := listed
    cases rounds <;> rfl
  | cons cell list ih =>
    obtain ⟨rfl, next, found, rest⟩ := listed
    obtain ⟨rounds, rfl⟩ : ∃ less, rounds = less + 1 := ⟨rounds - 1, by rw [List.length_cons] at enough; omega⟩
    by_cases own : cell.2.sid = sid
    · simp [getClientSubClientSID, found, own]
    · simp [getClientSubClientSID, found, own, ih rest (Nat.le_of_succ_le_succ enough)]

theorem find_owned (owned : Owned s list) (sid : List UInt8) :
    s.find sid = some none ∨ ∃ a sub next, s.find sid = some (some a) ∧ (a, sub) ∈ list ∧
      s.heap.lookup a = some ⟨sub, next⟩ := by
  have search := @getClientSubClientSID_listed list sid s.heap s.clientSubList _ owned.listed owned.listed.length_le
  rw [← State.find] at search
  cases found : list.find? fun cell => cell.2.sid = sid with
  | none =>
    left
    rw [search, found]
    rfl
  | some cell =>
    right
    have member := List.mem_of_find?_eq_some found
    obtain ⟨next, here⟩ := owned.listed.lookup member
    exact ⟨cell.1, cell.2, next, by rw [search, found]; rfl, member, here⟩

theorem store_owned (owned : Owned s list) {a : Nat} {sub : ClientSubscription} (member : (a, sub) ∈ list)
    (f : ClientSubscription → ClientSubscription) :
    ∃ t list', s.store a f = some t ∧ Owned t list' := by
  obtain ⟨next, found⟩ := owned.listed.lookup member
  have stored := owned.listed.store found (f sub)
  refine ⟨_, _, by rw [State.store, found, Option.map_some], stored, ?_, ?_⟩
  · have same : addresses (list.map fun cell => if cell.1 = a then (a, f sub) else cell) = addresses list := by
      rw [addresses, List.map_map]
      apply List.map_congr_left
      intro cell _
      by_cases own : cell.1 = a
      · simp [own]
      · simp [own]
    rw [same]
    exact owned.apart
  · intro b object
    have apart : b ≠ a := by
      rintro rfl
      exact owned.other object (List.mem_map.mpr ⟨_, member, rfl⟩)
    rw [AList.lookup_insert_ne apart]
    exact owned.live b object

theorem Owned.timer (owned : Owned s list) (timer : Timer Job) : Owned { s with timer := timer } list :=
  ⟨owned.listed, owned.apart, owned.live⟩

theorem renewBegin_owned {t : State} (owned : Owned s list) (inSid : List UInt8) (taken : renewBegin inSid s = some t) :
    ∃ list', Owned t list' := by
  unfold renewBegin at taken
  split at taken
  next => exact ⟨list, Option.some.inj taken ▸ owned⟩
  next =>
    rcases find_owned owned inSid with absent | ⟨a, sub, next, found, member, here⟩
    · rw [absent, Option.bind_some] at taken
      exact ⟨list, Option.some.inj taken ▸ owned⟩
    · simp only [found, here, Option.bind_some] at taken
      obtain ⟨u, list', stored, kept⟩ := store_owned (owned.timer (timerThreadRemove s.timer sub.renewEventId).2.2)
        member fun sub => { sub with renewEventId := -1 }
      rw [stored] at taken
      exact ⟨list', Option.some.inj taken ▸ kept⟩

theorem renewEnd_owned {t : State} (owned : Owned s list) (inSid : List UInt8) (exchange : Exchange)
    (alloc : ScheduleAllocations) (now : Int) (taken : renewEnd inSid exchange alloc now s = some t) :
    ∃ list', Owned t list' := by
  have removing {u : State} {list' : List (Nat × ClientSubscription)} {sid : List UInt8} (kept : Owned u list')
      (removed : removeClientSubClientSID sid u = some t) : ∃ list', Owned t list' := by
    obtain ⟨v, same, fewer⟩ := removeClientSubClientSID_owned kept sid
    exact ⟨_, Option.some.inj (same.symm.trans removed) ▸ fewer⟩
  unfold renewEnd at taken
  split at taken
  next => exact ⟨list, Option.some.inj taken ▸ owned⟩
  next =>
    split at taken
    next => exact removing owned taken
    next =>
      rcases find_owned owned inSid with absent | ⟨a, sub, next, found, member, here⟩
      · rw [absent, Option.bind_some] at taken
        exact ⟨list, Option.some.inj taken ▸ owned⟩
      · simp only [found, here, Option.bind_some] at taken
        generalize scheduleGenaAutoRenew alloc now exchange.timeOut _ s.timer = scheduled at taken
        obtain ⟨u, list', stored, kept⟩ := store_owned (owned.timer scheduled.2.2) member fun _ => scheduled.2.1
        rw [stored, Option.bind_some] at taken
        split at taken
        next => exact removing kept taken
        next => exact ⟨list', Option.some.inj taken ▸ kept⟩

def Private (list : List (Nat × ClientSubscription)) (newSubscription : Option Nat) (s : State) : Prop :=
  ∀ a ∈ newSubscription, a ∉ addresses list ++ s.objects ∧ (s.heap.lookup a).isSome

variable {newSubscription : Option Nat}

theorem genlibClientSubscriptionNew_owned (owned : Owned s list) (fresh : ∀ a ∈ newSubscription, s.heap.lookup a = none) :
    Owned (genlibClientSubscriptionNew newSubscription s) list ∧
      Private list newSubscription (genlibClientSubscriptionNew newSubscription s) := by
  cases newSubscription with
  | none => exact ⟨owned, fun a none => absurd none (Option.not_mem_none a)⟩
  | some a =>
    have free := fresh a rfl
    have outside : a ∉ addresses list := by
      intro inside
      obtain ⟨cell, member, rfl⟩ := List.mem_map.mp inside
      obtain ⟨next, found⟩ := owned.listed.lookup member
      rw [found] at free
      contradiction
    have others {b : Nat} (object : b ∈ s.objects) : b ≠ a := by
      rintro rfl
      have live := owned.live b object
      rw [free] at live
      contradiction
    constructor
    · refine ⟨owned.listed.insert outside _, owned.apart, fun b object => ?_⟩
      have same : (s.heap.insert a ⟨⟨0, [], [], []⟩, none⟩).lookup b = s.heap.lookup b :=
        AList.lookup_insert_ne (others object)
      exact same ▸ owned.live b object
    · rintro b ⟨⟩
      refine ⟨fun used => ?_, by simp [genlibClientSubscriptionNew]⟩
      rcases List.mem_append.mp used with inside | object
      · exact outside inside
      · exact others object rfl

theorem genlibClientSubscriptionDelete_owned (owned : Owned s list) (own : Private list newSubscription s) :
    Owned (genlibClientSubscriptionDelete newSubscription s) list := by
  cases newSubscription with
  | none => exact owned
  | some a =>
    obtain ⟨outside, live⟩ := own a rfl
    simp only [List.mem_append, not_or] at outside
    refine ⟨owned.listed.erase outside.1, owned.apart, fun b object => ?_⟩
    have same : (s.heap.erase a).lookup b = s.heap.lookup b :=
      AList.lookup_erase_ne (ne_of_mem_of_not_mem object outside.2)
    exact same ▸ owned.live b object

theorem errorHandler_owned (owned : Owned s list) (own : Private list newSubscription s) (returnCode : Int) :
    Owned (errorHandler returnCode newSubscription s).2 list := by
  unfold errorHandler
  split
  next => exact genlibClientSubscriptionDelete_owned owned own
  next => exact owned

theorem errorHandler_undone (listed : Listed s.heap s.clientSubList list)
    (outside : ∀ a ∈ newSubscription, a ∉ addresses list) (returnCode : Int) :
    Undone s (errorHandler returnCode newSubscription s).2 := by
  refine ⟨list, listed, ?_⟩
  unfold errorHandler
  split
  next =>
    cases newSubscription with
    | none => exact listed
    | some a => exact listed.erase (outside a rfl)
  next => exact listed

theorem Owned.start (owned : Owned s list) (own : Private list newSubscription s) :
    Owned { s with threads := s.threads ++ [.subscribing newSubscription] } list := by
  have objects : State.objects { s with threads := s.threads ++ [.subscribing newSubscription] } =
      s.objects ++ newSubscription.toList := by
    simp [State.objects, Thread.objects]
  refine ⟨owned.listed, ?_, ?_⟩
  · rw [objects, ← List.append_assoc]
    refine List.nodup_append.mpr ⟨owned.apart, ?_, ?_⟩
    · cases newSubscription <;> simp
    · intro a used b mine same
      exact (own b (Option.mem_toList.mp mine)).1 (same ▸ used)
  · intro a object
    rw [objects] at object
    rcases List.mem_append.mp object with old | mine
    · exact owned.live a old
    · exact (own a (Option.mem_toList.mp mine)).2

theorem Owned.finish {i : Nat} (owned : Owned s list) (found : s.threads[i]? = some (.subscribing newSubscription)) :
    Owned { s with threads := s.threads.set i .done } list ∧
      Private list newSubscription { s with threads := s.threads.set i .done } := by
  have objects : (newSubscription.toList ++ State.objects { s with threads := s.threads.set i .done }).Perm s.objects := by
    rw [List.perm_iff_count]
    intro a
    have counts := count_flatMap_set found .done Thread.objects a
    have done : Thread.objects .done = [] := rfl
    rw [done, List.count_nil, Nat.add_zero] at counts
    rw [List.count_append, Nat.add_comm]
    exact counts
  have apart : (newSubscription.toList ++ (addresses list ++
      State.objects { s with threads := s.threads.set i .done })).Nodup := by
    have moved := (objects.append_left (addresses list)).nodup_iff.mpr owned.apart
    have swapped := List.perm_append_comm_assoc newSubscription.toList (addresses list)
      (State.objects { s with threads := s.threads.set i .done })
    exact swapped.nodup_iff.mpr moved
  constructor
  · refine ⟨owned.listed, (List.nodup_append.mp apart).2.1, fun a object => ?_⟩
    exact owned.live a (objects.subset (List.mem_append_right _ object))
  · intro a mine
    have mine := Option.mem_toList.mpr mine
    refine ⟨fun used => (List.nodup_append.mp apart).2.2 a mine a used rfl, ?_⟩
    exact owned.live a (objects.subset (List.mem_append_left _ mine))

theorem genaSubscribeBegin_owned (owned : Owned s list) (fresh : ∀ a ∈ newSubscription, s.heap.lookup a = none) :
    Owned (genaSubscribeBegin newSubscription s).2 list := by
  obtain ⟨allocated, own⟩ := genlibClientSubscriptionNew_owned owned fresh
  unfold genaSubscribeBegin
  generalize genlibClientSubscriptionNew newSubscription s = s' at allocated own ⊢
  dsimp only
  split
  next => exact genlibClientSubscriptionDelete_owned allocated own
  next => exact allocated.start own

theorem scheduleGenaAutoRenew_success (alloc : ScheduleAllocations) (now timeOut : Int) (sub : ClientSubscription)
    (timer : Timer Job) :
    (scheduleGenaAutoRenew alloc now timeOut sub timer).1 = UPNP_E_SUCCESS ↔ timeOut = UPNP_INFINITE ∨ alloc.all = true := by
  unfold scheduleGenaAutoRenew timerThreadSchedule
  by_cases forever : timeOut = UPNP_INFINITE
  · simp [forever]
  · obtain ⟨renewEvent, arg, event, node⟩ := alloc
    cases renewEvent <;> cases arg <;> cases event <;> cases node <;>
      simp [forever, ScheduleAllocations.all, UPNP_E_SUCCESS, UPNP_E_OUTOF_MEMORY, ThreadPool.EOUTOFMEM]

def State.pushed (a : Nat) (sub : ClientSubscription) (timer : Timer Job) (s : State) : State :=
  { s with clientSubList := some a, heap := s.heap.insert a ⟨sub, s.clientSubList⟩, timer := timer }

theorem Owned.pushed (owned : Owned s list) {a : Nat} (own : Private list (some a) s) (sub : ClientSubscription)
    (timer : Timer Job) : Owned (s.pushed a sub timer) ((a, sub) :: list) := by
  obtain ⟨outside, -⟩ := own a rfl
  refine ⟨⟨rfl, s.clientSubList, AList.lookup_insert s.heap, ?_⟩, List.nodup_cons.mpr ⟨outside, owned.apart⟩, ?_⟩
  · exact owned.listed.insert (fun inside => outside (List.mem_append_left _ inside)) _
  · intro b object
    have other : b ≠ a := by
      rintro rfl
      exact outside (List.mem_append_right _ object)
    have same : (s.pushed a sub timer).heap.lookup b = s.heap.lookup b := AList.lookup_insert_ne other
    exact same ▸ owned.live b object

/-- The three ways in which a call ends: before the list is changed, with the object in the list, and with
the object deleted in the list. -/
theorem genaSubscribeEnd_cases {exchange : Exchange} {uuid publisherURL : List UInt8} {alloc : ScheduleAllocations}
    {now : Int} {ended : Int × State}
    (called : genaSubscribeEnd newSubscription exchange uuid publisherURL alloc now s = ended) :
    renewable newSubscription exchange uuid alloc s = true ∧
        ((∃ rc, rc ≠ UPNP_E_SUCCESS ∧ ended = errorHandler rc newSubscription s) ∨
          ∃ a sub timer, newSubscription = some a ∧ ended = (UPNP_E_SUCCESS, s.pushed a sub timer)) ∨
      renewable newSubscription exchange uuid alloc s = false ∧
        ∃ rc a sub timer, rc ≠ UPNP_E_SUCCESS ∧ newSubscription = some a ∧
          ended = (rc, genlibClientSubscriptionDelete (some a) (s.pushed a sub timer)) := by
  unfold genaSubscribeEnd at called
  dsimp only at called
  by_cases failed : exchange.rc ≠ UPNP_E_SUCCESS
  · rw [if_pos failed] at called
    exact .inl ⟨by simp [renewable, failed], .inl ⟨exchange.rc, failed, called.symm⟩⟩
  rw [if_neg failed] at called
  by_cases gone : (!s.registered) = true
  · rw [if_pos gone] at called
    exact .inl ⟨by simp [renewable, gone], .inl ⟨GENA_E_BAD_HANDLE, by decide, called.symm⟩⟩
  rw [if_neg gone] at called
  by_cases long : SID_SIZE ≤ (bytes "uuid:" ++ uuid).length
  · rw [if_pos long] at called
    exact .inl ⟨by simp only [renewable, long]; simp, .inl ⟨UPNP_E_OUTOF_MEMORY, by decide, called.symm⟩⟩
  rw [if_neg long] at called
  cases newSubscription with
  | none => exact .inl ⟨by simp [renewable], .inl ⟨UPNP_E_OUTOF_MEMORY, by decide, called.symm⟩⟩
  | some a =>
    have remains : renewable (some a) exchange uuid alloc s = (exchange.timeOut = UPNP_INFINITE || alloc.all) := by
      simp only [renewable, failed, gone, long, decide_false, Bool.false_or, Option.isNone_some]
    have success := scheduleGenaAutoRenew_success alloc now exchange.timeOut
      ⟨-1, bytes "uuid:" ++ uuid, exchange.actualSID, publisherURL⟩ s.timer
    dsimp only at called
    generalize scheduleGenaAutoRenew alloc now exchange.timeOut _ s.timer = scheduled at success called
    obtain ⟨rc, sub, timer⟩ := scheduled
    rw [remains]
    by_cases ok : rc = UPNP_E_SUCCESS
    · subst ok
      refine .inl ⟨by simpa using success.mp rfl, .inr ⟨a, sub, timer, rfl, ?_⟩⟩
      rw [← called, errorHandler, if_neg (by simp)]
      rfl
    · refine .inr ⟨by simpa using mt success.mpr ok, rc, a, sub, timer, ok, rfl, ?_⟩
      rw [← called, errorHandler, if_pos ok]
      rfl

def plenty : ScheduleAllocations := ⟨true, true, true, true⟩

theorem scheduleGenaAutoRenew_plenty (now timeOut : Int) (sub : ClientSubscription) (timer : Timer Job) :
    scheduleGenaAutoRenew plenty now timeOut sub timer =
      (UPNP_E_SUCCESS, AutoRenew.scheduleGenaAutoRenew now timeOut sub timer) := by
  unfold scheduleGenaAutoRenew AutoRenew.scheduleGenaAutoRenew
  split <;> rfl

/-- The answer of the device, where there is one. -/
def Exchange.granted (exchange : Exchange) : Option AutoRenew.Granted :=
  if exchange.rc = UPNP_E_SUCCESS then some ⟨exchange.actualSID, exchange.timeOut⟩ else none

/-- With enough memory the call does to the list what the runs of the renewal events have it do. -/
theorem genaSubscribeEnd_refines {a : Nat} {uuid : List UInt8} (listed : Listed s.heap s.clientSubList list)
    (outside : a ∉ addresses list) (exchange : Exchange) (short : (bytes "uuid:" ++ uuid).length < SID_SIZE)
    (publisherURL : List UInt8) (now : Int) (issued : List (List UInt8)) :
    let ended := (genaSubscribeEnd (some a) exchange uuid publisherURL plenty now s).2
    let finished := AutoRenew.subscribeFinish exchange.granted (bytes "uuid:" ++ uuid) publisherURL now
      ⟨s.registered, list.map Prod.snd, s.timer, issued, []⟩
    ∃ list', Listed ended.heap ended.clientSubList list' ∧ list'.map Prod.snd = finished.clientSubList ∧
      ended.timer = finished.timer := by
  have failing (returnCode : Int) (failed : returnCode ≠ UPNP_E_SUCCESS) :
      ∃ list', Listed (errorHandler returnCode (some a) s).2.heap (errorHandler returnCode (some a) s).2.clientSubList list' ∧
        list'.map Prod.snd = list.map Prod.snd ∧ (errorHandler returnCode (some a) s).2.timer = s.timer := by
    simp only [errorHandler, if_pos failed]
    exact ⟨list, listed.erase outside, rfl, rfl⟩
  unfold genaSubscribeEnd AutoRenew.subscribeFinish Exchange.granted
  dsimp only
  by_cases failed : exchange.rc = UPNP_E_SUCCESS
  · rw [if_neg (not_not.mpr failed), if_pos failed]
    dsimp only
    by_cases gone : (!s.registered) = true
    · rw [if_pos gone, if_pos gone]
      exact failing _ (by decide)
    · rw [if_neg gone, if_neg gone, if_neg (by omega)]
      simp only [scheduleGenaAutoRenew_plenty, errorHandler, ne_eq, not_true_eq_false, if_false]
      generalize AutoRenew.scheduleGenaAutoRenew now exchange.timeOut _ s.timer = scheduled
      refine ⟨(a, scheduled.1) :: list, ⟨rfl, s.clientSubList, AList.lookup_insert s.heap, ?_⟩, rfl, trivial⟩
      exact listed.insert outside _
  · rw [if_pos failed, if_neg failed]
    exact failing _ failed

end Calls

theorem step_owned (label : Label) (s t : State) (renews : sound label s = true) (taken : step label s = some t)
    (owned : ∃ list, Owned s list) : ∃ list, Owned t list := by
  obtain ⟨list, owned⟩ := owned
  cases label with
  | register =>
    rw [step] at taken
    split at taken
    next => contradiction
    next =>
      obtain rfl := Option.some.inj taken
      exact ⟨[], rfl, (List.nodup_append.mp owned.apart).2.1, owned.live⟩
  | subscribe newSubscription =>
    rw [step] at taken
    split at taken
    next => contradiction
    next unused =>
      obtain rfl := Option.some.inj taken
      refine ⟨list, genaSubscribeBegin_owned owned ?_⟩
      rintro a ⟨⟩
      simpa using unused
  | subscribeEnd i exchange uuid publisherURL alloc now =>
    simp only [step] at taken
    split at taken
    next newSubscription found =>
      obtain rfl := Option.some.inj taken
      obtain ⟨finished, own⟩ := owned.finish found
      have renews : renewable newSubscription exchange uuid alloc s = true := by simpa [sound, found] using renews
      generalize called : genaSubscribeEnd newSubscription exchange uuid publisherURL alloc now
        { s with threads := s.threads.set i .done } = ended
      rcases genaSubscribeEnd_cases called with ⟨-, ⟨rc, -, rfl⟩ | ⟨a, sub, timer, rfl, rfl⟩⟩ | ⟨fails, -⟩
      · exact ⟨list, errorHandler_owned finished own rc⟩
      · exact ⟨_, finished.pushed own sub timer⟩
      · have same : renewable newSubscription exchange uuid alloc s = false := fails
        rw [renews] at same
        contradiction
    next => contradiction
  | renewBegin inSid => exact renewBegin_owned owned inSid taken
  | renewEnd inSid exchange alloc now => exact renewEnd_owned owned inSid exchange alloc now taken
  | remove sid =>
    rw [step] at taken
    split at taken
    next =>
      obtain ⟨u, removed, fewer⟩ := removeClientSubClientSID_owned owned sid
      exact ⟨_, Option.some.inj (removed.symm.trans taken) ▸ fewer⟩
    next => exact ⟨list, Option.some.inj taken ▸ owned⟩
  | freeHandle =>
    obtain rfl := Option.some.inj taken
    by_cases active : s.registered = true
    · refine ⟨[], ?_, (List.nodup_append.mp owned.apart).2.1, owned.live⟩
      exact if_pos active
    · refine ⟨list, ?_, owned.apart, owned.live⟩
      have same : (if s.registered = true then none else s.clientSubList) = s.clientSubList := if_neg active
      exact same.symm ▸ owned.listed
  | elsewhere timer =>
    obtain rfl := Option.some.inj taken
    exact ⟨list, owned.timer timer⟩

theorem initial_owned : ∃ list, Owned .initial list :=
  ⟨[], rfl, List.nodup_nil, fun _ none => absurd none List.not_mem_nil⟩

/-- A call of `genaSubscribe` that is made after any run, and fails, leaves the list as the other calls have
made it, and every object in it is allocated: this is so exactly if it does not get as far as to put its
object into the list without being able to schedule its renewal. -/
theorem genaSubscribe_undone (labels : List Label) (s : State) (ran : run step labels .initial = some s)
    (renews : Along step (fun label s => sound label s = true) labels .initial) :
    (∀ newSubscription, (∀ a ∈ newSubscription, s.heap.lookup a = none) →
        Undone s (genaSubscribeBegin newSubscription s).2) ∧
      ∀ (i : Nat) newSubscription exchange uuid publisherURL alloc now,
        s.threads[i]? = some (.subscribing newSubscription) →
          (((genaSubscribeEnd newSubscription exchange uuid publisherURL alloc now s).1 ≠ UPNP_E_SUCCESS →
              Undone s (genaSubscribeEnd newSubscription exchange uuid publisherURL alloc now s).2) ↔
            renewable newSubscription exchange uuid alloc s = true) := by
  obtain ⟨list, owned⟩ := run_keeps step_owned initial_owned renews ran
  constructor
  · intro newSubscription fresh
    have begun := (genaSubscribeBegin_owned owned fresh).listed
    exact ⟨list, owned.listed, begun⟩
  · intro i newSubscription exchange uuid publisherURL alloc now found
    obtain ⟨-, own⟩ := owned.finish found
    generalize called : genaSubscribeEnd newSubscription exchange uuid publisherURL alloc now s = ended
    rcases genaSubscribeEnd_cases called with ⟨fits, ⟨rc, -, rfl⟩ | ⟨a, sub, timer, rfl, rfl⟩⟩ | ⟨fails, deleted⟩
    · have outside : ∀ a ∈ newSubscription, a ∉ addresses list :=
        fun a mine inside => (own a mine).1 (List.mem_append_left _ inside)
      exact iff_of_true (fun _ => errorHandler_undone owned.listed outside rc) fits
    · exact iff_of_true (fun failed => absurd rfl failed) fits
    · obtain ⟨rc, a, sub, timer, failed, rfl, rfl⟩ := deleted
      rw [fails]
      refine iff_of_false (fun undone => ?_) Bool.false_ne_true
      obtain ⟨list', -, after⟩ := undone failed
      cases list' with
      | nil => exact Option.some_ne_none a after
      | cons cell list' =>
          obtain ⟨first, next, found, -⟩ := after
          have gone : AList.lookup a ((s.pushed a sub timer).heap.erase a) = none := AList.lookup_erase a _
          rw [← Option.some.inj first] at found
          exact absurd (gone.symm.trans found) (Option.some_ne_none _).symm

def granted : Exchange := ⟨UPNP_E_SUCCESS, bytes "uuid:device", 1800⟩

/-- A subscription is in the list when another call is under way. -/
def subscribedOnce : List Label :=
  [.register, .subscribe (some 1), .subscribeEnd 0 granted (bytes "1") [] ⟨true, true, true, true⟩ 0,
    .subscribe (some 2)]

theorem genaSubscribe_undone_once :
    ∃ s, run step subscribedOnce .initial = some s ∧ s.threads[1]? = some (.subscribing (some 2)) ∧
      (genaSubscribeEnd (some 2) ⟨-1, [], 0⟩ [] [] ⟨true, true, true, true⟩ 0 s).1 = -1 ∧
      Undone s (genaSubscribeEnd (some 2) ⟨-1, [], 0⟩ [] [] ⟨true, true, true, true⟩ 0 s).2 := by
  have threads : (run step subscribedOnce .initial).map (·.threads) = some [.done, .subscribing (some 2)] := by decide
  obtain ⟨s, ran, same⟩ := Option.map_eq_some_iff.mp threads
  have found : s.threads[1]? = some (.subscribing (some 2)) := by rw [same]; rfl
  refine ⟨s, ran, found, rfl, ?_⟩
  have undone := (genaSubscribe_undone subscribedOnce s ran (by decide)).2 1 (some 2) ⟨-1, [], 0⟩ [] []
    ⟨true, true, true, true⟩ 0 found
  have failed : (-1 : Int) ≠ UPNP_E_SUCCESS := by decide
  exact undone.mpr rfl failed

/-- There is no memory for the event that is to renew the second subscription: the call fails, and
`ClientSubList` is the object that it has deleted. -/
theorem genaSubscribe_dangles :
    ∃ s, run step subscribedOnce .initial = some s ∧ s.clientSubList = some 1 ∧
      let ended := genaSubscribeEnd (some 2) granted (bytes "2") [] ⟨false, true, true, true⟩ 0 s
      ended.1 = UPNP_E_OUTOF_MEMORY ∧ ended.2.clientSubList = some 2 ∧ ended.2.heap.lookup 2 = none ∧
        ¬Undone s ended.2 := by
  have facts : (run step subscribedOnce .initial).map (fun s =>
      let ended := genaSubscribeEnd (some 2) granted (bytes "2") [] ⟨false, true, true, true⟩ 0 s
      (s.clientSubList, ended.1, ended.2.clientSubList, ended.2.heap.lookup 2)) =
      some (some 1, UPNP_E_OUTOF_MEMORY, some 2, none) := by decide
  obtain ⟨s, ran, same⟩ := Option.map_eq_some_iff.mp facts
  obtain ⟨list, same⟩ := Prod.mk.inj same
  obtain ⟨rc, same⟩ := Prod.mk.inj same
  obtain ⟨head, gone⟩ := Prod.mk.inj same
  refine ⟨s, ran, list, rc, head, gone, ?_⟩
  rintro ⟨list, -, after⟩
  rw [head] at after
  cases list with
  | nil => exact Option.some_ne_none 2 after
  | cons cell list =>
      obtain ⟨first, next, found, -⟩ := after
      rw [← Option.some.inj first, gone] at found
      contradiction

end Pupnp.Gena.ClientHeap
