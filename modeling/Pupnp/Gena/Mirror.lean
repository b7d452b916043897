import Pupnp.Gena.Flight

/-!
The head of every queue of outgoing events has a job in `gSendThreadPool`, and no
other event of the queue has one, as long as the pool has room whenever a queue is
started or restarted.
-/

namespace Pupnp.Gena
open Pupnp.ThreadPool Pupnp.Run

def State.addressee (s : State) (input : NotifyThreadStruct) : Option Nat :=
  s.findServiceId input.deviceHandle input.servId input.udn

structure GoodSub (find : NotifyThreadStruct → Option Nat) (flight : List NotifyThreadStruct)
    (nextEvent nextSid i : Nat) (sub : Subscription) : Prop where
  mirror : (mirrors sub.sid flight).Perm ((sub.outgoing.take 1).map (·.arg))
  addressed : ∀ job ∈ sub.outgoing, job.arg.sid = sub.sid ∧ find job.arg = some i
  idle : sub.active = false → sub.outgoing = []
  ordered : (sub.outgoing.map (·.arg.event)).Pairwise (· < ·)
  recent : ∀ job ∈ sub.outgoing, job.arg.event < nextEvent
  known : sub.sid < nextSid

structure Mirrored (s : State) : Prop where
  good : ∀ (i : Nat) (service : ServiceInfo), s.services[i]? = some service →
    ∀ sub ∈ service.subscriptionList,
      service.active = true ∧ GoodSub s.addressee (inFlight s) s.nextEvent s.nextSid i sub
  distinct : ∀ (i : Nat) (service : ServiceInfo), s.services[i]? = some service →
    (service.subscriptionList.map (·.sid)).Nodup
  apart : ∀ (i j : Nat) (service other : ServiceInfo), i ≠ j → s.services[i]? = some service →
    s.services[j]? = some other →
      ∀ sub ∈ service.subscriptionList, ∀ sub' ∈ other.subscriptionList, sub.sid ≠ sub'.sid
  issued : ∀ input ∈ inFlight s, input.sid < s.nextSid

structure SameKey (service service' : ServiceInfo) : Prop where
  deviceHandle : service'.deviceHandle = service.deviceHandle
  serviceId : service'.serviceId = service.serviceId
  udn : service'.udn = service.udn
  active : service'.active = service.active

theorem set_same {A : Type*} {l : List A} {i : Nat} {a : A} (found : l[i]? = some a) :
    l.set i a = l := by
  obtain ⟨inside, rfl⟩ := List.getElem?_eq_some_iff.mp found
  exact List.set_getElem_self inside

theorem addressee_set {s s' : State} {i : Nat} {service service' : ServiceInfo}
    (found : s.services[i]? = some service) (key : SameKey service service')
    (handles : s'.handles = s.handles) (services : s'.services = s.services.set i service') :
    s'.addressee = s.addressee := by
  funext input
  simp only [State.addressee, State.findServiceId, handles, services]
  generalize named : (fun service : ServiceInfo => (service.deviceHandle = input.deviceHandle &&
    service.serviceId = input.servId && service.udn = input.udn : Bool)) = matching
  have answer : matching service' = matching service := by
    rw [← named]
    simp only [key.deviceHandle, key.serviceId, key.udn]
  have keys : (s.services.set i service').map matching = s.services.map matching := by
    rw [List.map_set, answer]
    apply set_same
    rw [List.getElem?_map, found]
    rfl
  have byKeys : ∀ l : List ServiceInfo, l.findIdx? matching = (l.map matching).findIdx? id := by
    intro l
    rw [List.findIdx?_map]
    rfl
  rw [byKeys, byKeys, keys]

theorem GoodSub.transfer {find find' : NotifyThreadStruct → Option Nat}
    {flight flight' : List NotifyThreadStruct} {nextEvent nextEvent' nextSid nextSid' i : Nat}
    {sub : Subscription} (good : GoodSub find flight nextEvent nextSid i sub) (finds : find' = find)
    (same : (mirrors sub.sid flight').Perm (mirrors sub.sid flight)) (events : nextEvent ≤ nextEvent')
    (sids : nextSid ≤ nextSid') : GoodSub find' flight' nextEvent' nextSid' i sub := by
  obtain ⟨mirror, addressed, idle, ordered, recent, known⟩ := good
  subst finds
  exact ⟨same.trans mirror, addressed, idle, ordered,
    fun job member => Nat.lt_of_lt_of_le (recent job member) events,
    Nat.lt_of_lt_of_le known sids⟩

/-- One service changes its subscriptions; those of the other services are in flight as before. -/
theorem Mirrored.change {s s' : State} {i : Nat} {service service' : ServiceInfo}
    (mirrored : Mirrored s) (found : s.services[i]? = some service) (key : SameKey service service')
    (handles : s'.handles = s.handles) (services : s'.services = s.services.set i service')
    (events : s.nextEvent ≤ s'.nextEvent) (sids : s.nextSid ≤ s'.nextSid)
    (origin : ∀ sub' ∈ service'.subscriptionList,
      sub'.sid ∈ service.subscriptionList.map (·.sid) ∨ s.nextSid ≤ sub'.sid)
    (distinct : (service'.subscriptionList.map (·.sid)).Nodup)
    (good : ∀ sub' ∈ service'.subscriptionList,
      service.active = true ∧ GoodSub s.addressee (inFlight s') s'.nextEvent s'.nextSid i sub')
    (others : ∀ sid, sid ∉ service.subscriptionList.map (·.sid) → sid < s.nextSid →
      (mirrors sid (inFlight s')).Perm (mirrors sid (inFlight s)))
    (issued : ∀ input ∈ inFlight s', input.sid < s'.nextSid) : Mirrored s' := by
  have finds := addressee_set found key handles services
  have lookup : ∀ (j : Nat) (other : ServiceInfo), s'.services[j]? = some other →
      j = i ∧ other = service' ∨ j ≠ i ∧ s.services[j]? = some other := by
    intro j other at_
    rw [services, List.getElem?_set] at at_
    split at at_
    case isTrue same =>
      obtain rfl := same
      split at at_
      · exact Or.inl ⟨rfl, (Option.some.inj at_).symm⟩
      · contradiction
    case isFalse differ => exact Or.inr ⟨Ne.symm differ, at_⟩
  -- a subscription of another service has neither an id of this one nor a fresh one
  have elsewhere : ∀ (j : Nat) (other : ServiceInfo), j ≠ i → s.services[j]? = some other →
      ∀ sub ∈ other.subscriptionList, sub.sid ∉ service.subscriptionList.map (·.sid) := by
    intro j other differ at_ sub member inside
    obtain ⟨twin, present, same⟩ := List.mem_map.mp inside
    exact mirrored.apart i j service other (Ne.symm differ) found at_ twin present sub member same
  have fromOther : ∀ (j : Nat) (other : ServiceInfo), j ≠ i → s.services[j]? = some other →
      ∀ sub ∈ other.subscriptionList, ∀ sub' ∈ service'.subscriptionList, sub'.sid ≠ sub.sid := by
    intro j other differ at_ sub member sub' member' same
    obtain old | fresh := origin sub' member'
    · rw [same] at old
      exact elsewhere j other differ at_ sub member old
    · have := (mirrored.good j other at_ sub member).2.known
      omega
  refine ⟨?_, ?_, ?_, issued⟩
  · intro j other at_ sub member
    obtain ⟨rfl, rfl⟩ | ⟨differ, old⟩ := lookup j other at_
    · obtain ⟨active, fine⟩ := good sub member
      rw [finds]
      exact ⟨key.active.trans active, fine⟩
    · obtain ⟨active, fine⟩ := mirrored.good j other old sub member
      exact ⟨active, fine.transfer finds
        (others sub.sid (elsewhere j other differ old sub member) fine.known) events sids⟩
  · intro j other at_
    obtain ⟨rfl, rfl⟩ | ⟨-, old⟩ := lookup j other at_
    · exact distinct
    · exact mirrored.distinct j other old
  · intro j k one two differ first second sub member sub' member'
    obtain ⟨rfl, rfl⟩ | ⟨otherJ, oldJ⟩ := lookup j one first
    · obtain ⟨rfl, rfl⟩ | ⟨otherK, oldK⟩ := lookup k two second
      · exact absurd rfl differ
      · exact fromOther k two otherK oldK sub' member' sub member
    · obtain ⟨rfl, rfl⟩ | ⟨otherK, oldK⟩ := lookup k two second
      · exact (fromOther j one otherJ oldJ sub member sub' member').symm
      · exact mirrored.apart j k one two differ oldJ oldK sub member sub' member'

theorem Mirrored.flight {s s' : State} (mirrored : Mirrored s) (handles : s'.handles = s.handles)
    (services : s'.services = s.services) (events : s.nextEvent ≤ s'.nextEvent)
    (sids : s'.nextSid = s.nextSid)
    (same : ∀ (i : Nat) (service : ServiceInfo), s.services[i]? = some service →
      ∀ sub ∈ service.subscriptionList,
        (mirrors sub.sid (inFlight s')).Perm (mirrors sub.sid (inFlight s)))
    (issued : ∀ input ∈ inFlight s', input ∈ inFlight s) : Mirrored s' := by
  have finds : s'.addressee = s.addressee := by
    funext input
    simp only [State.addressee, State.findServiceId, handles, services]
  refine ⟨?_, ?_, ?_, ?_⟩
  · intro i service at_ sub member
    rw [services] at at_
    obtain ⟨active, fine⟩ := mirrored.good i service at_ sub member
    exact ⟨active, fine.transfer finds (same i service at_ sub member) events
        (Nat.le_of_eq sids.symm)⟩
  · rw [services]
    exact mirrored.distinct
  · rw [services]
    exact mirrored.apart
  · intro input member
    rw [sids]
    exact mirrored.issued input (issued input member)

structure Quieter (service service' : ServiceInfo) : Prop where
  key : SameKey service service'
  sids : (service'.subscriptionList.map (·.sid)).Sublist (service.subscriptionList.map (·.sid))
  queues : ∀ sub' ∈ service'.subscriptionList, ∃ sub ∈ service.subscriptionList,
    sub'.sid = sub.sid ∧ sub'.outgoing = sub.outgoing ∧ sub'.active = sub.active

theorem Quieter.refl (service : ServiceInfo) : Quieter service service :=
  ⟨⟨rfl, rfl, rfl, rfl⟩, List.Sublist.refl _, fun sub member => ⟨sub, member, rfl, rfl, rfl⟩⟩

theorem Quieter.trans {a b c : ServiceInfo} (first : Quieter a b) (second : Quieter b c) :
    Quieter a c := by
  refine ⟨⟨second.key.deviceHandle.trans first.key.deviceHandle,
    second.key.serviceId.trans first.key.serviceId, second.key.udn.trans first.key.udn,
    second.key.active.trans first.key.active⟩, second.sids.trans first.sids, ?_⟩
  intro sub member
  obtain ⟨middle, between, sid, outgoing, active⟩ := second.queues sub member
  obtain ⟨old, before, sid', outgoing', active'⟩ := first.queues middle between
  exact ⟨old, before, sid.trans sid', outgoing.trans outgoing', active.trans active'⟩

theorem removeSubscriptionSID_quieter (sid : Nat) (service : ServiceInfo) :
    Quieter service (removeSubscriptionSID sid service) := by
  unfold removeSubscriptionSID
  split
  · have fewer := List.eraseP_sublist (p := (·.sid = sid)) (l := service.subscriptionList)
    exact ⟨⟨rfl, rfl, rfl, rfl⟩, fewer.map _, fun sub member =>
      ⟨sub, fewer.mem member, rfl, rfl, rfl⟩⟩
  · exact .refl service

theorem getSubscriptionSID_quieter (sid : Nat) (now : Int) (service : ServiceInfo) :
    Quieter service (getSubscriptionSID sid now service).2 := by
  unfold getSubscriptionSID
  split
  · exact .refl service
  · split
    · exact removeSubscriptionSID_quieter sid service
    · exact .refl service

theorem updateSubscription_sids {f : Subscription → Subscription} (keeps : ∀ sub, (f sub).sid = sub.sid)
    (sid : Nat) (service : ServiceInfo) :
    (updateSubscription sid f service).subscriptionList.map (·.sid) =
      service.subscriptionList.map (·.sid) := by
  rw [updateSubscription, List.map_map]
  apply List.map_congr_left
  intro sub member
  simp only [Function.comp]
  split
  · exact keeps sub
  · rfl

theorem renewed_quieter (sid : Nat) (expireTime : Int) (service : ServiceInfo) :
    Quieter service (updateSubscription sid ({ · with expireTime := expireTime }) service) := by
  refine ⟨⟨rfl, rfl, rfl, rfl⟩, ?_, ?_⟩
  · have same := updateSubscription_sids (f := fun sub => { sub with expireTime := expireTime })
      (fun _ => rfl) sid service
    rw [same]
  · intro sub' member
    obtain ⟨sub, present, rfl⟩ := List.mem_map.mp member
    refine ⟨sub, present, ?_⟩
    split <;> exact ⟨rfl, rfl, rfl⟩

theorem Mirrored.quiet {s : State} {i : Nat} {service service' : ServiceInfo} (mirrored : Mirrored s)
    (found : s.services[i]? = some service) (quieter : Quieter service service') :
    Mirrored (s.setService i service') := by
  refine mirrored.change found quieter.key rfl rfl (Nat.le_refl _) (Nat.le_refl _) ?_ ?_ ?_ ?_
    mirrored.issued
  · exact fun sub' member => Or.inl (quieter.sids.mem (List.mem_map_of_mem member))
  · exact quieter.sids.nodup (mirrored.distinct i service found)
  · intro sub' member
    obtain ⟨sub, present, sid, outgoing, alive⟩ := quieter.queues sub' member
    obtain ⟨active, mirror, addressed, idle, ordered, recent, known⟩ :=
      mirrored.good i service found sub present
    refine ⟨active, ?_, ?_, ?_, ?_, ?_, ?_⟩
    · rw [sid, outgoing]
      exact mirror
    · rw [sid, outgoing]
      exact addressed
    · rw [alive, outgoing]
      exact idle
    · rw [outgoing]
      exact ordered
    · rw [outgoing]
      exact recent
    · rw [sid]
      exact known
  · exact fun sid _ _ => List.Perm.refl _

theorem unsubscribe_mirrored (i sid : Nat) (now : Int) {s : State} (mirrored : Mirrored s) :
    Mirrored (unsubscribe i sid now s) := by
  unfold unsubscribe
  split
  · exact mirrored
  · next service found =>
    split
    · simp only
      split
      · exact mirrored.quiet found (getSubscriptionSID_quieter sid now service)
      · exact mirrored.quiet found (removeSubscriptionSID_quieter sid service)
    · exact mirrored

theorem renew_mirrored (i sid : Nat) (now expireTime : Int) (responds : Bool) {s : State}
    (mirrored : Mirrored s) : Mirrored (renew i sid now expireTime responds s) := by
  unfold renew
  split
  · exact mirrored
  · next service found =>
    have renewed := renewed_quieter sid expireTime service
    split
    · simp only
      split
      · exact mirrored.quiet found (getSubscriptionSID_quieter sid now service)
      · split
        · exact mirrored.quiet found (removeSubscriptionSID_quieter sid service)
        · split
          · exact mirrored.quiet found renewed
          · exact mirrored.quiet found (renewed.trans (removeSubscriptionSID_quieter sid _))
    · exact mirrored

theorem mirrors_fresh {s : State} (mirrored : Mirrored s) {sid : Nat} (fresh : s.nextSid ≤ sid) :
    mirrors sid (inFlight s) = [] := by
  rw [mirrors, List.filter_eq_nil_iff]
  intro input member
  have := mirrored.issued input member
  simp only [decide_eq_true_eq]
  omega

theorem subscribe_mirrored (i : Nat) (expireTime : Int) {s : State} (mirrored : Mirrored s) :
    Mirrored (subscribe i expireTime s) := by
  unfold subscribe
  split
  · exact mirrored
  · next service found =>
    split
    · exact mirrored
    · next accepted =>
      simp only [Bool.or_eq_true, Bool.not_eq_true', not_or, Bool.not_eq_false] at accepted
      have key : SameKey service { service with
          subscriptionList := ⟨s.nextSid, 0, expireTime, false, []⟩ :: service.subscriptionList
          totalSubscriptions := service.totalSubscriptions + 1 } := ⟨rfl, rfl, rfl, rfl⟩
      refine mirrored.change found key rfl rfl (Nat.le_refl _) (Nat.le_succ _)
        ?_ ?_ ?_ (fun _ _ _ => List.Perm.refl _) ?_
      · intro sub' member
        obtain rfl | old := List.mem_cons.mp member
        · exact Or.inr (Nat.le_refl _)
        · exact Or.inl (List.mem_map_of_mem old)
      · rw [List.map_cons, List.nodup_cons]
        refine ⟨?_, mirrored.distinct i service found⟩
        intro inside
        obtain ⟨sub, present, same⟩ := List.mem_map.mp inside
        have := (mirrored.good i service found sub present).2.known
        simp only at same
        omega
      · intro sub' member
        refine ⟨accepted.1, ?_⟩
        obtain rfl | old := List.mem_cons.mp member
        · refine ⟨?_, by simp, fun _ => rfl, List.Pairwise.nil, by simp, Nat.lt_succ_self _⟩
          have none := mirrors_fresh mirrored (Nat.le_refl _)
          exact none ▸ List.Perm.refl _
        · exact (mirrored.good i service found sub' old).2.transfer rfl (List.Perm.refl _)
            (Nat.le_refl _) (Nat.le_succ _)
      · exact fun input member => Nat.lt_succ_of_lt (mirrored.issued input member)

theorem takeJob_mirrored (c : Choice) {s : State} (mirrored : Mirrored s) :
    Mirrored (takeJob c s) := by
  obtain ⟨handles, services, nextSid, nextEvent⟩ := takeJob_frame c s
  have flight := takeJob_inFlight c s
  exact mirrored.flight handles services (Nat.le_of_eq nextEvent.symm) nextSid
    (fun _ _ _ sub _ => flight.filter _) fun input member => flight.mem_iff.mp member

theorem Mirrored.found {s : State} (mirrored : Mirrored s) {input : NotifyThreadStruct}
    (flying : input ∈ inFlight s) {i : Nat} {service : ServiceInfo}
    (found : s.services[i]? = some service) {sub : Subscription}
    (member : sub ∈ service.subscriptionList) (named : sub.sid = input.sid) :
    s.addressee input = some i ∧ ∃ job rest, sub.outgoing = job :: rest ∧ job.arg = input ∧
      (mirrors input.sid (inFlight s)).Perm [input] := by
  obtain ⟨-, good⟩ := mirrored.good i service found sub member
  have inside : input ∈ mirrors sub.sid (inFlight s) := by
    rw [mirrors, List.mem_filter]
    exact ⟨flying, by simp [named]⟩
  have head := good.mirror.mem_iff.mp inside
  cases shape : sub.outgoing with
  | nil => simp [shape] at head
  | cons job rest =>
    rw [shape] at head
    have same : job.arg = input := by simpa [eq_comm] using head
    have mirror := good.mirror
    rw [shape, named] at mirror
    refine ⟨?_, job, rest, rfl, same, ?_⟩
    · rw [← same]
      exact (good.addressed job (by rw [shape]; exact List.mem_cons_self)).2
    · simpa [same] using mirror

theorem setService_same {s : State} {i : Nat} {service : ServiceInfo}
    (found : s.services[i]? = some service) : s.setService i service = s := by
  rw [State.setService, set_same found]

structure SameBut (s s' : State) : Prop where
  handles : s'.handles = s.handles
  pool : s'.gSendThreadPool = s.gSendThreadPool
  workers : s'.workers = s.workers
  nextSid : s'.nextSid = s.nextSid
  nextEvent : s'.nextEvent = s.nextEvent

theorem getSubscriptionSID_cases (sid : Nat) (now : Int) (service : ServiceInfo) :
    (service.subscriptionList.find? (·.sid = sid) = none ∧
        getSubscriptionSID sid now service = (none, service)) ∨
      (∃ sub, service.subscriptionList.find? (·.sid = sid) = some sub ∧
        (getSubscriptionSID sid now service = (none, removeSubscriptionSID sid service) ∨
          getSubscriptionSID sid now service = (some sub, service))) := by
  unfold getSubscriptionSID
  cases search : service.subscriptionList.find? (·.sid = sid) with
  | none => exact Or.inl ⟨rfl, rfl⟩
  | some sub =>
    refine Or.inr ⟨sub, rfl, ?_⟩
    simp only
    split
    · exact Or.inl rfl
    · exact Or.inr rfl

theorem context_cases (s : State) (now : Int) (input : NotifyThreadStruct) :
    (s.context now input = (none, s) ∧
        ∀ i service, s.addressee input = some i → s.services[i]? = some service →
          service.active = false) ∨
      ∃ i service, s.addressee input = some i ∧ s.services[i]? = some service ∧
        s.context now input = ((getSubscriptionSID input.sid now service).1.map (i, ·),
          s.setService i (getSubscriptionSID input.sid now service).2) := by
  have place : s.findServiceId input.deviceHandle input.servId input.udn = s.addressee input := rfl
  rw [State.context, place]
  cases address : s.addressee input with
  | none => exact Or.inl ⟨rfl, by simp⟩
  | some i =>
    cases here : s.services[i]? with
    | none =>
      refine Or.inl ⟨by simp only [here], ?_⟩
      rintro j service same at_
      rw [← Option.some.inj same, here] at at_
      contradiction
    | some service =>
      cases active : service.active with
      | false =>
        refine Or.inl ⟨by simp [here, active], ?_⟩
        rintro j other same at_
        rw [← Option.some.inj same, here] at at_
        rw [← Option.some.inj at_, active]
      | true =>
        refine Or.inr ⟨i, service, rfl, here, ?_⟩
        change s.findServiceId input.deviceHandle input.servId input.udn = some i at address
        simp only [here, active, if_true]

theorem context_some {s : State} {now : Int} {input : NotifyThreadStruct} {i : Nat}
    {sub : Subscription} (found : (s.context now input).1 = some (i, sub)) :
    (s.context now input).2 = s ∧ ∃ service, s.services[i]? = some service ∧
      sub ∈ service.subscriptionList ∧ sub.sid = input.sid := by
  obtain ⟨lost, -⟩ | ⟨j, service, -, here, looked⟩ := context_cases s now input
  · rw [lost] at found
    contradiction
  · rw [looked] at found ⊢
    obtain ⟨-, got⟩ | ⟨target, search, got | got⟩ :=
      getSubscriptionSID_cases input.sid now service
    · rw [got] at found
      contradiction
    · rw [got] at found
      contradiction
    · rw [got] at found ⊢
      obtain ⟨rfl, rfl⟩ := Prod.mk.inj (Option.some.inj found)
      refine ⟨setService_same here, service, here, List.mem_of_find?_eq_some search, ?_⟩
      simpa using List.find?_some search

theorem eraseP_gone {sid : Nat} {subs : List Subscription}
    (distinct : (subs.map (·.sid)).Nodup) : ∀ sub ∈ subs.eraseP (·.sid = sid), sub.sid ≠ sid := by
  induction subs with
  | nil => nofun
  | cons first rest ih =>
    rw [List.map_cons, List.nodup_cons] at distinct
    intro sub member
    by_cases named : first.sid = sid
    · rw [List.eraseP_cons_of_pos (by simpa using named)] at member
      intro same
      apply distinct.1
      rw [named, ← same]
      exact List.mem_map_of_mem member
    · rw [List.eraseP_cons_of_neg (by simpa using named)] at member
      obtain rfl | later := List.mem_cons.mp member
      · exact named
      · exact ih distinct.2 sub later

theorem removeSubscriptionSID_gone {sid : Nat} {service : ServiceInfo}
    (distinct : (service.subscriptionList.map (·.sid)).Nodup) :
    ∀ sub ∈ (removeSubscriptionSID sid service).subscriptionList, sub.sid ≠ sid := by
  unfold removeSubscriptionSID
  split
  · exact eraseP_gone distinct
  · next absent =>
    simpa using absent

theorem context_none {s : State} {now : Int} {input : NotifyThreadStruct} (mirrored : Mirrored s)
    (flying : input ∈ inFlight s) (none : (s.context now input).1 = none) :
    Mirrored (s.context now input).2 ∧ SameBut s (s.context now input).2 ∧
      ∀ (j : Nat) (service : ServiceInfo), (s.context now input).2.services[j]? = some service →
        ∀ sub ∈ service.subscriptionList, sub.sid ≠ input.sid := by
  obtain ⟨lost, inactive⟩ | ⟨i, service, address, here, looked⟩ := context_cases s now input
  · rw [lost]
    refine ⟨mirrored, ⟨rfl, rfl, rfl, rfl, rfl⟩, ?_⟩
    intro j other at_ sub member named
    have addressed := (mirrored.found flying at_ member named).1
    have active := (mirrored.good j other at_ sub member).1
    rw [inactive j other addressed at_] at active
    contradiction
  · have quiet := mirrored.quiet here (getSubscriptionSID_quieter input.sid now service)
    rw [looked] at none ⊢
    refine ⟨quiet, ⟨rfl, rfl, rfl, rfl, rfl⟩, ?_⟩
    intro j other at_ sub member named
    have same := (quiet.found flying at_ member named).1
    have finds : (s.setService i (getSubscriptionSID input.sid now service).2).addressee = s.addressee :=
      addressee_set here (getSubscriptionSID_quieter input.sid now service).key rfl rfl
    rw [finds, address] at same
    obtain rfl := Option.some.inj same
    have inside : i < s.services.length := (List.getElem?_eq_some_iff.mp here).1
    simp only [State.setService, List.getElem?_set_self inside, Option.some.injEq] at at_
    obtain rfl := at_
    obtain ⟨search, got⟩ | ⟨target, search, got | got⟩ :=
      getSubscriptionSID_cases input.sid now service
    · rw [got] at member
      have := List.find?_eq_none.mp search sub member
      simp [named] at this
    · rw [got] at member
      exact removeSubscriptionSID_gone (mirrored.distinct i service here) sub member named
    · rw [got] at none
      contradiction

end Pupnp.Gena
