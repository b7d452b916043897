import Mathlib.Data.List.Nodup
import Mathlib.Data.List.Perm.Basic
import Pupnp.Gena.Mirror

/-!
The steps that move events along: a job begins or has sent its event, a subscription
gets its first event, an event goes to all subscriptions of a service.
-/

namespace Pupnp.Gena
open Pupnp.ThreadPool Pupnp.Run

theorem mirrors_cons_of_eq {sid : Nat} {input : NotifyThreadStruct} (named : input.sid = sid)
    (flight : List NotifyThreadStruct) :
    mirrors sid (input :: flight) = input :: mirrors sid flight := by
  simp [mirrors, named]

theorem mirrors_cons_of_ne {sid : Nat} {input : NotifyThreadStruct} (other : input.sid ≠ sid)
    (flight : List NotifyThreadStruct) : mirrors sid (input :: flight) = mirrors sid flight := by
  simp [mirrors, other]

theorem mirrors_perm {flight flight' : List NotifyThreadStruct} (sid : Nat)
    (same : flight'.Perm flight) : (mirrors sid flight').Perm (mirrors sid flight) := same.filter _

theorem inFlight_worker {s : State} {k : Nat} {worker : Worker} (here : s.workers[k]? = some worker) :
    (inFlight s).Perm
      (worker.input :: (poolInputs s.gSendThreadPool ++ (s.workers.eraseIdx k).map (·.input))) := by
  have moved : s.workers.Perm (worker :: s.workers.eraseIdx k) := by
    obtain ⟨inside, rfl⟩ := List.getElem?_eq_some_iff.mp here
    exact (List.getElem_cons_eraseIdx_perm inside).symm
  exact ((moved.map (·.input)).append_left _).trans List.perm_middle

theorem Mirrored.land {s : State} (mirrored : Mirrored s) {k : Nat} {worker : Worker}
    (here : s.workers[k]? = some worker)
    (gone : ∀ (i : Nat) (service : ServiceInfo), s.services[i]? = some service →
      ∀ sub ∈ service.subscriptionList, sub.sid ≠ worker.input.sid) :
    Mirrored { s with workers := s.workers.eraseIdx k } := by
  have left := inFlight_worker here
  refine mirrored.flight rfl rfl (Nat.le_refl _) rfl ?_ ?_
  · intro i service found sub member
    have same := mirrors_perm sub.sid left
    rw [mirrors_cons_of_ne (gone i service found sub member).symm] at same
    exact same.symm
  · intro input member
    exact left.mem_iff.mpr (List.mem_cons_of_mem _ member)

theorem notifyBegin_mirrored {s : State} (now : Int) {k : Nat} {worker : Worker}
    (here : s.workers[k]? = some worker) (mirrored : Mirrored s) :
    Mirrored (notifyBegin now k worker.input s) := by
  have flying : worker.input ∈ inFlight s :=
    (inFlight_worker here).mem_iff.mpr List.mem_cons_self
  unfold notifyBegin
  cases found : (s.context now worker.input).1 with
  | none =>
    obtain ⟨quiet, same, gone⟩ := context_none mirrored flying found
    simp only [found]
    exact quiet.land (by rw [same.workers]; exact here) gone
  | some place =>
    obtain ⟨i, sub⟩ := place
    obtain ⟨unchanged, -⟩ := context_some found
    simp only [found, unchanged]
    have inputs : (s.workers.set k ⟨worker.input, .sending sub.toSendEventKey⟩).map (·.input) =
        s.workers.map (·.input) := by
      rw [List.map_set]
      apply set_same
      rw [List.getElem?_map, here]
      rfl
    have same : inFlight { s with
        workers := s.workers.set k ⟨worker.input, .sending sub.toSendEventKey⟩ } = inFlight s := by
      rw [inFlight, inputs, inFlight]
    exact mirrored.flight rfl rfl (Nat.le_refl _) rfl
      (fun _ _ _ _ _ => by rw [same]) (fun input member => same ▸ member)

theorem Mirrored.requeue {s s' : State} {i : Nat} {service : ServiceInfo} {sub : Subscription}
    {f : Subscription → Subscription} (mirrored : Mirrored s) (found : s.services[i]? = some service)
    (member : sub ∈ service.subscriptionList) (keeps : ∀ sub, (f sub).sid = sub.sid)
    (handles : s'.handles = s.handles)
    (services : s'.services = s.services.set i (updateSubscription sub.sid f service))
    (events : s.nextEvent ≤ s'.nextEvent) (sids : s'.nextSid = s.nextSid)
    (good : GoodSub s.addressee (inFlight s') s'.nextEvent s.nextSid i (f sub))
    (others : ∀ sid, sid ≠ sub.sid → (mirrors sid (inFlight s')).Perm (mirrors sid (inFlight s)))
    (issued : ∀ input ∈ inFlight s', input ∈ inFlight s ∨ input.sid = sub.sid) : Mirrored s' := by
  obtain ⟨active, before⟩ := mirrored.good i service found sub member
  have named := updateSubscription_sids keeps sub.sid service
  have key : SameKey service (updateSubscription sub.sid f service) := ⟨rfl, rfl, rfl, rfl⟩
  have distinct := mirrored.distinct i service found
  refine mirrored.change found key handles services events (Nat.le_of_eq sids.symm) ?_ ?_ ?_ ?_ ?_
  · intro sub' member'
    exact Or.inl (named ▸ List.mem_map_of_mem member')
  · rw [named]
    exact distinct
  · intro sub' member'
    obtain ⟨old, present, rfl⟩ := List.mem_map.mp member'
    refine ⟨active, ?_⟩
    rw [sids]
    split
    next same =>
      obtain rfl := List.inj_on_of_nodup_map distinct present member same
      exact good
    next differ =>
      exact (mirrored.good i service found old present).2.transfer rfl (others old.sid differ) events
        (Nat.le_refl _)
  · intro sid absent _
    apply others sid
    rintro rfl
    exact absent (List.mem_map_of_mem member)
  · intro input flying
    rw [sids]
    obtain old | same := issued input flying
    · exact mirrored.issued input old
    · rw [same]
      exact before.known

theorem mirrors_append (sid : Nat) (first second : List NotifyThreadStruct) :
    mirrors sid (first ++ second) = mirrors sid first ++ mirrors sid second := List.filter_append ..

theorem mirrors_eq_nil {sid : Nat} {flight : List NotifyThreadStruct}
    (others : ∀ input ∈ flight, input.sid ≠ sid) : mirrors sid flight = [] := by
  rw [mirrors, List.filter_eq_nil_iff]
  intro input member
  simpa using others input member

theorem mirrors_eq_self {sid : Nat} {flight : List NotifyThreadStruct}
    (named : ∀ input ∈ flight, input.sid = sid) : mirrors sid flight = flight := by
  rw [mirrors, List.filter_eq_self]
  intro input member
  simpa using named input member

/-- The event behind the one sent comes into the pool, if there is one and the pool has room. -/
theorem advanceQueue_spec (now : Int) (p : Pool SendJob) (head : OutgoingJob)
    (rest : List OutgoingJob) :
    (advanceQueue now p (head :: rest)).1.map (·.arg) = rest.map (·.arg) ∧
      ∃ restarted, (poolInputs (advanceQueue now p (head :: rest)).2).Perm (restarted ++ poolInputs p) ∧
        restarted.Sublist (rest.map (·.arg)) ∧
        (rest = [] ∨ p.totalJobs < p.attr.maxJobsTotal → restarted = (rest.take 1).map (·.arg)) := by
  cases rest with
  | nil => exact ⟨rfl, [], List.Perm.refl _, List.Sublist.refl _, fun _ => rfl⟩
  | cons job others =>
    refine ⟨rfl, ?_⟩
    change ∃ restarted, (poolInputs (threadPoolAdd now p (.genaNotifyThread job.arg)).2).Perm _ ∧ _
    by_cases room : p.totalJobs < p.attr.maxJobsTotal
    · obtain ⟨-, added, -⟩ := threadPoolAdd_room now (.genaNotifyThread job.arg) room
      refine ⟨[job.arg], added, ?_, fun _ => rfl⟩
      exact (List.nil_sublist _).cons_cons _
    · rw [threadPoolAdd_full now _ (by omega)]
      refine ⟨[], List.Perm.refl _, List.nil_sublist _, ?_⟩
      rintro (empty | room')
      · contradiction
      · exact absurd room' room

def restarts (now : Int) (input : NotifyThreadStruct) (s : State) : Bool :=
  (s.context now input).1.any fun place => 2 ≤ place.2.outgoing.length

theorem GoodSub.next {find : NotifyThreadStruct → Option Nat}
    {flight flight' : List NotifyThreadStruct} {nextEvent nextSid i : Nat} {sub sub' : Subscription}
    (good : GoodSub find flight nextEvent nextSid i sub) {head : OutgoingJob} {rest : List OutgoingJob}
    (queue : sub.outgoing = head :: rest) (sid : sub'.sid = sub.sid) (alive : sub'.active = sub.active)
    (args : sub'.outgoing.map (·.arg) = rest.map (·.arg))
    (mirror : (mirrors sub.sid flight').Perm ((rest.map (·.arg)).take 1)) :
    GoodSub find flight' nextEvent nextSid i sub' := by
  have inQueue : ∀ job ∈ sub'.outgoing, ∃ old ∈ sub.outgoing, old.arg = job.arg := by
    intro job inside
    have behind : job.arg ∈ rest.map (·.arg) := args ▸ List.mem_map_of_mem inside
    obtain ⟨old, present, same⟩ := List.mem_map.mp behind
    exact ⟨old, by rw [queue]; exact List.mem_cons_of_mem _ present, same⟩
  refine ⟨?_, ?_, ?_, ?_, ?_, ?_⟩
  · rw [sid, List.map_take, args]
    exact mirror
  · intro job inside
    obtain ⟨old, present, same⟩ := inQueue job inside
    rw [sid, ← same]
    exact good.addressed old present
  · intro inactive
    have empty := good.idle (alive.symm.trans inactive)
    rw [queue] at empty
    contradiction
  · have ordered := good.ordered
    rw [queue, List.map_cons, List.pairwise_cons] at ordered
    have events : sub'.outgoing.map (·.arg.event) = rest.map (·.arg.event) := by
      have := congrArg (List.map NotifyThreadStruct.event) args
      rwa [List.map_map, List.map_map] at this
    rw [events]
    exact ordered.2
  · intro job inside
    obtain ⟨old, present, same⟩ := inQueue job inside
    rw [← same]
    exact good.recent old present
  · rw [sid]
    exact good.known

theorem removed_update (sid : Nat) (f : Subscription → Subscription) {service : ServiceInfo}
    (keeps : ∀ sub, (f sub).sid = sub.sid) (distinct : (service.subscriptionList.map (·.sid)).Nodup) :
    ∀ sub ∈ (removeSubscriptionSID sid (updateSubscription sid f service)).subscriptionList,
      sub ∈ service.subscriptionList ∧ sub.sid ≠ sid := by
  intro sub member
  have gone := removeSubscriptionSID_gone
    ((updateSubscription_sids keeps sid service).symm ▸ distinct) sub member
  refine ⟨?_, gone⟩
  have present : sub ∈ (updateSubscription sid f service).subscriptionList := by
    unfold removeSubscriptionSID at member
    split at member
    · exact List.mem_of_mem_eraseP member
    · exact member
  obtain ⟨old, inside, same⟩ := List.mem_map.mp present
  split at same
  next named =>
    rw [← same, keeps] at gone
    contradiction
  next => exact same ▸ inside

theorem notifyFinish_mirrored {s : State} (now : Int) {remove : Bool} {k : Nat} {worker : Worker}
    (here : s.workers[k]? = some worker) (mirrored : Mirrored s)
    (room : restarts now worker.input s = true → remove = false →
      s.gSendThreadPool.totalJobs < s.gSendThreadPool.attr.maxJobsTotal) :
    Mirrored (notifyFinish now remove k worker.input s) := by
  have left := inFlight_worker here
  have flying : worker.input ∈ inFlight s := left.mem_iff.mpr List.mem_cons_self
  unfold notifyFinish
  cases found : (s.context now worker.input).1 with
  | none =>
    obtain ⟨quiet, same, gone⟩ := context_none mirrored flying found
    simp only [found]
    exact quiet.land (by rw [same.workers]; exact here) gone
  | some place =>
    obtain ⟨i, sub⟩ := place
    obtain ⟨unchanged, service, at_, member, named⟩ := context_some found
    obtain ⟨-, head, rest, queue, -, mirror⟩ := mirrored.found flying at_ member named
    obtain ⟨active, good⟩ := mirrored.good i service at_ sub member
    simp only [found, unchanged, at_, queue]
    obtain ⟨args, restarted, added, fromRest, filled⟩ :=
      advanceQueue_spec now s.gSendThreadPool head rest
    have addressed : ∀ job ∈ rest, job.arg.sid = sub.sid ∧ s.addressee job.arg = some i := by
      intro job inside
      exact good.addressed job (by rw [queue]; exact List.mem_cons_of_mem _ inside)
    have sids : ∀ input ∈ restarted, input.sid = sub.sid := by
      intro input inside
      obtain ⟨job, inRest, rfl⟩ := List.mem_map.mp (fromRest.mem inside)
      exact (addressed job inRest).1
    generalize advanceQueue now s.gSendThreadPool (head :: rest) = advanced at args added
    set sent : Subscription → Subscription := fun sub =>
      { sub with toSendEventKey := nextEventKey sub.toSendEventKey, outgoing := advanced.1 }
    have after := added.append_right ((s.workers.eraseIdx k).map (·.input))
    rw [List.append_assoc] at after
    have landed : mirrors sub.sid
        (poolInputs s.gSendThreadPool ++ (s.workers.eraseIdx k).map (·.input)) = [] := by
      have taken := mirrors_perm worker.input.sid left
      rw [mirrors_cons_of_eq rfl] at taken
      have single := (taken.symm.trans mirror).length_eq
      rw [named]
      exact List.eq_nil_of_length_eq_zero (by simpa using single)
    have others : ∀ sid, sid ≠ sub.sid →
        (mirrors sid (poolInputs advanced.2 ++ (s.workers.eraseIdx k).map (·.input))).Perm
          (mirrors sid (inFlight s)) := by
      intro sid differ
      refine (mirrors_perm sid after).trans ?_
      rw [mirrors_append, mirrors_eq_nil fun input inside => (sids input inside).trans_ne differ.symm,
        List.nil_append]
      have same := mirrors_perm sid left
      rw [mirrors_cons_of_ne (named ▸ differ.symm)] at same
      exact same.symm
    have origin : ∀ input ∈ poolInputs advanced.2 ++ (s.workers.eraseIdx k).map (·.input),
        input ∈ inFlight s ∨ input.sid = sub.sid := by
      intro input flies
      obtain new | old := List.mem_append.mp (after.mem_iff.mp flies)
      · exact Or.inr (sids input new)
      · exact Or.inl (left.mem_iff.mpr (List.mem_cons_of_mem _ old))
    cases remove with
    | false =>
      have fits : rest = [] ∨
          s.gSendThreadPool.totalJobs < s.gSendThreadPool.attr.maxJobsTotal := by
        cases behind : rest with
        | nil => exact Or.inl rfl
        | cons job more => exact Or.inr (room (by simp [restarts, found, queue, behind]) rfl)
      simp only [Bool.false_eq_true, if_false, ← named]
      refine mirrored.requeue (f := sent) at_ member (fun _ => rfl) rfl rfl (Nat.le_refl _) rfl ?_
        others origin
      refine good.next queue rfl rfl args ?_
      refine (mirrors_perm sub.sid after).trans ?_
      rw [mirrors_append, landed, mirrors_eq_self sids, List.append_nil, filled fits, List.map_take]
    | true =>
      simp only [if_true, ← named]
      have stays := removed_update sub.sid sent (fun _ => rfl) (mirrored.distinct i service at_)
      have key : SameKey service
          (removeSubscriptionSID sub.sid (updateSubscription sub.sid sent service)) := by
        obtain ⟨device, id, udn, alive⟩ :=
          (removeSubscriptionSID_quieter sub.sid (updateSubscription sub.sid sent service)).key
        exact ⟨device, id, udn, alive⟩
      refine mirrored.change at_ key rfl rfl (Nat.le_refl _) (Nat.le_refl _) ?_ ?_ ?_ ?_ ?_
      · exact fun sub' inside => Or.inl (List.mem_map_of_mem (stays sub' inside).1)
      · refine (removeSubscriptionSID_quieter _ _).sids.nodup ?_
        rw [updateSubscription_sids (f := sent) fun _ => rfl]
        exact mirrored.distinct i service at_
      · intro sub' inside
        obtain ⟨old, differ⟩ := stays sub' inside
        exact ⟨active, (mirrored.good i service at_ sub' old).2.transfer rfl
          (others sub'.sid differ) (Nat.le_refl _) (Nat.le_refl _)⟩
      · intro sid absent _
        apply others sid
        rintro rfl
        exact absent (List.mem_map_of_mem member)
      · intro input flies
        obtain old | same := origin input flies
        · exact mirrored.issued input old
        · exact same ▸ good.known

theorem threadPoolAdd_cases (now : Int) (p : Pool SendJob) (job : SendJob) :
    ((threadPoolAdd now p job).1 = true ∧
        (poolInputs (threadPoolAdd now p job).2).Perm (job.input?.toList ++ poolInputs p)) ∨
      threadPoolAdd now p job = (false, p) := by
  by_cases room : p.totalJobs < p.attr.maxJobsTotal
  · obtain ⟨ok, added, -⟩ := threadPoolAdd_room now job room
    exact Or.inl ⟨ok, added⟩
  · exact Or.inr (threadPoolAdd_full now job (by omega))

theorem addOther_mirrored {s : State} (now : Int) (mirrored : Mirrored s) :
    Mirrored { s with gSendThreadPool := (threadPoolAdd now s.gSendThreadPool .other).2 } := by
  have same : (poolInputs (threadPoolAdd now s.gSendThreadPool .other).2).Perm
      (poolInputs s.gSendThreadPool) := by
    obtain ⟨-, added⟩ | full := threadPoolAdd_cases now s.gSendThreadPool .other
    · exact added
    · rw [full]
  have flight := same.append_right (s.workers.map (·.input))
  exact mirrored.flight rfl rfl (Nat.le_refl _) rfl (fun _ _ _ sub _ => mirrors_perm sub.sid flight)
    fun input member => flight.mem_iff.mp member

theorem genaInitNotify_mirrored {s : State} (deviceHandle : Int) (udn servId propertySet : List UInt8)
    (sid : Nat) (now : Int) (mirrored : Mirrored s) :
    Mirrored (genaInitNotify deviceHandle udn servId propertySet sid now s).2 := by
  unfold genaInitNotify
  split
  · exact mirrored
  · next i address =>
    split
    · exact mirrored
    · next service at_ =>
      obtain ⟨-, got⟩ | ⟨sub, search, got | got⟩ := getSubscriptionSID_cases sid now service
      · simp only [got]
        exact mirrored.quiet at_ (.refl service)
      · simp only [got]
        exact mirrored.quiet at_ (removeSubscriptionSID_quieter sid service)
      · have member := List.mem_of_find?_eq_some search
        have named : sub.sid = sid := by simpa using List.find?_some search
        obtain ⟨active, good⟩ := mirrored.good i service at_ sub member
        simp only [got]
        split
        · exact mirrored
        next inactive =>
          have empty := good.idle (by simpa using inactive)
          have alone := good.mirror
          rw [empty] at alone
          subst named
          set arg : NotifyThreadStruct :=
            ⟨s.nextEvent, propertySet, servId, udn, sub.sid, now, deviceHandle⟩
          obtain ⟨ok, added⟩ | full :=
            threadPoolAdd_cases now s.gSendThreadPool (.genaNotifyThread arg)
          · generalize threadPoolAdd now s.gSendThreadPool (.genaNotifyThread arg) = result at *
            obtain ⟨flag, pool⟩ := result
            obtain rfl : flag = true := ok
            have flight := added.append_right (s.workers.map (·.input))
            rw [List.append_assoc] at flight
            refine mirrored.requeue (f := fun sub =>
              { sub with active := true, outgoing := sub.outgoing ++ [⟨arg, true⟩] }) at_ member
              (fun _ => rfl) rfl rfl (Nat.le_succ _) rfl ?_ ?_ ?_
            · refine ⟨?_, ?_, by simp, ?_, ?_, good.known⟩
              · simp only [empty, List.nil_append]
                refine (mirrors_perm sub.sid flight).trans ?_
                exact (mirrors_cons_of_eq rfl _) ▸ alone.cons arg
              · intro job inside
                simp only [empty, List.nil_append, List.mem_singleton] at inside
                subst inside
                exact ⟨rfl, address⟩
              · simp [empty]
              · simp [empty, arg]
            · intro other differ
              have notThis : arg.sid ≠ other := differ.symm
              refine (mirrors_perm other flight).trans ?_
              change (mirrors other (arg :: inFlight s)).Perm _
              rw [mirrors_cons_of_ne notThis]
            · intro input flies
              obtain same | old := List.mem_cons.mp (flight.mem_iff.mp flies)
              · exact Or.inr (same ▸ rfl)
              · exact Or.inl old
          · rw [full]
            refine mirrored.requeue (f := fun sub => { sub with active := true }) at_ member
              (fun _ => rfl) rfl rfl (Nat.le_succ _) rfl ?_ (fun _ _ => List.Perm.refl _)
              fun _ flies => Or.inl flies
            exact ⟨good.mirror, good.addressed, by simp, good.ordered,
              fun job inside => Nat.lt_succ_of_lt (good.recent job inside), good.known⟩

theorem maybeDiscardEvents_spec (eqMaxLen eqMaxAge now : Int) (queue : List OutgoingJob) :
    (maybeDiscardEvents eqMaxLen eqMaxAge now queue).Sublist queue ∧
      (maybeDiscardEvents eqMaxLen eqMaxAge now queue).take 1 = queue.take 1 := by
  induction queue using maybeDiscardEvents.induct eqMaxLen eqMaxAge now with
  | case1 head second rest discard ih =>
    rw [maybeDiscardEvents, if_pos discard]
    exact ⟨ih.1.trans ((List.sublist_cons_self second rest).cons_cons head), ih.2⟩
  | case2 head second rest keep =>
    rw [maybeDiscardEvents, if_neg keep]
    exact ⟨List.Sublist.refl _, rfl⟩
  | case3 queue short =>
    rw [maybeDiscardEvents.eq_2 _ _ _ _ short]
    exact ⟨List.Sublist.refl _, rfl⟩

theorem nonempty_of_take {kept queue : List OutgoingJob} (head : kept.take 1 = queue.take 1)
    (nonempty : queue ≠ []) : kept ≠ [] := by
  rintro rfl
  cases queue with
  | nil => exact nonempty rfl
  | cons first rest => contradiction

theorem GoodSub.extend {find : NotifyThreadStruct → Option Nat}
    {flight flight' : List NotifyThreadStruct} {nextEvent nextSid i : Nat} {sub sub' : Subscription}
    (good : GoodSub find flight nextEvent nextSid i sub) (active : sub.active = true)
    {kept : List OutgoingJob} {job : OutgoingJob} (fewer : kept.Sublist sub.outgoing)
    (head : kept.take 1 = sub.outgoing.take 1) (sid : sub'.sid = sub.sid)
    (alive : sub'.active = sub.active) (queue : sub'.outgoing = kept ++ [job])
    (event : job.arg.event = nextEvent) (named : job.arg.sid = sub.sid) (found : find job.arg = some i)
    (mirror : (mirrors sub.sid flight').Perm
      (if sub.outgoing = [] then job.arg :: mirrors sub.sid flight else mirrors sub.sid flight)) :
    GoodSub find flight' (nextEvent + 1) nextSid i sub' := by
  refine ⟨?_, ?_, ?_, ?_, ?_, ?_⟩
  · rw [sid, queue]
    refine mirror.trans ?_
    by_cases empty : sub.outgoing = []
    · have before := good.mirror
      rw [empty] at fewer before
      rw [List.sublist_nil.mp fewer, if_pos empty]
      exact before.cons job.arg
    · have nonempty := nonempty_of_take head empty
      rw [if_neg empty, List.take_append_of_le_length (List.length_pos_iff.mpr nonempty), head]
      exact good.mirror
  · intro other inside
    rw [queue] at inside
    rw [sid]
    obtain old | new := List.mem_append.mp inside
    · exact good.addressed other (fewer.mem old)
    · rw [List.mem_singleton.mp new]
      exact ⟨named, found⟩
  · intro inactive
    rw [alive, active] at inactive
    contradiction
  · rw [queue, List.map_append, List.pairwise_append]
    refine ⟨good.ordered.sublist (fewer.map _), List.pairwise_singleton _ _, ?_⟩
    intro old inside new last
    obtain ⟨earlier, present, rfl⟩ := List.mem_map.mp inside
    obtain rfl : new = nextEvent := by simpa [event] using last
    exact good.recent earlier (fewer.mem present)
  · intro other inside
    rw [queue] at inside
    obtain old | new := List.mem_append.mp inside
    · exact Nat.lt_succ_of_lt (good.recent other (fewer.mem old))
    · rw [List.mem_singleton.mp new, event]
      exact Nat.lt_succ_self _
  · rw [sid]
    exact good.known

def kickStarts (now : Int) (subs : List Subscription) : Nat :=
  subs.countP fun sub => !sub.expired now && (sub.active && sub.outgoing.isEmpty)

/-- What the loop over the subscriptions leaves, with `held` by the workers. -/
structure Spread (find : NotifyThreadStruct → Option Nat) (held : List NotifyThreadStruct)
    (nextSid i : Nat) (subs : List Subscription) (p : Pool SendJob) (nextEvent : Nat)
    (out : Fanout) : Prop where
  sids : (out.subscriptions.map (·.sid)).Sublist (subs.map (·.sid))
  good : ∀ sub ∈ out.subscriptions,
    GoodSub find (poolInputs out.pool ++ held) out.nextEvent nextSid i sub
  others : ∀ sid, sid ∉ subs.map (·.sid) →
    (mirrors sid (poolInputs out.pool ++ held)).Perm (mirrors sid (poolInputs p ++ held))
  events : nextEvent ≤ out.nextEvent
  origin : ∀ input ∈ poolInputs out.pool, input ∈ poolInputs p ∨ input.sid ∈ subs.map (·.sid)

section Loop
variable {find : NotifyThreadStruct → Option Nat} {held : List NotifyThreadStruct}
variable {nextSid i : Nat} {sub sub' : Subscription} {rest : List Subscription}
variable {p p' : Pool SendJob} {nextEvent nextEvent' : Nat} {out : Fanout}

theorem Spread.skip (later : Spread find held nextSid i rest p nextEvent out) :
    Spread find held nextSid i (sub :: rest) p nextEvent out := by
  refine ⟨later.sids.cons _, later.good, ?_, later.events, ?_⟩
  · intro sid absent
    exact later.others sid fun inside => absent (List.mem_cons_of_mem _ inside)
  · intro input flies
    exact (later.origin input flies).imp_right fun inside => List.mem_cons_of_mem _ inside

theorem Spread.cons (later : Spread find held nextSid i rest p' nextEvent' out)
    (sid : sub'.sid = sub.sid) (fresh : sub.sid ∉ rest.map (·.sid))
    (good : GoodSub find (poolInputs p' ++ held) nextEvent' nextSid i sub')
    (events : nextEvent ≤ nextEvent')
    (others : ∀ sid, sid ≠ sub.sid →
      (mirrors sid (poolInputs p' ++ held)).Perm (mirrors sid (poolInputs p ++ held)))
    (origin : ∀ input ∈ poolInputs p', input ∈ poolInputs p ∨ input.sid = sub.sid) :
    Spread find held nextSid i (sub :: rest) p nextEvent
      { out with subscriptions := sub' :: out.subscriptions } := by
  refine ⟨?_, ?_, ?_, Nat.le_trans events later.events, ?_⟩
  · rw [List.map_cons, List.map_cons, sid]
    exact later.sids.cons_cons _
  · intro other member
    obtain rfl | inside := List.mem_cons.mp member
    · exact good.transfer rfl (later.others _ (sid ▸ fresh)) later.events (Nat.le_refl _)
    · exact later.good other inside
  · intro other absent
    rw [List.map_cons, List.mem_cons, not_or] at absent
    exact (later.others other absent.2).trans (others other absent.1)
  · intro input flies
    obtain old | inside := later.origin input flies
    · refine (origin input old).imp_right fun same => ?_
      rw [same]
      exact List.mem_cons_self
    · exact Or.inr (List.mem_cons_of_mem _ inside)

theorem notifySubscriptions_spread (s : State) {make : Nat → Nat → NotifyThreadStruct} {now : Int}
    (event : ∀ event sid, (make event sid).event = event) (named : ∀ event sid, (make event sid).sid = sid)
    (addressed : ∀ event sid, find (make event sid) = some i) {subs : List Subscription} {counter : Int}
    (distinct : (subs.map (·.sid)).Nodup)
    (good : ∀ sub ∈ subs, GoodSub find (poolInputs p ++ held) nextEvent nextSid i sub)
    (room : kickStarts now subs = 0 ∨ p.totalJobs + kickStarts now subs ≤ p.attr.maxJobsTotal) :
    Spread find held nextSid i subs p nextEvent (notifySubscriptions s make now subs counter p nextEvent) := by
  induction subs generalizing counter p nextEvent with
  | nil =>
    exact ⟨List.Sublist.refl _, nofun, fun _ _ => List.Perm.refl _, Nat.le_refl _,
      fun _ flies => Or.inl flies⟩
  | cons sub rest ih =>
    rw [List.map_cons, List.nodup_cons] at distinct
    obtain ⟨fresh, distinct⟩ := distinct
    have goodHere := good sub List.mem_cons_self
    have goodRest := fun other inside => good other (List.mem_cons_of_mem sub inside)
    have differs : ∀ other ∈ rest, other.sid ≠ sub.sid := by
      intro other inside same
      exact fresh (same ▸ List.mem_map_of_mem inside)
    rw [notifySubscriptions]
    by_cases expired : sub.expired now = true
    · rw [if_pos expired]
      have count : kickStarts now (sub :: rest) = kickStarts now rest := by
        simp [kickStarts, expired]
      exact (ih distinct goodRest (count ▸ room)).skip
    rw [if_neg expired]
    by_cases active : sub.active = true
    · rw [if_pos active]
      obtain ⟨fewer, head⟩ := maybeDiscardEvents_spec s.eqMaxLen s.eqMaxAge now sub.outgoing
      simp only
      by_cases empty : sub.outgoing = []
      · have count : kickStarts now (sub :: rest) = kickStarts now rest + 1 := by
          simp [kickStarts, expired, active, empty]
        rw [count] at room
        have open_ : p.totalJobs < p.attr.maxJobsTotal := by omega
        obtain ⟨ok, added, attr, total⟩ :=
          threadPoolAdd_room now (.genaNotifyThread (make nextEvent sub.sid)) open_
        have nothing : maybeDiscardEvents s.eqMaxLen s.eqMaxAge now sub.outgoing = [] := by
          rw [empty] at fewer ⊢
          exact List.sublist_nil.mp fewer
        simp only [nothing, List.nil_append, List.length_singleton, if_true, ok]
        generalize (threadPoolAdd now p (.genaNotifyThread (make nextEvent sub.sid))).2 = q at *
        have flight := added.append_right held
        rw [List.append_assoc] at flight
        have others : ∀ sid, sid ≠ sub.sid →
            (mirrors sid (poolInputs q ++ held)).Perm (mirrors sid (poolInputs p ++ held)) := by
          intro sid differ
          have same := mirrors_perm sid flight
          change (mirrors sid _).Perm (mirrors sid (make nextEvent sub.sid :: _)) at same
          rwa [mirrors_cons_of_ne ((named _ _).trans_ne differ.symm)] at same
        have later := @ih q (nextEvent + 1) counter distinct
          (fun other inside => (goodRest other inside).transfer rfl
            (others other.sid (differs other inside)) (Nat.le_succ _) (Nat.le_refl _))
          (Or.inr (by rw [attr, total]; omega))
        refine later.cons rfl fresh ?_ (Nat.le_succ _) others ?_
        · refine goodHere.extend active (List.nil_sublist _) (by rw [empty]) rfl rfl rfl
            (event _ _) (named _ _) (addressed _ _) ?_
          rw [if_pos empty, ← mirrors_cons_of_eq (named nextEvent sub.sid)]
          exact mirrors_perm sub.sid flight
        · intro input flies
          obtain new | old := List.mem_append.mp (added.mem_iff.mp flies)
          · right
            rw [List.mem_singleton.mp new]
            exact named _ _
          · exact Or.inl old
      · have count : kickStarts now (sub :: rest) = kickStarts now rest := by
          simp [kickStarts, empty]
        have kept := List.length_pos_iff.mpr (nonempty_of_take head empty)
        rw [if_neg (by rw [List.length_append, List.length_singleton]; omega)]
        have later := @ih p (nextEvent + 1) counter distinct
          (fun other inside => (goodRest other inside).transfer rfl (List.Perm.refl _)
            (Nat.le_succ _) (Nat.le_refl _)) (count ▸ room)
        refine later.cons rfl fresh ?_ (Nat.le_succ _) (fun _ _ => List.Perm.refl _)
          fun _ flies => Or.inl flies
        refine goodHere.extend active fewer head rfl rfl rfl (event _ _) (named _ _)
          (addressed _ _) ?_
        rw [if_neg empty]
    · rw [if_neg active]
      have count : kickStarts now (sub :: rest) = kickStarts now rest := by
        simp [kickStarts, active]
      exact (ih distinct goodRest (count ▸ room)).cons rfl fresh goodHere (Nat.le_refl _)
        (fun _ _ => List.Perm.refl _) fun _ flies => Or.inl flies

end Loop

/-- The pool has room for all the queues that `genaNotifyAllCommon` starts. -/
def startsFit (deviceHandle : Int) (udn servId : List UInt8) (now : Int) (s : State) : Bool :=
  match s.findServiceId deviceHandle servId udn with
  | none => true
  | some i => s.services[i]?.all fun service =>
      kickStarts now service.subscriptionList = 0 ||
        s.gSendThreadPool.totalJobs + kickStarts now service.subscriptionList ≤
          s.gSendThreadPool.attr.maxJobsTotal

theorem genaNotifyAll_mirrored {s : State} {deviceHandle : Int} {udn servId : List UInt8}
    (propertySet : List UInt8) {now : Int} (mirrored : Mirrored s)
    (fit : startsFit deviceHandle udn servId now s = true) :
    Mirrored (genaNotifyAll deviceHandle udn servId propertySet now s).2 := by
  unfold genaNotifyAll
  split
  · exact mirrored
  · next i address =>
    split
    · exact mirrored
    · next service at_ =>
      simp only [startsFit, address, at_, Option.all_some, Bool.or_eq_true, decide_eq_true_eq] at fit
      have spread := @notifySubscriptions_spread s.addressee (s.workers.map Worker.input) s.nextSid i
        s.gSendThreadPool s.nextEvent s
        (fun event sid => ⟨event, propertySet, servId, udn, sid, now, deviceHandle⟩) now
        (fun _ _ => rfl) (fun _ _ => rfl) (fun _ _ => address) service.subscriptionList
        service.totalSubscriptions
        (mirrored.distinct i service at_)
        (fun sub member => (mirrored.good i service at_ sub member).2) fit
      generalize notifySubscriptions s _ now service.subscriptionList service.totalSubscriptions
        s.gSendThreadPool s.nextEvent = out at spread
      have key : SameKey service { service with
          subscriptionList := out.subscriptions
          totalSubscriptions := out.totalSubscriptions } :=
        ⟨rfl, rfl, rfl, rfl⟩
      refine mirrored.change at_ key rfl rfl spread.events (Nat.le_refl _) ?_ ?_ ?_ ?_ ?_
      · exact fun sub member => Or.inl (spread.sids.mem (List.mem_map_of_mem member))
      · exact spread.sids.nodup (mirrored.distinct i service at_)
      · intro sub member
        obtain ⟨old, present, -⟩ := List.mem_map.mp (spread.sids.mem (List.mem_map_of_mem member))
        exact ⟨(mirrored.good i service at_ old present).1, spread.good sub member⟩
      · exact fun sid absent _ => spread.others sid absent
      · intro input flies
        obtain pooled | held := List.mem_append.mp flies
        · obtain old | known := spread.origin input pooled
          · exact mirrored.issued input (List.mem_append_left _ old)
          · obtain ⟨old, present, same⟩ := List.mem_map.mp known
            rw [← same]
            exact (mirrored.good i service at_ old present).2.known
        · exact mirrored.issued input (List.mem_append_right _ held)

/-- The pool has room where a step starts or restarts a queue. -/
def roomy : Label → State → Bool
  | .notifyAll deviceHandle udn servId _ now, s => startsFit deviceHandle udn servId now s
  | .advance k now remove, s =>
      match s.workers[k]? with
      | some ⟨input, .sending _⟩ =>
          !restarts now input s || remove ||
            s.gSendThreadPool.totalJobs < s.gSendThreadPool.attr.maxJobsTotal
      | _ => true
  | _, _ => true

theorem step_mirrored (label : Label) (s t : State) (room : roomy label s = true)
    (stepped : step label s = some t) (mirrored : Mirrored s) : Mirrored t := by
  cases label with
  | subscribe i expireTime =>
    obtain rfl := Option.some.inj stepped
    exact subscribe_mirrored i expireTime mirrored
  | renew i sid now expireTime responds =>
    obtain rfl := Option.some.inj stepped
    exact renew_mirrored i sid now expireTime responds mirrored
  | unsubscribe i sid now =>
    obtain rfl := Option.some.inj stepped
    exact unsubscribe_mirrored i sid now mirrored
  | initNotify deviceHandle udn servId propertySet sid now =>
    obtain rfl := Option.some.inj stepped
    exact genaInitNotify_mirrored deviceHandle udn servId propertySet sid now mirrored
  | notifyAll deviceHandle udn servId propertySet now =>
    obtain rfl := Option.some.inj stepped
    exact genaNotifyAll_mirrored propertySet mirrored room
  | addOther now =>
    obtain rfl := Option.some.inj stepped
    exact addOther_mirrored now mirrored
  | takeJob choice =>
    obtain rfl := Option.some.inj stepped
    exact takeJob_mirrored choice mirrored
  | advance k now remove =>
    obtain ⟨⟨input, stage⟩, here, rfl⟩ := Option.map_eq_some_iff.mp stepped
    cases stage with
    | called => exact notifyBegin_mirrored now here mirrored
    | sending seq =>
      refine notifyFinish_mirrored now here mirrored ?_
      intro behind stays
      simpa [roomy, here, behind, stays] using room

theorem initial_mirrored (setup : Setup) : Mirrored (initial setup) := by
  have nobody : ∀ (i : Nat) (service : ServiceInfo), (initial setup).services[i]? = some service →
      service.subscriptionList = [] :=
    fun i service at_ => setup.unsubscribed service (List.mem_of_getElem? at_)
  refine ⟨?_, ?_, ?_, nofun⟩
  · intro i service at_ sub member
    rw [nobody i service at_] at member
    contradiction
  · intro i service at_
    rw [nobody i service at_]
    exact List.nodup_nil
  · intro i j service other differ at_ at_' sub member
    rw [nobody i service at_] at member
    contradiction

/-- The jobs in flight for a subscription: one for the head of its queue, none for any other event
of the queue, none at all where the queue is empty. -/
structure HeadMirrored (s : State) (sub : Subscription) : Prop where
  head : mirrors sub.sid (inFlight s) = (sub.outgoing.take 1).map (·.arg)
  only : ∀ job ∈ sub.outgoing.tail, job.arg ∉ inFlight s

theorem GoodSub.headMirrored {s : State} {i : Nat} {sub : Subscription}
    (good : GoodSub s.addressee (inFlight s) s.nextEvent s.nextSid i sub) : HeadMirrored s sub := by
  have mirror := good.mirror
  cases queue : sub.outgoing with
  | nil =>
    rw [queue] at mirror
    exact ⟨by rw [queue]; exact mirror.eq_nil, by simp [queue]⟩
  | cons head rest =>
    rw [queue] at mirror
    have single : mirrors sub.sid (inFlight s) = [head.arg] := List.perm_singleton.mp mirror
    refine ⟨by rw [queue]; exact single, ?_⟩
    rw [queue]
    intro job later flies
    have named := (good.addressed job (by rw [queue]; exact List.mem_cons_of_mem _ later)).1
    have inside : job.arg ∈ mirrors sub.sid (inFlight s) :=
      List.mem_filter.mpr ⟨flies, by simpa using named⟩
    rw [single, List.mem_singleton] at inside
    have ordered := good.ordered
    rw [queue, List.map_cons, List.pairwise_cons] at ordered
    have later := ordered.1 job.arg.event (List.mem_map_of_mem later)
    rw [inside] at later
    exact Nat.lt_irrefl _ later

/-- In a run whose pool has room whenever a queue starts or restarts, every state has a job for the
head of each queue and for no other event of it. -/
theorem run_headMirrored (setup : Setup) (labels : List Label) (s : State)
    (room : Along step (roomy · · = true) labels (initial setup))
    (ran : run step labels (initial setup) = some s) :
    ∀ service ∈ s.services, ∀ sub ∈ service.subscriptionList, HeadMirrored s sub := by
  intro service known sub member
  have mirrored := run_keeps step_mirrored (initial_mirrored setup) room ran
  obtain ⟨i, at_⟩ := List.getElem?_of_mem known
  exact (mirrored.good i service at_ sub member).2.headMirrored

theorem smallDevice_unsubscribed :
    ∀ service ∈ [(⟨1, [83], [85], true, [], 0⟩ : ServiceInfo)], service.subscriptionList = [] := by
  intro service member
  rw [List.mem_singleton.mp member]

/-- One device with one service, whose pool holds at most `maxJobsTotal` jobs. -/
def smallDevice (maxJobsTotal : Int) : Setup :=
  { handles := [1]
    services := [⟨1, [83], [85], true, [], 0⟩]
    unsubscribed := smallDevice_unsubscribed
    maxSubscriptions := -1
    eqMaxLen := 10
    eqMaxAge := 30
    attr := ⟨0, 1, 10000, 1, maxJobsTotal, 500⟩ }

def takes : Label := .takeJob ⟨true, true, true, false, ⟨0, 0⟩⟩

/-- Somebody subscribes and gets the initial event; the second of two more events is still queued
when the first one is being sent. -/
def plainRun : List Label :=
  [.subscribe 0 0, .initNotify 1 [85] [83] [73] 0 0, takes, .advance 0 0 false, .advance 0 0 false,
    .notifyAll 1 [85] [83] [65] 0, .notifyAll 1 [85] [83] [66] 0, takes, .advance 0 0 false]

/-- The initial event has been sent and the pool has filled up when the next event comes. -/
def fullRun : List Label :=
  [.subscribe 0 0, .initNotify 1 [85] [83] [73] 0 0, takes, .advance 0 0 false, .advance 0 0 false,
    .addOther 0, .notifyAll 1 [85] [83] [65] 0]

/-- What a run leaves: the length of each queue and the number of jobs in flight for it. -/
def queues (s : State) : List (Nat × Nat) :=
  s.services.flatMap fun service => service.subscriptionList.map fun sub =>
    (sub.outgoing.length, (mirrors sub.sid (inFlight s)).length)

theorem run_headMirrored_plain :
    ∃ s, run step plainRun (initial (smallDevice 100)) = some s ∧ queues s = [(2, 1)] ∧
      ∀ service ∈ s.services, ∀ sub ∈ service.subscriptionList, HeadMirrored s sub := by
  have ends : (run step plainRun (initial (smallDevice 100))).map queues = some [(2, 1)] := by
    decide +kernel
  obtain ⟨s, ran, left⟩ := Option.map_eq_some_iff.mp ends
  exact ⟨s, ran, left, run_headMirrored _ plainRun s (by decide +kernel) ran⟩

/-- With the pool full, an event is queued that nothing will ever send. -/
theorem run_leaves_queue :
    ¬∀ (setup : Setup) (labels : List Label) (s : State),
      run step labels (initial setup) = some s →
        ∀ service ∈ s.services, ∀ sub ∈ service.subscriptionList, HeadMirrored s sub := by
  intro claim
  have ends : (run step fullRun (initial (smallDevice 1))).map queues = some [(1, 0)] := by
    decide +kernel
  obtain ⟨s, ran, left⟩ := Option.map_eq_some_iff.mp ends
  have stuck : (1, 0) ∈ queues s := left ▸ List.mem_cons_self
  obtain ⟨service, known, inside⟩ := List.mem_flatMap.mp stuck
  obtain ⟨sub, member, counts⟩ := List.mem_map.mp inside
  obtain ⟨long, none⟩ := Prod.mk.inj counts
  have lengths := congrArg List.length (claim _ fullRun s ran service known sub member).head
  rw [none, List.length_map, List.length_take, long] at lengths
  contradiction

end Pupnp.Gena
