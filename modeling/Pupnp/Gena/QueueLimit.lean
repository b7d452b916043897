import Pupnp.Gena.Delivery

/-!
How long the queues of outgoing events get. `maybeDiscardEvents` makes room before an event is queued: the
head stays, the oldest events behind it go, and the new event comes last.
-/

namespace Pupnp.Gena
open Pupnp.ThreadPool Pupnp.Run

/-- No queue holds more than `g_UpnpSdkEQMaxLen` events. -/
def State.WithinLimit (s : State) : Prop :=
  ∀ service ∈ s.services, ∀ sub ∈ service.subscriptionList, (sub.outgoing.length : Int) ≤ s.eqMaxLen

/-- What the loop of `genaNotifyAllCommon` makes of a subscription it comes to: where that is active, the
head of its queue stays, the oldest events behind it may go, the others keep their order and the new event
is the last one. -/
def Notified (make : Nat → Nat → NotifyThreadStruct) (sub sub' : Subscription) : Prop :=
  sub.active = true ∧ (∃ (event dropped : Nat) (stale : Bool), sub' = { sub with
      outgoing := sub.outgoing.take 1 ++ sub.outgoing.tail.drop dropped ++ [⟨make event sub.sid, stale⟩] }) ∨
    sub.active = false ∧ sub' = sub

/-- What a whole call makes of the subscriptions of its service. It comes to all of them unless it fails. -/
def NotifiedAll (make : Nat → Nat → NotifyThreadStruct) (now ret : Int) (subs subs' : List Subscription) : Prop :=
  ∃ came left came', subs = came ++ left ∧ subs' = came' ++ left ∧
    List.Forall₂ (Notified make) (came.filter (!·.expired now)) came' ∧ (ret = GENA_SUCCESS → left = [])

/-- What a call of `genaNotifyAll` has to leave. -/
def QueuesKept : Label → State → Prop
  | .notifyAll deviceHandle udn servId propertySet now, s =>
      let called := genaNotifyAll deviceHandle udn servId propertySet now s
      called.2.WithinLimit ∧
        ∀ (i : Nat) (service : ServiceInfo), s.services[i]? = some service →
          ∃ service', called.2.services[i]? = some service' ∧
            if s.findServiceId deviceHandle servId udn = some i then
              NotifiedAll (fun event sid => ⟨event, propertySet, servId, udn, sid, now, deviceHandle⟩) now
                called.1 service.subscriptionList service'.subscriptionList
            else service' = service
  | _, _ => True

/-- Room for one more event: the queue is not full, or the event behind its head is over age. -/
def roomFor (eqMaxLen eqMaxAge now : Int) (queue : List OutgoingJob) : Bool :=
  queue.length < eqMaxLen || queue.tail.head?.any fun second => eqMaxAge < now - second.arg.ctime

/-- The subscriptions the loop comes to when the pool takes `free` more jobs: it ends at a queue that it
cannot start. -/
def reached (now : Int) : Int → List Subscription → List Subscription
  | _, [] => []
  | free, sub :: rest =>
      if !sub.expired now && (sub.active && sub.outgoing.isEmpty) then
        if 0 < free then sub :: reached now (free - 1) rest else [sub]
      else sub :: reached now free rest

/-- Every queue that a call of `genaNotifyAll` adds to has room. -/
def roomInQueues : Label → State → Bool
  | .notifyAll deviceHandle udn servId _ now, s =>
      match s.findServiceId deviceHandle servId udn with
      | none => true
      | some i => s.services[i]?.all fun service =>
          (reached now (s.gSendThreadPool.attr.maxJobsTotal - s.gSendThreadPool.totalJobs)
              service.subscriptionList).all fun sub =>
            sub.expired now || !sub.active || roomFor s.eqMaxLen s.eqMaxAge now sub.outgoing
  | _, _ => true

section Discards
variable {eqMaxLen eqMaxAge now : Int} {queue : List OutgoingJob}

theorem maybeDiscardEvents_drops (eqMaxLen eqMaxAge now : Int) (queue : List OutgoingJob) :
    ∃ dropped, maybeDiscardEvents eqMaxLen eqMaxAge now queue = queue.take 1 ++ queue.tail.drop dropped := by
  induction queue using maybeDiscardEvents.induct eqMaxLen eqMaxAge now with
  | case1 head second rest discard ih =>
    obtain ⟨dropped, kept⟩ := ih
    rw [maybeDiscardEvents, if_pos discard, kept]
    exact ⟨dropped + 1, rfl⟩
  | case2 head second rest keep =>
    rw [maybeDiscardEvents, if_neg keep]
    exact ⟨0, rfl⟩
  | case3 queue short =>
    rw [maybeDiscardEvents.eq_2 _ _ _ _ short]
    refine ⟨0, ?_⟩
    cases queue with
    | nil => rfl
    | cons head rest => rfl

theorem maybeDiscardEvents_length_le (eqMaxLen eqMaxAge now : Int) (queue : List OutgoingJob) :
    (maybeDiscardEvents eqMaxLen eqMaxAge now queue).length ≤ queue.length :=
  (maybeDiscardEvents_spec eqMaxLen eqMaxAge now queue).1.length_le

theorem maybeDiscardEvents_lt_iff (fits : (queue.length : Int) ≤ eqMaxLen) :
    ((maybeDiscardEvents eqMaxLen eqMaxAge now queue).length : Int) < eqMaxLen ↔
      roomFor eqMaxLen eqMaxAge now queue = true := by
  rw [roomFor, Bool.or_eq_true, decide_eq_true_eq]
  cases queue with
  | nil =>
    have alone : maybeDiscardEvents eqMaxLen eqMaxAge now [] = [] := by simp [maybeDiscardEvents]
    simp [alone]
  | cons head rest =>
    cases rest with
    | nil =>
      have alone : maybeDiscardEvents eqMaxLen eqMaxAge now [head] = [head] := by simp [maybeDiscardEvents]
      simp [alone]
    | cons second others =>
      simp only [List.tail_cons, List.head?_cons, Option.any_some, decide_eq_true_eq]
      rw [maybeDiscardEvents]
      by_cases old : eqMaxAge < now - second.arg.ctime
      · have shorter := maybeDiscardEvents_length_le eqMaxLen eqMaxAge now (head :: others)
        simp only [List.length_cons] at fits shorter
        rw [if_pos (by simp [old])]
        refine iff_of_true ?_ (Or.inr old)
        omega
      · rw [if_neg (by simp only [old, decide_false, Bool.or_false, decide_eq_true_eq]; omega)]
        simp [old]

end Discards

section Loop
variable {make : Nat → Nat → NotifyThreadStruct} {now : Int} {sub sub' : Subscription}

def queued (s : State) (now : Int) (sub : Subscription) (job : OutgoingJob) : Subscription :=
  { sub with outgoing := maybeDiscardEvents s.eqMaxLen s.eqMaxAge now sub.outgoing ++ [job] }

/-- A round of the loop: the subscription has expired, is passed over, or gets the event. -/
inductive Round (s : State) (make : Nat → Nat → NotifyThreadStruct) (now : Int) (sub : Subscription) :
    List Subscription → Prop
  | expired (gone : sub.expired now = true) : Round s make now sub []
  | passed (here : sub.expired now = false) (idle : sub.active = false) : Round s make now sub [sub]
  | enqueued (here : sub.expired now = false) (active : sub.active = true) (event : Nat) (stale : Bool) :
      Round s make now sub [queued s now sub ⟨make event sub.sid, stale⟩]

theorem notifySubscriptions_rounds (s : State) (make : Nat → Nat → NotifyThreadStruct) (now : Int)
    (subs : List Subscription) (total : Int) (p : Pool SendJob) (nextEvent : Nat) :
    let out := notifySubscriptions s make now subs total p nextEvent
    let came := reached now (p.attr.maxJobsTotal - p.totalJobs) subs
    ∃ left rounds, subs = came ++ left ∧ out.subscriptions = rounds.flatten ++ left ∧
      List.Forall₂ (Round s make now) came rounds ∧ (out.ret = GENA_SUCCESS → left = []) := by
  induction subs generalizing total p nextEvent with
  | nil => exact ⟨[], [], rfl, rfl, .nil, fun _ => rfl⟩
  | cons sub rest ih =>
    simp only
    rw [notifySubscriptions, reached]
    cases expired : sub.expired now with
    | true =>
      obtain ⟨left, rounds, split, out, each, whole⟩ := ih _ p nextEvent
      simp only [if_true, Bool.not_true, Bool.false_and, Bool.false_eq_true, if_false]
      exact ⟨left, [] :: rounds, congrArg (sub :: ·) split, out, .cons (.expired expired) each, whole⟩
    | false =>
      simp only [Bool.false_eq_true, if_false, Bool.not_false, Bool.true_and]
      cases active : sub.active with
      | false =>
        obtain ⟨left, rounds, split, out, each, whole⟩ := ih _ p nextEvent
        simp only [Bool.false_eq_true, if_false, Bool.false_and]
        refine ⟨left, [sub] :: rounds, congrArg (sub :: ·) split, ?_, .cons (.passed expired active) each, whole⟩
        exact congrArg (sub :: ·) out
      | true =>
        have enters : ∀ stale, Round s make now sub [queued s now sub ⟨make nextEvent sub.sid, stale⟩] :=
          fun stale => .enqueued expired active nextEvent stale
        obtain ⟨-, head⟩ := maybeDiscardEvents_spec s.eqMaxLen s.eqMaxAge now sub.outgoing
        simp only [if_true, Bool.true_and]
        by_cases empty : sub.outgoing = []
        · have nothing : maybeDiscardEvents s.eqMaxLen s.eqMaxAge now sub.outgoing = [] := by
            simp [empty, maybeDiscardEvents]
          have starts : queued s now sub = fun job => { sub with outgoing := [job] } := by
            funext job
            rw [queued, nothing]
            rfl
          rw [starts] at enters
          rw [if_pos (by simp [empty])]
          simp only [nothing, List.nil_append, List.length_singleton, if_true]
          by_cases room : p.totalJobs < p.attr.maxJobsTotal
          · obtain ⟨ok, -, attr, total⟩ :=
              threadPoolAdd_room now (.genaNotifyThread (make nextEvent sub.sid)) room
            simp only [ok, if_true]
            obtain ⟨left, rounds, split, out, each, whole⟩ :=
              ih _ (threadPoolAdd now p (.genaNotifyThread (make nextEvent sub.sid))).2 (nextEvent + 1)
            have free : p.attr.maxJobsTotal - (p.totalJobs + 1) = p.attr.maxJobsTotal - p.totalJobs - 1 := by
              omega
            rw [attr, total, free] at split each
            rw [if_pos (by omega)]
            refine ⟨left, _ :: rounds, congrArg (sub :: ·) split, ?_, .cons (enters true) each, whole⟩
            simp only [out, active]
            rfl
          · rw [threadPoolAdd_full now _ (by omega), if_neg (by omega)]
            refine ⟨rest, [_], rfl, ?_, .cons (enters false) .nil, ?_⟩
            · simp only [active]
              rfl
            · intro fine
              have failed : UPNP_E_OUTOF_MEMORY ≠ GENA_SUCCESS := by decide
              exact absurd fine failed
        · have kept := List.length_pos_iff.mpr (nonempty_of_take head empty)
          have long : (maybeDiscardEvents s.eqMaxLen s.eqMaxAge now sub.outgoing ++
              ([⟨make nextEvent sub.sid, false⟩] : List OutgoingJob)).length ≠ 1 := by
            rw [List.length_append, List.length_singleton]
            omega
          rw [if_neg (by simpa using empty), if_neg long]
          obtain ⟨left, rounds, split, out, each, whole⟩ := ih _ p (nextEvent + 1)
          refine ⟨left, _ :: rounds, congrArg (sub :: ·) split, ?_, .cons (enters false) each, whole⟩
          simp only [out, queued, active]
          rfl

theorem queued_notified (s : State) (now : Int) (make : Nat → Nat → NotifyThreadStruct) {sub : Subscription}
    (active : sub.active = true) (event : Nat) (stale : Bool) :
    Notified make sub (queued s now sub ⟨make event sub.sid, stale⟩) := by
  obtain ⟨dropped, kept⟩ := maybeDiscardEvents_drops s.eqMaxLen s.eqMaxAge now sub.outgoing
  exact Or.inl ⟨active, event, dropped, stale, by rw [queued, kept]⟩

theorem rounds_notified {s : State} {came : List Subscription} {rounds : List (List Subscription)}
    (each : List.Forall₂ (Round s make now) came rounds) :
    List.Forall₂ (Notified make) (came.filter (!·.expired now)) rounds.flatten := by
  induction each with
  | nil => exact .nil
  | @cons sub round came rounds here each ih =>
    cases here with
    | expired gone =>
      rw [List.filter_cons_of_neg (by simp [gone])]
      exact ih
    | passed stays idle =>
      rw [List.filter_cons_of_pos (by simp [stays])]
      exact .cons (Or.inr ⟨idle, rfl⟩) ih
    | enqueued stays active event stale =>
      rw [List.filter_cons_of_pos (by simp [stays])]
      exact .cons (queued_notified s now make active event stale) ih

/-- The queues are within the limit afterwards when each one the loop adds to had room. -/
theorem rounds_fit_iff {s : State} {came : List Subscription} {rounds : List (List Subscription)}
    (each : List.Forall₂ (Round s make now) came rounds)
    (fits : ∀ sub ∈ came, (sub.outgoing.length : Int) ≤ s.eqMaxLen) :
    (∀ sub' ∈ rounds.flatten, (sub'.outgoing.length : Int) ≤ s.eqMaxLen) ↔
      (came.all fun sub => sub.expired now || !sub.active || roomFor s.eqMaxLen s.eqMaxAge now sub.outgoing) =
        true := by
  induction each with
  | nil => simp
  | @cons sub round came rounds here each ih =>
    rw [List.forall_mem_cons] at fits
    obtain ⟨fit, fits⟩ := fits
    rw [List.flatten_cons, List.forall_mem_append, ih fits, List.all_cons, Bool.and_eq_true]
    apply and_congr_left
    intro _
    cases here with
    | expired gone => simp [gone]
    | passed stays idle => simp [idle, fit]
    | enqueued stays active event stale =>
      rw [List.forall_mem_singleton, queued, stays, active, Bool.not_true, Bool.or_false, Bool.false_or,
        ← maybeDiscardEvents_lt_iff fit]
      simp only [List.length_append, List.length_singleton]
      omega

end Loop

/-- A queue within the limit, empty until the initial event comes. -/
def Fits (eqMaxLen : Int) (sub : Subscription) : Prop :=
  (sub.outgoing.length : Int) ≤ eqMaxLen ∧ (sub.active = false → sub.outgoing = [])

structure ServiceFits (eqMaxLen : Int) (nextSid : Nat) (service : ServiceInfo) : Prop where
  sids : (service.subscriptionList.map (·.sid)).Nodup
  known : ∀ sub ∈ service.subscriptionList, sub.sid < nextSid
  fits : ∀ sub ∈ service.subscriptionList, Fits eqMaxLen sub

def State.QueuesFit (s : State) : Prop := ∀ service ∈ s.services, ServiceFits s.eqMaxLen s.nextSid service

section Steps
variable {s s' : State} {i : Nat} {service service' : ServiceInfo} {eqMaxLen : Int} {nextSid : Nat}

theorem State.QueuesFit.same (fit : s.QueuesFit) (limit : s'.eqMaxLen = s.eqMaxLen) (sids : s'.nextSid = s.nextSid)
    (services : s'.services = s.services) : s'.QueuesFit := by
  unfold State.QueuesFit
  rw [limit, sids, services]
  exact fit

theorem ServiceFits.later (fits : ServiceFits eqMaxLen nextSid service) :
    ServiceFits eqMaxLen (nextSid + 1) service :=
  ⟨fits.sids, fun sub member => Nat.lt_succ_of_lt (fits.known sub member), fits.fits⟩

theorem State.QueuesFit.change (fit : s.QueuesFit) (limit : s'.eqMaxLen = s.eqMaxLen) (sids : s'.nextSid = s.nextSid)
    (services : s'.services = s.services.set i service') (fits : ServiceFits s.eqMaxLen s.nextSid service') :
    s'.QueuesFit := by
  unfold State.QueuesFit
  rw [limit, sids, services]
  exact forall_mem_set fit fits

theorem State.QueuesFit.at (fit : s.QueuesFit) (found : s.services[i]? = some service) :
    ServiceFits s.eqMaxLen s.nextSid service :=
  fit service (List.mem_of_getElem? found)

theorem Quieter.fits (quieter : Quieter service service') (fits : ServiceFits eqMaxLen nextSid service) :
    ServiceFits eqMaxLen nextSid service' := by
  refine ⟨quieter.sids.nodup fits.sids, ?_, ?_⟩
  · intro sub' member
    obtain ⟨sub, present, sid, -⟩ := quieter.queues sub' member
    rw [sid]
    exact fits.known sub present
  · intro sub' member
    obtain ⟨sub, present, -, outgoing, active⟩ := quieter.queues sub' member
    obtain ⟨short, idle⟩ := fits.fits sub present
    exact ⟨by rw [outgoing]; exact short, by rw [active, outgoing]; exact idle⟩

theorem State.QueuesFit.quiet (fit : s.QueuesFit) (found : s.services[i]? = some service)
    (quieter : Quieter service service') : (s.setService i service').QueuesFit :=
  fit.change rfl rfl rfl (quieter.fits (fit.at found))

theorem ServiceFits.update (fits : ServiceFits eqMaxLen nextSid service) {f : Subscription → Subscription}
    {sub : Subscription} (present : sub ∈ service.subscriptionList) (keeps : ∀ sub, (f sub).sid = sub.sid)
    (changed : Fits eqMaxLen (f sub)) : ServiceFits eqMaxLen nextSid (updateSubscription sub.sid f service) := by
  have sids := updateSubscription_sids keeps sub.sid service
  refine ⟨sids ▸ fits.sids, ?_, ?_⟩
  · intro sub' member
    have inside : sub'.sid ∈ service.subscriptionList.map (·.sid) := sids ▸ List.mem_map_of_mem member
    obtain ⟨old, there, same⟩ := List.mem_map.mp inside
    rw [← same]
    exact fits.known old there
  · intro sub' member
    obtain ⟨old, there, rfl⟩ := List.mem_map.mp member
    split
    next own =>
      obtain rfl := List.inj_on_of_nodup_map fits.sids there present own
      exact changed
    next => exact fits.fits old there

theorem subscribe_queuesFit (limit : 1 ≤ s.eqMaxLen) (i : Nat) (expireTime : Int) (fit : s.QueuesFit) :
    (subscribe i expireTime s).QueuesFit := by
  unfold subscribe
  split
  · exact fit
  next service found =>
    split
    · exact fit
    · have before := fit.at found
      refine forall_mem_set (fun other member => (fit other member).later) ⟨?_, ?_, ?_⟩
      · rw [List.map_cons, List.nodup_cons]
        refine ⟨?_, before.sids⟩
        intro inside
        obtain ⟨sub, present, same⟩ := List.mem_map.mp inside
        have known := before.known sub present
        simp only at same
        omega
      · intro sub member
        obtain rfl | old := List.mem_cons.mp member
        · exact Nat.lt_succ_self _
        · exact Nat.lt_succ_of_lt (before.known sub old)
      · intro sub member
        obtain rfl | old := List.mem_cons.mp member
        · refine ⟨?_, fun _ => rfl⟩
          change (0 : Int) ≤ s.eqMaxLen
          omega
        · exact before.fits sub old

theorem renew_queuesFit (i sid : Nat) (now expireTime : Int) (responds : Bool) (fit : s.QueuesFit) :
    (renew i sid now expireTime responds s).QueuesFit := by
  unfold renew
  split
  · exact fit
  next service found =>
    have renewed := renewed_quieter sid expireTime service
    split
    · simp only
      split
      · exact fit.quiet found (getSubscriptionSID_quieter sid now service)
      · split
        · exact fit.quiet found (removeSubscriptionSID_quieter sid service)
        · split
          · exact fit.quiet found renewed
          · exact fit.quiet found (renewed.trans (removeSubscriptionSID_quieter sid _))
    · exact fit

theorem unsubscribe_queuesFit (i sid : Nat) (now : Int) (fit : s.QueuesFit) : (unsubscribe i sid now s).QueuesFit := by
  unfold unsubscribe
  split
  · exact fit
  next service found =>
    split
    · simp only
      split
      · exact fit.quiet found (getSubscriptionSID_quieter sid now service)
      · exact fit.quiet found (removeSubscriptionSID_quieter sid service)
    · exact fit

theorem context_queuesFit (now : Int) (input : NotifyThreadStruct) (fit : s.QueuesFit) :
    (s.context now input).2.QueuesFit := by
  obtain ⟨lost, -⟩ | ⟨i, service, -, found, looked⟩ := context_cases s now input
  · rw [lost]
    exact fit
  · rw [looked]
    exact fit.quiet found (getSubscriptionSID_quieter input.sid now service)

theorem notifyBegin_queuesFit (now : Int) (k : Nat) (input : NotifyThreadStruct) (fit : s.QueuesFit) :
    (notifyBegin now k input s).QueuesFit := by
  have kept := context_queuesFit now input fit
  unfold notifyBegin
  cases looked : (s.context now input).1 with
  | none =>
    simp only [looked]
    exact kept
  | some place =>
    simp only [looked]
    exact kept

theorem advanceQueue_fits (now : Int) (p : Pool SendJob) {sub : Subscription} (fits : Fits eqMaxLen sub) (key : Int) :
    Fits eqMaxLen { sub with toSendEventKey := key, outgoing := (advanceQueue now p sub.outgoing).1 } := by
  obtain ⟨short, idle⟩ := fits
  have shorter : (advanceQueue now p sub.outgoing).1.length = sub.outgoing.length - 1 := by
    unfold advanceQueue
    cases sub.outgoing with
    | nil => rfl
    | cons head rest => cases rest <;> rfl
  refine ⟨?_, ?_⟩
  · simp only
    omega
  · intro inactive
    apply List.eq_nil_of_length_eq_zero
    rw [shorter, idle inactive]
    rfl

theorem notifyFinish_queuesFit (now : Int) (remove : Bool) (k : Nat) (input : NotifyThreadStruct) (fit : s.QueuesFit) :
    (notifyFinish now remove k input s).QueuesFit := by
  have kept := context_queuesFit now input fit
  unfold notifyFinish
  cases looked : (s.context now input).1 with
  | none =>
    simp only [looked]
    exact kept
  | some place =>
    obtain ⟨i, sub⟩ := place
    obtain ⟨unchanged, service, found, present, own⟩ := context_some looked
    have sent := (fit.at found).update (f := fun other => { other with
        toSendEventKey := nextEventKey other.toSendEventKey
        outgoing := (advanceQueue now s.gSendThreadPool sub.outgoing).1 }) present (fun _ => rfl)
      (advanceQueue_fits now s.gSendThreadPool ((fit.at found).fits sub present) (nextEventKey sub.toSendEventKey))
    simp only [looked, unchanged, found, ← own]
    refine fit.change (i := i) rfl rfl rfl ?_
    split
    · exact (removeSubscriptionSID_quieter sub.sid _).fits sent
    · exact sent

theorem takeJob_limit (c : Choice) (s : State) : (takeJob c s).eqMaxLen = s.eqMaxLen := by
  simp only [takeJob]
  split
  · split <;> rfl
  · rfl

theorem takeJob_queuesFit (c : Choice) (fit : s.QueuesFit) : (takeJob c s).QueuesFit := by
  obtain ⟨-, services, sids, -⟩ := takeJob_frame c s
  exact fit.same (takeJob_limit c s) sids services

theorem genaInitNotify_queuesFit (limit : 1 ≤ s.eqMaxLen) (deviceHandle : Int) (udn servId propertySet : List UInt8)
    (sid : Nat) (now : Int) (fit : s.QueuesFit) :
    (genaInitNotify deviceHandle udn servId propertySet sid now s).2.QueuesFit := by
  unfold genaInitNotify
  cases place : s.findServiceId deviceHandle servId udn with
  | none => exact fit
  | some i =>
    cases found : s.services[i]? with
    | none =>
      simp only [found]
      exact fit
    | some service =>
      simp only [found]
      obtain ⟨-, got⟩ | ⟨sub, search, got | got⟩ := getSubscriptionSID_cases sid now service
      · rw [got]
        exact fit.quiet found (.refl service)
      · rw [got]
        exact fit.quiet found (removeSubscriptionSID_quieter sid service)
      · rw [got]
        simp only
        split
        · exact fit
        next inactive =>
          have before := fit.at found
          have present := List.mem_of_find?_eq_some search
          obtain ⟨-, idle⟩ := before.fits sub present
          have own : sub.sid = sid := by simpa using List.find?_some search
          have queue := idle (by simpa using inactive)
          generalize threadPoolAdd now s.gSendThreadPool _ = added
          refine fit.change (i := i) rfl rfl rfl ?_
          rw [← own]
          refine before.update present (fun _ => rfl) ⟨?_, fun inactive => Bool.noConfusion inactive⟩
          simp only [queue]
          split
          · exact limit
          · change (0 : Int) ≤ s.eqMaxLen
            omega

theorem rounds_fits {make : Nat → Nat → NotifyThreadStruct} {now : Int} {came : List Subscription}
    {rounds : List (List Subscription)} (each : List.Forall₂ (Round s make now) came rounds)
    (known : ∀ sub ∈ came, sub.sid < nextSid ∧ (sub.active = false → sub.outgoing = [])) :
    (rounds.flatten.map (·.sid)).Sublist (came.map (·.sid)) ∧
      ∀ sub' ∈ rounds.flatten, sub'.sid < nextSid ∧ (sub'.active = false → sub'.outgoing = []) := by
  induction each with
  | nil => exact ⟨List.Sublist.refl _, by simp⟩
  | @cons sub round came rounds here each ih =>
    rw [List.forall_mem_cons] at known
    obtain ⟨⟨sid, idle⟩, known⟩ := known
    obtain ⟨sids, later⟩ := ih known
    rw [List.flatten_cons, List.forall_mem_append]
    cases here with
    | expired gone => exact ⟨sids.cons _, by simp, later⟩
    | passed stays inactive =>
      refine ⟨sids.cons_cons _, ?_, later⟩
      rw [List.forall_mem_singleton]
      exact ⟨sid, idle⟩
    | enqueued stays active event stale =>
      refine ⟨sids.cons_cons _, ?_, later⟩
      rw [List.forall_mem_singleton]
      refine ⟨sid, fun inactive => ?_⟩
      change sub.active = false at inactive
      rw [active] at inactive
      contradiction

theorem State.QueuesFit.within (fit : s.QueuesFit) : s.WithinLimit := by
  intro service member sub inside
  exact ((fit service member).fits sub inside).1

theorem within_set (fit : s.QueuesFit) (found : s.services[i]? = some service) {limit : Int}
    (same : limit = s.eqMaxLen) :
    (∀ other ∈ s.services.set i service', ∀ sub ∈ other.subscriptionList, (sub.outgoing.length : Int) ≤ limit) ↔
      ∀ sub ∈ service'.subscriptionList, (sub.outgoing.length : Int) ≤ limit := by
  subst same
  refine ⟨fun all => all service' ?_, fun here => forall_mem_set fit.within here⟩
  have inside := (List.getElem?_eq_some_iff.mp found).1
  exact List.mem_set inside service'

theorem genaNotifyAll_spec (deviceHandle : Int) (udn servId propertySet : List UInt8) (now : Int)
    (fit : s.QueuesFit) :
    let label : Label := .notifyAll deviceHandle udn servId propertySet now
    (QueuesKept label s ↔ roomInQueues label s = true) ∧
      (roomInQueues label s = true → (genaNotifyAll deviceHandle udn servId propertySet now s).2.QueuesFit) := by
  intro label
  have whole := fit.within
  simp only [label, QueuesKept, roomInQueues]
  unfold genaNotifyAll
  cases place : s.findServiceId deviceHandle servId udn with
  | none =>
    refine ⟨iff_of_true ⟨whole, ?_⟩ rfl, fun _ => fit⟩
    intro i service found
    exact ⟨service, found, by simp⟩
  | some i =>
    cases found : s.services[i]? with
    | none =>
      simp only [found]
      refine ⟨iff_of_true ⟨whole, ?_⟩ rfl, fun _ => fit⟩
      intro j service here
      refine ⟨service, here, ?_⟩
      rw [if_neg]
      rintro same
      rw [← Option.some.inj same, found] at here
      contradiction
    | some service =>
      simp only [found, Option.all_some]
      obtain ⟨left, rounds, split, out, each, complete⟩ := notifySubscriptions_rounds s
        (fun event sid => ⟨event, propertySet, servId, udn, sid, now, deviceHandle⟩) now service.subscriptionList
        service.totalSubscriptions s.gSendThreadPool s.nextEvent
      generalize notifySubscriptions s _ now service.subscriptionList service.totalSubscriptions s.gSendThreadPool
        s.nextEvent = fanout at out complete
      generalize reached now _ service.subscriptionList = came at split each ⊢
      obtain ⟨sids, known, fits⟩ := fit.at found
      rw [split] at known fits
      rw [List.forall_mem_append] at known fits
      have room := rounds_fit_iff each fun sub inside => (fits.1 sub inside).1
      have within : (∀ sub ∈ fanout.subscriptions, (sub.outgoing.length : Int) ≤ s.eqMaxLen) ↔
          (came.all fun sub => sub.expired now || !sub.active || roomFor s.eqMaxLen s.eqMaxAge now sub.outgoing) =
            true := by
        rw [out, List.forall_mem_append, room]
        exact and_iff_left fun sub inside => (fits.2 sub inside).1
      refine ⟨?_, ?_⟩
      · refine Iff.trans (and_iff_left ?_) ((within_set fit found rfl).trans within)
        intro j other here
        by_cases same : i = j
        · subst same
          obtain rfl := Option.some.inj (found.symm.trans here)
          have inside := (List.getElem?_eq_some_iff.mp found).1
          refine ⟨_, List.getElem?_set_self inside, ?_⟩
          rw [if_pos rfl]
          exact ⟨came, left, rounds.flatten, split, out, rounds_notified each, complete⟩
        · refine ⟨other, (List.getElem?_set_ne same).trans here, ?_⟩
          rw [if_neg fun claimed => same (Option.some.inj claimed)]
      · intro roomy
        have kept := within.mpr roomy
        obtain ⟨fewer, later⟩ := rounds_fits each fun sub inside => ⟨known.1 sub inside, (fits.1 sub inside).2⟩
        refine fit.change (i := i) rfl rfl rfl ⟨?_, ?_, ?_⟩
        · rw [out, List.map_append]
          rw [split, List.map_append] at sids
          exact (fewer.append (List.Sublist.refl _)).nodup sids
        · rw [out, List.forall_mem_append]
          exact ⟨fun sub inside => (later sub inside).1, known.2⟩
        · intro sub inside
          refine ⟨kept sub inside, ?_⟩
          rw [out] at inside
          obtain new | old := List.mem_append.mp inside
          · exact (later sub new).2
          · exact (fits.2 sub old).2

theorem context_limit (s : State) (now : Int) (input : NotifyThreadStruct) :
    (s.context now input).2.eqMaxLen = s.eqMaxLen := by
  obtain ⟨lost, -⟩ | ⟨i, service, -, -, looked⟩ := context_cases s now input
  · rw [lost]
  · rw [looked]
    rfl

theorem advance_limit (now : Int) (remove : Bool) (k : Nat) (input : NotifyThreadStruct) (s : State) :
    (notifyBegin now k input s).eqMaxLen = s.eqMaxLen ∧
      (notifyFinish now remove k input s).eqMaxLen = s.eqMaxLen := by
  have same := context_limit s now input
  unfold notifyBegin notifyFinish
  cases looked : (s.context now input).1 with
  | none =>
    simp only [looked]
    exact ⟨same, same⟩
  | some place =>
    simp only [looked]
    refine ⟨same, ?_⟩
    split
    · exact same
    · exact same

theorem step_limit {label : Label} (stepped : step label s = some s') : s'.eqMaxLen = s.eqMaxLen := by
  cases label with
  | advance k now remove =>
    obtain ⟨worker, -, rfl⟩ := Option.map_eq_some_iff.mp stepped
    obtain ⟨began, finished⟩ := advance_limit now remove k worker.input s
    cases worker.stage with
    | called => exact began
    | sending seq => exact finished
  | takeJob choice =>
    obtain rfl := Option.some.inj stepped
    exact takeJob_limit choice s
  | addOther now =>
    obtain rfl := Option.some.inj stepped
    rfl
  | subscribe i expireTime =>
    obtain rfl := Option.some.inj stepped
    unfold subscribe
    repeat' split
    all_goals rfl
  | renew i sid now expireTime responds =>
    obtain rfl := Option.some.inj stepped
    unfold renew
    dsimp only
    repeat' split
    all_goals rfl
  | unsubscribe i sid now =>
    obtain rfl := Option.some.inj stepped
    unfold unsubscribe
    dsimp only
    repeat' split
    all_goals rfl
  | initNotify deviceHandle udn servId propertySet sid now =>
    obtain rfl := Option.some.inj stepped
    unfold genaInitNotify
    dsimp only
    repeat' split
    all_goals rfl
  | notifyAll deviceHandle udn servId propertySet now =>
    obtain rfl := Option.some.inj stepped
    unfold genaNotifyAll
    repeat' split
    all_goals rfl

theorem step_queuesFit {label : Label} (limit : 1 ≤ s.eqMaxLen) (room : roomInQueues label s = true)
    (stepped : step label s = some s') (fit : s.QueuesFit) : s'.QueuesFit := by
  cases label with
  | subscribe i expireTime =>
    obtain rfl := Option.some.inj stepped
    exact subscribe_queuesFit limit i expireTime fit
  | renew i sid now expireTime responds =>
    obtain rfl := Option.some.inj stepped
    exact renew_queuesFit i sid now expireTime responds fit
  | unsubscribe i sid now =>
    obtain rfl := Option.some.inj stepped
    exact unsubscribe_queuesFit i sid now fit
  | initNotify deviceHandle udn servId propertySet sid now =>
    obtain rfl := Option.some.inj stepped
    exact genaInitNotify_queuesFit limit deviceHandle udn servId propertySet sid now fit
  | notifyAll deviceHandle udn servId propertySet now =>
    obtain rfl := Option.some.inj stepped
    exact (genaNotifyAll_spec deviceHandle udn servId propertySet now fit).2 room
  | addOther now =>
    obtain rfl := Option.some.inj stepped
    exact fit
  | takeJob choice =>
    obtain rfl := Option.some.inj stepped
    exact takeJob_queuesFit choice fit
  | advance k now remove =>
    obtain ⟨worker, -, rfl⟩ := Option.map_eq_some_iff.mp stepped
    cases worker.stage with
    | called => exact notifyBegin_queuesFit now k worker.input fit
    | sending seq => exact notifyFinish_queuesFit now remove k worker.input fit

theorem queuesKept_iff {label : Label} (fit : s.QueuesFit) :
    QueuesKept label s ↔ roomInQueues label s = true := by
  cases label with
  | notifyAll deviceHandle udn servId propertySet now =>
    exact (genaNotifyAll_spec deviceHandle udn servId propertySet now fit).1
  | subscribe | renew | unsubscribe | initNotify | addOther | takeJob | advance => exact iff_of_true trivial rfl

end Steps

theorem along_queuesKept_iff {s : State} (limit : 1 ≤ s.eqMaxLen) (fit : s.QueuesFit) (labels : List Label) :
    Along step QueuesKept labels s ↔ Along step (roomInQueues · · = true) labels s := by
  induction labels generalizing s with
  | nil => exact Iff.rfl
  | cons label labels ih =>
    rw [Along, Along, queuesKept_iff fit]
    apply and_congr_right
    intro room
    apply forall₂_congr
    intro t stepped
    exact ih ((step_limit stepped).symm ▸ limit) (step_queuesFit limit room stepped fit)

theorem initial_queuesFit (setup : Setup) : (initial setup).QueuesFit := by
  intro service member
  have nobody := setup.unsubscribed service member
  refine ⟨?_, ?_, ?_⟩
  · rw [nobody]
    exact List.nodup_nil
  · simp [nobody]
  · simp [nobody]

/-- In every run, each call of `genaNotifyAll` keeps the queues within the limit, their heads in place and
their events in order, exactly when no call comes to a full queue with a young event behind its head. -/
theorem notifyAll_queuesKept (setup : Setup) (limit : 1 ≤ setup.eqMaxLen) (labels : List Label) :
    Along step QueuesKept labels (initial setup) ↔ Along step (roomInQueues · · = true) labels (initial setup) :=
  along_queuesKept_iff limit (initial_queuesFit setup) labels

theorem notifyAll_queuesKept_plain :
    1 ≤ (smallDevice 100).eqMaxLen ∧ Along step QueuesKept plainRun (initial (smallDevice 100)) := by
  have limit : 1 ≤ (smallDevice 100).eqMaxLen := by decide
  exact ⟨limit, (notifyAll_queuesKept (smallDevice 100) limit plainRun).mpr (by decide +kernel)⟩

def narrowDevice : Setup := { smallDevice 100 with eqMaxLen := 2 }

def crowdedRun : List Label :=
  [.subscribe 0 0, .initNotify 1 [85] [83] [73] 0 0, .notifyAll 1 [85] [83] [65] 0, .notifyAll 1 [85] [83] [66] 0]

example : (run step crowdedRun (initial narrowDevice)).map queues = some [(3, 1)] := by decide +kernel

/-- The queue then holds three events. -/
theorem notifyAll_overfull :
    ¬∀ (setup : Setup), 1 ≤ setup.eqMaxLen → ∀ labels : List Label, Along step QueuesKept labels (initial setup) := by
  intro claim
  have limit : 1 ≤ narrowDevice.eqMaxLen := by decide
  have room := (along_queuesKept_iff limit (initial_queuesFit narrowDevice) crowdedRun).mp
    (claim narrowDevice limit crowdedRun)
  have crowded : ¬Along step (roomInQueues · · = true) crowdedRun (initial narrowDevice) := by decide +kernel
  exact crowded room

end Pupnp.Gena
