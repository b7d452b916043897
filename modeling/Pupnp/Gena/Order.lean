import Pupnp.Gena.Lane

/-!
The order of the messages to one subscription. A subscription has at most one job in flight, and that
is for the head of its queue; so its messages go out one after the other, numbered by `ToSendEventKey`.
-/

namespace Pupnp.Gena
open Pupnp.ThreadPool Pupnp.Run

/-- The SEQ of the message with this number: 0, 1, 2, ... and after 2^31 - 1 from 1 on again. -/
def seqOf : Nat → Int
  | 0 => 0
  | n + 1 => (n % (2 ^ 31 - 1) : Nat) + 1

theorem nextEventKey_seqOf (n : Nat) : nextEventKey (seqOf n) = seqOf (n + 1) := by
  cases n with
  | zero => decide
  | succ n =>
    unfold nextEventKey seqOf
    dsimp only
    split
    · omega
    · omega

def newEventsOf (nextEvent : Nat) (subs : List Subscription) : List Nat :=
  subs.flatMap fun sub => (sub.outgoing.filter (nextEvent ≤ ·.arg.event)).map (·.arg.event)

/-- The messages to one subscription: the event and the SEQ. -/
def messagesOf (sid : Nat) (sent : List (NotifyThreadStruct × Int)) : List (Nat × Int) :=
  (sent.filter (·.1.sid = sid)).map fun message => (message.1.event, message.2)

def Lane.flight (l : Lane) : List NotifyThreadStruct := l.waiting ++ l.workers.map (·.input)

inductive Phase (sub : Subscription) (l : Lane) (queued initials : List Nat) (sent : List (Nat × Int)) : Prop
  | resting (calm : ∀ worker ∈ l.workers, worker.stage = .called)
      (pending : (sent.map (·.1) ++ sub.outgoing.map (·.arg.event)).Sublist queued)
      (key : sub.toSendEventKey = seqOf sent.length)
      (first : sub.active = true → sent = [] → ∃ job rest, sub.outgoing = job :: rest ∧ job.arg.event ∈ initials)
  | sending (input : NotifyThreadStruct) (seq : Int) (workers : l.workers = [⟨input, .sending seq⟩])
      (pending : (sent.map (·.1) ++ (sub.outgoing.map (·.arg.event)).tail).Sublist queued)
      (n : Nat) (count : sent.length = n + 1) (key : sub.toSendEventKey = seqOf n)
  | stuck (none : l.flight = []) (queue : sub.outgoing ≠ [])

structure Alive (sid : Nat) (sub : Subscription) (l : Lane) (nextEvent : Nat) (queued initials : List Nat)
    (sent : List (Nat × Int)) : Prop where
  own : ∀ job ∈ sub.outgoing, job.arg.sid = sid
  recent : ∀ job ∈ sub.outgoing, job.arg.event < nextEvent
  idle : sub.active = false → sub.outgoing = [] ∧ l.flight = [] ∧ queued = [] ∧ sent = []
  head : ∀ input ∈ l.flight, sub.outgoing.head?.map (·.arg) = some input
  phase : Phase sub l queued initials sent

/-- The invariant of a subscription and of what it has been sent. -/
structure Orderly (sid : Nat) (l : Lane) (nextEvent : Nat) (queued initials : List Nat) (sent : List (Nat × Int)) :
    Prop where
  one : l.subs.length ≤ 1
  flight : l.flight.length ≤ 1
  order : (sent.map (·.1)).Sublist queued
  rising : queued.Pairwise (· < ·)
  known : ∀ event ∈ queued, event < nextEvent
  first : ∀ message ∈ sent.head?, message.1 ∈ initials
  seqs : sent.map (·.2) = (List.range sent.length).map seqOf
  alive : ∀ sub ∈ l.subs, Alive sid sub l nextEvent queued initials sent

theorem newEventsOf_old {nextEvent : Nat} {subs : List Subscription}
    (old : ∀ sub ∈ subs, ∀ job ∈ sub.outgoing, job.arg.event < nextEvent) : newEventsOf nextEvent subs = [] := by
  rw [newEventsOf, List.flatMap_eq_nil_iff]
  intro sub member
  rw [List.map_eq_nil_iff, List.filter_eq_nil_iff]
  intro job inside
  simpa using old sub member job inside

theorem messagesOf_other {sid : Nat} {sent : List (NotifyThreadStruct × Int)}
    (other : ∀ message ∈ sent, message.1.sid ≠ sid) : messagesOf sid sent = [] := by
  rw [messagesOf, List.map_eq_nil_iff, List.filter_eq_nil_iff]
  simpa using other

theorem Alive.transfer {sid nextEvent nextEvent' : Nat} {sub sub' : Subscription} {l l' : Lane}
    {queued initials : List Nat} {sent : List (Nat × Int)} (alive : Alive sid sub l nextEvent queued initials sent)
    (same : sub'.core = sub.core) (waiting : l'.waiting.Perm l.waiting) (workers : l'.workers.Perm l.workers)
    (later : nextEvent ≤ nextEvent') (more : List Nat) : Alive sid sub' l' nextEvent' queued (initials ++ more) sent := by
  obtain ⟨key, rest⟩ := Prod.mk.inj same
  obtain ⟨active, outgoing⟩ := Prod.mk.inj rest
  have flight : l'.flight.Perm l.flight := waiting.append (workers.map _)
  refine ⟨?_, ?_, ?_, ?_, ?_⟩
  · rw [outgoing]
    exact alive.own
  · rw [outgoing]
    exact fun job inside => Nat.lt_of_lt_of_le (alive.recent job inside) later
  · rw [outgoing, active]
    intro inactive
    obtain ⟨queue, none, rest⟩ := alive.idle inactive
    rw [none] at flight
    exact ⟨queue, flight.eq_nil, rest⟩
  · rw [outgoing]
    exact fun input inside => alive.head input (flight.mem_iff.mp inside)
  · cases alive.phase with
    | resting calm pending key' first =>
      refine .resting (fun worker inside => calm worker (workers.mem_iff.mp inside)) ?_ (key.trans key') ?_
      · rw [outgoing]
        exact pending
      · rw [active, outgoing]
        intro alive empty
        obtain ⟨job, rest, queue, initial⟩ := first alive empty
        exact ⟨job, rest, queue, List.mem_append_left _ initial⟩
    | sending input seq busy pending n count key' =>
      rw [busy] at workers
      refine .sending input seq (List.perm_singleton.mp workers) ?_ n count (key.trans key')
      rw [outgoing]
      exact pending
    | stuck none queue =>
      rw [none] at flight
      exact .stuck flight.eq_nil (outgoing ▸ queue)

section Steps
variable {sid nextEvent nextEvent' : Nat} {l l' : Lane} {queued initials : List Nat} {sent : List (Nat × Int)}

theorem Alive.flight_nil {sub : Subscription} (alive : Alive sid sub l nextEvent queued initials sent)
    (empty : sub.outgoing = []) : l.flight = [] := by
  rw [List.eq_nil_iff_forall_not_mem]
  intro input inside
  have head := alive.head input inside
  rw [empty] at head
  contradiction

theorem Orderly.quiet (orderly : Orderly sid l nextEvent queued initials sent) (subs : Quieted l.subs l'.subs)
    (waiting : l'.waiting.Perm l.waiting) (workers : l'.workers.Perm l.workers) (later : nextEvent ≤ nextEvent')
    (more : List Nat) : Orderly sid l' nextEvent' queued (initials ++ more) sent := by
  have flight : l'.flight.Perm l.flight := waiting.append (workers.map _)
  refine ⟨Nat.le_trans subs.length_le orderly.one, flight.length_eq ▸ orderly.flight, orderly.order, orderly.rising,
    fun event inside => Nat.lt_of_lt_of_le (orderly.known event inside) later,
    fun message head => List.mem_append_left _ (orderly.first message head), orderly.seqs, ?_⟩
  intro sub' member
  obtain gone | same := subs
  · rw [gone] at member
    contradiction
  · have inside : sub'.core ∈ l.subs.map Subscription.core := same ▸ List.mem_map_of_mem member
    obtain ⟨sub, present, core⟩ := List.mem_map.mp inside
    exact (orderly.alive sub present).transfer core.symm waiting workers later more

theorem Orderly.created (orderly : Orderly sid l nextEvent queued initials sent) {expireTime : Int}
    (empty : l.subs = [] ∧ l.flight = [] ∧ queued = [] ∧ sent = [])
    (subs : l'.subs.Perm (⟨sid, 0, expireTime, false, []⟩ :: l.subs)) (waiting : l'.waiting = l.waiting)
    (workers : l'.workers = l.workers) (more : List Nat) :
    Orderly sid l' nextEvent' queued (initials ++ more) sent := by
  obtain ⟨nobody, none, rfl, rfl⟩ := empty
  have flight : l'.flight = [] := by
    rw [Lane.flight, waiting, workers]
    exact none
  have idle : l'.workers = [] := by
    rw [Lane.flight, List.append_eq_nil_iff, List.map_eq_nil_iff] at flight
    exact flight.2
  rw [nobody] at subs
  have single := List.perm_singleton.mp subs
  refine ⟨by rw [single]; exact Nat.le_refl 1, by rw [flight]; exact Nat.zero_le 1, orderly.order, orderly.rising, nofun,
    nofun, rfl, ?_⟩
  rw [single]
  intro sub member
  obtain rfl := List.mem_singleton.mp member
  refine ⟨nofun, nofun, fun _ => ⟨rfl, flight, rfl, rfl⟩, by rw [flight]; nofun, ?_⟩
  exact .resting (by rw [idle]; nofun) (List.nil_sublist _) rfl nofun

theorem Orderly.activated (orderly : Orderly sid l nextEvent queued initials sent) {sub : Subscription}
    (before : l.subs = [sub]) (inactive : sub.active = false) {arg : NotifyThreadStruct} (event : arg.event = nextEvent)
    (own : arg.sid = sid)
    (subs : l'.subs = [{ sub with active := true, outgoing := sub.outgoing ++ [⟨arg, true⟩] }])
    (waiting : l'.waiting.Perm (arg :: l.waiting)) (workers : l'.workers = l.workers)
    (later : nextEvent + 1 ≤ nextEvent') :
    Orderly sid l' nextEvent' (queued ++ [arg.event]) (initials ++ [arg.event]) sent := by
  have alive := orderly.alive sub (by rw [before]; exact List.mem_singleton_self sub)
  obtain ⟨queue, none, rfl, rfl⟩ := alive.idle inactive
  have parts := none
  rw [Lane.flight, List.append_eq_nil_iff, List.map_eq_nil_iff] at parts
  obtain ⟨nothing, nobody⟩ := parts
  rw [nothing] at waiting
  have flight : l'.flight = [arg] := by
    rw [Lane.flight, workers, nobody, List.perm_singleton.mp waiting]
    rfl
  have key : sub.toSendEventKey = 0 := by
    cases alive.phase with
    | resting _ _ key _ => exact key
    | sending input seq busy => rw [nobody] at busy; contradiction
    | stuck _ stays => exact absurd queue stays
  have recent : arg.event < nextEvent' := by omega
  refine ⟨by rw [subs]; exact Nat.le_refl 1, by rw [flight]; exact Nat.le_refl 1, List.nil_sublist _,
    List.pairwise_singleton _ _, ?_, nofun, rfl, ?_⟩
  · intro e inside
    rw [List.mem_singleton.mp inside]
    exact recent
  · rw [subs]
    intro sub' member
    obtain rfl := List.mem_singleton.mp member
    rw [queue]
    refine ⟨?_, ?_, nofun, ?_, ?_⟩
    · intro job inside
      rw [List.mem_singleton.mp inside]
      exact own
    · intro job inside
      rw [List.mem_singleton.mp inside]
      exact recent
    · intro input inside
      rw [flight] at inside
      rw [List.mem_singleton.mp inside]
      rfl
    · refine .resting (by rw [workers, nobody]; nofun) (List.Sublist.refl _) key ?_
      exact fun _ _ => ⟨⟨arg, true⟩, [], rfl, List.mem_append_right _ (List.mem_singleton_self _)⟩

theorem Orderly.single (orderly : Orderly sid l nextEvent queued initials sent) {sub : Subscription}
    (before : l.subs = [sub]) : Alive sid sub l nextEvent queued initials sent :=
  orderly.alive sub (by rw [before]; exact List.mem_singleton_self sub)

/-- What is left of a queue after the discards: its head and some of what is behind it. -/
theorem kept_cases {kept queue : List OutgoingJob} (fewer : kept.Sublist queue) (head : kept.take 1 = queue.take 1) :
    (kept = [] ∧ queue = []) ∨
      ∃ first kept' rest, kept = first :: kept' ∧ queue = first :: rest ∧ kept'.Sublist rest := by
  cases queue with
  | nil => exact .inl ⟨List.sublist_nil.mp fewer, rfl⟩
  | cons first rest =>
    cases kept with
    | nil => contradiction
    | cons first' kept' =>
      obtain rfl : first' = first := by simpa using head
      exact .inr ⟨first', kept', rest, rfl, rfl, List.cons_sublist_cons.mp fewer⟩

theorem Orderly.enqueued (orderly : Orderly sid l nextEvent queued initials sent) {sub : Subscription}
    (before : l.subs = [sub]) (active : sub.active = true) {kept : List OutgoingJob}
    (fewer : kept.Sublist sub.outgoing) (head : kept.take 1 = sub.outgoing.take 1) {job : OutgoingJob}
    (own : job.arg.sid = sid) (recent : nextEvent ≤ job.arg.event) (known : job.arg.event < nextEvent')
    (subs : l'.subs = [{ sub with outgoing := kept ++ [job] }])
    (waiting : l'.waiting.Perm l.waiting ∨ kept = [] ∧ l'.waiting.Perm (job.arg :: l.waiting))
    (workers : l'.workers = l.workers) (more : List Nat) :
    Orderly sid l' nextEvent' (queued ++ [job.arg.event]) (initials ++ more) sent := by
  have alive := orderly.single before
  have flights : l'.flight.Perm l.flight ∨ kept = [] ∧ sub.outgoing = [] ∧ l.flight = [] ∧ l'.flight = [job.arg] := by
    refine waiting.imp (fun same => ?_) fun ⟨empty, added⟩ => ?_
    · rw [Lane.flight, workers]
      exact same.append_right _
    · obtain ⟨-, queue⟩ | ⟨first, kept', rest, full, -⟩ := kept_cases fewer head
      swap
      · rw [empty] at full
        contradiction
      have none := alive.flight_nil queue
      refine ⟨empty, queue, none, ?_⟩
      rw [Lane.flight, List.append_eq_nil_iff] at none
      rw [none.1] at added
      rw [Lane.flight, workers, none.2, List.perm_singleton.mp added]
      rfl
  refine ⟨by rw [subs]; exact Nat.le_refl 1, ?_, orderly.order.trans (List.sublist_append_left _ _), ?_, ?_,
    fun message head => List.mem_append_left _ (orderly.first message head), orderly.seqs, ?_⟩
  · obtain same | ⟨-, -, -, one⟩ := flights
    · rw [same.length_eq]
      exact orderly.flight
    · rw [one]
      exact Nat.le_refl 1
  · rw [List.pairwise_append]
    refine ⟨orderly.rising, List.pairwise_singleton _ _, ?_⟩
    intro e old e' new
    rw [List.mem_singleton.mp new]
    exact Nat.lt_of_lt_of_le (orderly.known e old) recent
  · intro e inside
    obtain old | new := List.mem_append.mp inside
    · have := orderly.known e old
      omega
    · rw [List.mem_singleton.mp new]
      exact known
  · rw [subs]
    intro sub' member
    obtain rfl := List.mem_singleton.mp member
    refine ⟨?_, ?_, fun inactive => ?_, ?_, ?_⟩
    · intro other inside
      obtain old | new := List.mem_append.mp inside
      · exact alive.own other (fewer.subset old)
      · rw [List.mem_singleton.mp new]
        exact own
    · intro other inside
      obtain old | new := List.mem_append.mp inside
      · have := alive.recent other (fewer.subset old)
        omega
      · rw [List.mem_singleton.mp new]
        exact known
    · rw [active] at inactive
      contradiction
    · intro input inside
      obtain same | ⟨empty, -, -, one⟩ := flights
      · have front := alive.head input (same.mem_iff.mp inside)
        obtain ⟨-, queue⟩ | ⟨first, kept', rest, rfl, queue, -⟩ := kept_cases fewer head
        · rw [queue] at front
          contradiction
        · rw [queue] at front
          exact front
      · rw [one] at inside
        rw [List.mem_singleton.mp inside, empty]
        rfl
    · have behind := (fewer.map (·.arg.event)).append_right [job.arg.event]
      cases alive.phase with
      | resting calm pending key first =>
        refine .resting (by rw [workers]; exact calm) ?_ key ?_
        · rw [List.map_append, ← List.append_assoc]
          exact (((fewer.map (·.arg.event)).append_left _).trans pending).append_right _
        · intro _ empty
          obtain ⟨front, rest, queue, initial⟩ := first active empty
          obtain ⟨-, none⟩ | ⟨front', kept', rest', rfl, queue', -⟩ := kept_cases fewer head
          · rw [none] at queue
            contradiction
          · obtain rfl := (List.cons.inj (queue'.symm.trans queue)).1
            exact ⟨front', kept' ++ [job], rfl, List.mem_append_left _ initial⟩
      | sending input seq busy pending n count key =>
        refine .sending input seq (by rw [workers]; exact busy) ?_ n count key
        obtain ⟨-, none⟩ | ⟨front, kept', rest, rfl, queue, fewer'⟩ := kept_cases fewer head
        · have idle := alive.flight_nil none
          rw [Lane.flight, busy, List.append_eq_nil_iff] at idle
          exact absurd idle.2 nofun
        · rw [queue] at pending
          change (sent.map (·.1) ++ (kept' ++ [job]).map (·.arg.event)).Sublist _
          rw [List.map_append, ← List.append_assoc]
          exact (((fewer'.map (·.arg.event)).append_left _).trans pending).append_right _
      | stuck none queue =>
        obtain same | ⟨-, empty, -, -⟩ := flights
        · rw [none] at same
          exact .stuck same.eq_nil (List.append_ne_nil_of_right_ne_nil _ nofun)
        · exact absurd empty queue

theorem Orderly.taken (orderly : Orderly sid l nextEvent queued initials sent) {input : NotifyThreadStruct}
    (subs : l'.subs = l.subs) (waiting : l.waiting.Perm (input :: l'.waiting))
    (workers : l'.workers = l.workers ++ [⟨input, .called⟩]) (later : nextEvent ≤ nextEvent') (more : List Nat) :
    Orderly sid l' nextEvent' queued (initials ++ more) sent := by
  have flight : l'.flight.Perm l.flight := by
    rw [Lane.flight, Lane.flight, workers, List.map_append, ← List.append_assoc]
    exact (List.perm_append_singleton _ _).trans (waiting.symm.append_right _)
  have one := orderly.flight
  have nobody : l.workers = [] := by
    have lengths := waiting.length_eq
    rw [Lane.flight, List.length_append, List.length_map, lengths, List.length_cons] at one
    exact List.eq_nil_of_length_eq_zero (by omega)
  refine ⟨by rw [subs]; exact orderly.one, flight.length_eq ▸ one, orderly.order, orderly.rising,
    fun event inside => Nat.lt_of_lt_of_le (orderly.known event inside) later,
    fun message head => List.mem_append_left _ (orderly.first message head), orderly.seqs, ?_⟩
  rw [subs]
  intro sub member
  have alive := orderly.alive sub member
  refine ⟨alive.own, fun job inside => Nat.lt_of_lt_of_le (alive.recent job inside) later, fun inactive => ?_,
    fun other inside => alive.head other (flight.mem_iff.mp inside), ?_⟩
  · obtain ⟨queue, none, rest⟩ := alive.idle inactive
    rw [none] at flight
    exact ⟨queue, flight.eq_nil, rest⟩
  · cases alive.phase with
    | resting calm pending key first =>
      refine .resting ?_ pending key fun active empty => ?_
      · rw [workers, nobody]
        intro worker inside
        rw [List.mem_singleton.mp inside]
      · obtain ⟨job, rest, queue, initial⟩ := first active empty
        exact ⟨job, rest, queue, List.mem_append_left _ initial⟩
    | sending other seq busy =>
      rw [nobody] at busy
      contradiction
    | stuck none queue =>
      rw [none] at flight
      exact .stuck flight.eq_nil queue

theorem Orderly.began (orderly : Orderly sid l nextEvent queued initials sent) {sub : Subscription}
    (before : l.subs = [sub]) (subs : l'.subs = [sub]) {input : NotifyThreadStruct} {others : List Worker}
    (called : l.workers.Perm (⟨input, .called⟩ :: others))
    (busy : l'.workers.Perm (⟨input, .sending sub.toSendEventKey⟩ :: others)) (waiting : l'.waiting = l.waiting)
    (later : nextEvent ≤ nextEvent') (more : List Nat) :
    Orderly sid l' nextEvent' queued (initials ++ more) (sent ++ [(input.event, sub.toSendEventKey)]) := by
  have alive := orderly.single before
  have flight : l'.flight.Perm l.flight := by
    rw [Lane.flight, Lane.flight, waiting]
    exact ((busy.map (·.input)).trans (called.map (·.input)).symm).append_left _
  have one := orderly.flight
  have nobody : others = [] := by
    have lengths := called.length_eq
    rw [Lane.flight, List.length_append, List.length_map, lengths, List.length_cons] at one
    exact List.eq_nil_of_length_eq_zero (by omega)
  rw [nobody] at called busy
  have was := List.perm_singleton.mp called
  have flying : input ∈ l.flight := by
    rw [Lane.flight, was]
    exact List.mem_append_right _ (List.mem_singleton_self _)
  have active : sub.active = true := by
    by_contra inactive
    have none := (alive.idle (by simpa using inactive)).2.1
    rw [none] at flying
    contradiction
  cases alive.phase with
  | sending other seq busy' =>
    have same := List.singleton_inj.mp (busy'.symm.trans was)
    cases same
  | stuck none =>
    rw [none] at flying
    contradiction
  | resting calm pending key first =>
    have front := alive.head input flying
    obtain ⟨job, rest, queue, rfl⟩ : ∃ job rest, sub.outgoing = job :: rest ∧ job.arg = input := by
      cases shape : sub.outgoing with
      | nil => rw [shape] at front; contradiction
      | cons job rest => rw [shape] at front; exact ⟨job, rest, rfl, Option.some.inj front⟩
    have sends : (sent ++ [(job.arg.event, sub.toSendEventKey)]).map (·.1) ++ rest.map (·.arg.event) =
        sent.map (·.1) ++ sub.outgoing.map (·.arg.event) := by
      rw [queue, List.map_append, List.append_assoc]
      rfl
    refine ⟨by rw [subs]; exact Nat.le_refl 1, flight.length_eq ▸ one, ?_, orderly.rising,
      fun event inside => Nat.lt_of_lt_of_le (orderly.known event inside) later, ?_, ?_, ?_⟩
    · exact (List.sublist_append_left _ _).trans (sends ▸ pending)
    · intro message head
      cases shape : sent with
      | nil =>
        rw [shape] at head
        obtain rfl := Option.some.inj head
        obtain ⟨job', rest', queue', initial⟩ := first active shape
        rw [queue] at queue'
        rw [(List.cons.inj queue').1]
        exact List.mem_append_left _ initial
      | cons m ms =>
        rw [shape] at head
        exact List.mem_append_left _ (orderly.first message (by rw [shape]; exact head))
    · rw [List.map_append, orderly.seqs, List.length_append, List.length_singleton, List.range_succ, List.map_append, key]
      rfl
    · rw [subs]
      intro sub' member
      rw [List.mem_singleton.mp member]
      refine ⟨alive.own, fun job inside => Nat.lt_of_lt_of_le (alive.recent job inside) later, fun inactive => ?_,
        fun other inside => alive.head other (flight.mem_iff.mp inside), ?_⟩
      · rw [active] at inactive
        contradiction
      · refine .sending job.arg _ (List.perm_singleton.mp busy) ?_ sent.length (by simp) key
        rw [queue, List.map_cons, List.tail_cons, sends]
        exact pending

theorem Orderly.ended (orderly : Orderly sid l nextEvent queued initials sent) {worker : Worker}
    (subs : Quieted l.subs l'.subs) (workers : l.workers.Perm (worker :: l'.workers)) (waiting : l'.waiting = l.waiting)
    (later : nextEvent ≤ nextEvent') (more : List Nat) :
    Orderly sid l' nextEvent' queued (initials ++ more) sent := by
  have one := orderly.flight
  have lengths := workers.length_eq
  rw [Lane.flight, List.length_append, List.length_map, lengths, List.length_cons] at one
  have nobody : l'.workers = [] := List.eq_nil_of_length_eq_zero (by omega)
  have nothing : l'.waiting = [] := waiting.trans (List.eq_nil_of_length_eq_zero (by omega))
  have flight : l'.flight = [] := by
    rw [Lane.flight, nobody, nothing]
    rfl
  rw [nobody] at workers
  have was := List.perm_singleton.mp workers
  refine ⟨Nat.le_trans subs.length_le orderly.one, by rw [flight]; exact Nat.zero_le 1, orderly.order, orderly.rising,
    fun event inside => Nat.lt_of_lt_of_le (orderly.known event inside) later,
    fun message head => List.mem_append_left _ (orderly.first message head), orderly.seqs, ?_⟩
  intro sub' member
  obtain gone | same := subs
  · rw [gone] at member
    contradiction
  have inside : sub'.core ∈ l.subs.map Subscription.core := same ▸ List.mem_map_of_mem member
  obtain ⟨sub, present, core⟩ := List.mem_map.mp inside
  have alive := orderly.alive sub present
  obtain ⟨key, rest⟩ := Prod.mk.inj core.symm
  obtain ⟨active, outgoing⟩ := Prod.mk.inj rest
  have queue : sub.outgoing ≠ [] := by
    intro empty
    have none := alive.flight_nil empty
    rw [Lane.flight, was, List.append_eq_nil_iff] at none
    exact absurd none.2 nofun
  refine ⟨?_, ?_, ?_, by rw [flight]; nofun, .stuck flight (outgoing ▸ queue)⟩
  · rw [outgoing]
    exact alive.own
  · rw [outgoing]
    exact fun job inside => Nat.lt_of_lt_of_le (alive.recent job inside) later
  · rw [active]
    intro inactive
    exact absurd (alive.idle inactive).1 queue

theorem Orderly.finished (orderly : Orderly sid l nextEvent queued initials sent) {sub : Subscription}
    (before : l.subs = [sub]) {input : NotifyThreadStruct} {seq : Int}
    (workers : l.workers.Perm (⟨input, .sending seq⟩ :: l'.workers)) {outgoing : List OutgoingJob}
    (rest : outgoing.map (·.arg) = (sub.outgoing.map (·.arg)).tail)
    (subs : l'.subs = [] ∨ l'.subs =
      [{ sub with toSendEventKey := nextEventKey sub.toSendEventKey, outgoing := outgoing }])
    {restarted : List NotifyThreadStruct} (behind : restarted.Sublist ((outgoing.map (·.arg)).take 1))
    (waiting : l'.waiting.Perm (restarted ++ l.waiting)) (later : nextEvent ≤ nextEvent') (more : List Nat) :
    Orderly sid l' nextEvent' queued (initials ++ more) sent := by
  have alive := orderly.single before
  have one := orderly.flight
  have lengths := workers.length_eq
  rw [Lane.flight, List.length_append, List.length_map, lengths, List.length_cons] at one
  have nobody : l'.workers = [] := List.eq_nil_of_length_eq_zero (by omega)
  have nothing : l.waiting = [] := List.eq_nil_of_length_eq_zero (by omega)
  rw [nobody] at workers
  have was := List.perm_singleton.mp workers
  have flight : l'.flight.Perm restarted := by
    rw [Lane.flight, nobody, List.map_nil, List.append_nil]
    rwa [nothing, List.append_nil] at waiting
  have few : restarted.length ≤ 1 := Nat.le_trans behind.length_le (by rw [List.length_take]; omega)
  refine ⟨?_, flight.length_eq ▸ few, orderly.order, orderly.rising,
    fun event inside => Nat.lt_of_lt_of_le (orderly.known event inside) later,
    fun message head => List.mem_append_left _ (orderly.first message head), orderly.seqs, ?_⟩
  · obtain gone | stays := subs
    · rw [gone]
      exact Nat.zero_le 1
    · rw [stays]
      exact Nat.le_refl 1
  intro sub' member
  obtain gone | stays := subs
  · rw [gone] at member
    contradiction
  rw [stays] at member
  rw [List.mem_singleton.mp member]
  have old (job : OutgoingJob) (inside : job ∈ outgoing) : ∃ job' ∈ sub.outgoing, job'.arg = job.arg := by
    have tail : job.arg ∈ (sub.outgoing.map (·.arg)).tail := rest ▸ List.mem_map_of_mem inside
    exact List.mem_map.mp (List.mem_of_mem_tail tail)
  have events : outgoing.map (·.arg.event) = (sub.outgoing.map (·.arg.event)).tail := by
    have same := congrArg (List.map (·.event)) rest
    rwa [List.map_map, List.map_tail, List.map_map] at same
  refine ⟨?_, ?_, fun inactive => ?_, ?_, ?_⟩
  · intro job inside
    obtain ⟨job', queued, same⟩ := old job inside
    rw [← same]
    exact alive.own job' queued
  · intro job inside
    obtain ⟨job', queued, same⟩ := old job inside
    rw [← same]
    exact Nat.lt_of_lt_of_le (alive.recent job' queued) later
  · have none := (alive.idle inactive).2.1
    rw [Lane.flight, was, List.append_eq_nil_iff] at none
    exact absurd none.2 nofun
  · intro next inside
    have front := behind.subset (flight.mem_iff.mp inside)
    dsimp only
    cases outgoing with
    | nil => contradiction
    | cons job jobs =>
      rw [List.map_cons, List.take_succ_cons, List.take_zero] at front
      rw [List.mem_singleton.mp front]
      rfl
  · cases alive.phase with
    | resting calm =>
      have stage := calm _ (by rw [was]; exact List.mem_singleton_self _)
      contradiction
    | stuck none =>
      rw [Lane.flight, was, List.append_eq_nil_iff] at none
      exact absurd none.2 nofun
    | sending other seq' busy pending n count key =>
      refine .resting (by rw [nobody]; nofun) ?_ ?_ fun _ empty => ?_
      · dsimp only
        rw [events]
        exact pending
      · dsimp only
        rw [key, count]
        exact nextEventKey_seqOf n
      · rw [empty] at count
        contradiction

theorem Orderly.newEvents_nil (orderly : Orderly sid l nextEvent queued initials sent) :
    newEventsOf nextEvent l.subs = [] :=
  newEventsOf_old fun sub member => (orderly.alive sub member).recent

end Steps

def Untouched (l : Lane) (queued : List Nat) (sent : List (Nat × Int)) : Prop :=
  l.subs = [] ∧ l.flight = [] ∧ queued = [] ∧ sent = []

theorem messagesOf_none {label : Label} {s : State} (silent : sends label s = none) (sid : Nat) :
    messagesOf sid (sends label s).toList = [] := by
  rw [silent]
  rfl

theorem Orderly.after {label : Label} {sid : Nat} {s t : State} {queued initials : List Nat} {sent : List (Nat × Int)}
    (orderly : Orderly sid (s.lane sid) s.nextEvent queued initials sent)
    (fresh : s.nextSid ≤ sid → Untouched (s.lane sid) queued sent) (fits : initFits label s = true) (later : Later s t)
    (taken : LaneStep label sid s t) :
    Orderly sid (t.lane sid) t.nextEvent (queued ++ newEventsOf s.nextEvent (t.lane sid).subs)
      (initials ++ if label.isInit then newEventsOf s.nextEvent (t.lane sid).subs else [])
      (sent ++ messagesOf sid (sends label s).toList) := by
  generalize extra : (if label.isInit then newEventsOf s.nextEvent (t.lane sid).subs else []) = more
  cases taken with
  | quiet subs waiting workers silent =>
    have same := orderly.quiet subs waiting workers (Nat.le_refl _) []
    rw [same.newEvents_nil, messagesOf_other (by simpa using silent), List.append_nil, List.append_nil]
    exact orderly.quiet subs waiting workers later.2 more
  | created first next expireTime subs waiting workers silent =>
    have untouched := fresh (Nat.le_of_eq first.symm)
    have same : Orderly sid (t.lane sid) s.nextEvent queued _ sent := orderly.created untouched subs waiting workers []
    rw [same.newEvents_nil, messagesOf_none silent, List.append_nil, List.append_nil]
    exact orderly.created untouched subs waiting workers more
  | activated initial sub before inactive arg event next own subs waiting workers silent =>
    have queue := ((orderly.single before).idle inactive).1
    have new : newEventsOf s.nextEvent (t.lane sid).subs = [arg.event] := by
      rw [subs, queue]
      simp [newEventsOf, event]
    rw [if_pos initial, new] at extra
    rw [new, ← extra, messagesOf_none silent, List.append_nil]
    exact orderly.activated before inactive event own subs waiting workers (Nat.le_of_eq next.symm)
  | refused full =>
    rw [full] at fits
    contradiction
  | enqueued sub before active kept fewer head job own recent known subs waiting workers silent =>
    have old := (orderly.single before).recent
    have new : newEventsOf s.nextEvent (t.lane sid).subs = [job.arg.event] := by
      have none : kept.filter (s.nextEvent ≤ ·.arg.event) = [] := by
        rw [List.filter_eq_nil_iff]
        intro other inside
        simpa using old other (fewer.subset inside)
      rw [subs, newEventsOf, List.flatMap_singleton, List.filter_append, none]
      simp [recent]
    rw [new, messagesOf_none silent, List.append_nil]
    exact orderly.enqueued before active fewer head own recent known subs waiting workers more
  | taken input subs waiting workers silent =>
    have same := orderly.taken subs waiting workers (Nat.le_refl _) []
    rw [same.newEvents_nil, messagesOf_none silent, List.append_nil, List.append_nil]
    exact orderly.taken subs waiting workers later.2 more
  | began sub before subs input others called busy waiting message =>
    have same := orderly.began before subs called busy waiting (Nat.le_refl _) []
    have mine : input.sid = sid := by
      have inside := called.mem_iff.mpr List.mem_cons_self
      simpa using (List.mem_filter.mp inside).2
    have sends : messagesOf sid (sends label s).toList = [(input.event, sub.toSendEventKey)] := by
      rw [message]
      simp [messagesOf, mine]
    rw [same.newEvents_nil, sends, List.append_nil]
    exact orderly.began before subs called busy waiting later.2 more
  | ended worker subs workers waiting silent =>
    have same := orderly.ended subs workers waiting (Nat.le_refl _) []
    rw [same.newEvents_nil, messagesOf_none silent, List.append_nil, List.append_nil]
    exact orderly.ended subs workers waiting later.2 more
  | finished sub before input seq workers outgoing rest subs restarted behind waiting silent =>
    have same := orderly.finished before workers rest subs behind waiting (Nat.le_refl _) []
    rw [same.newEvents_nil, messagesOf_none silent, List.append_nil, List.append_nil]
    exact orderly.finished before workers rest subs behind waiting later.2 more

theorem Untouched.after {label : Label} {sid : Nat} {s t : State} {queued : List Nat} {sent : List (Nat × Int)}
    (untouched : Untouched (s.lane sid) queued sent) (fits : initFits label s = true) (fresh : t.nextSid ≤ sid)
    (taken : LaneStep label sid s t) :
    Untouched (t.lane sid) (queued ++ newEventsOf s.nextEvent (t.lane sid).subs)
      (sent ++ messagesOf sid (sends label s).toList) := by
  obtain ⟨nobody, none, rfl, rfl⟩ := untouched
  have parts := none
  rw [Lane.flight, List.append_eq_nil_iff, List.map_eq_nil_iff] at parts
  cases taken with
  | quiet subs waiting workers silent =>
    rw [nobody] at subs
    rw [parts.1] at waiting
    rw [parts.2] at workers
    have gone := subs.empty
    refine ⟨gone, ?_, by rw [gone]; rfl, messagesOf_other (by simpa using silent)⟩
    rw [Lane.flight, waiting.eq_nil, workers.eq_nil]
    rfl
  | created first next =>
    omega
  | refused full =>
    rw [full] at fits
    contradiction
  | activated _ _ before => rw [nobody] at before; contradiction
  | enqueued _ before => rw [nobody] at before; contradiction
  | began _ before => rw [nobody] at before; contradiction
  | finished _ before => rw [nobody] at before; contradiction
  | taken input subs waiting =>
    rw [parts.1] at waiting
    exact absurd waiting.symm.eq_nil nofun
  | ended worker subs workers =>
    rw [parts.2] at workers
    exact absurd workers.symm.eq_nil nofun

/-! ### Runs -/

def newEvents (s t : State) : List (Nat × Nat) :=
  (t.services.flatMap (·.subscriptionList)).flatMap fun sub =>
    (sub.outgoing.filter (s.nextEvent ≤ ·.arg.event)).map fun job => (sub.sid, job.arg.event)

/-- A run with a record of the events queued, of those queued by `genaInitNotify`, and of the messages
that were begun, each in order. -/
structure Logged where
  state : State
  queued : List (Nat × Nat)
  initials : List (Nat × Nat)
  sent : List (NotifyThreadStruct × Int)

def Logged.step (label : Label) (t : Logged) : Option Logged :=
  (Gena.step label t.state).map fun s =>
    { state := s
      queued := t.queued ++ newEvents t.state s
      initials := t.initials ++ if label.isInit then newEvents t.state s else []
      sent := t.sent ++ (sends label t.state).toList }

def Logged.initial (setup : Setup) : Logged := ⟨Gena.initial setup, [], [], []⟩

def eventsOf (sid : Nat) (events : List (Nat × Nat)) : List Nat := (events.filter (·.1 = sid)).map (·.2)

/-- What the control point of a subscription can rely on. -/
structure InOrder (t : Logged) (sid : Nat) : Prop where
  oneAtATime : (t.state.workers.filter fun worker => worker.input.sid = sid && worker.stage ≠ .called).length ≤ 1
  order : ((messagesOf sid t.sent).map (·.1)).Sublist (eventsOf sid t.queued)
  once : (eventsOf sid t.queued).Pairwise (· < ·)
  first : ∀ message ∈ (messagesOf sid t.sent).head?, message.1 ∈ eventsOf sid t.initials
  seqs : (messagesOf sid t.sent).map (·.2) = (List.range (messagesOf sid t.sent).length).map seqOf

structure Logged.Orderly (t : Logged) : Prop where
  orderly : ∀ sid, Gena.Orderly sid (t.state.lane sid) t.state.nextEvent (eventsOf sid t.queued)
    (eventsOf sid t.initials) (messagesOf sid t.sent)
  fresh : ∀ sid, t.state.nextSid ≤ sid →
    Untouched (t.state.lane sid) (eventsOf sid t.queued) (messagesOf sid t.sent)

end Pupnp.Gena
