import Mathlib.Data.List.Perm.Basic
import Pupnp.Gena.Delivery
import Pupnp.Gena.Memory

/-!
The reference counts of the events in every run: when the structs are counted right, and when each of them is
freed by its owner.
-/

namespace Pupnp.Gena.Memory
open Pupnp.RefCount Pupnp.Run

def Sub.headRefused (sub : Sub) : Bool := sub.outgoing.head?.any (·.refused)

def lookUpSafe (sid : Nat) (now : Int) (s : State) : Bool :=
  (s.lookUp sid).all fun found => !(found.2.expired now && found.2.headRefused)

def keptLength (s : State) (now : Int) (sub : Sub) : Nat :=
  (Gena.maybeDiscardEvents s.eqMaxLen s.eqMaxAge now (sub.outgoing.map (·.job))).length

/-- The loop of `genaNotifyAllCommon`, up to where it ends: each struct it makes gets a job, and each job gets into
the queue, or else into the pool. -/
def loopSafe (s : State) (service : Nat) (now : Int) (outcome : Nat → Round) : List Sub → Bool
  | [] => true
  | sub :: rest =>
      if sub.service ≠ service then loopSafe s service now outcome rest
      else if sub.expired now then !sub.headRefused && loopSafe s service now outcome rest
      else if !sub.active then loopSafe s service now outcome rest
      else if !(outcome sub.sid).threadStruct then true
      else
        (outcome sub.sid).job &&
          if (outcome sub.sid).node then
            (keptLength s now sub = 0 && !(outcome sub.sid).accepted) || loopSafe s service now outcome rest
          else keptLength s now sub = 1 && ((outcome sub.sid).accepted && loopSafe s service now outcome rest)

/-- A call of `genaInitNotify` whose job is in the pool gets it into the queue. -/
def initSafe (alloc : InitAllocations) (sid : Nat) (now : Int) (s : State) : Bool :=
  lookUpSafe sid now s &&
    (s.lookUp sid).all fun found =>
      found.2.expired now || (found.2.active || (alloc.node ||
        !(alloc.headers && (alloc.threadStruct && alloc.accepted))))

/-- A worker that has sent its event finds a head the pool has taken; where it removes the subscription, the pool
takes the next one. -/
def finishSafe (sid : Nat) (now : Int) (remove accepted : Bool) (s : State) : Bool :=
  (s.lookUp sid).all fun found =>
    found.2.expired now || (!found.2.headRefused && (!remove || (accepted || found.2.outgoing.length ≤ 1)))

/-- The steps that keep the structs counted and owned. -/
def sound : Label → State → Bool
  | .subscribe _ _, _ => true
  | .removeSubscription sid, s => (s.lookUp sid).all fun found => !found.2.headRefused
  | .initNotify alloc _ _ _ _ sid now, s => !alloc.early || initSafe alloc sid now s
  | .notifyAll alloc service _ _ _ _ now outcome, s =>
      alloc.referenceCount && (!alloc.buffers || service.all fun i => loopSafe s i now outcome s.subs)
  | .takeJob _, _ => true
  | .advance k now _ remove accepted, s =>
      s.workers[k]?.all fun worker =>
        lookUpSafe worker.input.sid now s &&
          (!worker.sending || finishSafe worker.input.sid now remove accepted s)
  | .shutdown, _ => true
  | .shutdownEnds, s => s.pool.isEmpty

/-- The structs in use and the counts of the calls; `building` is a call that is being made. -/
structure Accounted (building : Option Nat) (held : List NotifyThreadStruct) (heap : Heap) : Prop where
  counts : ∀ call block, heap.calls[call]? = some block →
    block.ct = ((held.map (·.event)).count call : Int) ∧
      block.frees = if (held.map (·.event)).count call = 0 ∧ building ≠ some call then 1 else 0
  owners : heap.live.Perm held
  known : ∀ input ∈ held, input.event < heap.calls.length
  begun : ∀ call, building = some call → call < heap.calls.length

section Heaps
variable {building : Option Nat} {held held' : List NotifyThreadStruct} {heap : Heap} {input : NotifyThreadStruct}

theorem Accounted.perm (accounted : Accounted building held heap) (same : held.Perm held') :
    Accounted building held' heap := by
  obtain ⟨counts, owners, known, begun⟩ := accounted
  refine ⟨?_, owners.trans same, fun input member => known input (same.mem_iff.mpr member), begun⟩
  intro call block found
  rw [← (same.map _).count_eq]
  exact counts call block found

theorem Accounted.free (accounted : Accounted building (input :: held) heap) (other : building ≠ some input.event) :
    Accounted building held (freeNotifyStruct input heap) := by
  obtain ⟨counts, owners, known, begun⟩ := accounted
  refine ⟨?_, ?_, ?_, ?_⟩
  · intro call block found
    rw [freeNotifyStruct, List.getElem?_modify] at found
    obtain ⟨before, old, rfl⟩ := Option.map_eq_some_iff.mp found
    obtain ⟨count, frees⟩ := counts call before old
    rw [List.map_cons] at count frees
    by_cases same : input.event = call
    · subst same
      rw [List.count_cons_self] at count frees
      rw [if_neg (by omega)] at frees
      have left : before.ct - 1 = (held.map (·.event)).count input.event := by omega
      rw [if_pos rfl]
      refine ⟨left, ?_⟩
      dsimp only
      rw [left, frees]
      by_cases last : (held.map (·.event)).count input.event = 0
      · rw [if_pos (by omega), if_pos ⟨last, other⟩]
      · rw [if_neg (by omega), if_neg fun both => last both.1]
    · rw [List.count_cons_of_ne same] at count frees
      rw [if_neg same]
      exact ⟨count, frees⟩
  · have erased := owners.erase input
    rwa [List.erase_cons_head] at erased
  · intro struct member
    rw [freeNotifyStruct, List.length_modify]
    exact known struct (List.mem_cons_of_mem _ member)
  · rw [freeNotifyStruct, List.length_modify]
    exact begun

theorem Accounted.freeStructs {inputs : List NotifyThreadStruct}
    (accounted : Accounted building (inputs ++ held) heap) (others : ∀ input ∈ inputs, building ≠ some input.event) :
    Accounted building held (freeStructs inputs heap) := by
  induction inputs generalizing heap with
  | nil => exact accounted
  | cons input inputs ih =>
    rw [List.forall_mem_cons] at others
    exact ih (accounted.free others.1) others.2

theorem Accounted.opened (accounted : Accounted none held heap) (propertySet : List UInt8) :
    Accounted (some heap.calls.length) held (openCall propertySet heap) := by
  obtain ⟨counts, owners, known, -⟩ := accounted
  have fresh : (held.map (·.event)).count heap.calls.length = 0 := by
    rw [List.count_eq_zero]
    intro inside
    obtain ⟨input, member, same⟩ := List.mem_map.mp inside
    have below := known input member
    omega
  refine ⟨?_, owners, ?_, ?_⟩
  · intro call block found
    unfold openCall at found
    obtain below | rfl | above := Nat.lt_trichotomy call heap.calls.length
    · rw [List.getElem?_append_left below] at found
      obtain ⟨count, frees⟩ := counts call block found
      refine ⟨count, frees.trans ?_⟩
      have differ : heap.calls.length ≠ call := by omega
      simp [differ]
    · rw [List.getElem?_concat_length] at found
      obtain rfl := Option.some.inj found
      rw [fresh]
      simp
    · rw [List.getElem?_eq_none (by simp; omega)] at found
      contradiction
  · intro input member
    have below := known input member
    simp only [openCall, List.length_append, List.length_singleton]
    omega
  · intro call same
    obtain rfl := Option.some.inj same
    simp [openCall]

theorem Accounted.made (accounted : Accounted (some input.event) held heap) :
    Accounted (some input.event) (input :: held) (makeStruct input heap) := by
  obtain ⟨counts, owners, known, begun⟩ := accounted
  refine ⟨?_, ?_, ?_, ?_⟩
  · intro call block found
    rw [makeStruct, List.getElem?_modify] at found
    obtain ⟨before, old, rfl⟩ := Option.map_eq_some_iff.mp found
    obtain ⟨count, frees⟩ := counts call before old
    rw [List.map_cons]
    by_cases same : input.event = call
    · subst same
      rw [if_neg (by simp)] at frees
      rw [if_pos rfl, List.count_cons_self, if_neg (by simp)]
      refine ⟨?_, frees⟩
      dsimp only
      omega
    · rw [if_neg same, List.count_cons_of_ne same]
      exact ⟨count, frees⟩
  · exact (List.perm_append_singleton input heap.live).trans (owners.cons input)
  · rw [List.forall_mem_cons, makeStruct, List.length_modify]
    exact ⟨begun _ rfl, known⟩
  · rw [makeStruct, List.length_modify]
    exact begun

theorem Accounted.called (accounted : Accounted none held heap) {new : List NotifyThreadStruct}
    (own : ∀ input ∈ new, input.event = heap.calls.length) (propertySet : List UInt8) {frees : Nat}
    (freed : frees = if new.length = 0 then 1 else 0) :
    Accounted none (new ++ held) ⟨heap.live ++ new, heap.calls ++ [⟨propertySet, new.length, frees⟩]⟩ := by
  obtain ⟨counts, owners, known, -⟩ := accounted
  have mine : new.map (·.event) = List.replicate new.length heap.calls.length := by
    rw [List.eq_replicate_iff, List.length_map]
    refine ⟨rfl, ?_⟩
    intro call inside
    obtain ⟨input, member, rfl⟩ := List.mem_map.mp inside
    exact own input member
  refine ⟨?_, ?_, ?_, fun call building => absurd building.symm (Option.some_ne_none call)⟩
  · intro call block found
    rw [List.map_append, List.count_append, mine]
    obtain below | rfl | above := Nat.lt_trichotomy call heap.calls.length
    · rw [List.getElem?_append_left below] at found
      rw [List.count_replicate, if_neg (by simp; omega), Nat.zero_add]
      exact counts call block found
    · rw [List.getElem?_concat_length] at found
      obtain rfl := Option.some.inj found
      have fresh : (held.map (·.event)).count heap.calls.length = 0 := by
        rw [List.count_eq_zero]
        intro inside
        obtain ⟨input, member, same⟩ := List.mem_map.mp inside
        have below := known input member
        omega
      rw [List.count_replicate_self, fresh, Nat.add_zero]
      refine ⟨rfl, ?_⟩
      simpa using freed
    · rw [List.getElem?_eq_none (by simp; omega)] at found
      contradiction
  · exact (owners.append_right new).trans List.perm_append_comm
  · intro input member
    simp only [List.length_append, List.length_singleton]
    obtain inside | old := List.mem_append.mp member
    · rw [own input inside]
      omega
    · have below := known input old
      omega

theorem Accounted.closed {call : Nat} (accounted : Accounted (some call) held heap) :
    Accounted none held (closeCall call heap) := by
  obtain ⟨counts, owners, known, -⟩ := accounted
  refine ⟨?_, owners, ?_, fun call building => absurd building.symm (Option.some_ne_none call)⟩
  · intro other block found
    rw [closeCall, List.getElem?_modify] at found
    obtain ⟨before, old, rfl⟩ := Option.map_eq_some_iff.mp found
    obtain ⟨count, frees⟩ := counts other before old
    by_cases same : call = other
    · subst same
      rw [if_neg (by simp)] at frees
      rw [if_pos rfl]
      refine ⟨count, ?_⟩
      dsimp only
      rw [count, frees]
      by_cases none : (held.map (·.event)).count call = 0
      · simp [none]
      · rw [if_neg (by omega), if_neg fun both => none both.1]
    · rw [if_neg same]
      refine ⟨count, ?_⟩
      simpa [same] using frees
  · intro input member
    rw [closeCall, List.length_modify]
    exact known input member

end Heaps

/-! ### Subscriptions -/

theorem flatMap_split {A B : Type*} {l : List A} {i : Nat} {a : A} (here : l[i]? = some a) (f : A → List B) :
    (l.flatMap f).Perm (f a ++ (l.eraseIdx i).flatMap f) := by
  obtain ⟨inside, rfl⟩ := List.getElem?_eq_some_iff.mp here
  exact (List.getElem_cons_eraseIdx_perm inside).symm.flatMap_right f

theorem flatMap_set {A B : Type*} {l : List A} {i : Nat} {a : A} (here : l[i]? = some a) (b : A) (f : A → List B) :
    ((l.set i b).flatMap f).Perm (f b ++ (l.eraseIdx i).flatMap f) :=
  (List.set_perm_cons_eraseIdx (List.getElem?_eq_some_iff.mp here).1 b).flatMap_right f

theorem perm_third {A : Type*} (a b c d : List A) : (a ++ (b ++ (c ++ d))).Perm (c ++ (a ++ (b ++ d))) :=
  ((List.perm_append_comm_assoc b c d).append_left a).trans (List.perm_append_comm_assoc a c (b ++ d))

theorem held_split {s : State} {i : Nat} {sub : Sub} (here : s.subs[i]? = some sub) :
    s.held.Perm (owned sub.outgoing ++ (s.pool ++ (s.workers.map (·.input) ++
      (s.subs.eraseIdx i).flatMap fun sub => owned sub.outgoing))) := by
  have split := flatMap_split here fun sub => owned sub.outgoing
  exact ((split.append_left _).append_left _).trans (perm_third _ _ _ _)

theorem owned_taken {sub : Sub} (taken : sub.headRefused = false) :
    owned sub.outgoing = sub.outgoing.tail.map (·.job.arg) := by
  unfold Sub.headRefused at taken
  cases queue : sub.outgoing with
  | nil => rfl
  | cons head rest =>
    rw [queue] at taken
    simp only [List.head?_cons, Option.any_some] at taken
    simp [owned, taken]

structure Kept (s : State) : Prop where
  accounted : Accounted none s.held s.heap
  idle : ∀ sub ∈ s.subs, sub.active = false → sub.outgoing = []

section Lookups
variable {s : State} {sid i : Nat} {now : Int} {sub : Sub}

theorem lookUp_here (found : s.lookUp sid = some (i, sub)) : s.subs[i]? = some sub := by
  obtain ⟨j, -, rest⟩ := Option.bind_eq_some_iff.mp found
  obtain ⟨other, here, same⟩ := Option.map_eq_some_iff.mp rest
  obtain ⟨rfl, rfl⟩ := Prod.mk.inj same
  exact here

theorem Kept.drop (kept : Kept s) (here : s.subs[i]? = some sub) (taken : sub.headRefused = false) :
    Kept (s.drop i sub) := by
  refine ⟨?_, fun other member => kept.idle other (List.mem_of_mem_eraseIdx member)⟩
  have split := held_split here
  rw [owned_taken taken] at split
  exact (kept.accounted.perm split).freeStructs fun _ _ => (Option.some_ne_none _).symm

/-- A lookup finds a subscription and changes nothing, or finds none and may drop one. -/
theorem getSubscriptionSID_kept (kept : Kept s) (safe : lookUpSafe sid now s = true) :
    (∃ i sub, s.lookUp sid = some (i, sub) ∧ sub.expired now = false ∧
        getSubscriptionSID sid now s = (some (i, sub), s)) ∨
      (getSubscriptionSID sid now s).1 = none ∧ Kept (getSubscriptionSID sid now s).2 ∧
        (getSubscriptionSID sid now s).2.workers = s.workers := by
  unfold getSubscriptionSID
  cases found : s.lookUp sid with
  | none => exact Or.inr ⟨rfl, kept, rfl⟩
  | some place =>
    obtain ⟨i, sub⟩ := place
    simp only
    cases expired : sub.expired now with
    | false => exact Or.inl ⟨i, sub, rfl, expired, rfl⟩
    | true =>
      simp only [lookUpSafe, found, Option.all_some, expired, Bool.true_and, Bool.not_eq_true'] at safe
      exact Or.inr ⟨rfl, kept.drop (lookUp_here found) safe, rfl⟩

theorem removeSubscriptionSID_kept (kept : Kept s) (safe : sound (.removeSubscription sid) s = true) :
    Kept (removeSubscriptionSID sid s) := by
  unfold removeSubscriptionSID
  cases found : s.lookUp sid with
  | none => exact kept
  | some place =>
    obtain ⟨i, sub⟩ := place
    simp only [sound, found, Option.all_some, Bool.not_eq_true'] at safe
    exact kept.drop (lookUp_here found) safe

theorem Kept.landed (kept : Kept s) {k : Nat} {worker : Worker} (here : s.workers[k]? = some worker) :
    Kept { s with workers := s.workers.eraseIdx k, heap := freeNotifyStruct worker.input s.heap } := by
  refine ⟨?_, kept.idle⟩
  obtain ⟨inside, rfl⟩ := List.getElem?_eq_some_iff.mp here
  have moved := (List.getElem_cons_eraseIdx_perm inside).symm.map (·.input)
  have split : s.held.Perm (s.workers[k].input :: (s.pool ++ ((s.workers.eraseIdx k).map (·.input) ++
      s.subs.flatMap fun sub => owned sub.outgoing))) := by
    refine ((moved.append_right _).append_left _).trans ?_
    exact List.perm_middle
  exact (kept.accounted.perm split).free (Option.some_ne_none _).symm

theorem notifyBegin_kept (kept : Kept s) {k : Nat} {worker : Worker} (here : s.workers[k]? = some worker)
    (safe : lookUpSafe worker.input.sid now s = true) (copied : Bool) :
    Kept (notifyBegin now copied k worker.input s) := by
  unfold notifyBegin
  obtain ⟨i, sub, -, -, got⟩ | ⟨none, left, workers⟩ := getSubscriptionSID_kept kept safe
  · rw [got]
    cases copied with
    | false => exact kept.landed here
    | true =>
      refine ⟨?_, kept.idle⟩
      have inputs : (s.workers.set k ⟨worker.input, true⟩).map (·.input) = s.workers.map (·.input) := by
        rw [List.map_set]
        apply set_same
        rw [List.getElem?_map, here]
        rfl
      simp only [Option.isSome_some, Bool.and_self, if_true]
      unfold State.held
      rw [inputs]
      exact kept.accounted
  · simp only [none, Option.isSome_none, Bool.false_and, Bool.false_eq_true, if_false]
    exact left.landed (workers ▸ here)

/-- The queue behind its head, with the struct of the next event in the pool or still in the queue. -/
theorem advanceQueue_owned (accepted : Bool) (head : Node) (rest : List Node) :
    (rest.map (·.job.arg)).Perm
      ((advanceQueue accepted (head :: rest)).2 ++ owned (advanceQueue accepted (head :: rest)).1) := by
  cases rest with
  | nil => exact List.Perm.refl _
  | cons next more => cases accepted <;> exact List.Perm.refl _

theorem advanceQueue_headRefused (accepted : Bool) (queue : List Node)
    (takes : accepted = true ∨ queue.length ≤ 1) :
    (advanceQueue accepted queue).1.head?.any (·.refused) = false := by
  cases queue with
  | nil => rfl
  | cons head rest =>
    cases rest with
    | nil => rfl
    | cons next more =>
      obtain rfl | short := takes
      · rfl
      · simp at short

theorem Kept.advanced (kept : Kept s) (here : s.subs[i]? = some sub) (taken : sub.headRefused = false)
    (accepted : Bool) :
    Kept { s with
      subs := s.subs.set i { sub with outgoing := (advanceQueue accepted sub.outgoing).1 }
      pool := s.pool ++ (advanceQueue accepted sub.outgoing).2 } := by
  refine ⟨?_, ?_⟩
  · have before := held_split here
    have after := flatMap_set here { sub with outgoing := (advanceQueue accepted sub.outgoing).1 }
      fun sub => owned sub.outgoing
    have moved : (owned sub.outgoing).Perm ((advanceQueue accepted sub.outgoing).2 ++
        owned (advanceQueue accepted sub.outgoing).1) := by
      rw [owned_taken taken]
      cases sub.outgoing with
      | nil => exact List.Perm.refl _
      | cons head rest => exact advanceQueue_owned accepted head rest
    apply kept.accounted.perm
    rw [List.perm_iff_count] at before after moved ⊢
    intro input
    have whole := before input
    have put := after input
    have queue := moved input
    simp only [State.held, List.count_append] at whole put queue ⊢
    omega
  · intro other member inactive
    obtain old | rfl := List.mem_or_eq_of_mem_set member
    · exact kept.idle other old inactive
    · have empty := kept.idle sub (List.mem_of_getElem? here) inactive
      simp only [empty]
      rfl

theorem notifyFinish_kept (kept : Kept s) {k : Nat} {worker : Worker} (here : s.workers[k]? = some worker)
    (safe : lookUpSafe worker.input.sid now s = true) {remove accepted : Bool}
    (ends : finishSafe worker.input.sid now remove accepted s = true) :
    Kept (notifyFinish now remove accepted k worker.input s) := by
  unfold notifyFinish
  obtain ⟨i, sub, found, fresh, got⟩ | ⟨none, left, workers⟩ := getSubscriptionSID_kept kept safe
  · have place := lookUp_here found
    simp only [finishSafe, found, Option.all_some, fresh, Bool.false_or, Bool.and_eq_true, Bool.not_eq_true'] at ends
    obtain ⟨taken, removable⟩ := ends
    have moved := kept.advanced place taken accepted
    rw [got]
    simp only
    cases remove with
    | false => exact moved.landed here
    | true =>
      have inside := (List.getElem?_eq_some_iff.mp place).1
      have refused := advanceQueue_headRefused accepted sub.outgoing
        (by simpa using removable)
      have dropped := moved.drop (List.getElem?_set_self inside) refused
      exact dropped.landed here
  · simp only [none]
    exact left.landed (workers ▸ here)

theorem takeJob_kept (kept : Kept s) {k : Nat} {input : NotifyThreadStruct} (here : s.pool[k]? = some input) :
    Kept { s with pool := s.pool.eraseIdx k, workers := s.workers ++ [⟨input, false⟩] } := by
  refine ⟨kept.accounted.perm ?_, kept.idle⟩
  obtain ⟨inside, rfl⟩ := List.getElem?_eq_some_iff.mp here
  have moved := (List.getElem_cons_eraseIdx_perm inside).symm
  rw [List.perm_iff_count] at moved ⊢
  intro input
  have taken := moved input
  simp only [State.held, List.map_append, List.map_cons, List.map_nil, List.count_append, List.count_cons,
    List.count_nil] at taken ⊢
  omega

theorem shutdown_kept (kept : Kept s) : Kept { s with pool := [], heap := freeStructs s.pool s.heap } :=
  ⟨kept.accounted.freeStructs fun _ _ => (Option.some_ne_none _).symm, kept.idle⟩

theorem Kept.failed (kept : Kept s) (propertySet : List UInt8) : Kept (freeCall propertySet s) := by
  have none : ∀ input ∈ ([] : List NotifyThreadStruct), input.event = s.heap.calls.length := by simp
  have called := kept.accounted.called none propertySet rfl
  rw [List.append_nil] at called
  exact ⟨called, kept.idle⟩

theorem Kept.activated (kept : Kept s) (here : s.subs[i]? = some sub) :
    Kept { s with subs := s.subs.set i { sub with active := true } } := by
  refine ⟨kept.accounted.perm ?_, ?_⟩
  · have before := flatMap_split here fun sub => owned sub.outgoing
    have after := flatMap_set here { sub with active := true } fun sub => owned sub.outgoing
    exact ((before.trans after.symm).append_left _).append_left _
  · intro other member inactive
    obtain old | rfl := List.mem_or_eq_of_mem_set member
    · exact kept.idle other old inactive
    · contradiction

theorem Kept.started (kept : Kept s) (here : s.subs[i]? = some sub) (empty : sub.outgoing = [])
    (deviceHandle : Int) (udn servId propertySet : List UInt8) (now : Int) :
    let input : NotifyThreadStruct := ⟨s.heap.calls.length, propertySet, servId, udn, sid, now, deviceHandle⟩
    Kept { s with
      subs := s.subs.set i { sub with active := true, outgoing := sub.outgoing ++ [⟨⟨input, true⟩, false⟩] }
      pool := s.pool ++ [input]
      heap := ⟨s.heap.live ++ [input], s.heap.calls ++ [⟨propertySet, 1, 0⟩]⟩ } := by
  intro input
  have own : ∀ struct ∈ [input], struct.event = s.heap.calls.length := by simp [input]
  have called := kept.accounted.called own propertySet rfl
  refine ⟨called.perm ?_, ?_⟩
  · have before := flatMap_split here fun sub => owned sub.outgoing
    have after := flatMap_set here
      { sub with active := true, outgoing := sub.outgoing ++ [⟨⟨input, true⟩, false⟩] } fun sub => owned sub.outgoing
    simp only [empty, List.nil_append] at before after ⊢
    rw [List.perm_iff_count] at before after ⊢
    intro struct
    have whole := before struct
    have put := after struct
    simp only [State.held, owned, List.count_append, List.map_nil, List.count_nil, Bool.false_eq_true, if_false]
      at whole put ⊢
    omega
  · intro other member inactive
    obtain old | rfl := List.mem_or_eq_of_mem_set member
    · exact kept.idle other old inactive
    · contradiction

theorem genaInitNotify_kept (kept : Kept s) (alloc : InitAllocations) (deviceHandle : Int)
    (udn servId propertySet : List UInt8) (safe : (!alloc.early || initSafe alloc sid now s) = true) :
    Kept (genaInitNotify alloc deviceHandle udn servId propertySet sid now s) := by
  unfold genaInitNotify
  cases early : alloc.early with
  | false => exact kept.failed propertySet
  | true =>
    rw [early, Bool.not_true, Bool.false_or, initSafe, Bool.and_eq_true] at safe
    obtain ⟨looks, enters⟩ := safe
    simp only [Bool.not_true, Bool.false_eq_true, if_false]
    obtain ⟨i, sub, found, fresh, got⟩ | ⟨none, left, -⟩ := getSubscriptionSID_kept kept looks
    · have here := lookUp_here found
      rw [got]
      simp only [found, Option.all_some, fresh, Bool.false_or] at enters
      cases active : sub.active with
      | true =>
        simp only [active, if_true]
        exact kept.failed propertySet
      | false =>
        have empty := kept.idle sub (List.mem_of_getElem? here) active
        have activated := kept.activated here
        simp only [active, Bool.false_eq_true, if_false]
        rw [active, Bool.false_or] at enters
        split
        · exact activated.failed propertySet
        next complete =>
          have node : alloc.node = true := by
            simp only [Bool.or_eq_true, Bool.not_eq_true', not_or, Bool.not_eq_false] at complete
            simpa [complete.1, complete.2.1, complete.2.2] using enters
          rw [if_pos node]
          exact kept.started here empty deviceHandle udn servId propertySet now
    · simp only [none]
      exact left.failed propertySet

end Lookups

section Loop
variable {call : Nat} {held : List NotifyThreadStruct} {heap : Heap}

theorem maybeDiscardEvents_accounted (eqMaxLen eqMaxAge now : Int) (queue : List Node) (heap : Heap)
    (accounted : Accounted (some call) (owned queue ++ held) heap)
    (others : ∀ input ∈ owned queue, input.event ≠ call) :
    Accounted (some call) (owned (maybeDiscardEvents eqMaxLen eqMaxAge now queue heap).1 ++ held)
        (maybeDiscardEvents eqMaxLen eqMaxAge now queue heap).2 ∧
      ∀ input ∈ owned (maybeDiscardEvents eqMaxLen eqMaxAge now queue heap).1, input.event ≠ call := by
  induction queue, heap using maybeDiscardEvents.induct eqMaxLen eqMaxAge now with
  | case1 head second rest heap discard ih =>
    rw [maybeDiscardEvents, if_pos discard]
    have moved : (owned (head :: second :: rest)).Perm (second.job.arg :: owned (head :: rest)) := by
      simp only [owned, List.map_cons]
      exact List.perm_middle
    have other := others second.job.arg (moved.mem_iff.mpr List.mem_cons_self)
    refine ih ?_ fun input member => others input (moved.mem_iff.mpr (List.mem_cons_of_mem _ member))
    exact (accounted.perm (moved.append_right held)).free fun same => other (Option.some.inj same).symm
  | case2 head second rest heap keep =>
    rw [maybeDiscardEvents, if_neg keep]
    exact ⟨accounted, others⟩
  | case3 queue heap short =>
    rw [maybeDiscardEvents.eq_2 _ _ _ _ _ short]
    exact ⟨accounted, others⟩

theorem owned_append (queue : List Node) (node : Node) :
    owned (queue ++ [node]) = owned queue ++ if queue.isEmpty && !node.refused then [] else [node.job.arg] := by
  cases queue with
  | nil => cases refused : node.refused <;> simp [owned, refused]
  | cons head rest => simp [owned]

theorem keptLength_eq (s : State) (now : Int) (sub : Sub) (heap : Heap) :
    (maybeDiscardEvents s.eqMaxLen s.eqMaxAge now sub.outgoing heap).1.length = keptLength s now sub := by
  rw [keptLength, ← maybeDiscardEvents_jobs _ _ _ _ heap, List.length_map]

theorem perm_pooled (kept pool held rest : List NotifyThreadStruct) (input : NotifyThreadStruct) :
    (kept ++ (input :: (pool ++ (held ++ rest)))).Perm ((pool ++ [input]) ++ ((held ++ kept) ++ rest)) := by
  rw [List.perm_iff_count]
  intro struct
  simp only [List.count_append, List.count_cons, List.count_nil]
  omega

theorem perm_queued (kept pool held rest : List NotifyThreadStruct) (input : NotifyThreadStruct) :
    (kept ++ (input :: (pool ++ (held ++ rest)))).Perm (pool ++ (held ++ ((kept ++ [input]) ++ rest))) := by
  rw [List.perm_iff_count]
  intro struct
  simp only [List.count_append, List.count_cons, List.count_nil]
  omega

theorem notifySubscriptions_accounted (s : State) (service : Nat) {make : Nat → NotifyThreadStruct}
    (named : ∀ sid, (make sid).event = call) (now : Int) (outcome : Nat → Round) (subs : List Sub)
    (pool : List NotifyThreadStruct) (heap : Heap)
    (accounted : Accounted (some call) (pool ++ (held ++ subs.flatMap fun sub => owned sub.outgoing)) heap)
    (others : ∀ sub ∈ subs, ∀ input ∈ owned sub.outgoing, input.event ≠ call)
    (safe : loopSafe s service now outcome subs = true) :
    let out := notifySubscriptions s service make now outcome subs pool heap
    Accounted (some call) (out.pool ++ (held ++ out.subs.flatMap fun sub => owned sub.outgoing)) out.heap := by
  induction subs generalizing pool heap held with
  | nil => exact accounted
  | cons sub rest ih =>
    rw [List.forall_mem_cons] at others
    obtain ⟨own, others⟩ := others
    have goOn : ∀ (passed : List Sub) pool heap, loopSafe s service now outcome rest = true →
        Accounted (some call) (pool ++ ((held ++ passed.flatMap fun sub => owned sub.outgoing) ++
          rest.flatMap fun sub => owned sub.outgoing)) heap →
        let out := notifySubscriptions s service make now outcome rest pool heap
        Accounted (some call) (out.pool ++ (held ++ (passed ++ out.subs).flatMap fun sub => owned sub.outgoing))
          out.heap := by
      intro passed pool heap safe accounted
      have later := ih pool heap accounted others safe
      simp only
      rwa [List.flatMap_append, ← List.append_assoc held]
    rw [List.flatMap_cons] at accounted
    simp only
    rw [notifySubscriptions]
    rw [loopSafe] at safe
    by_cases elsewhere : sub.service ≠ service
    · rw [if_pos elsewhere] at safe ⊢
      refine goOn [sub] pool heap safe ?_
      rwa [List.flatMap_singleton, List.append_assoc]
    rw [if_neg elsewhere] at safe ⊢
    by_cases expired : sub.expired now = true
    · rw [if_pos expired] at safe ⊢
      simp only [Bool.and_eq_true, Bool.not_eq_true'] at safe
      refine goOn [] pool _ safe.2 ?_
      have split := accounted.perm (perm_third _ _ _ _)
      rw [owned_taken safe.1] at split own
      rw [List.flatMap_nil, List.append_nil]
      exact split.freeStructs fun input member same => own input member (Option.some.inj same).symm
    rw [if_neg expired] at safe ⊢
    cases active : sub.active with
    | false =>
      simp only [active, Bool.not_false, if_true] at safe ⊢
      refine goOn [sub] pool heap safe ?_
      rwa [List.flatMap_singleton, List.append_assoc]
    | true =>
      simp only [active, Bool.not_true, Bool.false_eq_true, if_false] at safe ⊢
      cases made : (outcome sub.sid).threadStruct with
      | false =>
        simp only [Bool.not_false, if_true]
        rwa [List.flatMap_cons]
      | true =>
        simp only [made, Bool.not_true, Bool.false_eq_true, if_false, Bool.and_eq_true] at safe ⊢
        obtain ⟨job, safe⟩ := safe
        simp only [job, Bool.not_true, Bool.false_eq_true, if_false]
        have event := named sub.sid
        generalize make sub.sid = input at event ⊢
        subst event
        have split := accounted.made.perm ((perm_third _ _ _ _).cons input)
        obtain ⟨pruned, -⟩ := maybeDiscardEvents_accounted s.eqMaxLen s.eqMaxAge now sub.outgoing _
          (split.perm List.perm_middle.symm) own
        have length := keptLength_eq s now sub (makeStruct input heap)
        generalize maybeDiscardEvents s.eqMaxLen s.eqMaxAge now sub.outgoing (makeStruct input heap) = left
          at pruned length ⊢
        obtain ⟨kept, heap⟩ := left
        simp only at pruned length ⊢
        rw [← length] at safe
        cases node : (outcome sub.sid).node with
        | true =>
          simp only [node, if_true, Bool.or_eq_true, Bool.and_eq_true, decide_eq_true_eq,
            List.length_append, List.length_singleton] at safe ⊢
          by_cases starts : kept.length + 1 = 1
          · rw [if_pos starts]
            obtain rfl := List.eq_nil_of_length_eq_zero (Nat.succ.inj starts)
            cases accepted : (outcome sub.sid).accepted with
            | true =>
              rw [accepted] at safe
              simp only [if_true]
              refine goOn [{ sub with outgoing := [⟨⟨input, true⟩, false⟩] }] (pool ++ [input]) heap
                (by simpa using safe) ?_
              exact pruned.perm (perm_pooled _ _ _ _ _)
            | false =>
              simp only [Bool.false_eq_true, if_false]
              exact pruned.perm (perm_queued _ _ _ _ _)
          · rw [if_neg starts]
            refine goOn [{ sub with outgoing := kept ++ [⟨⟨input, false⟩, false⟩] }] pool heap ?_ ?_
            · exact safe.resolve_left fun refused => starts (by omega)
            · have filled : kept.isEmpty = false := by
                rw [List.isEmpty_eq_false_iff]
                rintro rfl
                exact starts rfl
              rw [List.flatMap_singleton, owned_append, filled]
              rw [List.append_assoc held]
              exact pruned.perm (perm_queued _ _ _ _ _)
        | false =>
          simp only [node, Bool.false_eq_true, if_false, Bool.and_eq_true, decide_eq_true_eq] at safe ⊢
          obtain ⟨one, accepted, safe⟩ := safe
          rw [if_pos one, if_pos accepted]
          refine goOn [{ sub with outgoing := kept }] (pool ++ [input]) heap safe ?_
          rw [List.flatMap_singleton]
          exact pruned.perm (perm_pooled _ _ _ _ _)

theorem notifySubscriptions_inactive (s : State) (service : Nat) (make : Nat → NotifyThreadStruct) (now : Int)
    (outcome : Nat → Round) (subs : List Sub) (pool : List NotifyThreadStruct) (heap : Heap) :
    ∀ sub ∈ (notifySubscriptions s service make now outcome subs pool heap).subs, sub.active = false → sub ∈ subs := by
  induction subs generalizing pool heap with
  | nil => exact fun sub member _ => member
  | cons sub rest ih =>
    have goOn : ∀ (passed : List Sub) pool heap, (∀ other ∈ passed, other.active = false → other = sub) →
        ∀ other ∈ passed ++ (notifySubscriptions s service make now outcome rest pool heap).subs,
          other.active = false → other ∈ sub :: rest := by
      intro passed pool heap own other member inactive
      obtain here | later := List.mem_append.mp member
      · exact own other here inactive ▸ List.mem_cons_self
      · exact List.mem_cons_of_mem _ (ih pool heap other later inactive)
    have busy : ∀ outgoing, sub.active = true → ∀ other ∈ [{ sub with outgoing := outgoing }],
        other.active = false → other = sub := by
      intro outgoing active other member inactive
      rw [List.mem_singleton.mp member] at inactive
      exact absurd active (by simpa using inactive)
    have ends : ∀ outgoing, sub.active = true → ∀ other ∈ { sub with outgoing := outgoing } :: rest,
        other.active = false → other ∈ sub :: rest := by
      intro outgoing active other member inactive
      obtain rfl | later := List.mem_cons.mp member
      · exact absurd active (by simpa using inactive)
      · exact List.mem_cons_of_mem _ later
    have same : ∀ other ∈ [sub], other.active = false → other = sub :=
      fun other member _ => List.mem_singleton.mp member
    rw [notifySubscriptions]
    split
    · exact goOn [sub] pool heap same
    split
    · exact goOn [] pool _ (by simp)
    split
    · exact goOn [sub] pool heap same
    next active =>
      have active : sub.active = true := by simpa using active
      split
      · exact fun other member _ => member
      simp only
      split
      · exact ends _ active
      repeat' split
      all_goals first
        | exact goOn _ _ _ (busy _ active)
        | exact ends _ active

end Loop

section Steps
variable {s s' : State}

theorem genaNotifyAll_kept (kept : Kept s) (alloc : CallAllocations) (service : Option Nat) (deviceHandle : Int)
    (udn servId propertySet : List UInt8) (now : Int) (outcome : Nat → Round)
    (safe : sound (.notifyAll alloc service deviceHandle udn servId propertySet now outcome) s = true) :
    Kept (genaNotifyAll alloc service deviceHandle udn servId propertySet now outcome s) := by
  simp only [sound, Bool.and_eq_true, Bool.or_eq_true, Bool.not_eq_true'] at safe
  obtain ⟨counted, safe⟩ := safe
  have opened := kept.accounted.opened propertySet
  have alone : Kept { s with heap := closeCall s.heap.calls.length (openCall propertySet s.heap) } :=
    ⟨opened.closed, kept.idle⟩
  unfold genaNotifyAll
  simp only [counted, Bool.not_true, Bool.false_eq_true, if_false]
  cases service with
  | none => exact alone
  | some service =>
    cases buffers : alloc.buffers with
    | false =>
      simp only [Bool.false_eq_true, if_false]
      exact alone
    | true =>
      simp only [if_true]
      have others : ∀ sub ∈ s.subs, ∀ input ∈ owned sub.outgoing, input.event ≠ s.heap.calls.length := by
        intro sub member input inside
        have known := kept.accounted.known input (List.mem_append_right _ (List.mem_append_right _
          (List.mem_flatMap.mpr ⟨sub, member, inside⟩)))
        exact Nat.ne_of_lt known
      have safe : loopSafe s service now outcome s.subs = true := by
        simpa [buffers] using safe
      let make : Nat → NotifyThreadStruct := fun sid =>
        ⟨s.heap.calls.length, propertySet, servId, udn, sid, now, deviceHandle⟩
      have named : ∀ sid, (make sid).event = s.heap.calls.length := fun _ => rfl
      have counted := notifySubscriptions_accounted s service named now outcome s.subs s.pool _ opened others safe
      refine ⟨counted.closed, ?_⟩
      intro sub member inactive
      exact kept.idle sub (notifySubscriptions_inactive s service _ now outcome s.subs s.pool _ sub member inactive)
        inactive

theorem step_kept (label : Label) (s t : State) (safe : sound label s = true) (stepped : step label s = some t)
    (kept : Kept s) : Kept t := by
  cases label with
  | subscribe service expireTime =>
    obtain rfl := Option.some.inj stepped
    refine ⟨kept.accounted, ?_⟩
    rw [List.forall_mem_cons]
    exact ⟨fun _ => rfl, kept.idle⟩
  | removeSubscription sid =>
    obtain rfl := Option.some.inj stepped
    exact removeSubscriptionSID_kept kept safe
  | initNotify alloc deviceHandle udn servId propertySet sid now =>
    obtain ⟨-, same⟩ := Option.ite_none_left_eq_some.mp stepped
    obtain rfl := Option.some.inj same
    exact genaInitNotify_kept kept alloc deviceHandle udn servId propertySet safe
  | notifyAll alloc service deviceHandle udn servId propertySet now outcome =>
    obtain ⟨-, same⟩ := Option.ite_none_left_eq_some.mp stepped
    obtain rfl := Option.some.inj same
    exact genaNotifyAll_kept kept alloc service deviceHandle udn servId propertySet now outcome safe
  | takeJob k =>
    obtain ⟨input, here, rfl⟩ := Option.map_eq_some_iff.mp stepped
    exact takeJob_kept kept here
  | advance k now copied remove accepted =>
    obtain ⟨worker, here, rfl⟩ := Option.map_eq_some_iff.mp stepped
    simp only [sound, here, Option.all_some, Bool.and_eq_true, Bool.or_eq_true, Bool.not_eq_true'] at safe
    obtain ⟨looks, ends⟩ := safe
    split
    next sending =>
      rw [sending] at ends
      exact notifyFinish_kept kept here looks (by simpa using ends)
    next => exact notifyBegin_kept kept here looks copied
  | shutdown =>
    obtain rfl := Option.some.inj stepped
    exact shutdown_kept kept
  | shutdownEnds =>
    obtain ⟨-, same⟩ := Option.ite_none_right_eq_some.mp stepped
    obtain rfl := Option.some.inj same
    refine ⟨kept.accounted.perm ?_, kept.idle⟩
    have empty : s.pool = [] := by simpa [sound] using safe
    rw [State.held, empty]
    exact List.Perm.refl _

end Steps

theorem Kept.balanced {s : State} (kept : Kept s) : Balanced s := by
  obtain ⟨counts, owners, -, -⟩ := kept.accounted
  refine ⟨?_, owners⟩
  intro call block found
  rw [(owners.map _).count_eq]
  obtain ⟨count, frees⟩ := counts call block found
  refine ⟨count, frees.trans ?_⟩
  simp

theorem initial_kept (eqMaxLen eqMaxAge : Int) : Kept (initial eqMaxLen eqMaxAge) := by
  refine ⟨⟨?_, List.Perm.refl _, ?_, ?_⟩, ?_⟩
  · intro call block found
    simp [initial] at found
  · simp [State.held, initial]
  · simp
  · simp [initial]

/-- In a run of sound steps every struct is counted, has one owner, and what the structs of a call share is freed
once, with the last of them. -/
theorem run_balanced (eqMaxLen eqMaxAge : Int) (labels : List Label) (s : State)
    (safe : Along step (sound · · = true) labels (initial eqMaxLen eqMaxAge))
    (ran : run step labels (initial eqMaxLen eqMaxAge) = some s) : Balanced s :=
  (run_keeps step_kept (initial_kept eqMaxLen eqMaxAge) safe ran).balanced

def taken : Round := ⟨true, true, true, true⟩

def startedRun : List Label :=
  [.subscribe 0 0, .initNotify ⟨true, true, true, true, true⟩ 1 [85] [83] [73] 0 0, .takeJob 0,
    .advance 0 0 true false true, .advance 0 0 true false true]

/-- Two events for two subscribers, of whom one leaves; the pool shuts down with the rest. -/
def sharedRun : List Label :=
  startedRun ++ [.subscribe 0 0, .initNotify ⟨true, true, true, true, true⟩ 1 [85] [83] [73] 1 0,
    .notifyAll ⟨true, true⟩ (some 0) 1 [85] [83] [65] 0 fun _ => taken,
    .notifyAll ⟨true, true⟩ (some 0) 1 [85] [83] [66] 0 fun _ => taken, .removeSubscription 1, .shutdown, .shutdownEnds]

theorem run_balanced_shared :
    ∃ s, run step sharedRun (initial 10 30) = some s ∧ s.heap.calls.map (fun call => (call.ct, call.frees)) =
      [(0, 1), (0, 1), (0, 1), (1, 0)] ∧ Balanced s := by
  have ends : (run step sharedRun (initial 10 30)).map
      (fun s => s.heap.calls.map fun call => (call.ct, call.frees)) = some [(0, 1), (0, 1), (0, 1), (1, 0)] := by
    decide +kernel
  obtain ⟨s, ran, counts⟩ := Option.map_eq_some_iff.mp ends
  exact ⟨s, ran, counts, run_balanced 10 30 sharedRun s (by decide +kernel) ran⟩

/-- A struct whose job the pool refuses is nobody's when the subscription goes. -/
theorem run_leaks :
    ¬∀ (eqMaxLen eqMaxAge : Int) (labels : List Label) (s : State),
      run step labels (initial eqMaxLen eqMaxAge) = some s → Balanced s := by
  intro claim
  let labels := startedRun ++ [.notifyAll ⟨true, true⟩ (some 0) 1 [85] [83] [65] 0 fun _ => ⟨true, true, true, false⟩,
    .removeSubscription 0]
  have ends : (run step labels (initial 10 30)).map (fun s => (s.heap.live.length, s.held.length)) = some (1, 0) := by
    decide +kernel
  obtain ⟨s, ran, lengths⟩ := Option.map_eq_some_iff.mp ends
  obtain ⟨live, held⟩ := Prod.mk.inj lengths
  have same := (claim 10 30 labels s ran).owners.length_eq
  rw [live, held] at same
  contradiction

/-! A struct whose job finds no memory leaves its reference behind. -/

example :
    (run step (startedRun ++ [.notifyAll ⟨true, true⟩ (some 0) 1 [85] [83] [65] 0 fun _ => ⟨true, false, true, true⟩])
      (initial 10 30)).map (fun s => (s.heap.live, s.heap.calls.map fun call => (call.ct, call.frees))) =
      some ([], [(0, 1), (1, 0)]) := by
  decide +kernel

end Pupnp.Gena.Memory
