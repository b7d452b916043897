import Pupnp.Gena.Delivery

/-!
One subscription seen by itself: its record, its jobs waiting in `gSendThreadPool` and the workers
that are busy with it. A step of the device is one of ten things for a subscription.
-/

namespace Pupnp.Gena
open Pupnp.ThreadPool Pupnp.Run

/-- The subscriptions of a list with this id. -/
def named (sid : Nat) (subs : List Subscription) : List Subscription := subs.filter (·.sid = sid)

structure Lane where
  subs : List Subscription
  waiting : List NotifyThreadStruct
  workers : List Worker

def State.lane (sid : Nat) (s : State) : Lane :=
  { subs := named sid (s.services.flatMap (·.subscriptionList))
    waiting := mirrors sid (poolInputs s.gSendThreadPool)
    workers := s.workers.filter (·.input.sid = sid) }

def Subscription.core (sub : Subscription) : Int × Bool × List OutgoingJob :=
  (sub.toSendEventKey, sub.active, sub.outgoing)

def Quieted (before after : List Subscription) : Prop :=
  after = [] ∨ after.map Subscription.core = before.map Subscription.core

theorem Quieted.of_eq {before after : List Subscription} (same : after = before) : Quieted before after :=
  .inr (by rw [same])

theorem Quieted.empty {after : List Subscription} (quieted : Quieted [] after) : after = [] := by
  obtain gone | same := quieted
  · exact gone
  · exact List.map_eq_nil_iff.mp same

theorem Quieted.length_le {before after : List Subscription} (quieted : Quieted before after) :
    after.length ≤ before.length := by
  obtain gone | same := quieted
  · rw [gone]
    exact Nat.zero_le _
  · have lengths := congrArg List.length same
    rw [List.length_map, List.length_map] at lengths
    exact Nat.le_of_eq lengths

theorem Quieted.trans {first second third : List Subscription} (quieted : Quieted first second)
    (later : Quieted second third) : Quieted first third := by
  obtain gone | same := later
  · exact .inl gone
  · obtain rfl | same' := quieted
    · exact .inl (List.map_eq_nil_iff.mp same)
    · exact .inr (same.trans same')

/-! ### A service table -/

def sends : Label → State → Option (NotifyThreadStruct × Int)
  | .advance k now _, s =>
      match s.workers[k]? with
      | some ⟨input, .called⟩ => (s.context now input).1.map fun found => (input, found.2.toSendEventKey)
      | _ => none
  | _, _ => none

def activates (deviceHandle : Int) (udn servId : List UInt8) (sid : Nat) (now : Int) (s : State) : Bool :=
  ((s.findServiceId deviceHandle servId udn).bind (s.services[·]?)).any fun service =>
    (getSubscriptionSID sid now service).1.any fun sub => !sub.active

/-- There is room in the pool for an initial event. -/
def initFits : Label → State → Bool
  | .initNotify deviceHandle udn servId _ sid now, s =>
      !activates deviceHandle udn servId sid now s ||
        s.gSendThreadPool.totalJobs < s.gSendThreadPool.attr.maxJobsTotal
  | _, _ => true

def Label.isInit : Label → Bool
  | .initNotify .. => true
  | _ => false

inductive LaneStep (label : Label) (sid : Nat) (s t : State) : Prop
  | quiet (subs : Quieted (s.lane sid).subs (t.lane sid).subs)
      (waiting : (t.lane sid).waiting.Perm (s.lane sid).waiting)
      (workers : (t.lane sid).workers.Perm (s.lane sid).workers)
      (sent : ∀ message ∈ sends label s, message.1.sid ≠ sid)
  | created (fresh : sid = s.nextSid) (next : t.nextSid = s.nextSid + 1) (expireTime : Int)
      (subs : (t.lane sid).subs.Perm (⟨sid, 0, expireTime, false, []⟩ :: (s.lane sid).subs))
      (waiting : (t.lane sid).waiting = (s.lane sid).waiting) (workers : (t.lane sid).workers = (s.lane sid).workers)
      (sent : sends label s = none)
  | activated (initial : label.isInit = true) (sub : Subscription) (before : (s.lane sid).subs = [sub]) (inactive : sub.active = false)
      (arg : NotifyThreadStruct) (event : arg.event = s.nextEvent) (next : t.nextEvent = s.nextEvent + 1)
      (named : arg.sid = sid)
      (subs : (t.lane sid).subs = [{ sub with active := true, outgoing := sub.outgoing ++ [⟨arg, true⟩] }])
      (waiting : (t.lane sid).waiting.Perm (arg :: (s.lane sid).waiting))
      (workers : (t.lane sid).workers = (s.lane sid).workers) (sent : sends label s = none)
  | refused (full : initFits label s = false)
  | enqueued (sub : Subscription) (before : (s.lane sid).subs = [sub]) (active : sub.active = true)
      (kept : List OutgoingJob) (fewer : kept.Sublist sub.outgoing) (head : kept.take 1 = sub.outgoing.take 1)
      (job : OutgoingJob) (named : job.arg.sid = sid) (recent : s.nextEvent ≤ job.arg.event)
      (known : job.arg.event < t.nextEvent)
      (subs : (t.lane sid).subs = [{ sub with outgoing := kept ++ [job] }])
      (waiting : (t.lane sid).waiting.Perm (s.lane sid).waiting ∨
        kept = [] ∧ (t.lane sid).waiting.Perm (job.arg :: (s.lane sid).waiting))
      (workers : (t.lane sid).workers = (s.lane sid).workers) (sent : sends label s = none)
  | taken (input : NotifyThreadStruct) (subs : (t.lane sid).subs = (s.lane sid).subs)
      (waiting : (s.lane sid).waiting.Perm (input :: (t.lane sid).waiting))
      (workers : (t.lane sid).workers = (s.lane sid).workers ++ [⟨input, .called⟩]) (sent : sends label s = none)
  | began (sub : Subscription) (before : (s.lane sid).subs = [sub]) (subs : (t.lane sid).subs = [sub])
      (input : NotifyThreadStruct) (others : List Worker)
      (called : (s.lane sid).workers.Perm (⟨input, .called⟩ :: others))
      (sending : (t.lane sid).workers.Perm (⟨input, .sending sub.toSendEventKey⟩ :: others))
      (waiting : (t.lane sid).waiting = (s.lane sid).waiting)
      (sent : sends label s = some (input, sub.toSendEventKey))
  | ended (worker : Worker) (subs : Quieted (s.lane sid).subs (t.lane sid).subs)
      (workers : (s.lane sid).workers.Perm (worker :: (t.lane sid).workers))
      (waiting : (t.lane sid).waiting = (s.lane sid).waiting) (sent : sends label s = none)
  | finished (sub : Subscription) (before : (s.lane sid).subs = [sub]) (input : NotifyThreadStruct) (seq : Int)
      (workers : (s.lane sid).workers.Perm (⟨input, .sending seq⟩ :: (t.lane sid).workers))
      (outgoing : List OutgoingJob) (rest : outgoing.map (·.arg) = (sub.outgoing.map (·.arg)).tail)
      (subs : (t.lane sid).subs = [] ∨ (t.lane sid).subs =
        [{ sub with toSendEventKey := nextEventKey sub.toSendEventKey, outgoing := outgoing }])
      (restarted : List NotifyThreadStruct) (behind : restarted.Sublist ((outgoing.map (·.arg)).take 1))
      (waiting : (t.lane sid).waiting.Perm (restarted ++ (s.lane sid).waiting)) (sent : sends label s = none)

/-! ### The requests of a control point -/

/-- What the loop of `genaNotifyAllCommon` is for a subscription. -/
inductive Fanned (sid nextEvent : Nat) (subs : List Subscription) (p : Pool SendJob) (out : Fanout) : Prop
  | passed (subs : Quieted (named sid subs) (named sid out.subscriptions))
      (waiting : (mirrors sid (poolInputs out.pool)).Perm (mirrors sid (poolInputs p)))
  | reached (sub : Subscription) (before : named sid subs = [sub]) (active : sub.active = true)
      (kept : List OutgoingJob) (fewer : kept.Sublist sub.outgoing) (head : kept.take 1 = sub.outgoing.take 1)
      (job : OutgoingJob) (own : job.arg.sid = sid) (recent : nextEvent ≤ job.arg.event)
      (known : job.arg.event < out.nextEvent)
      (after : named sid out.subscriptions = [{ sub with outgoing := kept ++ [job] }])
      (waiting : (mirrors sid (poolInputs out.pool)).Perm (mirrors sid (poolInputs p)) ∨
        kept = [] ∧ (mirrors sid (poolInputs out.pool)).Perm (job.arg :: mirrors sid (poolInputs p)))

theorem named_cons_of_ne {sid : Nat} {sub : Subscription} (other : sub.sid ≠ sid) (subs : List Subscription) :
    named sid (sub :: subs) = named sid subs := by
  simp [named, other]

section Fanout
variable {sid nextEvent later : Nat} {sub sub' : Subscription} {rest : List Subscription} {p p' : Pool SendJob}
  {out : Fanout}

theorem Fanned.other (fanned : Fanned sid later rest p' out) (differ : sub.sid ≠ sid) (order : nextEvent ≤ later)
    (waiting : (mirrors sid (poolInputs p')).Perm (mirrors sid (poolInputs p))) {subs' : List Subscription}
    (kept : named sid subs' = named sid out.subscriptions) :
    Fanned sid nextEvent (sub :: rest) p { out with subscriptions := subs' } := by
  cases fanned with
  | passed subs same =>
    refine .passed ?_ (same.trans waiting)
    rw [named_cons_of_ne differ, kept]
    exact subs
  | reached found before active queue fewer head job own recent known after added =>
    refine .reached found ?_ active queue fewer head job own (Nat.le_trans order recent) known (kept.trans after) ?_
    · rw [named_cons_of_ne differ]
      exact before
    · exact added.imp (·.trans waiting) fun ⟨empty, more⟩ => ⟨empty, more.trans (waiting.cons job.arg)⟩

theorem Fanned.absent (fanned : Fanned sid later rest p' out) (none : named sid rest = []) :
    named sid out.subscriptions = [] ∧ (mirrors sid (poolInputs out.pool)).Perm (mirrors sid (poolInputs p')) := by
  cases fanned with
  | passed subs waiting =>
    rw [none] at subs
    exact ⟨subs.empty, waiting⟩
  | reached found before =>
    rw [none] at before
    contradiction

end Fanout

def Later (s t : State) : Prop := s.nextSid ≤ t.nextSid ∧ s.nextEvent ≤ t.nextEvent

theorem Later.of_same {s t : State} (sids : t.nextSid = s.nextSid) (events : t.nextEvent = s.nextEvent) : Later s t :=
  ⟨Nat.le_of_eq sids.symm, Nat.le_of_eq events.symm⟩

end Pupnp.Gena
