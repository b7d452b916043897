import Mathlib.Data.Nat.Init
import Mathlib.Tactic.IntervalCases
import Mathlib.Tactic.SplitIfs

/-!
`do_bind_listen` with its two loops, over any sequence of results of `bind` and `listen`. One step is one call
of the system; the port that is tried next is kept as the 16-bit number it is.
-/

namespace Pupnp.MiniServer.BindListen

def UPNP_E_SUCCESS : Int := 0
def UPNP_E_SOCKET_BIND : Int := -203
def UPNP_E_LISTEN : Int := -206
def UPNP_E_INTERNAL_ERROR : Int := -911

def EADDRINUSE : Int := 98

/-- How `do_listen` fails, each time with the `errno` it leaves. -/
inductive ListenError where
  | listen (errno : Int)
  | getPort (errno : Int)
  deriving DecidableEq, Repr

def ListenError.errno : ListenError → Int
  | .listen errno => errno
  | .getPort errno => errno

def ListenError.ret : ListenError → Int
  | .listen _ => UPNP_E_LISTEN
  | .getPort _ => UPNP_E_INTERNAL_ERROR

/-- What the next call returns: the `errno` of a `bind` that fails, or the error of `do_listen`. -/
structure Outcome where
  bind : Option Int
  listen : Option ListenError
  deriving DecidableEq, Repr

inductive Stage where
  /-- In the loop of `do_bind`, with its `original_listen_port`. -/
  | bind (originalListenPort : UInt16)
  | listen
  | returned (ret : Int)
  deriving DecidableEq, Repr

structure Attempt where
  originalPort : UInt16
  tryPort : UInt16
  /-- The port of the last `bind` that succeeded. -/
  port : UInt16
  stage : Stage
  deriving DecidableEq, Repr

def doBindListen (tryPort : UInt16) : Attempt := ⟨tryPort, tryPort, 0, .bind tryPort⟩

def bindStep (s : Attempt) (originalListenPort : UInt16) (result : Option Int) : Attempt :=
  let tryPort := s.tryPort + 1
  match result with
  | none => { s with tryPort := tryPort, port := s.tryPort, stage := .listen }
  | some errno =>
      let errCode := if errno = EADDRINUSE then 1 else errno
      if errCode ≠ 0 && originalListenPort ≤ tryPort then
        { s with tryPort := tryPort, stage := .bind originalListenPort }
      else { s with tryPort := tryPort, stage := .returned UPNP_E_SOCKET_BIND }

/-- One `do_listen`, and what the outer loop does with its result. -/
def listenStep (s : Attempt) (result : Option ListenError) : Attempt :=
  match result with
  | none =>
      if s.originalPort ≤ s.tryPort then { s with stage := .returned UPNP_E_SUCCESS }
      else { s with stage := .bind s.tryPort }
  | some error =>
      if error.errno = EADDRINUSE then
        -- `do_reinit` clears the whole record, with the port to try
        { s with tryPort := 0, stage := .bind 0 }
      else { s with stage := .returned error.ret }

def step (s : Attempt) (outcome : Outcome) : Attempt :=
  match s.stage with
  | .bind originalListenPort => bindStep s originalListenPort outcome.bind
  | .listen => listenStep s outcome.listen
  | .returned _ => s

/-- The call after a number of system calls. -/
def after (outcomes : Nat → Outcome) (s : Attempt) : Nat → Attempt
  | 0 => s
  | n + 1 => step (after outcomes s n) (outcomes n)

/-- The call returns, and where it succeeds the port is one from the requested one on. -/
def Serves (requested : UInt16) (outcomes : Nat → Outcome) : Prop :=
  (∃ n ret, (after outcomes (doBindListen requested) n).stage = .returned ret) ∧
    ∀ n, (after outcomes (doBindListen requested) n).stage = .returned UPNP_E_SUCCESS →
      requested ≤ (after outcomes (doBindListen requested) n).port

/-- No `do_listen` succeeds on the last port, and none fails with `EADDRINUSE`. -/
def Usual (s : Attempt) (outcome : Outcome) : Prop :=
  s.stage = .listen → (outcome.listen = none → s.port ≠ 65535) ∧ ∀ error, outcome.listen = some error → error.errno ≠ EADDRINUSE

def Tried (requested : UInt16) (n : Nat) (s : Attempt) : Prop :=
  s.originalPort = requested ∧
  match s.stage with
  | .bind original => original = requested ∧ s.tryPort.toNat = requested.toNat + n
  | .listen => requested.toNat ≤ s.port.toNat ∧ s.port.toNat + 1 = requested.toNat + n ∧ s.tryPort = s.port + 1
  | .returned ret => ret = UPNP_E_SUCCESS → requested.toNat ≤ s.port.toNat

theorem tried_step {requested : UInt16} {n : Nat} {s : Attempt} {outcome : Outcome} (positive : requested ≠ 0)
    (usual : Usual s outcome) (tried : Tried requested n s) : Tried requested (n + 1) (step s outcome) := by
  obtain ⟨fixed, stage⟩ := tried
  obtain ⟨originalPort, tryPort, port, here⟩ := s
  dsimp only at fixed stage
  have low : requested.toNat ≠ 0 := fun zero => positive (UInt16.toNat_inj.mp zero)
  have bound := requested.toNat_lt
  have next := UInt16.toNat_add tryPort 1
  have small := tryPort.toNat_lt
  rw [UInt16.toNat_one] at next
  subst fixed
  cases here with
  | bind original =>
    obtain ⟨rfl, reached⟩ := stage
    dsimp only [step, bindStep]
    cases outcome.bind with
    | none => exact ⟨rfl, by dsimp only; omega, by dsimp only; omega, rfl⟩
    | some errno =>
      dsimp only
      generalize (if errno = EADDRINUSE then 1 else errno) = errCode
      split_ifs with more
      · rw [Bool.and_eq_true, decide_eq_true_eq, decide_eq_true_eq, UInt16.le_iff_toNat_le] at more
        refine ⟨rfl, rfl, ?_⟩
        dsimp only
        omega
      · exact ⟨rfl, fun success => absurd success (by decide)⟩
  | listen =>
    obtain ⟨from_, count, rfl⟩ := stage
    obtain ⟨notLast, notInUse⟩ := usual rfl
    have after_ := UInt16.toNat_add port 1
    have portSmall := port.toNat_lt
    rw [UInt16.toNat_one] at after_
    dsimp only [step, listenStep]
    cases listened : outcome.listen with
    | none =>
      have other : port.toNat ≠ 65535 := fun last => notLast listened (UInt16.toNat_inj.mp last)
      dsimp only
      rw [if_pos (by rw [UInt16.le_iff_toNat_le]; omega)]
      exact ⟨rfl, fun _ => from_⟩
    | some error =>
      dsimp only
      rw [if_neg (notInUse error listened)]
      refine ⟨rfl, fun success => ?_⟩
      cases error with
      | listen => exact absurd success (show UPNP_E_LISTEN ≠ UPNP_E_SUCCESS by decide)
      | getPort => exact absurd success (show UPNP_E_INTERNAL_ERROR ≠ UPNP_E_SUCCESS by decide)
  | returned ret => exact ⟨rfl, stage⟩

theorem tried_after {requested : UInt16} {outcomes : Nat → Outcome} (positive : requested ≠ 0)
    (usual : ∀ n, Usual (after outcomes (doBindListen requested) n) (outcomes n)) (n : Nat) :
    Tried requested n (after outcomes (doBindListen requested) n) := by
  induction n with
  | zero => exact ⟨rfl, rfl, rfl⟩
  | succ n ih => exact tried_step positive (usual n) ih

/-- A call without these two events comes to an end, and succeeds on a port in the range only. -/
theorem doBindListen_serves {requested : UInt16} {outcomes : Nat → Outcome} (positive : requested ≠ 0)
    (usual : ∀ n, Usual (after outcomes (doBindListen requested) n) (outcomes n)) : Serves requested outcomes := by
  constructor
  · obtain ⟨n, enough⟩ : ∃ n, 65536 ≤ n := ⟨_, Nat.le_refl _⟩
    refine ⟨n, ?_⟩
    obtain ⟨-, stage⟩ := tried_after positive usual n
    have low : requested.toNat ≠ 0 := fun zero => positive (UInt16.toNat_inj.mp zero)
    generalize after outcomes (doBindListen requested) n = s at stage ⊢
    cases here : s.stage with
    | bind original =>
        rw [here] at stage
        have small := s.tryPort.toNat_lt
        obtain ⟨-, reached⟩ := stage
        omega
    | listen =>
        rw [here] at stage
        have small := s.port.toNat_lt
        obtain ⟨-, count, -⟩ := stage
        omega
    | returned ret => exact ⟨ret, rfl⟩
  · intro n success
    obtain ⟨-, stage⟩ := tried_after positive usual n
    rw [success] at stage
    rw [UInt16.le_iff_toNat_le]
    exact stage rfl

theorem after_add (outcomes : Nat → Outcome) (s : Attempt) (m n : Nat) :
    after outcomes s (m + n) = after (fun k => outcomes (m + k)) (after outcomes s m) n := by
  induction n with
  | zero => rfl
  | succ n ih => rw [← Nat.add_assoc, after, after, ih]

theorem after_returned {outcomes : Nat → Outcome} {s : Attempt} {ret : Int} (done : s.stage = .returned ret) (n : Nat) :
    after outcomes s n = s := by
  induction n with
  | zero => rfl
  | succ n ih => rw [after, ih, step, done]

/-- Two ports in use, and the third one free. -/
theorem doBindListen_serves_third : Serves 49152 fun n => if n < 2 then ⟨some EADDRINUSE, none⟩ else ⟨none, none⟩ := by
  apply doBindListen_serves (by decide)
  intro n
  rcases Nat.lt_or_ge n 4 with early | late
  · intro listening
    have third : n = 3 := by
      interval_cases n
      · cases listening
      · cases listening
      · cases listening
      · rfl
    subst third
    exact ⟨fun _ => by decide, fun error none => by cases none⟩
  · obtain ⟨k, rfl⟩ := Nat.exists_eq_add_of_le late
    rw [after_add, @after_returned _ _ UPNP_E_SUCCESS (by decide)]
    intro listening
    cases listening

theorem spins {outcomes : Nat → Outcome} {s : Attempt} (stage : s.stage = .bind 0)
    (fails : ∀ n, (outcomes n).bind = some 22) (n : Nat) : (after outcomes s n).stage = .bind 0 := by
  induction n with
  | zero => exact stage
  | succ n ih =>
    have zero (port : UInt16) : (0 : UInt16) ≤ port := by
      rw [UInt16.le_iff_toNat_le]
      exact Nat.zero_le _
    rw [after, step, ih]
    dsimp only [bindStep]
    rw [fails n]
    simp [EADDRINUSE, zero]

/-- Port 65535 is bound and listened on, and yet the loop goes on. -/
theorem doBindListen_spins : ¬ ∀ (requested : UInt16) (outcomes : Nat → Outcome), requested ≠ 0 →
    Serves requested outcomes := by
  intro claim
  obtain ⟨⟨n, ret, returned⟩, -⟩ := claim 65535 (fun n => ⟨if n = 0 then none else some 22, none⟩) (by decide)
  rcases Nat.lt_or_ge n 2 with early | late
  · interval_cases n
    · cases returned
    · cases returned
  · obtain ⟨k, rfl⟩ := Nat.exists_eq_add_of_le late
    rw [after_add, spins (by decide) (fun n => if_neg (by omega))] at returned
    cases returned

end Pupnp.MiniServer.BindListen
