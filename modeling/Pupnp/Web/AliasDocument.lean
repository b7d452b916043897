import Mathlib.Data.List.Perm.Basic
import Pupnp.Library.CString
import Pupnp.Library.RefCount
import Pupnp.Library.Run

/-!
The alias document of the web server. `gAliasDoc` and the copies that requests grab share the buffers
and the counter of a document; each part that `gWebMutex` guards is one step, and so is each part
between two of them.
-/

namespace Pupnp.Web.AliasDocument
open Pupnp.CString Pupnp.RefCount Pupnp.Run

/-- What the buffers `name` and `doc` of an alias document hold. -/
structure Document where
  name : List UInt8
  doc : List UInt8
  deriving DecidableEq, Repr

/-- `struct xml_alias_t`, a document standing for the address of its buffers and of its counter; `none`
is `NULL`. The buffers are only ever allocated and freed together. -/
structure XmlAlias where
  buf : Option Nat
  ct : Option Nat
  lastModified : Int
  deriving DecidableEq, Repr

/-- What `glob_alias_init` and `web_server_destroy` leave. -/
def XmlAlias.empty : XmlAlias := ⟨none, none, 0⟩

/-- The arguments of a call of `web_server_set_alias` with a document. -/
structure Settings where
  aliasName : List UInt8
  aliasContent : List UInt8
  lastModified : Int
  deriving DecidableEq, Repr

inductive Fault where
  | assertion
  | null
  | freed (d : Nat)
  deriving DecidableEq, Repr

structure State where
  gAliasDoc : XmlAlias
  /-- The documents made so far, by number. -/
  documents : List (Block Document)
  /-- Whether `gAliasDoc` still has the reference that its document came with: set with a document and
  given up by the next call. The code keeps no such mark. -/
  installed : Bool
  /-- The calls of `web_server_set_alias` with a document that have released the one before. -/
  setting : List Settings
  /-- The calls of `web_server_destroy` that have. -/
  destroying : Nat
  /-- The requests that have found the alias valid and not grabbed it yet. -/
  checked : Nat
  /-- The copies that requests have grabbed. -/
  grabbed : List XmlAlias
  faults : List Fault
  deriving DecidableEq, Repr

def State.initial : State := ⟨.empty, [], false, [], 0, 0, [], []⟩

def isValidAlias (a : XmlAlias) : Bool := a.buf.isSome

def State.check (good : Bool) (fault : Fault) (s : State) : State :=
  if good then s else { s with faults := fault :: s.faults }

def State.use (d : Nat) (s : State) : State := s.check (!freed d s.documents) (.freed d)

def aliasGrab (s : State) : XmlAlias × State :=
  let s := s.check (isValidAlias s.gAliasDoc) .assertion
  match s.gAliasDoc.ct with
  | none => (s.gAliasDoc, s.check false .null)
  | some d =>
      let s := s.use d
      (s.gAliasDoc, { s with documents := retain d s.documents })

def aliasRelease (a : XmlAlias) (s : State) : XmlAlias × State :=
  if !isValidAlias a then (a, s)
  else match a.ct with
    | none => (a, s.check false .null)
    | some d =>
        let s := (s.use d).check (0 < count d s.documents) .assertion
        let s := { s with documents := release d s.documents }
        (if count d s.documents ≤ 0 then { a with buf := none } else a, s)

/-- The steps of the calls and of the requests; the numbers pick one of those under way. -/
inductive Step where
  /-- The first part of `web_server_set_alias`, with a document or with `NULL`. -/
  | setRelease (settings : Option Settings)
  | setPublish (i : Nat)
  /-- The memory for the name or the counter runs out. -/
  | setFail (i : Nat)
  /-- The two parts of `web_server_destroy`. -/
  | destroyRelease
  | destroyClear
  /-- A request looks whether the alias is valid, without the lock. -/
  | check
  | grab
  /-- `get_alias` or `http_SendMessage` reads from a copy. -/
  | read (i : Nat)
  | release (i : Nat)
  deriving DecidableEq, Repr

def slashed (aliasName : List UInt8) : List UInt8 :=
  if aliasName.head? = some 47 then aliasName else 47 :: aliasName

/-- The alias document is released, as `web_server_set_alias` and `web_server_destroy` begin. -/
def State.releaseAlias (s : State) : State :=
  let (left, s) := aliasRelease s.gAliasDoc s
  { s with gAliasDoc := left, installed := false }

def State.publish (settings : Settings) (s : State) : State :=
  { s with
    gAliasDoc := ⟨some s.documents.length, some s.documents.length, settings.lastModified⟩
    documents := allocate ⟨slashed settings.aliasName, settings.aliasContent⟩ s.documents
    installed := true }

def step : Step → State → Option State
  | .setRelease settings, s => some { s.releaseAlias with setting := settings.toList ++ s.setting }
  | .setPublish i, s =>
      s.setting[i]?.map fun settings => { s.publish settings with setting := s.setting.eraseIdx i }
  | .setFail i, s => s.setting[i]?.map fun _ => { s with setting := s.setting.eraseIdx i }
  | .destroyRelease, s => some { s.releaseAlias with destroying := s.destroying + 1 }
  | .destroyClear, s =>
      if s.destroying = 0 then none
      else some { s with gAliasDoc := .empty, destroying := s.destroying - 1 }
  | .check, s => some { s with checked := s.checked + (isValidAlias s.gAliasDoc).toNat }
  | .grab, s =>
      if s.checked = 0 then none
      else
        let (copy, s) := aliasGrab s
        some { s with checked := s.checked - 1, grabbed := copy :: s.grabbed }
  | .read i, s => s.grabbed[i]?.map fun copy =>
      match copy.buf with
      | none => s.check false .null
      | some d => s.use d
  | .release i, s => s.grabbed[i]?.map fun copy =>
      { (aliasRelease copy s).2 with grabbed := s.grabbed.eraseIdx i }

/-- Someone has a reference to the document: the alias that it was set for, or a request. -/
def State.Held (d : Nat) (s : State) : Prop :=
  (s.installed ∧ s.gAliasDoc.ct = some d) ∨ ∃ copy ∈ s.grabbed, copy.ct = some d

instance (d : Nat) (s : State) : Decidable (s.Held d) := inferInstanceAs (Decidable (_ ∨ _))

/-- No memory has been used after it was freed, and a document has been freed, once, just when nobody
has a reference to it any more. -/
def Sound (s : State) : Prop :=
  s.faults = [] ∧ ∀ d block, s.documents[d]? = some block → block.frees = if s.Held d then 0 else 1

/-- The alias is not released a second time, none is put over one that still has its reference, and
a request finds a document that has one. -/
def Orderly : Step → State → Prop
  | .setRelease _, s => isValidAlias s.gAliasDoc → s.installed
  | .destroyRelease, s => isValidAlias s.gAliasDoc → s.installed
  | .setPublish _, s => ¬ s.installed
  | .destroyClear, s => ¬ s.installed
  | .grab, s => ∃ d ∈ s.gAliasDoc.buf, s.Held d
  | _, _ => True

instance decidableOrderly : ∀ step s, Decidable (Orderly step s)
  | .setRelease _, s => inferInstanceAs (Decidable (isValidAlias s.gAliasDoc → s.installed))
  | .destroyRelease, s => inferInstanceAs (Decidable (isValidAlias s.gAliasDoc → s.installed))
  | .setPublish _, s => inferInstanceAs (Decidable (¬ s.installed))
  | .destroyClear, s => inferInstanceAs (Decidable (¬ s.installed))
  | .grab, s => inferInstanceAs (Decidable (∃ d ∈ s.gAliasDoc.buf, s.Held d))
  | .setFail _, _ => isTrue trivial
  | .check, _ => isTrue trivial
  | .read _, _ => isTrue trivial
  | .release _, _ => isTrue trivial

/-! ### The references -/

def State.references (s : State) : List Nat :=
  (if s.installed then s.gAliasDoc.ct.toList else []) ++ s.grabbed.filterMap (·.ct)

theorem mem_references {d : Nat} {s : State} : d ∈ s.references ↔ s.Held d := by
  unfold State.references State.Held
  rw [List.mem_append, List.mem_filterMap]
  cases s.installed <;> simp

def Names (d : Nat) (a : XmlAlias) : Prop := a.buf = some d ∧ a.ct = some d

structure Inv (s : State) : Prop where
  counted : Counted s.references s.documents
  known : ∀ d ∈ s.references, d < s.documents.length
  empty : s.gAliasDoc.buf = none → s.installed = false
  named : ∀ d ∈ s.gAliasDoc.buf, Names d s.gAliasDoc
  copies : ∀ copy ∈ s.grabbed, ∃ d, Names d copy
  faultless : s.faults = []

theorem Inv.sound {s : State} (inv : Inv s) : Sound s := by
  refine ⟨inv.faultless, ?_⟩
  intro d block found
  rw [(inv.counted d block found).2]
  simp only [List.count_eq_zero, mem_references, ite_not]

theorem Inv.initial : Inv State.initial where
  counted := nofun
  known := nofun
  empty _ := rfl
  named := nofun
  copies := nofun
  faultless := rfl

/-- What a release does to a state whose documents count the reference that it gives up. -/
theorem aliasRelease_eq {a : XmlAlias} {d : Nat} {refs : List Nat} {s : State} (names : Names d a)
    (counted : Counted (d :: refs) s.documents) (known : d < s.documents.length) :
    aliasRelease a s =
      (if d ∈ refs then a else { a with buf := none }, { s with documents := release d s.documents }) := by
  obtain ⟨buf, ct⟩ := names
  have valid : (!isValidAlias a) = false := by simp [isValidAlias, buf]
  have unused : freed d s.documents = false := counted.not_freed List.mem_cons_self
  have before : count d s.documents = (refs.count d : Int) + 1 := by
    rw [counted.count_eq known, List.count_cons_self]
    rfl
  have after : count d (release d s.documents) = refs.count d := by
    exact counted.release.count_eq (by simpa using known)
  have used : s.use d = s := by simp [State.use, State.check, unused]
  have positive : s.check (decide (0 < count d s.documents)) .assertion = s := by
    have : 0 < count d s.documents := by omega
    simp [State.check, this]
  unfold aliasRelease
  rw [valid, ct]
  dsimp only
  rw [if_neg Bool.false_ne_true, used, positive, after]
  by_cases more : d ∈ refs
  · have positive : 0 < refs.count d := List.count_pos_iff.mpr more
    rw [if_neg (by omega), if_pos more]
  · rw [if_pos (by rw [List.count_eq_zero.mpr more]; rfl), if_neg more]

theorem Inv.held {s : State} (inv : Inv s) {d : Nat} (names : Names d s.gAliasDoc) (installed : s.installed = true) :
    Counted (d :: s.grabbed.filterMap (·.ct)) s.documents ∧ d < s.documents.length := by
  have references : s.references = d :: s.grabbed.filterMap (·.ct) := by
    rw [State.references, if_pos installed, names.2]
    rfl
  exact ⟨references ▸ inv.counted, inv.known d (references ▸ List.mem_cons_self)⟩

theorem Inv.grabbed_known {s : State} (inv : Inv s) : ∀ d ∈ s.grabbed.filterMap (·.ct), d < s.documents.length :=
  fun d member => inv.known d (List.mem_append_right _ member)

theorem releaseAlias_inv {s : State} (inv : Inv s) (orderly : isValidAlias s.gAliasDoc → s.installed = true) :
    Inv s.releaseAlias := by
  cases buf : s.gAliasDoc.buf with
  | none =>
    have same : s.releaseAlias = s := by
      have gone := inv.empty buf
      obtain ⟨a, documents, installed, setting, destroying, checked, grabbed, faults⟩ := s
      dsimp only at buf gone
      simp [State.releaseAlias, aliasRelease, isValidAlias, buf, gone]
    rwa [same]
  | some d =>
    have installed := orderly (by rw [isValidAlias, buf]; rfl)
    have names := inv.named d buf
    obtain ⟨counted, known⟩ := inv.held names installed
    have left := counted.release
    unfold State.releaseAlias
    rw [aliasRelease_eq names counted known]
    constructor
    case counted => exact left
    case known =>
      intro e member
      exact length_release.symm ▸ inv.grabbed_known e member
    case empty => exact fun _ => rfl
    case named =>
      dsimp only
      split
      · exact inv.named
      · nofun
    case copies => exact inv.copies
    case faultless => exact inv.faultless

theorem publish_inv {s : State} (inv : Inv s) (orderly : s.installed = false) (settings : Settings) :
    Inv (s.publish settings) := by
  have references : s.references = s.grabbed.filterMap (·.ct) := by
    rw [State.references, orderly]
    rfl
  have counted : Counted (s.grabbed.filterMap (·.ct)) s.documents := references ▸ inv.counted
  constructor
  case counted => exact counted.allocate inv.grabbed_known _
  case known =>
    intro d member
    have longer : (s.publish settings).documents.length = s.documents.length + 1 := length_allocate _
    obtain rfl | older := List.mem_cons.mp member
    · omega
    · have := inv.grabbed_known d older
      omega
  case empty => nofun
  case named =>
    rintro d ⟨⟩
    exact ⟨rfl, rfl⟩
  case copies => exact inv.copies
  case faultless => exact inv.faultless

theorem grab_inv {s : State} (inv : Inv s) {d : Nat} (valid : s.gAliasDoc.buf = some d) (held : s.Held d) :
    Inv { (aliasGrab s).2 with
      checked := (aliasGrab s).2.checked - 1, grabbed := (aliasGrab s).1 :: (aliasGrab s).2.grabbed } := by
  have names := inv.named d valid
  have member := mem_references.mpr held
  have grabbed : aliasGrab s = (s.gAliasDoc, { s with documents := retain d s.documents }) := by
    have unused : freed d s.documents = false := inv.counted.not_freed member
    simp [aliasGrab, State.check, State.use, isValidAlias, names.1, names.2, unused]
  rw [grabbed]
  have references : (State.mk s.gAliasDoc (retain d s.documents) s.installed s.setting s.destroying (s.checked - 1)
      (s.gAliasDoc :: s.grabbed) s.faults).references.Perm (d :: s.references) := by
    rw [State.references, State.references, List.filterMap_cons_some names.2]
    exact List.perm_middle
  constructor
  case counted => exact (inv.counted.retain member).perm references.symm
  case known =>
    intro e found
    have found := references.mem_iff.mp found
    have known : e < s.documents.length := by
      obtain rfl | older := List.mem_cons.mp found
      · exact inv.known _ member
      · exact inv.known _ older
    simpa using known
  case empty => exact inv.empty
  case named => exact inv.named
  case copies =>
    intro copy found
    obtain rfl | older := List.mem_cons.mp found
    · exact ⟨d, names⟩
    · exact inv.copies copy older
  case faultless => exact inv.faultless

theorem release_inv {s : State} (inv : Inv s) {i : Nat} {copy : XmlAlias} (found : s.grabbed[i]? = some copy) :
    Inv { (aliasRelease copy s).2 with grabbed := s.grabbed.eraseIdx i } := by
  obtain ⟨d, names⟩ := inv.copies copy (List.mem_of_getElem? found)
  obtain ⟨below, rfl⟩ := List.getElem?_eq_some_iff.mp found
  -- The references without the copy: those of the other requests, and of the alias.
  have references : s.references.Perm (d :: State.references { s with grabbed := s.grabbed.eraseIdx i }) := by
    have others := (List.getElem_cons_eraseIdx_perm below).filterMap (·.ct)
    rw [List.filterMap_cons_some names.2] at others
    exact (others.symm.append_left _).trans List.perm_middle
  have counted := inv.counted.perm references
  rw [aliasRelease_eq names counted (inv.known d (references.mem_iff.mpr List.mem_cons_self))]
  constructor
  case counted => exact counted.release
  case known =>
    intro e member
    have known := inv.known e (references.mem_iff.mpr (List.mem_cons_of_mem _ member))
    simpa using known
  case empty => exact inv.empty
  case named => exact inv.named
  case copies => exact fun copy member => inv.copies copy (List.mem_of_mem_eraseIdx member)
  case faultless => exact inv.faultless

theorem read_inv {s : State} (inv : Inv s) {copy : XmlAlias} (member : copy ∈ s.grabbed) {d : Nat}
    (names : Names d copy) : s.use d = s := by
  have held : s.Held d := .inr ⟨copy, member, names.2⟩
  have unused : freed d s.documents = false := inv.counted.not_freed (mem_references.mpr held)
  simp [State.use, State.check, unused]

theorem step_inv (label : Step) (s t : State) (orderly : Orderly label s) (taken : step label s = some t)
    (inv : Inv s) : Inv t := by
  cases label with
  | setRelease settings =>
    obtain rfl := Option.some.inj taken
    have released := releaseAlias_inv inv orderly
    exact ⟨released.counted, released.known, released.empty, released.named, released.copies, released.faultless⟩
  | setPublish i =>
    obtain ⟨settings, -, rfl⟩ := Option.map_eq_some_iff.mp taken
    have published := publish_inv inv (Bool.eq_false_iff.mpr orderly) settings
    exact ⟨published.counted, published.known, published.empty, published.named, published.copies,
      published.faultless⟩
  | setFail i =>
    obtain ⟨settings, -, rfl⟩ := Option.map_eq_some_iff.mp taken
    exact ⟨inv.counted, inv.known, inv.empty, inv.named, inv.copies, inv.faultless⟩
  | destroyRelease =>
    obtain rfl := Option.some.inj taken
    have released := releaseAlias_inv inv orderly
    exact ⟨released.counted, released.known, released.empty, released.named, released.copies, released.faultless⟩
  | destroyClear =>
    have gone := Bool.eq_false_iff.mpr orderly
    rw [step] at taken
    split at taken
    · cases taken
    · obtain rfl := Option.some.inj taken
      have references : s.references = s.grabbed.filterMap (·.ct) := by
        rw [State.references, gone]
        rfl
      refine ⟨?_, ?_, fun _ => gone, nofun, inv.copies, inv.faultless⟩
      · rw [State.references, if_neg orderly]
        exact references ▸ inv.counted
      · rw [State.references, if_neg orderly]
        exact inv.grabbed_known
  | check =>
    obtain rfl := Option.some.inj taken
    exact ⟨inv.counted, inv.known, inv.empty, inv.named, inv.copies, inv.faultless⟩
  | grab =>
    obtain ⟨d, valid, held⟩ := orderly
    rw [step] at taken
    split at taken
    · cases taken
    · obtain rfl := Option.some.inj taken
      exact grab_inv inv valid held
  | read i =>
    obtain ⟨copy, found, rfl⟩ := Option.map_eq_some_iff.mp taken
    have member := List.mem_of_getElem? found
    obtain ⟨d, names⟩ := inv.copies copy member
    rw [names.1]
    dsimp only
    rwa [read_inv inv member names]
  | release i =>
    obtain ⟨copy, found, rfl⟩ := Option.map_eq_some_iff.mp taken
    exact release_inv inv found

/-- In runs whose steps are all orderly, the documents are freed once each, and when nobody has them. -/
theorem runs_sound (steps : List Step) (s : State) (ran : run step steps .initial = some s)
    (orderly : Along step Orderly steps .initial) : Sound s :=
  (run_keeps step_inv Inv.initial orderly ran).sound

/-- A request has grabbed the document when it is replaced, another one finds the alias valid meanwhile. -/
def replacedWhileServed : List Step :=
  [.setRelease (some ⟨[97], [60], 7⟩), .setPublish 0, .check, .grab, .check, .setRelease (some ⟨[98], [62], 8⟩),
    .grab, .read 0, .release 1, .setPublish 0, .read 0, .release 0, .setRelease none, .check]

theorem runs_sound_replaced : ∃ s, run step replacedWhileServed .initial = some s ∧ Sound s ∧
    s.documents.map (·.frees) = [1, 1] := by
  have ran : (run step replacedWhileServed .initial).map (fun s => s.documents.map (·.frees)) = some [1, 1] := by
    decide
  obtain ⟨s, ran, frees⟩ := Option.map_eq_some_iff.mp ran
  exact ⟨s, ran, runs_sound replacedWhileServed s ran (by decide), frees⟩

/-- The document is withdrawn while a request has it, and another one is set once the request is done. -/
def withdrawnWhileServed : List Step :=
  [.setRelease (some ⟨[97], [60], 7⟩), .setPublish 0, .check, .grab, .setRelease none, .release 0,
    .setRelease (some ⟨[98], [62], 8⟩)]

/-- The buffers of the first document are freed twice. -/
theorem withdrawn_freed_twice : ∃ s, run step withdrawnWhileServed .initial = some s ∧ ¬ Sound s ∧
    s.faults = [.assertion, .freed 0] ∧ s.documents.map (·.frees) = [2] := by
  have ran : (run step withdrawnWhileServed .initial).map (fun s => (s.faults, s.documents.map (·.frees))) =
      some ([.assertion, .freed 0], [2]) := by
    decide
  obtain ⟨s, ran, facts⟩ := Option.map_eq_some_iff.mp ran
  obtain ⟨faults, frees⟩ := Prod.mk.inj facts
  refine ⟨s, ran, ?_, faults, frees⟩
  rintro ⟨faultless, -⟩
  rw [faults] at faultless
  cases faultless

end Pupnp.Web.AliasDocument
