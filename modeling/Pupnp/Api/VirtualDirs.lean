import Pupnp.Library.CString
import Pupnp.Library.OrderedMap
import Pupnp.Library.Run

/-!
The list of virtual directories, as a map from their names to cookies. A name gets a slash in front when it is
added, but not when it is removed.
-/

namespace Pupnp.Api.VirtualDirs
open Pupnp.CString Pupnp.Run

def UPNP_E_SUCCESS : Int := 0
def UPNP_E_INVALID_PARAM : Int := -101
def UPNP_E_OUTOF_MEMORY : Int := -104
def UPNP_E_FINISH : Int := -116
def NAME_SIZE : Nat := 256

abbrev Pointer := Nat

structure VirtualDirList where
  cookie : Pointer
  dirName : List UInt8
  deriving DecidableEq, Repr

structure Sdk where
  upnpSdkInit : Int
  pVirtualDirList : List VirtualDirList
  deriving DecidableEq, Repr

structure Answer where
  code : Int
  oldcookie : Option Pointer
  deriving DecidableEq, Repr

/-- The name as it is stored; `none` where it does not fit into the buffer. -/
def fixDirName (newDirName : List UInt8) : Option (List UInt8) :=
  if newDirName.head? ≠ some 47 then
    if NAME_SIZE - 2 < newDirName.length then none else some (47 :: newDirName)
  else if NAME_SIZE - 1 < newDirName.length then none
  else some newDirName

/-- The first loop of `UpnpAddVirtualDir`: the old cookie of a name that is there. -/
def replaceCookie (dirName : List UInt8) (cookie : Pointer) :
    List VirtualDirList → Option (Pointer × List VirtualDirList)
  | [] => none
  | dir :: rest =>
      if dir.dirName = dirName then some (dir.cookie, { dir with cookie := cookie } :: rest)
      else (replaceCookie dirName cookie rest).map fun found => (found.1, dir :: found.2)

/-- `UpnpAddVirtualDir`; `oldcookie` is `none` for `NULL`, and `memory` whether `malloc` succeeds. -/
def upnpAddVirtualDir (memory : Bool) (newDirName : Option (List UInt8)) (cookie : Pointer)
    (oldcookie : Option Pointer) (sdk : Sdk) : Answer × Sdk :=
  if sdk.upnpSdkInit ≠ 1 then (⟨UPNP_E_FINISH, oldcookie⟩, sdk)
  else
    match newDirName.map cstr with
    | none | some [] => (⟨UPNP_E_INVALID_PARAM, oldcookie⟩, sdk)
    | some (c :: name) =>
        match fixDirName (c :: name) with
        | none => (⟨UPNP_E_INVALID_PARAM, oldcookie⟩, sdk)
        | some dirName =>
            match replaceCookie dirName cookie sdk.pVirtualDirList with
            | some (old, list) => (⟨UPNP_E_SUCCESS, oldcookie.map fun _ => old⟩, { sdk with pVirtualDirList := list })
            | none =>
                if memory then
                  (⟨UPNP_E_SUCCESS, oldcookie.map fun _ => 0⟩,
                    { sdk with pVirtualDirList := sdk.pVirtualDirList ++ [⟨cookie, dirName⟩] })
                else (⟨UPNP_E_OUTOF_MEMORY, oldcookie⟩, sdk)

/-- The loop of `UpnpRemoveVirtualDir` behind the first directory. -/
def removeBehind (dirName : List UInt8) : List VirtualDirList → Option (List VirtualDirList)
  | [] => none
  | dir :: rest => if dir.dirName = dirName then some rest else (removeBehind dirName rest).map (dir :: ·)

def upnpRemoveVirtualDir (dirName : Option (List UInt8)) (sdk : Sdk) : Answer × Sdk :=
  if sdk.upnpSdkInit ≠ 1 then (⟨UPNP_E_FINISH, none⟩, sdk)
  else
    match dirName.map cstr, sdk.pVirtualDirList with
    | none, _ | some _, [] => (⟨UPNP_E_INVALID_PARAM, none⟩, sdk)
    | some name, first :: rest =>
        if first.dirName = name then (⟨UPNP_E_SUCCESS, none⟩, { sdk with pVirtualDirList := rest })
        else
          match removeBehind name rest with
          | some rest => (⟨UPNP_E_SUCCESS, none⟩, { sdk with pVirtualDirList := first :: rest })
          | none => (⟨UPNP_E_INVALID_PARAM, none⟩, sdk)

inductive Call where
  | add (memory : Bool) (newDirName : Option (List UInt8)) (cookie : Pointer) (oldcookie : Option Pointer)
  | remove (dirName : Option (List UInt8))
  deriving DecidableEq, Repr

def call : Call → Sdk → Answer × Sdk
  | .add memory newDirName cookie oldcookie => upnpAddVirtualDir memory newDirName cookie oldcookie
  | .remove dirName => upnpRemoveVirtualDir dirName

/-! ### The map -/

abbrev Dirs := OrderedMap (List UInt8) Pointer

def keyOf (name : Option (List UInt8)) : Option (List UInt8) :=
  match name.map cstr with
  | none | some [] => none
  | some (c :: name) => fixDirName (c :: name)

/-- The calls as operations on the map; without the library they do nothing. -/
def callMap (upnpSdkInit : Int) : Call → Dirs → Answer × Dirs
  | .add memory newDirName cookie oldcookie, dirs =>
      if upnpSdkInit ≠ 1 then (⟨UPNP_E_FINISH, oldcookie⟩, dirs)
      else
        match keyOf newDirName with
        | none => (⟨UPNP_E_INVALID_PARAM, oldcookie⟩, dirs)
        | some key =>
            match dirs.find key with
            | some old => (⟨UPNP_E_SUCCESS, oldcookie.map fun _ => old⟩, dirs.put key cookie)
            | none =>
                if memory then (⟨UPNP_E_SUCCESS, oldcookie.map fun _ => 0⟩, dirs.put key cookie)
                else (⟨UPNP_E_OUTOF_MEMORY, oldcookie⟩, dirs)
  | .remove dirName, dirs =>
      if upnpSdkInit ≠ 1 then (⟨UPNP_E_FINISH, none⟩, dirs)
      else
        match keyOf dirName with
        | none => (⟨UPNP_E_INVALID_PARAM, none⟩, dirs)
        | some key =>
            if key ∈ dirs.keys then (⟨UPNP_E_SUCCESS, none⟩, dirs.erase key)
            else (⟨UPNP_E_INVALID_PARAM, none⟩, dirs)

/-- The answers of some calls, each with the directories behind it. -/
def answers {σ : Type} (call : Call → σ → Answer × σ) (view : σ → List (List UInt8 × Pointer)) :
    List Call → σ → List (Answer × List (List UInt8 × Pointer))
  | [], _ => []
  | first :: calls, s => ((call first s).1, view (call first s).2) :: answers call view calls (call first s).2

def Sdk.entries (sdk : Sdk) : List (List UInt8 × Pointer) :=
  sdk.pVirtualDirList.map fun dir => (dir.dirName, dir.cookie)

/-- A directory that is there is removed by its name with the slash. -/
def RemovesSlashed (upnpSdkInit : Int) : Call → Dirs → Prop
  | .add _ _ _ _, _ => True
  | .remove dirName, dirs =>
      upnpSdkInit = 1 → ∀ key ∈ keyOf dirName, key ∈ dirs.keys → dirName.map cstr = some key

/-! ### The loops -/

section Loops
variable {dirName : List UInt8} {list : List VirtualDirList}

theorem replaceCookie_eq (distinct : (list.map (·.dirName)).Nodup) (cookie : Pointer) :
    replaceCookie dirName cookie list = (list.find? (·.dirName = dirName)).map fun dir =>
      (dir.cookie, list.map fun other =>
        if other.dirName = dirName then { other with cookie := cookie } else other) := by
  induction list with
  | nil => rfl
  | cons dir rest ih =>
    obtain ⟨fresh, distinct'⟩ := List.nodup_cons.mp distinct
    rw [replaceCookie]
    by_cases here : dir.dirName = dirName
    · have others : rest.map (fun other =>
          if other.dirName = dirName then { other with cookie := cookie } else other) = rest := by
        rw [List.map_congr_left (g := id), List.map_id]
        intro other member
        have apart : other.dirName ≠ dirName := by
          intro same
          exact fresh (List.mem_map.mpr ⟨other, member, same.trans here.symm⟩)
        exact if_neg apart
      rw [if_pos here, List.find?_cons_of_pos (by simpa using here), List.map_cons, if_pos here, others]
      rfl
    · rw [if_neg here, List.find?_cons_of_neg (by simpa using here), ih distinct', List.map_cons, if_neg here,
        Option.map_map]
      rfl

theorem removeBehind_eq : removeBehind dirName list =
    if list.any (·.dirName = dirName) then some (list.eraseP (·.dirName = dirName)) else none := by
  induction list with
  | nil => rfl
  | cons dir rest ih =>
    rw [removeBehind]
    by_cases here : dir.dirName = dirName
    · rw [if_pos here, if_pos (by simp [here]), List.eraseP_cons_of_pos (by simp [here])]
    · have later : (dir :: rest).any (·.dirName = dirName) = rest.any (·.dirName = dirName) := by simp [here]
      rw [if_neg here, ih, later, List.eraseP_cons_of_neg (by simp [here])]
      split <;> rfl

theorem upnpRemoveVirtualDir_eq {sdk : Sdk} (ready : sdk.upnpSdkInit = 1) (name : List UInt8) :
    upnpRemoveVirtualDir (some name) sdk =
      if sdk.pVirtualDirList.any (·.dirName = cstr name) then
        (⟨UPNP_E_SUCCESS, none⟩, { sdk with pVirtualDirList := sdk.pVirtualDirList.eraseP (·.dirName = cstr name) })
      else (⟨UPNP_E_INVALID_PARAM, none⟩, sdk) := by
  obtain ⟨init, list⟩ := sdk
  rw [upnpRemoveVirtualDir, if_neg (not_not.mpr ready)]
  cases list with
  | nil => rfl
  | cons first rest =>
    simp only [Option.map_some, removeBehind_eq]
    by_cases here : first.dirName = cstr name
    · rw [if_pos here, if_pos (by simp [here]), List.eraseP_cons_of_pos (by simp [here])]
    · have later : (first :: rest).any (·.dirName = cstr name) = rest.any (·.dirName = cstr name) := by simp [here]
      rw [if_neg here, later, List.eraseP_cons_of_neg (by simp [here])]
      by_cases found : (rest.any fun dir => decide (dir.dirName = cstr name)) = true
      · rw [if_pos found, if_pos found]
      · rw [if_neg found, if_neg found]

end Loops

/-! ### The list as a map -/

def Sdk.Holds (sdk : Sdk) (dirs : Dirs) : Prop := sdk.entries = dirs.entries

section Holds
variable {sdk : Sdk} {dirs : Dirs} (holds : sdk.Holds dirs)
include holds

theorem Sdk.Holds.keys : sdk.pVirtualDirList.map (·.dirName) = dirs.keys := by
  rw [OrderedMap.keys, ← holds, Sdk.entries, List.map_map]
  rfl

theorem Sdk.Holds.distinct : (sdk.pVirtualDirList.map (·.dirName)).Nodup := by
  rw [holds.keys]
  exact dirs.distinct

theorem Sdk.Holds.find (key : List UInt8) :
    (sdk.pVirtualDirList.find? (·.dirName = key)).map (·.cookie) = dirs.find key := by
  rw [OrderedMap.find, ← holds, Sdk.entries, List.find?_map, Option.map_map]
  rfl

theorem Sdk.Holds.any (key : List UInt8) :
    sdk.pVirtualDirList.any (·.dirName = key) = true ↔ key ∈ dirs.keys := by
  rw [← holds.keys, List.any_eq_true, List.mem_map]
  simp only [decide_eq_true_eq]

theorem Sdk.Holds.replace {key : List UInt8} (known : key ∈ dirs.keys) (cookie : Pointer) :
    Sdk.Holds { sdk with
      pVirtualDirList := sdk.pVirtualDirList.map fun other =>
        if other.dirName = key then { other with cookie := cookie } else other } (dirs.put key cookie) := by
  rw [Sdk.Holds, OrderedMap.put_known known, ← holds, Sdk.entries, Sdk.entries, List.map_map, List.map_map]
  apply List.map_congr_left
  intro dir _
  simp only [Function.comp_apply]
  split
  next same => rw [same]
  next => rfl

theorem Sdk.Holds.append {key : List UInt8} (fresh : key ∉ dirs.keys) (cookie : Pointer) :
    Sdk.Holds { sdk with pVirtualDirList := sdk.pVirtualDirList ++ [⟨cookie, key⟩] } (dirs.put key cookie) := by
  rw [Sdk.Holds, OrderedMap.put_fresh fresh, ← holds, Sdk.entries, Sdk.entries, List.map_append]
  rfl

theorem Sdk.Holds.erase (key : List UInt8) :
    Sdk.Holds { sdk with pVirtualDirList := sdk.pVirtualDirList.eraseP (·.dirName = key) } (dirs.erase key) := by
  rw [Sdk.Holds, OrderedMap.erase_entries, ← holds, Sdk.entries, Sdk.entries, List.eraseP_map]
  rfl

theorem Sdk.Holds.add (memory : Bool) (newDirName : Option (List UInt8)) (cookie : Pointer) (oldcookie : Option Pointer) :
    (upnpAddVirtualDir memory newDirName cookie oldcookie sdk).1 =
        (callMap sdk.upnpSdkInit (.add memory newDirName cookie oldcookie) dirs).1 ∧
      (upnpAddVirtualDir memory newDirName cookie oldcookie sdk).2.Holds
        (callMap sdk.upnpSdkInit (.add memory newDirName cookie oldcookie) dirs).2 := by
  rw [upnpAddVirtualDir, callMap]
  by_cases ready : sdk.upnpSdkInit ≠ 1
  · rw [if_pos ready, if_pos ready]
    exact ⟨rfl, holds⟩
  rw [if_neg ready, if_neg ready, keyOf]
  split
  next none => exact ⟨rfl, holds⟩
  next empty => exact ⟨rfl, holds⟩
  next c name text =>
    cases fixed : fixDirName (c :: name) with
    | none => exact ⟨rfl, holds⟩
    | some key =>
      dsimp only
      rw [replaceCookie_eq holds.distinct, ← holds.find]
      cases found : sdk.pVirtualDirList.find? (·.dirName = key) with
      | some dir =>
        have known : key ∈ dirs.keys := by
          rw [← OrderedMap.keys_of_find, ← holds.find, found]
          rfl
        exact ⟨rfl, holds.replace known cookie⟩
      | none =>
        have fresh : key ∉ dirs.keys := by
          rw [← OrderedMap.keys_of_find, ← holds.find, found]
          decide
        cases memory with
        | true => exact ⟨rfl, holds.append fresh cookie⟩
        | false => exact ⟨rfl, holds⟩

end Holds

/-! ### Removing by a name -/

def Fixed (dirs : Dirs) : Prop := ∀ key ∈ dirs.keys, fixDirName key = some key

theorem fixDirName_fixed {name key : List UInt8} (fixed : fixDirName name = some key) : fixDirName key = some key := by
  unfold fixDirName at fixed
  split at fixed
  next =>
    split at fixed
    next => cases fixed
    next fits =>
      obtain rfl := Option.some.inj fixed
      have room : ¬NAME_SIZE - 1 < (47 :: name).length := by
        simp only [NAME_SIZE, List.length_cons] at fits ⊢
        omega
      rw [fixDirName, if_neg (by simp), if_neg room]
  next slash =>
    split at fixed
    next => cases fixed
    next fits =>
      obtain rfl := Option.some.inj fixed
      rw [fixDirName, if_neg slash, if_neg fits]

theorem keyOf_fixed {name : Option (List UInt8)} {key : List UInt8} (known : keyOf name = some key) :
    fixDirName key = some key := by
  unfold keyOf at known
  split at known
  next => cases known
  next => cases known
  next => exact fixDirName_fixed known

theorem keyOf_of_fixed {name : List UInt8} (fixed : fixDirName (cstr name) = some (cstr name)) :
    keyOf (some name) = some (cstr name) := by
  rw [keyOf, Option.map_some]
  cases text : cstr name with
  | nil =>
    rw [text] at fixed
    cases fixed
  | cons c rest =>
    rw [text] at fixed
    exact fixed

theorem callMap_fixed {dirs : Dirs} (fixed : Fixed dirs) (upnpSdkInit : Int) (call : Call) :
    Fixed (callMap upnpSdkInit call dirs).2 := by
  have put {name : Option (List UInt8)} {key : List UInt8} (known : keyOf name = some key) (cookie : Pointer) :
      Fixed (dirs.put key cookie) := by
    intro other member
    rw [OrderedMap.put_keys] at member
    split at member
    next => exact fixed other member
    next =>
      rcases List.mem_append.mp member with old | new
      · exact fixed other old
      · rw [List.mem_singleton.mp new]
        exact keyOf_fixed known
  cases call with
  | add memory newDirName cookie oldcookie =>
    rw [callMap]
    split
    next => exact fixed
    next =>
      split
      next => exact fixed
      next key known =>
        split
        next => exact put known cookie
        next =>
          split
          next => exact put known cookie
          next => exact fixed
  | remove dirName =>
    rw [callMap]
    split
    next => exact fixed
    next =>
      split
      next => exact fixed
      next key known =>
        split
        next =>
          intro other member
          rw [OrderedMap.erase_keys] at member
          exact fixed other (List.mem_of_mem_filter member)
        next => exact fixed

theorem Sdk.Holds.remove {sdk : Sdk} {dirs : Dirs} (holds : sdk.Holds dirs) (fixed : Fixed dirs)
    (dirName : Option (List UInt8)) :
    (RemovesSlashed sdk.upnpSdkInit (.remove dirName) dirs →
        (upnpRemoveVirtualDir dirName sdk).1 = (callMap sdk.upnpSdkInit (.remove dirName) dirs).1 ∧
          (upnpRemoveVirtualDir dirName sdk).2.Holds (callMap sdk.upnpSdkInit (.remove dirName) dirs).2) ∧
      (¬RemovesSlashed sdk.upnpSdkInit (.remove dirName) dirs →
        (upnpRemoveVirtualDir dirName sdk).1 ≠ (callMap sdk.upnpSdkInit (.remove dirName) dirs).1) := by
  by_cases ready : sdk.upnpSdkInit = 1
  · rw [callMap, if_neg (not_not.mpr ready)]
    cases dirName with
    | none =>
      refine ⟨fun _ => ?_, fun other => absurd (fun _ key known => by cases known) other⟩
      rw [upnpRemoveVirtualDir, if_neg (not_not.mpr ready)]
      exact ⟨rfl, holds⟩
    | some name =>
      have self : cstr name ∈ dirs.keys → keyOf (some name) = some (cstr name) := fun known =>
        keyOf_of_fixed (fixed _ known)
      rw [upnpRemoveVirtualDir_eq ready]
      by_cases known : cstr name ∈ dirs.keys
      · have own : RemovesSlashed sdk.upnpSdkInit (.remove (some name)) dirs := by
          intro _ key found _
          exact (self known).symm.trans found
        rw [if_pos ((holds.any (cstr name)).mpr known), self known]
        dsimp only
        rw [if_pos known]
        exact ⟨fun _ => ⟨rfl, holds.erase (cstr name)⟩, fun other => absurd own other⟩
      · rw [if_neg (mt (holds.any (cstr name)).mp known)]
        cases found : keyOf (some name) with
        | none =>
          refine ⟨fun _ => ⟨rfl, holds⟩, fun other => absurd (fun _ key same => ?_) other⟩
          rw [found] at same
          cases same
        | some key =>
          dsimp only
          by_cases there : key ∈ dirs.keys
          · rw [if_pos there]
            refine ⟨fun slashed => ?_, fun _ same => by cases same⟩
            have same : cstr name = key := Option.some.inj (slashed ready key found there)
            exact absurd (same ▸ there) known
          · rw [if_neg there]
            refine ⟨fun _ => ⟨rfl, holds⟩, fun other => absurd (fun _ key' same there' => ?_) other⟩
            rw [found] at same
            obtain rfl := Option.some.inj same
            exact absurd there' there
  · refine ⟨fun _ => ?_, fun other => absurd (fun is => absurd is ready) other⟩
    rw [upnpRemoveVirtualDir, callMap, if_pos ready, if_pos ready]
    exact ⟨rfl, holds⟩

/-! ### Sequences of calls -/

theorem call_init (c : Call) (sdk : Sdk) : (call c sdk).2.upnpSdkInit = sdk.upnpSdkInit := by
  cases c with
  | add memory newDirName cookie oldcookie =>
    simp only [call, upnpAddVirtualDir]
    repeat' split
    all_goals rfl
  | remove dirName =>
    simp only [call, upnpRemoveVirtualDir]
    repeat' split
    all_goals rfl

def stepMap (upnpSdkInit : Int) (c : Call) (dirs : Dirs) : Option Dirs := some (callMap upnpSdkInit c dirs).2

/-- From a list that holds a map, the calls answer like the map if no directory is removed without its slash. -/
theorem answers_iff {sdk : Sdk} {dirs : Dirs} (holds : sdk.Holds dirs) (fixed : Fixed dirs) (calls : List Call) :
    answers call Sdk.entries calls sdk = answers (callMap sdk.upnpSdkInit) OrderedMap.entries calls dirs ↔
      Along (stepMap sdk.upnpSdkInit) (RemovesSlashed sdk.upnpSdkInit) calls dirs := by
  induction calls generalizing sdk dirs with
  | nil => exact iff_of_true rfl trivial
  | cons c calls ih =>
    have same : RemovesSlashed sdk.upnpSdkInit c dirs →
        (call c sdk).1 = (callMap sdk.upnpSdkInit c dirs).1 ∧
          (call c sdk).2.Holds (callMap sdk.upnpSdkInit c dirs).2 := by
      cases c with
      | add memory newDirName cookie oldcookie => exact fun _ => holds.add memory newDirName cookie oldcookie
      | remove dirName => exact (holds.remove fixed dirName).1
    have differs : ¬RemovesSlashed sdk.upnpSdkInit c dirs →
        (call c sdk).1 ≠ (callMap sdk.upnpSdkInit c dirs).1 := by
      cases c with
      | add memory newDirName cookie oldcookie => exact fun other => absurd trivial other
      | remove dirName => exact (holds.remove fixed dirName).2
    have later (agree : (call c sdk).2.Holds (callMap sdk.upnpSdkInit c dirs).2) :=
      ih agree (callMap_fixed fixed sdk.upnpSdkInit c)
    rw [call_init] at later
    rw [answers, answers, List.cons.injEq, Prod.mk.injEq]
    constructor
    · rintro ⟨⟨code, list⟩, rest⟩
      have slashed : RemovesSlashed sdk.upnpSdkInit c dirs := by
        by_contra other
        exact differs other code
      refine ⟨slashed, fun next taken => ?_⟩
      obtain rfl := Option.some.inj taken
      exact (later list).mp rest
    · rintro ⟨slashed, rest⟩
      obtain ⟨code, list⟩ := same slashed
      exact ⟨⟨code, list⟩, (later list).mpr (rest _ rfl)⟩

/-- The list of virtual directories is a map from names to cookies, for every sequence of calls that removes no
directory by a name without its slash. -/
theorem virtualDirs_map (upnpSdkInit : Int) (calls : List Call) :
    answers call Sdk.entries calls ⟨upnpSdkInit, []⟩ =
        answers (callMap upnpSdkInit) OrderedMap.entries calls OrderedMap.empty ↔
      Along (stepMap upnpSdkInit) (RemovesSlashed upnpSdkInit) calls OrderedMap.empty := by
  have holds : Sdk.Holds ⟨upnpSdkInit, []⟩ OrderedMap.empty := rfl
  exact answers_iff holds (fun key member => absurd member List.not_mem_nil) calls

/-- A directory stays when it is removed by the name it was added with. -/
theorem virtualDirs_stays :
    answers call Sdk.entries [.add true (some (bytes "dir")) 5 none, .remove (some (bytes "dir"))] ⟨1, []⟩ ≠
      answers (callMap 1) OrderedMap.entries [.add true (some (bytes "dir")) 5 none, .remove (some (bytes "dir"))]
        OrderedMap.empty := by
  decide

end Pupnp.Api.VirtualDirs
