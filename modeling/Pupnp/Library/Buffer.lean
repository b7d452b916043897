import Pupnp.Library.CString

/-! Memory with bounds: reads and writes through an index, and the C string at one. -/

namespace Pupnp.CString

def store (buf : List UInt8) (i : Nat) (c : UInt8) : Option (List UInt8) :=
  if i < buf.length then some (buf.set i c) else none

/-- The C string at a pointer; `none` is one that runs out of the buffer. -/
def cstrAt (buf : List UInt8) (i : Nat) : Option (List UInt8) :=
  if 0 ∈ buf.drop i then some (cstr (buf.drop i)) else none

def storeAll : List UInt8 → Nat → List UInt8 → Option (List UInt8)
  | buf, _, [] => some buf
  | buf, i, c :: rest => (store buf i c).bind fun buf => storeAll buf (i + 1) rest

def memset (buf : List UInt8) (n : Nat) : Option (List UInt8) := storeAll buf 0 (List.replicate n 0)

/-- What `strncpy` writes: the text up to so many bytes, and NULs for the rest of them. -/
def padded (src : List UInt8) (n : Nat) : List UInt8 := (cstr src ++ List.replicate n 0).take n

def strncpy (buf src : List UInt8) (n : Nat) : Option (List UInt8) := storeAll buf 0 (padded src n)

def snprintf (buf : List UInt8) (size : Nat) (text : List UInt8) : Option (List UInt8) :=
  if size = 0 then some buf else storeAll buf 0 (text.take (size - 1) ++ [0])

/-- `strcpy`, and `sprintf` to the start of a buffer of a text that is put together before. -/
def strcpy (buf src : List UInt8) : Option (List UInt8) := storeAll buf 0 (cstr src ++ [0])

def strcat (buf src : List UInt8) : Option (List UInt8) :=
  (cstrAt buf 0).bind fun text => storeAll buf text.length (cstr src ++ [0])

/-- The buffer has this size and this text, with its end. -/
structure Holds (buf : List UInt8) (size : Nat) (text : List UInt8) : Prop where
  size : buf.length = size
  text : cstrAt buf 0 = some text

variable (front behind : List UInt8)

theorem read_append (k : Nat) : (front ++ behind)[front.length + k]? = behind[k]? := by
  rw [List.getElem?_append_right (Nat.le_add_right _ _), Nat.add_sub_cancel_left]

theorem read_here (c : UInt8) : (front ++ c :: behind)[front.length]? = some c := by
  have here := read_append front (c :: behind) 0
  rwa [Nat.add_zero] at here

theorem store_append (c d : UInt8) : store (front ++ c :: behind) front.length d = some (front ++ d :: behind) := by
  rw [store, if_pos (by rw [List.length_append, List.length_cons]; omega), List.set_append_right _ _ (Nat.le_refl _),
    Nat.sub_self]
  rfl

theorem cstrAt_append {text : List UInt8} (noNul : 0 ∉ text) :
    cstrAt (front ++ (text ++ 0 :: behind)) front.length = some text := by
  rw [cstrAt, List.drop_left, if_pos (List.mem_append_right _ List.mem_cons_self), cstr,
    takeWhile_append_stop _ (by decide)]
  congr 1
  exact List.takeWhile_eq_self_iff.mpr fun c member => decide_eq_true fun nul => noNul (nul ▸ member)

theorem storeAll_append {bytes : List UInt8} (room : bytes.length ≤ behind.length) :
    storeAll (front ++ behind) front.length bytes = some (front ++ (bytes ++ behind.drop bytes.length)) := by
  induction bytes generalizing front behind with
  | nil => rfl
  | cons c rest ih =>
    cases behind with
    | nil => simp at room
    | cons d behind =>
      have later := @ih (front ++ [c]) behind (by simpa using room)
      rw [List.length_append, List.length_singleton, List.append_assoc, List.append_assoc] at later
      rw [storeAll, store_append]
      exact later

theorem storeAll_start {buf bytes : List UInt8} (room : bytes.length ≤ buf.length) :
    storeAll buf 0 bytes = some (bytes ++ buf.drop bytes.length) := storeAll_append [] buf room

theorem padded_length (src : List UInt8) (n : Nat) : (padded src n).length = n := by
  rw [padded, List.length_take, List.length_append, List.length_replicate]
  omega

theorem strncpy_eq {buf : List UInt8} {n : Nat} (room : n ≤ buf.length) (src : List UInt8) :
    strncpy buf src n = some (padded src n ++ buf.drop n) := by
  rw [strncpy, storeAll_start (by rwa [padded_length]), padded_length]

theorem strncpy_store {buf : List UInt8} {n : Nat} (room : n < buf.length) (src : List UInt8) :
    (strncpy buf src n).bind (store · n 0) = some (padded src n ++ 0 :: buf.drop (n + 1)) := by
  have stored := store_append (padded src n) (buf.drop (n + 1)) (buf.get ⟨n, room⟩) 0
  rw [padded_length] at stored
  rw [strncpy_eq room.le, List.drop_eq_getElem_cons room]
  exact stored

theorem memset_whole {buf : List UInt8} {size : Nat} (length : buf.length = size) :
    memset buf size = some (List.replicate size 0) := by
  subst length
  rw [memset, storeAll_start (by rw [List.length_replicate]), List.length_replicate, List.drop_length, List.append_nil]

theorem cstr_append_nul {text : List UInt8} (noNul : 0 ∉ text) (rest : List UInt8) :
    cstr (text ++ 0 :: rest) = text := by
  rw [cstr, takeWhile_append_stop _ (by decide)]
  exact cstr_eq_self noNul

theorem cstr_padded (src : List UInt8) (n : Nat) (rest : List UInt8) :
    cstr (padded src n ++ 0 :: rest) = (cstr src).take n := by
  have noNul : 0 ∉ (cstr src).take n := fun member => cstr_noNul src (List.mem_of_mem_take member)
  rw [padded, List.take_append, List.take_replicate, List.append_assoc]
  cases min (n - (cstr src).length) n with
  | zero => exact cstr_append_nul noNul rest
  | succ k => exact cstr_append_nul noNul _

theorem Holds.of_ended {buf : List UInt8} {size : Nat} (length : buf.length = size) (ended : 0 ∈ buf) :
    Holds buf size (cstr buf) := ⟨length, by rw [cstrAt, List.drop_zero, if_pos ended]⟩

theorem Holds.copy {size n : Nat} (inside : n < size) {buf : List UInt8} (length : buf.length = size)
    (src : List UInt8) : Holds (padded src n ++ 0 :: buf.drop (n + 1)) size ((cstr src).take n) := by
  rw [← cstr_padded src n (buf.drop (n + 1))]
  apply Holds.of_ended
  · rw [List.length_append, padded_length, List.length_cons, List.length_drop, length]
    omega
  · exact List.mem_append_right _ List.mem_cons_self

theorem snprintf_holds {buf text : List UInt8} {size : Nat} (length : buf.length = size) (noNul : 0 ∉ text)
    (room : text.length < size) : ∃ after, snprintf buf size text = some after ∧ Holds after size text := by
  have whole : text.take (size - 1) = text := List.take_of_length_le (by omega)
  have fits : (text ++ [0]).length ≤ buf.length := by
    rw [List.length_append, List.length_singleton]
    omega
  rw [snprintf, if_neg (by omega), whole, storeAll_start fits]
  refine ⟨_, rfl, ?_⟩
  have ended := @Holds.of_ended (text ++ [0] ++ buf.drop (text ++ [0]).length) size
  rw [List.append_assoc, List.singleton_append, cstr_append_nul noNul] at ended
  rw [List.append_assoc, List.singleton_append]
  apply ended
  · rw [List.length_append, List.length_cons, List.length_drop, List.length_append, List.length_singleton]
    omega
  · exact List.mem_append_right _ List.mem_cons_self

/-! ### Texts put together in a buffer -/

theorem storeAll_full {bytes : List UInt8} (full : behind.length < bytes.length) :
    storeAll (front ++ behind) front.length bytes = none := by
  induction bytes generalizing front behind with
  | nil => exact absurd full (Nat.not_lt_zero _)
  | cons c rest ih =>
    cases behind with
    | nil => rw [storeAll, store, if_neg (by rw [List.append_nil]; exact Nat.lt_irrefl _), Option.bind_none]
    | cons d behind =>
      have later := @ih (front ++ [c]) behind (by simpa using full)
      rw [List.length_append, List.length_singleton, List.append_assoc] at later
      rw [storeAll, store_append]
      exact later

theorem Holds.split {buf : List UInt8} {size : Nat} {text : List UInt8} (holds : Holds buf size text) :
    ∃ behind, buf = text ++ 0 :: behind ∧ text.length + behind.length + 1 = size ∧ 0 ∉ text := by
  obtain ⟨length, found⟩ := holds
  rw [cstrAt, List.drop_zero] at found
  split at found
  next ended =>
    obtain ⟨front, behind, whole, noNul⟩ := List.eq_append_cons_of_mem ended
    rw [whole, cstr_append_nul noNul] at found
    cases found
    refine ⟨behind, whole, ?_, noNul⟩
    rw [← length, whole, List.length_append, List.length_cons]
    omega
  next => cases found

/-- The result is a buffer with this text; where there is no room for the text, a byte was stored behind the end. -/
def Fills (size : Nat) (text : List UInt8) (result : Option (List UInt8)) : Prop :=
  if text.length < size then ∃ buf, result = some buf ∧ Holds buf size text else result = none

theorem Fills.isSome {size : Nat} {text : List UInt8} {result : Option (List UInt8)} (fills : Fills size text result) :
    result.isSome = true ↔ text.length < size := by
  rw [Fills] at fills
  split at fills
  next room =>
    obtain ⟨buf, rfl, -⟩ := fills
    exact iff_of_true rfl room
  next full =>
    subst fills
    exact iff_of_false (by decide) full

theorem storeAll_fills {size : Nat} {text src : List UInt8} (noNul : 0 ∉ text) (noNul' : 0 ∉ src)
    (room : text.length + behind.length = size) :
    Fills size (text ++ src) (storeAll (text ++ behind) text.length (src ++ [0])) := by
  have length : (src ++ [0]).length = src.length + 1 := by rw [List.length_append, List.length_singleton]
  rw [Fills]
  split
  next inside =>
    rw [List.length_append] at inside
    refine ⟨_, storeAll_append text behind (by omega), ?_⟩
    have ended := @Holds.of_ended ((text ++ src) ++ 0 :: behind.drop (src ++ [0]).length) size
    rw [cstr_append_nul (by simp [noNul, noNul'])] at ended
    rw [List.append_assoc src, List.singleton_append, ← List.append_assoc]
    apply ended
    · rw [List.length_append, List.length_append, List.length_cons, List.length_drop]
      omega
    · exact List.mem_append_right _ List.mem_cons_self
  next full =>
    rw [List.length_append] at full
    exact storeAll_full text behind (by omega)

theorem strcpy_fills {buf : List UInt8} {size : Nat} (length : buf.length = size) (src : List UInt8) :
    Fills size (cstr src) (strcpy buf src) := by
  have fills := @storeAll_fills buf size [] (cstr src) (by decide) (cstr_noNul src) (by rw [← length]; exact Nat.zero_add _)
  exact fills

theorem strcat_fills {buf text : List UInt8} {size : Nat} (holds : Holds buf size text) (src : List UInt8) :
    Fills size (text ++ cstr src) (strcat buf src) := by
  obtain ⟨behind, rfl, room, noNul⟩ := holds.split
  rw [strcat, holds.text, Option.bind_some]
  exact storeAll_fills (0 :: behind) noNul (cstr_noNul src) (by rw [List.length_cons]; omega)

theorem Fills.strcat {size : Nat} {text : List UInt8} {result : Option (List UInt8)} (fills : Fills size text result)
    (src : List UInt8) : Fills size (text ++ cstr src) (result.bind (strcat · src)) := by
  rw [Fills] at fills
  split at fills
  next room =>
    obtain ⟨buf, rfl, holds⟩ := fills
    exact strcat_fills holds src
  next full =>
    subst fills
    rw [Fills, if_neg (by rw [List.length_append]; omega), Option.bind_none]

end Pupnp.CString
