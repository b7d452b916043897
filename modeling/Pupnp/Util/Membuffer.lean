import Mathlib.Algebra.Group.Nat.Defs
import Mathlib.Data.List.Basic
import Pupnp.Library.CString
import Pupnp.Library.Run

/-!
The buffers that messages are put together in, and that the parsers read. A byte of memory that was never written is
`none`, a `size_t` has 64 bits, and `realloc` has no memory beyond `PTRDIFF_MAX`. There is no result where a byte outside
the memory of a buffer would be read or written, or where an assertion fails.
-/

namespace Pupnp.Util
open Pupnp.CString Pupnp.Run

def UPNP_E_OUTOF_MEMORY : Int := -104
def UPNP_E_OUTOF_BOUNDS : Int := -506

/-! ### Memory -/

/-- What a caller points to: no object is larger than `PTRDIFF_MAX`. -/
abbrev Object := { bytes : List UInt8 // bytes.length < 2 ^ 63 }

def addSize (a b : Nat) : Nat := (a + b) % 2 ^ 64

def subSize (a b : Nat) : Nat := (a + (2 ^ 64 - b)) % 2 ^ 64

def realloc (avail : Nat → Bool) (buf : Option (List (Option UInt8))) (size : Nat) : Option (List (Option UInt8)) :=
  let old := buf.getD []
  if size < 2 ^ 63 && avail size then some (old.take size ++ List.replicate (size - old.length) none) else none

def memcpy (cells : List (Option UInt8)) (i : Nat) (bytes : List UInt8) : Option (List (Option UInt8)) :=
  if i + bytes.length ≤ cells.length then
    some (cells.take i ++ (bytes.map some ++ cells.drop (i + bytes.length)))
  else none

def memmove (cells : List (Option UInt8)) (dst src n : Nat) : Option (List (Option UInt8)) :=
  if n = 0 then some cells
  else if dst + n ≤ cells.length && src + n ≤ cells.length then
    some (cells.take dst ++ ((cells.drop src).take n ++ cells.drop (dst + n)))
  else none

/-! ### membuffer.c -/

structure Membuffer where
  buf : Option (List (Option UInt8))
  length : Nat
  capacity : Nat
  sizeInc : Nat
  deriving DecidableEq, Repr

def MEMBUF_DEF_SIZE_INC : Nat := 5

def membufferInitialize (m : Membuffer) : Membuffer := { m with buf := none, length := 0, capacity := 0 }

def membufferInit : Membuffer := membufferInitialize ⟨none, 0, 0, MEMBUF_DEF_SIZE_INC⟩

/-- The `realloc` of `membuffer_set_size`, and the one of a smaller size -/
def reallocate (avail : Nat → Bool) (m : Membuffer) (newLength allocLen : Nat) : Option (Int × Membuffer) :=
  if allocLen < newLength then none
  else
    match realloc avail m.buf (addSize allocLen 1) with
    | some buf => some (0, { m with buf := some buf, capacity := allocLen })
    | none =>
        match realloc avail m.buf (addSize newLength 1) with
        | some buf => some (0, { m with buf := some buf, capacity := newLength })
        | none => some (UPNP_E_OUTOF_MEMORY, m)

def membufferSetSize (avail : Nat → Bool) (m : Membuffer) (newLength : Nat) : Option (Int × Membuffer) :=
  if m.length ≤ newLength then
    if newLength ≤ m.capacity then some (0, m)
    else
      let diff := subSize newLength m.length
      reallocate avail m newLength (addSize (max m.sizeInc diff) m.capacity)
  else if subSize m.capacity newLength ≤ m.sizeInc then some (0, m)
  else reallocate avail m newLength (addSize newLength m.sizeInc)

def membufferAssign (avail : Nat → Bool) (m : Membuffer) (buf : Option Object) : Option (Int × Membuffer) :=
  match buf with
  | none => some (0, membufferInit)
  | some buf => do
      let (code, m) ← membufferSetSize avail m buf.val.length
      if code ≠ 0 then some (code, m)
      else if buf.val.length ≠ 0 then do
        let cells ← m.buf
        let cells ← memcpy cells 0 buf.val
        let cells ← memcpy cells buf.val.length [0]
        some (0, { m with buf := some cells, length := buf.val.length })
      else some (0, { m with length := buf.val.length })

def membufferInsert (avail : Nat → Bool) (m : Membuffer) (buf : Option Object) (index : Nat) :
    Option (Int × Membuffer) :=
  if m.length < index then some (UPNP_E_OUTOF_BOUNDS, m)
  else
    match buf with
    | none => some (0, m)
    | some buf =>
        if buf.val.length = 0 then some (0, m)
        else do
          let (code, m) ← membufferSetSize avail m (addSize m.length buf.val.length)
          if code ≠ 0 then some (code, m)
          else do
            let cells ← m.buf
            let cells ← memmove cells (addSize index buf.val.length) index (subSize m.length index)
            let cells ← memcpy cells index buf.val
            let length := addSize m.length buf.val.length
            let cells ← memcpy cells length [0]
            some (0, { m with buf := some cells, length })

def membufferAppend (avail : Nat → Bool) (m : Membuffer) (buf : Option Object) : Option (Int × Membuffer) :=
  membufferInsert avail m buf m.length

/-- `membuffer_delete`, with the code of `membuffer_set_size` in it -/
def membufferDelete (avail : Nat → Bool) (m : Membuffer) (index numBytes : Nat) : Option (Int × Membuffer) :=
  if m.length = 0 then some (0, m)
  else do
    let beyond := m.length < addSize index numBytes
    let numBytes := if beyond then subSize m.length index else numBytes
    let copyLen := if beyond then 0 else subSize m.length (addSize index numBytes)
    let cells ← m.buf
    let cells ← memmove cells index (addSize index numBytes) copyLen
    let newLength := subSize m.length numBytes
    let (code, m) ← membufferSetSize avail { m with buf := some cells } newLength
    if code ≠ 0 then some (code, m)
    else do
      let cells ← m.buf
      let cells ← memcpy cells newLength [0]
      some (0, { m with buf := some cells, length := newLength })

def membufferDetach (m : Membuffer) : Option (List (Option UInt8)) × Membuffer := (m.buf, membufferInitialize m)

/-! ### Calls -/

inductive MembufferCall where
  | assign (buf : Option Object)
  | append (buf : Option Object)
  | insert (buf : Option Object) (index : UInt64)
  | delete (index numBytes : UInt64)
  | detach
  | sizeInc (size : UInt32)

namespace MembufferCall

/-- The code of a call, and the buffer behind it. The callers of the functions write `size_inc` themselves. -/
def apply (avail : Nat → Bool) (m : Membuffer) : MembufferCall → Option (Int × Membuffer)
  | assign buf => membufferAssign avail m buf
  | append buf => membufferAppend avail m buf
  | insert buf index => membufferInsert avail m buf index.toNat
  | delete index numBytes => membufferDelete avail m index.toNat numBytes.toNat
  | detach => some (0, (membufferDetach m).2)
  | sizeInc size => some (0, { m with sizeInc := size.toNat })

def effect (content : List UInt8) : MembufferCall → List UInt8
  | assign buf => buf.elim [] Subtype.val
  | append buf => content ++ buf.elim [] Subtype.val
  | insert buf index =>
      if index.toNat ≤ content.length then
        content.take index.toNat ++ (buf.elim [] Subtype.val ++ content.drop index.toNat)
      else content
  | delete index numBytes => content.take index.toNat ++ content.drop (index.toNat + numBytes.toNat)
  | detach => []
  | sizeInc _ => content

end MembufferCall

/-- Where a call does what it does to a list: no empty text is assigned to memory that does not start with a NUL, and
what is deleted starts in the buffer, and its end is a `size_t`. -/
def MembufferCall.Safe (m : Membuffer) : MembufferCall → Prop
  | assign buf => ∀ object ∈ buf, object.val = [] → ∀ cells ∈ m.buf, cells[0]? = some (some 0)
  | delete index numBytes => m.length = 0 ∨ (index.toNat ≤ m.length ∧ index.toNat + numBytes.toNat < 2 ^ 64)
  | _ => True

def MembufferCall.Served (avail : Nat → Bool) (m : Membuffer) (call : MembufferCall) : Prop :=
  ∀ result ∈ call.apply avail m, result.1 ≠ UPNP_E_OUTOF_MEMORY

def membufferStep (call : (Nat → Bool) × MembufferCall) (m : Membuffer) : Option Membuffer :=
  (call.2.apply call.1 m).map Prod.snd

def contentBehind (calls : List ((Nat → Bool) × MembufferCall)) : List UInt8 :=
  calls.foldl (fun content call => call.2.effect content) []

/-- The buffer holds these bytes, with a NUL behind them if it has memory. -/
structure Holds (m : Membuffer) (content : List UInt8) : Prop where
  length : m.length = content.length
  room : m.length ≤ m.capacity
  cells : ∀ cells ∈ m.buf, cells.take m.length = content.map some ∧ cells[m.length]? = some (some 0)
  null : m.buf = none → content = []

/-! ### Reads and writes inside the memory -/

section Memory
variable {cells rest : List (Option UInt8)} {content bytes : List UInt8}

theorem addSize_eq {a b : Nat} (fits : a + b < 2 ^ 64) : addSize a b = a + b := Nat.mod_eq_of_lt fits

theorem subSize_eq {a b : Nat} (fits : a < 2 ^ 64) (less : b ≤ a) : subSize a b = a - b := by
  rw [subSize]
  omega

theorem split_ended {n : Nat} (taken : cells.take n = content.map some)
    (ended : cells[n]? = some (some 0)) : cells = content.map some ++ some 0 :: cells.drop (n + 1) := by
  obtain ⟨inside, last⟩ := List.getElem?_eq_some_iff.mp ended
  calc cells = cells.take n ++ cells.drop n := (List.take_append_drop n cells).symm
    _ = content.map some ++ some 0 :: cells.drop (n + 1) := by rw [taken, List.drop_eq_getElem_cons inside, last]

theorem memcpy_at {front : List (Option UInt8)} (old : List (Option UInt8)) (same : old.length = bytes.length) :
    memcpy (front ++ (old ++ rest)) front.length bytes = some (front ++ (bytes.map some ++ rest)) := by
  rw [memcpy, if_pos (by rw [List.length_append, List.length_append]; omega), List.take_left, ← same,
    ← List.length_append, ← List.append_assoc front old, List.drop_left]

theorem memcpy_room {front : List (Option UInt8)} (room : bytes.length ≤ rest.length) :
    memcpy (front ++ rest) front.length bytes = some (front ++ (bytes.map some ++ rest.drop bytes.length)) := by
  have copied := @memcpy_at (rest.drop bytes.length) bytes front (rest.take bytes.length)
    (List.length_take_of_le room)
  rwa [List.take_append_drop] at copied

theorem memmove_up {front part : List (Option UInt8)} {gap : Nat} (room : gap ≤ rest.length) :
    ∃ hole, hole.length = gap ∧ memmove (front ++ (part ++ rest)) (front.length + gap) front.length part.length =
      some (front ++ (hole ++ (part ++ rest.drop gap))) := by
  by_cases empty : part.length = 0
  · obtain rfl := List.eq_nil_of_length_eq_zero empty
    exact ⟨rest.take gap, List.length_take_of_le room, by rw [memmove, if_pos empty, List.nil_append, List.nil_append,
      List.take_append_drop]⟩
  · refine ⟨(part ++ rest).take gap, List.length_take_of_le (by rw [List.length_append]; omega), ?_⟩
    have inside : (front.length + gap + part.length ≤ (front ++ (part ++ rest)).length &&
        front.length + part.length ≤ (front ++ (part ++ rest)).length) = true := by
      simp only [List.length_append, Bool.and_eq_true, decide_eq_true_eq]
      omega
    rw [memmove, if_neg empty, if_pos inside, List.take_length_add_append, List.drop_left, List.take_left,
      Nat.add_assoc, List.drop_length_add_append, Nat.add_comm gap, List.drop_length_add_append, List.append_assoc]

theorem memmove_down {front hole part : List (Option UInt8)} :
    ∃ behind, memmove (front ++ (hole ++ (part ++ rest))) front.length (front.length + hole.length) part.length =
        some (front ++ (part ++ behind)) ∧ behind.length = hole.length + rest.length := by
  by_cases empty : part.length = 0
  · obtain rfl := List.eq_nil_of_length_eq_zero empty
    exact ⟨hole ++ rest, by rw [memmove, if_pos empty]; rfl, List.length_append⟩
  · have inside : (front.length + part.length ≤ (front ++ (hole ++ (part ++ rest))).length &&
        front.length + hole.length + part.length ≤ (front ++ (hole ++ (part ++ rest))).length) = true := by
      simp only [List.length_append, Bool.and_eq_true, decide_eq_true_eq]
      omega
    refine ⟨(hole ++ (part ++ rest)).drop part.length, ?_, ?_⟩
    · rw [memmove, if_neg empty, if_pos inside, List.take_left, List.drop_length_add_append, List.drop_left,
        List.take_left, List.drop_length_add_append]
    · rw [List.length_drop, List.length_append, List.length_append]
      omega

end Memory

/-! ### The size of a buffer -/

/-- The memory of a buffer is as large as it says. -/
structure Sound (m : Membuffer) : Prop where
  size : ∀ cells ∈ m.buf, cells.length = m.capacity + 1
  noMemory : m.buf = none → m.capacity = 0
  limit : m.capacity + 1 < 2 ^ 63
  sizeInc : m.sizeInc < 2 ^ 63

/-- The buffer has room for so many bytes and a NUL, and what was stored there before is still there. -/
structure Resized (m m' : Membuffer) (newLength : Nat) : Prop extends Sound m' where
  room : newLength ≤ m'.capacity
  length : m'.length = m.length
  keeps : ∀ cells ∈ m.buf, ∃ cells' ∈ m'.buf, ∀ n, n ≤ newLength + 1 → n ≤ cells.length → cells'.take n = cells.take n

def Resizes (m : Membuffer) (newLength : Nat) (result : Option (Int × Membuffer)) : Prop :=
  (∃ m', result = some (0, m') ∧ Resized m m' newLength) ∨ result = some (UPNP_E_OUTOF_MEMORY, m)

section Sizes
variable {avail : Nat → Bool} {m : Membuffer} {newLength : Nat}

theorem realloc_found {buf : Option (List (Option UInt8))} {size : Nat} {cells' : List (Option UInt8)}
    (found : realloc avail buf size = some cells') :
    size < 2 ^ 63 ∧ cells'.length = size ∧
      ∀ cells ∈ buf, ∀ n, n ≤ size → n ≤ cells.length → cells'.take n = cells.take n := by
  simp only [realloc] at found
  split at found
  next enough =>
    cases found
    rw [Bool.and_eq_true, decide_eq_true_eq] at enough
    refine ⟨enough.1, ?_, ?_⟩
    · rw [List.length_append, List.length_take, List.length_replicate]
      omega
    · rintro cells ⟨⟩ n small inside
      rw [Option.getD_some, List.take_append_of_le_length (by rw [List.length_take]; omega), List.take_take,
        Nat.min_eq_left small]
  next => cases found

theorem Sound.realloc (sound : Sound m) {size : Nat} {cells' : List (Option UInt8)} (enough : newLength ≤ size)
    (found : realloc avail m.buf (size + 1) = some cells') :
    Resized m { m with buf := some cells', capacity := size } newLength := by
  obtain ⟨small, length, keeps⟩ := realloc_found found
  refine ⟨⟨?_, nofun, small, sound.sizeInc⟩, enough, rfl, ?_⟩
  · rintro cells ⟨⟩
    exact length
  · exact fun cells held => ⟨cells', rfl, fun n less inside => keeps cells held n (by omega) inside⟩

theorem reallocate_resizes (sound : Sound m) {allocLen : Nat} (enough : newLength ≤ allocLen)
    (fits : allocLen + 1 < 2 ^ 64) : Resizes m newLength (reallocate avail m newLength allocLen) := by
  rw [reallocate, if_neg (by omega), addSize_eq fits, addSize_eq (by omega)]
  split
  next buf found => exact .inl ⟨_, rfl, sound.realloc enough found⟩
  next =>
    split
    next buf found => exact .inl ⟨_, rfl, sound.realloc le_rfl found⟩
    next => exact .inr rfl

theorem Sound.resized (sound : Sound m) (room : newLength ≤ m.capacity) : Resized m m newLength :=
  ⟨sound, room, rfl, fun cells held => ⟨cells, held, fun _ _ _ => rfl⟩⟩

theorem membufferSetSize_resizes (sound : Sound m) (room : m.length ≤ m.capacity)
    (small : newLength < m.length + 2 ^ 63) : Resizes m newLength (membufferSetSize avail m newLength) := by
  have limit := sound.limit
  have sizeInc := sound.sizeInc
  rw [membufferSetSize]
  split
  next grows =>
    split
    next fits => exact .inl ⟨m, rfl, sound.resized fits⟩
    next more =>
      change Resizes m newLength (reallocate avail m newLength
        (addSize (max m.sizeInc (subSize newLength m.length)) m.capacity))
      rw [subSize_eq (by omega) grows, addSize_eq (by omega)]
      exact reallocate_resizes sound (by omega) (by omega)
  next shrinks =>
    split
    next => exact .inl ⟨m, rfl, sound.resized (by omega)⟩
    next less =>
      rw [subSize_eq (by omega) (by omega)] at less
      rw [addSize_eq (by omega)]
      exact reallocate_resizes sound (by omega) (by omega)

end Sizes

end Pupnp.Util
