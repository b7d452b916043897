import Pupnp.Util.Membuffer

/-!
Calls on a buffer next to a list of bytes: where they keep the text and the NUL behind it, along a run, and what the
others do.
-/

namespace Pupnp.Util
open Pupnp.Run

/-! ### The calls -/

structure Keeps (m : Membuffer) (content : List UInt8) : Prop extends Sound m, Holds m content

def Makes (content : List UInt8) (result : Option (Int × Membuffer)) : Prop :=
  ∃ code m', result = some (code, m') ∧ (code ≠ UPNP_E_OUTOF_MEMORY → Keeps m' content)

section Calls
variable {avail : Nat → Bool} {m : Membuffer} {content : List UInt8}

theorem Keeps.makes (keeps : Keeps m content) (code : Int) : Makes content (some (code, m)) :=
  ⟨code, m, rfl, fun _ => keeps⟩

theorem Makes.outOfMemory (m : Membuffer) : Makes content (some (UPNP_E_OUTOF_MEMORY, m)) :=
  ⟨_, m, rfl, fun other => absurd rfl other⟩

theorem membufferInitialize_keeps {sizeInc : Nat} (small : sizeInc < 2 ^ 63) : Keeps ⟨none, 0, 0, sizeInc⟩ [] :=
  ⟨⟨nofun, fun _ => rfl, Nat.one_lt_two_pow (by decide), small⟩, ⟨rfl, le_rfl, nofun, fun _ => rfl⟩⟩

theorem Sound.ended (sound : Sound m) {front : List UInt8} {behind : List (Option UInt8)}
    (length : front.length + behind.length = m.capacity + 1) (room : front.length ≤ m.capacity) :
    ∃ cells, memcpy (front.map some ++ behind) front.length [0] = some cells ∧
      Keeps { m with buf := some cells, length := front.length } front := by
  have same : (front.map some).length = front.length := List.length_map _
  have stored := @memcpy_room behind [0] (front.map some) (by rw [List.length_singleton]; omega)
  rw [same] at stored
  refine ⟨_, stored, ⟨⟨?_, nofun, sound.limit, sound.sizeInc⟩, ⟨rfl, room, ?_, nofun⟩⟩⟩
  · rintro cells ⟨⟩
    simp only [List.length_append, List.length_map, List.length_drop, List.length_singleton]
    omega
  · rintro cells ⟨⟩
    constructor
    · exact same ▸ List.take_left
    · change (front.map some ++ some 0 :: behind.drop 1)[front.length]? = _
      rw [← same, List.getElem?_append_right le_rfl, Nat.sub_self]
      rfl

theorem Keeps.split (keeps : Keeps m content) {cells : List (Option UInt8)} (held : m.buf = some cells) :
    ∃ rest, cells = content.map some ++ some 0 :: rest ∧ content.length + rest.length = m.capacity := by
  obtain ⟨taken, ended⟩ := keeps.cells cells held
  refine ⟨cells.drop (m.length + 1), split_ended taken ended, ?_⟩
  have size := keeps.size cells held
  have room := keeps.room
  rw [List.length_drop, size, ← keeps.length]
  omega

theorem Keeps.grown (keeps : Keeps m content) {m' : Membuffer} {newLength : Nat} (resized : Resized m m' newLength)
    (more : 0 < newLength) (grows : content.length ≤ newLength) :
    ∃ rest, m'.buf = some (content.map some ++ rest) ∧ content.length + rest.length = m'.capacity + 1 := by
  have text : ∃ cells', m'.buf = some cells' ∧ cells'.take content.length = content.map some := by
    cases held : m.buf with
    | some cells =>
      obtain ⟨cells', held', same⟩ := resized.keeps cells held
      obtain ⟨rest, whole, length⟩ := keeps.split held
      refine ⟨cells', held', ?_⟩
      have inside : content.length ≤ cells.length := by
        rw [whole, List.length_append, List.length_map]
        omega
      rw [same content.length (by omega) inside, whole, ← List.length_map some, List.take_left]
    | none =>
      obtain rfl := keeps.null held
      cases held' : m'.buf with
      | some cells' => exact ⟨cells', rfl, rfl⟩
      | none =>
        have room := resized.room
        rw [resized.noMemory held'] at room
        omega
  obtain ⟨cells', held', taken⟩ := text
  refine ⟨cells'.drop content.length, ?_, ?_⟩
  · rw [held', ← taken, List.take_append_drop]
  · have size := resized.size cells' held'
    have room := resized.room
    rw [List.length_drop, size]
    omega

theorem membufferSetSize_nothing (empty : m.length = 0) : membufferSetSize avail m 0 = some (0, m) := by
  rw [membufferSetSize, if_pos empty.le, if_pos (Nat.zero_le _)]

theorem Keeps.emptied (keeps : Keeps m content) {m' : Membuffer} (sized : membufferSetSize avail m 0 = some (0, m'))
    (resized : Resized m m' 0) (safe : ∀ cells ∈ m.buf, cells[0]? = some (some 0)) :
    Keeps { m' with length := 0 } [] := by
  refine ⟨⟨resized.size, resized.noMemory, resized.limit, resized.sizeInc⟩, ⟨rfl, Nat.zero_le _, ?_, fun _ => rfl⟩⟩
  intro cells' held'
  refine ⟨rfl, ?_⟩
  cases held : m.buf with
  | none =>
    have empty : m.length = 0 := by
      rw [keeps.length, keeps.null held]
      rfl
    rw [membufferSetSize_nothing empty] at sized
    cases sized
    rw [held] at held'
    cases held'
  | some cells =>
    obtain ⟨cells'', held'', same⟩ := resized.keeps cells held
    obtain rfl := Option.some.inj (held'.symm.trans held'')
    have size := keeps.size cells held
    have first := congrArg (·[0]?) (same 1 le_rfl (by omega))
    simpa [List.getElem?_take, safe cells held] using first

theorem membufferAssign_makes (keeps : Keeps m content) (buf : Option Object)
    (safe : ∀ object ∈ buf, object.val = [] → ∀ cells ∈ m.buf, cells[0]? = some (some 0)) :
    Makes (buf.elim [] Subtype.val) (membufferAssign avail m buf) := by
  cases buf with
  | none => exact (membufferInitialize_keeps (by decide)).makes 0
  | some object =>
    obtain ⟨bytes, limit⟩ := object
    have safe' := safe ⟨bytes, limit⟩ rfl
    rcases @membufferSetSize_resizes avail m bytes.length keeps.toSound keeps.room (by omega) with
      ⟨m', sized, resized⟩ | full
    · simp only [membufferAssign, sized, Option.bind_eq_bind, Option.bind_some, ne_eq, not_true, if_false]
      have room := resized.room
      by_cases empty : bytes.length = 0
      · obtain rfl := List.eq_nil_of_length_eq_zero empty
        simp only [List.length_nil, not_true, if_false]
        exact (keeps.emptied sized resized (safe' rfl)).makes 0
      · cases held : m'.buf with
        | none =>
          rw [resized.noMemory held] at room
          omega
        | some cells' =>
          have size := resized.size cells' held
          have copied := @memcpy_room cells' bytes [] (by omega)
          obtain ⟨cells, stored, keeps'⟩ := @Sound.ended m' resized.toSound bytes (cells'.drop bytes.length)
            (by rw [List.length_drop]; omega) room
          simp only [empty, not_false_iff, if_true, Option.bind_some]
          rw [List.length_nil, List.nil_append, List.nil_append] at copied
          rw [copied, Option.bind_some, stored]
          exact keeps'.makes 0
    · simp only [membufferAssign, full, Option.bind_eq_bind, Option.bind_some, ne_eq]
      exact .outOfMemory m

theorem membufferInsert_inside (keeps : Keeps m content) (object : Object) (some_ : object.val.length ≠ 0) {i : Nat}
    (inside : i ≤ content.length) :
    Makes (content.take i ++ (object.val ++ content.drop i)) (membufferInsert avail m (some object) i) := by
  obtain ⟨bytes, limit⟩ := object
  have some' : bytes.length ≠ 0 := some_
  have limit' := keeps.limit
  have room' := keeps.room
  have same := keeps.length
  have sum : addSize m.length bytes.length = content.length + bytes.length := by
    rw [addSize_eq (by omega), same]
  simp only [membufferInsert, if_neg (Nat.not_lt.mpr (same ▸ inside)), if_neg some', sum]
  rcases @membufferSetSize_resizes avail m (content.length + bytes.length) keeps.toSound keeps.room (by omega) with
    ⟨m', sized, resized⟩ | full
  · simp only [sized, Option.bind_eq_bind, Option.bind_some, ne_eq, not_true, if_false]
    obtain ⟨rest, held, size⟩ := keeps.grown resized (by omega) (by omega)
    have room := resized.room
    set front := content.take i
    set part := content.drop i
    have frontLength : (front.map some).length = i := by
      rw [List.length_map, List.length_take_of_le inside]
    have partLength : (part.map some).length = content.length - i := by
      rw [List.length_map, List.length_drop]
    obtain ⟨hole, holeLength, moved⟩ := @memmove_up rest (front.map some) (part.map some) bytes.length (by omega)
    have copied := @memcpy_at (part.map some ++ rest.drop bytes.length) bytes (front.map some) hole holeLength
    have whole : content.map some ++ rest = front.map some ++ (part.map some ++ rest) := by
      rw [← List.append_assoc, ← List.map_append, List.take_append_drop]
    have less : subSize m'.length i = (part.map some).length := by
      rw [resized.length, same, subSize_eq (by omega) inside, partLength]
    have sum' : addSize i bytes.length = (front.map some).length + bytes.length := by
      rw [addSize_eq (by omega), frontLength]
    have total : addSize m'.length bytes.length = (front ++ (bytes ++ part)).length := by
      rw [resized.length, sum, List.length_append, List.length_append, List.length_take_of_le inside, List.length_drop]
      omega
    obtain ⟨cells, stored, keeps'⟩ := @Sound.ended m' resized.toSound (front ++ (bytes ++ part))
      (rest.drop bytes.length) (by rw [← total, resized.length, sum, List.length_drop]; omega)
      (by rw [← total, resized.length, sum]; exact room)
    rw [← total] at stored keeps'
    rw [frontLength] at moved copied sum'
    simp only [List.map_append, List.append_assoc] at stored
    simp only [held, whole, less, sum', moved, copied, stored, Option.bind_some]
    exact keeps'.makes 0
  · simp only [full, Option.bind_eq_bind, Option.bind_some, ne_eq]
    exact .outOfMemory m

theorem membufferInsert_makes (keeps : Keeps m content) (buf : Option Object) (i : Nat) :
    Makes (if i ≤ content.length then content.take i ++ (buf.elim [] Subtype.val ++ content.drop i) else content)
      (membufferInsert avail m buf i) := by
  by_cases inside : i ≤ content.length
  · have within : ¬m.length < i := by rwa [keeps.length, Nat.not_lt]
    rw [if_pos inside]
    cases buf with
    | none =>
      rw [Option.elim_none, List.nil_append, List.take_append_drop, membufferInsert, if_neg within]
      exact keeps.makes 0
    | some object =>
      by_cases empty : object.val.length = 0
      · have nothing := List.eq_nil_of_length_eq_zero empty
        rw [Option.elim_some, nothing, List.nil_append, List.take_append_drop, membufferInsert, if_neg within]
        simp only [if_pos empty]
        exact keeps.makes 0
      · exact membufferInsert_inside keeps object empty inside
  · unfold membufferInsert
    rw [if_neg inside, if_pos (by rwa [keeps.length, ← Nat.not_le])]
    exact keeps.makes _

theorem split_deleted {i n : Nat} (inside : i ≤ content.length) :
    ∃ front hole part, content = front ++ (hole ++ part) ∧ content.take i = front ∧ content.drop (i + n) = part ∧
      front.length = i ∧ hole.length = min n (hole.length + part.length) := by
  refine ⟨content.take i, (content.drop i).take n, content.drop (i + n), ?_, rfl, rfl,
    List.length_take_of_le inside, ?_⟩
  · rw [← List.drop_drop, List.take_append_drop, List.take_append_drop]
  · rw [List.length_take, List.length_drop, List.length_drop]
    omega

/-- `membuffer_delete` of bytes that are there, up to the end of the buffer if there are not so many -/
theorem membufferDelete_inside (keeps : Keeps m content) {i n : Nat} (some_ : m.length ≠ 0) (inside : i ≤ m.length)
    (fits : i + n < 2 ^ 64) : Makes (content.take i ++ content.drop (i + n)) (membufferDelete avail m i n) := by
  have limit := keeps.limit
  have room := keeps.room
  have sum : addSize i n = i + n := addSize_eq fits
  cases held : m.buf with
  | none =>
    rw [keeps.length, keeps.null held] at some_
    exact absurd rfl some_
  | some cells =>
    obtain ⟨rest, whole, size⟩ := keeps.split held
    obtain ⟨front, hole, part, split, front_, part_, rfl, holeLength⟩ := @split_deleted content i n (keeps.length ▸ inside)
    have same := keeps.length
    rw [split, List.length_append, List.length_append] at same size
    have count : (if m.length < front.length + n then subSize m.length front.length else n) = hole.length := by
      rw [subSize_eq (by omega) inside]
      split <;> omega
    have source : addSize front.length hole.length = front.length + (hole.map some).length := by
      rw [addSize_eq (by omega), List.length_map]
    have copied : (if m.length < front.length + n then 0
        else subSize m.length (front.length + (hole.map some).length)) = (part.map some).length := by
      rw [List.length_map, subSize_eq (by omega) (by omega), List.length_map]
      split <;> omega
    have total : subSize m.length hole.length = (front ++ part).length := by
      rw [subSize_eq (by omega) (by omega), List.length_append]
      omega
    obtain ⟨behind, moved, behindLength⟩ := @memmove_down (some 0 :: rest) (front.map some) (hole.map some)
      (part.map some)
    rw [List.length_map] at moved
    have memory : cells = front.map some ++ (hole.map some ++ (part.map some ++ some 0 :: rest)) := by
      rw [whole, split]
      simp only [List.map_append, List.append_assoc]
    have sound : Sound { m with buf := some (front.map some ++ (part.map some ++ behind)) } := by
      refine ⟨?_, nofun, limit, keeps.sizeInc⟩
      rintro cells ⟨⟩
      simp only [List.length_append, List.length_map, List.length_cons] at behindLength ⊢
      omega
    unfold membufferDelete
    simp only [if_neg some_, held, sum, count, source, copied, memory, moved, total, Option.bind_eq_bind,
      Option.bind_some]
    rw [front_, part_]
    rcases @membufferSetSize_resizes avail _ (front ++ part).length sound room (by
      change (front ++ part).length < m.length + 2 ^ 63
      rw [List.length_append]
      omega) with ⟨m', sized, resized⟩ | full
    · obtain ⟨cells', held', same'⟩ := resized.keeps _ rfl
      have taken : cells'.take (front ++ part).length = (front ++ part).map some := by
        have text : front.map some ++ (part.map some ++ behind) = (front ++ part).map some ++ behind := by
          rw [List.map_append, List.append_assoc]
        rw [same' (front ++ part).length (by omega) (by simp), text, ← List.length_map some, List.take_left]
      obtain ⟨after, stored, keeps'⟩ := @Sound.ended m' resized.toSound (front ++ part)
        (cells'.drop (front ++ part).length) (by
          have room' := resized.room
          rw [List.length_drop, resized.size cells' held']
          omega) resized.room
      rw [← taken, List.take_append_drop] at stored
      simp only [sized, Option.mem_def.mp held', stored, Option.bind_some, ne_eq, not_true, if_false]
      exact keeps'.makes 0
    · simp only [full, Option.bind_some, ne_eq]
      exact .outOfMemory _

theorem MembufferCall.makes (keeps : Keeps m content) (call : MembufferCall) (safe : call.Safe m) :
    Makes (call.effect content) (call.apply avail m) := by
  cases call with
  | assign buf => exact membufferAssign_makes keeps buf safe
  | append buf =>
    have appended := @membufferInsert_makes avail m content keeps buf m.length
    rw [if_pos keeps.length.le, keeps.length, List.take_length, List.drop_length, List.append_nil] at appended
    rw [MembufferCall.apply, membufferAppend, keeps.length]
    exact appended
  | insert buf index => exact membufferInsert_makes keeps buf index.toNat
  | delete index numBytes =>
    by_cases empty : m.length = 0
    · have nothing := List.eq_nil_of_length_eq_zero (keeps.length.symm.trans empty)
      rw [MembufferCall.effect, nothing, List.take_nil, List.drop_nil, MembufferCall.apply, membufferDelete,
        if_pos empty]
      exact (nothing ▸ keeps).makes 0
    · obtain ⟨inside, fits⟩ := safe.resolve_left empty
      exact membufferDelete_inside keeps empty inside fits
  | detach => exact (membufferInitialize_keeps keeps.sizeInc).makes 0
  | sizeInc size =>
    have small : size.toNat < 2 ^ 63 := size.toNat_lt.trans (by decide)
    have kept : Keeps { m with sizeInc := size.toNat } content :=
      ⟨⟨keeps.size, keeps.noMemory, keeps.limit, small⟩, ⟨keeps.length, keeps.room, keeps.cells, keeps.null⟩⟩
    exact kept.makes 0

theorem membufferRun_keeps {calls : List ((Nat → Bool) × MembufferCall)} (keeps : Keeps m content)
    (good : Along membufferStep (fun call m => call.2.Safe m ∧ call.2.Served call.1 m) calls m) :
    ∃ m', run membufferStep calls m = some m' ∧
      Keeps m' (calls.foldl (fun content call => call.2.effect content) content) := by
  induction calls generalizing m content with
  | nil => exact ⟨m, rfl, keeps⟩
  | cons call calls ih =>
    obtain ⟨⟨safe, served⟩, later⟩ := good
    obtain ⟨code, next, applied, made⟩ := call.2.makes keeps safe
    have stepped : membufferStep call m = some next := by
      rw [membufferStep, applied]
      rfl
    obtain ⟨m', ran, keeps'⟩ := ih (made (served _ applied)) (later next stepped)
    refine ⟨m', ?_, keeps'⟩
    rw [run, stepped, Option.bind_some, ran]

end Calls

/-! ### The other calls -/

section Others
variable {avail : Nat → Bool} {m m' : Membuffer} {content : List UInt8} {code : Int} {i n : Nat}

theorem reallocate_code {newLength allocLen : Nat} (found : reallocate avail m newLength allocLen = some (code, m')) :
    code = 0 ∨ code = UPNP_E_OUTOF_MEMORY := by
  rw [reallocate] at found
  split at found
  next => cases found
  next =>
    split at found
    next =>
      cases found
      exact .inl rfl
    next =>
      split at found
      next =>
        cases found
        exact .inl rfl
      next =>
        cases found
        exact .inr rfl

theorem membufferSetSize_code {newLength : Nat} (found : membufferSetSize avail m newLength = some (code, m')) :
    code = 0 ∨ code = UPNP_E_OUTOF_MEMORY := by
  rw [membufferSetSize] at found
  split at found
  next =>
    split at found
    next =>
      cases found
      exact .inl rfl
    next => exact reallocate_code found
  next =>
    split at found
    next =>
      cases found
      exact .inl rfl
    next => exact reallocate_code found

theorem memmove_inside {cells moved : List (Option UInt8)} {dst src count : Nat}
    (found : memmove cells dst src count = some moved) : count = 0 ∨ dst + count ≤ cells.length := by
  rw [memmove] at found
  split at found
  next none_ => exact .inl none_
  next =>
    split at found
    next inside =>
      rw [Bool.and_eq_true, decide_eq_true_eq] at inside
      exact .inr inside.1
    next => cases found

/-- The length that `membuffer_delete` leaves, and what it moves inside the memory before -/
theorem membufferDelete_length (some_ : m.length ≠ 0) (found : membufferDelete avail m i n = some (code, m'))
    (served : code ≠ UPNP_E_OUTOF_MEMORY) :
    (m.length < addSize i n ∧ m'.length = subSize m.length (subSize m.length i)) ∨
      (addSize i n ≤ m.length ∧ m'.length = subSize m.length n ∧ ∃ cells, m.buf = some cells ∧
        (subSize m.length (addSize i n) = 0 ∨ i + subSize m.length (addSize i n) ≤ cells.length)) := by
  unfold membufferDelete at found
  rw [if_neg some_] at found
  simp only [Option.bind_eq_bind, Option.bind_eq_some_iff] at found
  obtain ⟨cells, held, moved, move, ⟨code', m''⟩, sized, found⟩ := found
  rcases membufferSetSize_code sized with rfl | rfl
  · simp only [ne_eq, not_true, if_false, Option.bind_eq_some_iff, Option.some.injEq, Prod.mk.injEq] at found
    obtain ⟨-, -, -, -, -, rfl⟩ := found
    by_cases beyond : m.length < addSize i n
    · exact .inl ⟨beyond, by simp only [if_pos beyond]⟩
    · simp only [if_neg beyond] at move ⊢
      exact .inr ⟨Nat.not_lt.mp beyond, trivial, cells, held, memmove_inside move⟩
  · have other : UPNP_E_OUTOF_MEMORY ≠ 0 := by decide
    rw [if_pos other] at found
    cases found
    exact absurd rfl served

theorem membufferDelete_grows (keeps : Keeps m content) (less : i < 2 ^ 64) (less' : n < 2 ^ 64)
    (beside : ¬(m.length = 0 ∨ (i ≤ m.length ∧ i + n < 2 ^ 64)))
    (found : membufferDelete avail m i n = some (code, m')) (served : code ≠ UPNP_E_OUTOF_MEMORY) :
    m.length < m'.length := by
  rw [not_or] at beside
  have limit := keeps.limit
  have room := keeps.room
  rcases membufferDelete_length beside.1 found served with ⟨beyond, length⟩ | ⟨wraps, length, cells, held, move⟩
  · simp only [addSize, subSize] at beyond length
    omega
  · have size := keeps.size cells held
    simp only [addSize, subSize] at wraps length move
    omega

theorem membufferAssign_unended (keeps : Keeps m content) {object : Object} (nothing : object.val = [])
    {cells : List (Option UInt8)} (held : m.buf = some cells) (other : cells[0]? ≠ some (some 0))
    (found : membufferAssign avail m (some object) = some (code, m')) (served : code ≠ UPNP_E_OUTOF_MEMORY) :
    ∃ cells' ∈ m'.buf, cells'[0]? ≠ some (some 0) := by
  have length : object.val.length = 0 := by rw [nothing, List.length_nil]
  simp only [membufferAssign, length] at found
  rcases @membufferSetSize_resizes avail m 0 keeps.toSound keeps.room (by omega) with ⟨m'', sized, resized⟩ | full
  · simp only [sized, Option.bind_eq_bind, Option.bind_some, ne_eq, not_true, if_false] at found
    cases found
    obtain ⟨cells', held', same⟩ := resized.keeps cells held
    have size := keeps.size cells held
    refine ⟨cells', held', ?_⟩
    have first := congrArg (·[0]?) (same 1 le_rfl (by omega))
    simp only [List.getElem?_take, Nat.zero_lt_one, if_true] at first
    rwa [first]
  · have failed : UPNP_E_OUTOF_MEMORY ≠ 0 := by decide
    simp only [full, Option.bind_eq_bind, Option.bind_some] at found
    rw [if_pos failed] at found
    cases found
    exact absurd rfl served

theorem MembufferCall.differs (keeps : Keeps m content) (call : MembufferCall) (beside : ¬call.Safe m)
    (found : call.apply avail m = some (code, m')) (served : code ≠ UPNP_E_OUTOF_MEMORY) :
    ¬Holds m' (call.effect content) := by
  intro holds
  cases call with
  | assign buf =>
    rw [MembufferCall.Safe] at beside
    push Not at beside
    obtain ⟨object, rfl, nothing, cells, held, other⟩ := beside
    obtain ⟨cells', held', other'⟩ := membufferAssign_unended keeps nothing held other found served
    have ended := (holds.cells cells' held').2
    rw [holds.length, MembufferCall.effect, Option.elim_some, nothing] at ended
    exact other' ended
  | delete index numBytes =>
    have grows := membufferDelete_grows keeps index.toNat_lt numBytes.toNat_lt beside found served
    have shrinks := holds.length
    rw [MembufferCall.effect, List.length_append, List.length_take, List.length_drop] at shrinks
    rw [keeps.length] at grows
    omega
  | append => exact beside trivial
  | insert => exact beside trivial
  | detach => exact beside trivial
  | sizeInc => exact beside trivial

theorem Keeps.run_iff {calls : List ((Nat → Bool) × MembufferCall)} (keeps : Keeps m content)
    (served : Along membufferStep (fun call m => call.2.Served call.1 m) calls m) :
    Along membufferStep (fun call m => call.2.Safe m) calls m ↔
      ∀ n, ∃ m', run membufferStep (calls.take n) m = some m' ∧
        Holds m' ((calls.take n).foldl (fun content call => call.2.effect content) content) := by
  induction calls generalizing m content with
  | nil => exact iff_of_true trivial fun n => ⟨m, by rw [List.take_nil, run], by rw [List.take_nil]; exact keeps.toHolds⟩
  | cons call calls ih =>
    obtain ⟨memory, later⟩ := served
    constructor
    · rintro ⟨safe, rest⟩ n
      obtain ⟨code, next, applied, made⟩ := call.2.makes keeps safe
      have stepped : membufferStep call m = some next := by
        rw [membufferStep, applied]
        rfl
      cases n with
      | zero => exact ⟨m, rfl, keeps.toHolds⟩
      | succ n =>
        rw [List.take_succ_cons, run, stepped]
        exact (ih (made (memory _ applied)) (later next stepped)).mp (rest next stepped) n
    · intro each
      obtain ⟨m', ran, holds⟩ := each 1
      rw [List.take_succ_cons, List.take_zero, run] at ran
      obtain ⟨next, stepped, same⟩ := Option.bind_eq_some_iff.mp ran
      cases same
      obtain ⟨⟨code, next⟩, applied, rfl⟩ := Option.map_eq_some_iff.mp stepped
      have safe : call.2.Safe m := by
        by_contra beside
        exact call.2.differs keeps beside applied (memory _ applied) holds
      obtain ⟨code', next', applied', made⟩ := call.2.makes keeps safe
      refine ⟨safe, fun t taken => ?_⟩
      obtain rfl := Option.some.inj (stepped.symm.trans taken)
      obtain ⟨rfl, rfl⟩ := Prod.mk.inj (Option.some.inj (applied.symm.trans applied'))
      refine (ih (made (memory _ applied)) (later _ stepped)).mpr fun n => ?_
      have more := each (n + 1)
      rwa [List.take_succ_cons, run, stepped] at more

end Others

/-- In every run of safe calls for which there is memory, a buffer holds what the calls make of a list. -/
theorem membufferRun_holds (calls : List ((Nat → Bool) × MembufferCall))
    (good : Along membufferStep (fun call m => call.2.Safe m ∧ call.2.Served call.1 m) calls membufferInit) :
    ∃ m, run membufferStep calls membufferInit = some m ∧ Holds m (contentBehind calls) := by
  obtain ⟨m, ran, keeps⟩ := membufferRun_keeps (membufferInitialize_keeps (by decide)) good
  exact ⟨m, ran, keeps.toHolds⟩

instance decidableSafe (m : Membuffer) : ∀ call : MembufferCall, Decidable (call.Safe m)
  | .assign buf =>
      inferInstanceAs (Decidable (∀ object ∈ buf, object.val = [] → ∀ cells ∈ m.buf, cells[0]? = some (some 0)))
  | .delete index numBytes => inferInstanceAs
      (Decidable (m.length = 0 ∨ (index.toNat ≤ m.length ∧ index.toNat + numBytes.toNat < 2 ^ 64)))
  | .append _ | .insert .. | .detach | .sizeInc _ => isTrue trivial

instance decidableServed (avail : Nat → Bool) (m : Membuffer) (call : MembufferCall) : Decidable (call.Served avail m) :=
  inferInstanceAs (Decidable (∀ result ∈ call.apply avail m, result.1 ≠ UPNP_E_OUTOF_MEMORY))

def ample (_ : Nat) : Bool := true

def withText (call : Option Object → MembufferCall) (text : List UInt8) (short : text.length < 2 ^ 63) :
    (Nat → Bool) × MembufferCall := (ample, call (some ⟨text, short⟩))

def mixedCalls : List ((Nat → Bool) × MembufferCall) :=
  [withText .append [97, 98, 99] (by decide), (ample, .delete 1 5), withText (.insert · 0) [120, 121] (by decide),
    (ample, .detach)]

/-- In a run for which there is memory, the buffer holds at every moment what the calls make of a list exactly if all
calls are safe. -/
theorem membufferRun_exact (calls : List ((Nat → Bool) × MembufferCall))
    (served : Along membufferStep (fun call m => call.2.Served call.1 m) calls membufferInit) :
    Along membufferStep (fun call m => call.2.Safe m) calls membufferInit ↔
      ∀ n, ∃ m, run membufferStep (calls.take n) membufferInit = some m ∧ Holds m (contentBehind (calls.take n)) :=
  (membufferInitialize_keeps (by decide)).run_iff served

theorem membufferRun_exact_mixed : Along membufferStep (fun call m => call.2.Safe m) mixedCalls membufferInit ∧
    ∀ n, ∃ m, run membufferStep (mixedCalls.take n) membufferInit = some m ∧ Holds m (contentBehind (mixedCalls.take n)) :=
  have safe := by decide +kernel
  ⟨safe, (membufferRun_exact mixedCalls (by decide +kernel)).mp safe⟩

theorem membufferRun_holds_mixed :
    ∃ m, run membufferStep mixedCalls membufferInit = some m ∧ Holds m (contentBehind mixedCalls) :=
  membufferRun_holds mixedCalls (by decide +kernel)

/-- An empty text takes the place of a letter. -/
def emptyingCalls : List ((Nat → Bool) × MembufferCall) :=
  [withText .assign [97] (by decide), withText .assign [] (by decide)]

/-- A byte is deleted behind the end of a buffer. -/
def deletingCalls : List ((Nat → Bool) × MembufferCall) := [withText .assign [97] (by decide), (ample, .delete 3 1)]

/-- The empty text is not ended, and the buffer grows from one byte to three. -/
theorem membufferRun_differs :
    (∃ m, run membufferStep emptyingCalls membufferInit = some m ∧ contentBehind emptyingCalls = [] ∧
        m.buf.map (·[m.length]?) = some (some (some 97)) ∧ ¬Holds m (contentBehind emptyingCalls)) ∧
      ∃ m, run membufferStep deletingCalls membufferInit = some m ∧ contentBehind deletingCalls = [97] ∧
        m.length = 3 ∧ ¬Holds m (contentBehind deletingCalls) := by
  constructor
  · refine ⟨⟨some [some 97, some 0, none, none, none, none], 0, 5, 5⟩, by decide +kernel, rfl, rfl, ?_⟩
    intro holds
    have ended := (holds.cells _ rfl).2
    cases ended
  · have content : contentBehind deletingCalls = [97] := by decide +kernel
    refine ⟨⟨some [some 97, some 0, none, some 0, none, none], 3, 5, 5⟩, by decide +kernel, content, rfl, ?_⟩
    intro holds
    have length := holds.length
    rw [content] at length
    cases length

end Pupnp.Util
