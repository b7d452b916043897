import Pupnp.Library.Buffer
import Pupnp.Uri.RemoveDots

/-!
`remove_dots` in place: the buffer, the read and the write pointer, and no access outside the string.
-/

namespace Pupnp.Uri
open Pupnp.CString Pupnp.Path

/-! ### Checked access -/

/-- `strncmp(in, literal, strlen(literal)) == 0`, which reads up to the first difference. -/
def startsAt (buf : List UInt8) (i : Nat) : List UInt8 → Option Bool
  | [] => some true
  | c :: literal => do
      if (← buf[i]?) = c then startsAt buf (i + 1) literal else some false

def endAt (buf : List UInt8) (i : Nat) : Option Bool := buf[i]?.map isEndPath

def endsAt (buf : List UInt8) (i : Nat) (literal : List UInt8) : Option Bool := do
  if ← startsAt buf i literal then endAt buf (i + literal.length) else some false

section Access
variable (front behind : List UInt8)

theorem startsAt_string {literal : List UInt8} (noNul : 0 ∉ literal) (rest : List UInt8) :
    startsAt (front ++ (rest ++ [0])) front.length literal = some (decide (literal <+: rest)) := by
  induction literal generalizing front rest with
  | nil => simp [startsAt]
  | cons c literal ih =>
    have here := read_append front (rest ++ [0]) 0
    rw [Nat.add_zero] at here
    rw [startsAt, here]
    cases rest with
    | nil =>
      have other : (0 : UInt8) ≠ c := fun same => noNul (same ▸ List.mem_cons_self)
      simp [other]
    | cons d rest =>
      have next := ih (front ++ [d]) (fun member => noNul (List.mem_cons_of_mem _ member)) rest
      rw [List.append_assoc, List.length_append] at next
      by_cases same : d = c
      · subst same
        simpa using next
      · have differs : ¬ c :: literal <+: d :: rest := fun front => same (List.cons_prefix_cons.mp front).1.symm
        simp [same, differs]

theorem endAt_string {rest : List UInt8} {k : Nat} (inside : k ≤ rest.length) :
    endAt (front ++ (rest ++ [0])) (front.length + k) = some (isEndPath (charAt rest k)) := by
  rw [endAt, read_append]
  rcases Nat.lt_or_eq_of_le inside with before | rfl
  · rw [List.getElem?_append_left before, charAt, List.getD_eq_getElem?_getD, List.getElem?_eq_getElem before]
    rfl
  · rw [List.getElem?_append_right (Nat.le_refl _), Nat.sub_self, charAt, List.getD_eq_getElem?_getD,
      List.getElem?_eq_none (Nat.le_refl _)]
    rfl

theorem endsAt_string {literal : List UInt8} (noNul : 0 ∉ literal) (rest : List UInt8) :
    endsAt (front ++ (rest ++ [0])) front.length literal =
      some (decide (literal <+: rest) && isEndPath (charAt rest literal.length)) := by
  rw [endsAt, startsAt_string front noNul]
  by_cases starts : literal <+: rest
  · simp [starts, endAt_string front starts.length_le]
  · simp [starts]

end Access

/-! ### The run of the source -/

structure DotBuffer where
  buf : List UInt8
  input : Nat
  out : Nat
  deriving DecidableEq, Repr

def trimLast (buf : List UInt8) : Nat → Option Nat
  | 0 => some 0
  | out + 1 => do
      if (← buf[out]?) = SLASH then some out else trimLast buf out

def copyByte (s : DotBuffer) : Option DotBuffer := do
  let c ← s.buf[s.input]?
  let buf ← store s.buf s.out c
  some ⟨buf, s.input + 1, s.out + 1⟩

def copyWhile (p : UInt8 → Bool) : Nat → DotBuffer → Option DotBuffer
  | 0, s => some s
  | count + 1, s => do
      if p (← s.buf[s.input]?) then
        let next ← copyByte s
        copyWhile p count next
      else some s

/-- `out[0] = '\0'`, which a debug build does where `out` is behind `in`. -/
def markOut (debug : Bool) (s : DotBuffer) : Option DotBuffer :=
  if debug && s.out < s.input then (store s.buf s.out 0).map fun buf => { s with buf := buf } else some s

/-- One round of the loop; `none` is a failed assertion or an access outside the buffer. -/
def dotRound (debug : Bool) (max : Nat) (s : DotBuffer) : Option DotBuffer := do
  if s.input < s.out || max ≤ s.input then none
  else if ← startsAt s.buf s.input (bytes "./") then some { s with input := s.input + 2 }
  else if ← startsAt s.buf s.input (bytes "../") then some { s with input := s.input + 3 }
  else if ← startsAt s.buf s.input (bytes "/./") then some { s with input := s.input + 2 }
  else if ← endsAt s.buf s.input (bytes "/.") then
    let buf ← store s.buf (s.input + 1) SLASH
    some { s with buf := buf, input := s.input + 1 }
  else if ← (do if ← startsAt s.buf s.input (bytes "/../") then some true else endsAt s.buf s.input (bytes "/..")) then
    let next ← (do
      if ← endAt s.buf (s.input + 3) then
        let buf ← store s.buf (s.input + 2) SLASH
        some { s with buf := buf, input := s.input + 2 }
      else some { s with input := s.input + 3 })
    let out ← trimLast next.buf next.out
    markOut debug { next with out := out }
  else if ← endsAt s.buf s.input (bytes ".") then some { s with input := s.input + 1 }
  else if ← endsAt s.buf s.input (bytes "..") then some { s with input := s.input + 2 }
  else
    let next ← (do if (← s.buf[s.input]?) = SLASH then copyByte s else some s)
    let next ← copyWhile (fun c => c ≠ SLASH && notEndPath c) (max - next.input) next
    markOut debug next

def dotRounds (debug : Bool) (max : Nat) : Nat → DotBuffer → Option DotBuffer
  | 0, _ => none
  | rounds + 1, s => do
      if ← endAt s.buf s.input then some s
      else
        let next ← dotRound debug max s
        dotRounds debug max rounds next

/-- `remove_dots(buf, size)` on a buffer: what it holds after the call. -/
def removeDotsInPlace (debug : Bool) (buf : List UInt8) (size : Nat) : Option (List UInt8) := do
  let s ← dotRounds debug size (size + 1) ⟨buf, 0, 0⟩
  let s ← copyWhile (fun _ => true) (size - s.input) s
  if s.out < size then store s.buf s.out 0 else some s.buf

/-! ### The state a buffer holds -/

def holding (d : DotState) (gap : List UInt8) : DotBuffer :=
  ⟨d.out ++ gap ++ (d.rest ++ [0]), (d.out ++ gap).length, d.out.length⟩

/-- The buffer of a string of `size` bytes in the course of the loop. -/
def Holds (size : Nat) (d : DotState) (s : DotBuffer) : Prop :=
  ∃ gap, s = holding d gap ∧ d.out.length + gap.length + d.rest.length = size ∧ 0 ∉ d.rest

section Moves
variable {size : Nat} {out rest gap : List UInt8}

theorem holds_skip (length : out.length + gap.length + rest.length = size) (noNul : 0 ∉ rest) {n : Nat}
    (inside : n ≤ rest.length) :
    Holds size ⟨out, rest.drop n⟩ { holding ⟨out, rest⟩ gap with input := (holding ⟨out, rest⟩ gap).input + n } := by
  refine ⟨gap ++ rest.take n, ?_, ?_, fun member => noNul (List.mem_of_mem_drop member)⟩
  · have taken : (rest.take n).length = n := by rw [List.length_take, Nat.min_eq_left inside]
    unfold holding
    rw [DotBuffer.mk.injEq]
    refine ⟨?_, ?_, rfl⟩
    · dsimp only
      rw [← List.append_assoc out, List.append_assoc (out ++ gap), ← List.append_assoc (rest.take n),
        List.take_append_drop]
    · dsimp only
      rw [← List.append_assoc, @List.length_append _ (out ++ gap), taken]
  · dsimp only
    rw [List.length_append, List.length_take, List.length_drop]
    omega

theorem store_holding {n : Nat} (inside : n < rest.length) :
    store (holding ⟨out, rest⟩ gap).buf ((holding ⟨out, rest⟩ gap).input + n) SLASH =
      some (holding ⟨out, rest.take n ++ SLASH :: rest.drop (n + 1)⟩ gap).buf := by
  have split : rest = rest.take n ++ rest[n] :: rest.drop (n + 1) := by
    rw [List.getElem_cons_drop, List.take_append_drop]
  have taken : (rest.take n).length = n := by
    rw [List.length_take]
    omega
  have buf : (holding ⟨out, rest⟩ gap).buf = (out ++ gap ++ rest.take n) ++ rest[n] :: (rest.drop (n + 1) ++ [0]) := by
    unfold holding
    dsimp only
    conv_lhs => rw [split]
    simp only [List.append_assoc, List.cons_append]
  have at_ : (holding ⟨out, rest⟩ gap).input + n = (out ++ gap ++ rest.take n).length := by
    rw [@List.length_append _ _ (rest.take n), taken]
    rfl
  rw [buf, at_, store_append]
  unfold holding
  simp only [List.append_assoc, List.cons_append]

theorem trimLast_parent (out behind : List UInt8) :
    trimLast (out ++ behind) out.length = some (parent out).length := by
  induction out using List.reverseRecOn generalizing behind with
  | nil => rfl
  | append_singleton out c ih =>
    have here := read_append out (c :: behind) 0
    rw [Nat.add_zero] at here
    rw [List.append_assoc, List.length_append, List.singleton_append, List.length_singleton, trimLast, here]
    by_cases slash : c = SLASH
    · subst slash
      simp [parent]
    · have same : parent (out ++ [c]) = parent out := by
        simp [parent, slash]
      rw [same]
      simpa [slash] using ih (c :: behind)

theorem copyByte_holding (c : UInt8) : ∃ gap', copyByte (holding ⟨out, c :: rest⟩ gap) =
    some (holding ⟨out ++ [c], rest⟩ gap') ∧ gap'.length = gap.length := by
  have here : (holding ⟨out, c :: rest⟩ gap).buf[(holding ⟨out, c :: rest⟩ gap).input]? = some c := by
    have read := read_append (out ++ gap) (c :: rest ++ [0]) 0
    rw [Nat.add_zero] at read
    exact read
  cases gap with
  | nil =>
    refine ⟨[], ?_, rfl⟩
    rw [copyByte, here]
    simp [holding, store_append]
  | cons g gap =>
    refine ⟨gap ++ [c], ?_, by rw [List.length_append]; rfl⟩
    rw [copyByte, here]
    simp [holding, store_append]
    omega

theorem copyWhile_holding (p : UInt8 → Bool) : ∃ gap', copyWhile p rest.length (holding ⟨out, rest⟩ gap) =
    some (holding ⟨out ++ rest.takeWhile p, rest.dropWhile p⟩ gap') ∧ gap'.length = gap.length := by
  induction rest generalizing out gap with
  | nil =>
    refine ⟨gap, ?_, rfl⟩
    rw [List.takeWhile_nil, List.append_nil]
    rfl
  | cons c rest ih =>
    have here : (holding ⟨out, c :: rest⟩ gap).buf[(holding ⟨out, c :: rest⟩ gap).input]? = some c := by
      have read := read_append (out ++ gap) (c :: rest ++ [0]) 0
      rw [Nat.add_zero] at read
      exact read
    by_cases kind : p c = true
    · obtain ⟨middle, copied, size⟩ := @copyByte_holding out rest gap c
      obtain ⟨gap', run, length⟩ := @ih (out ++ [c]) middle
      refine ⟨gap', ?_, length.trans size⟩
      rw [List.length_cons, copyWhile, here, List.takeWhile_cons_of_pos kind, List.dropWhile_cons_of_pos kind]
      rw [List.append_assoc] at run
      simpa [kind, copied] using run
    · refine ⟨gap, ?_, rfl⟩
      rw [List.length_cons, copyWhile, here, List.takeWhile_cons_of_neg kind, List.dropWhile_cons_of_neg kind,
        List.append_nil]
      simp [kind]

theorem markOut_holding (debug : Bool) (d : DotState) : ∃ gap', markOut debug (holding d gap) = some (holding d gap') ∧
    gap'.length = gap.length := by
  cases gap with
  | nil =>
    refine ⟨[], ?_, rfl⟩
    simp [markOut, holding]
  | cons g gap =>
    cases debug with
    | false => exact ⟨g :: gap, by simp [markOut], rfl⟩
    | true =>
      refine ⟨0 :: gap, ?_, rfl⟩
      simp [markOut, holding, store_append]

end Moves

section Steps
variable {size : Nat} {out rest : List UInt8} {s : DotBuffer}

theorem holds_slash {gap : List UInt8} (length : out.length + gap.length + rest.length = size) (noNul : 0 ∉ rest) {n : Nat}
    (inside : n < rest.length) : ∃ buf, store (holding ⟨out, rest⟩ gap).buf ((holding ⟨out, rest⟩ gap).input + n) SLASH =
      some buf ∧ Holds size ⟨out, SLASH :: rest.drop (n + 1)⟩
        { holding ⟨out, rest⟩ gap with buf := buf, input := (holding ⟨out, rest⟩ gap).input + n } := by
  refine ⟨_, store_holding inside, ?_⟩
  have taken : (rest.take n).length = n := by
    rw [List.length_take]
    omega
  have text : 0 ∉ rest.take n ++ SLASH :: rest.drop (n + 1) := by
    rw [List.mem_append, List.mem_cons, not_or, not_or]
    exact ⟨fun member => noNul (List.mem_of_mem_take member), by decide, fun member => noNul (List.mem_of_mem_drop member)⟩
  have skipped := @holds_skip size out (rest.take n ++ SLASH :: rest.drop (n + 1)) gap
    (by rw [List.length_append, List.length_cons, List.length_drop]; omega) text n
    (by rw [List.length_append]; omega)
  rw [List.drop_append_of_le_length (Nat.le_of_eq taken.symm), List.drop_of_length_le (Nat.le_of_eq taken),
    List.nil_append] at skipped
  exact skipped

theorem holds_trim (held : Holds size ⟨out, rest⟩ s) :
    ∃ o, trimLast s.buf s.out = some o ∧ Holds size ⟨parent out, rest⟩ { s with out := o } := by
  obtain ⟨gap, rfl, length, noNul⟩ := held
  obtain ⟨last, split⟩ := parent_start out
  refine ⟨(parent out).length, ?_, last ++ gap, ?_, ?_, noNul⟩
  · rw [show (holding ⟨out, rest⟩ gap).buf = out ++ (gap ++ (rest ++ [0])) from List.append_assoc _ _ _]
    exact trimLast_parent out _
  · unfold holding
    dsimp only
    rw [← List.append_assoc (parent out), split]
  · dsimp only at length ⊢
    rw [← split, List.length_append] at length
    rw [List.length_append]
    omega

theorem holds_mark (debug : Bool) (held : Holds size ⟨out, rest⟩ s) :
    ∃ t, markOut debug s = some t ∧ Holds size ⟨out, rest⟩ t := by
  obtain ⟨gap, rfl, length, noNul⟩ := held
  obtain ⟨gap', marked, same⟩ := @markOut_holding gap debug ⟨out, rest⟩
  exact ⟨_, marked, gap', rfl, same ▸ length, noNul⟩

theorem holds_read {c : UInt8} (held : Holds size ⟨out, c :: rest⟩ s) : s.buf[s.input]? = some c := by
  obtain ⟨gap, rfl, -, -⟩ := held
  have read := read_append (out ++ gap) (c :: rest ++ [0]) 0
  rw [Nat.add_zero] at read
  exact read

theorem holds_copyByte {c : UInt8} (held : Holds size ⟨out, c :: rest⟩ s) :
    ∃ t, copyByte s = some t ∧ Holds size ⟨out ++ [c], rest⟩ t := by
  obtain ⟨gap, rfl, length, noNul⟩ := held
  obtain ⟨gap', copied, same⟩ := @copyByte_holding out rest gap c
  refine ⟨_, copied, gap', rfl, ?_, fun member => noNul (List.mem_cons_of_mem c member)⟩
  dsimp only at length ⊢
  rw [List.length_append, List.length_singleton]
  rw [List.length_cons] at length
  omega

theorem holds_copyWhile (p : UInt8 → Bool) (held : Holds size ⟨out, rest⟩ s) :
    ∃ t, copyWhile p (size - s.input) s = some t ∧ Holds size ⟨out ++ rest.takeWhile p, rest.dropWhile p⟩ t := by
  obtain ⟨gap, rfl, length, noNul⟩ := held
  obtain ⟨gap', copied, same⟩ := @copyWhile_holding out rest gap p
  dsimp only at length
  have count : size - (holding ⟨out, rest⟩ gap).input = rest.length := by
    simp only [holding, List.length_append]
    omega
  refine ⟨_, by rw [count]; exact copied, gap', rfl, ?_, fun member => noNul ((List.dropWhile_sublist _).mem member)⟩
  have split := congrArg List.length (List.takeWhile_append_dropWhile (p := p) (l := rest))
  rw [List.length_append] at split
  dsimp only
  rw [List.length_append]
  omega

theorem holds_segment (held : Holds size ⟨out, rest⟩ s) (nonempty : rest ≠ []) :
    ∃ next t, (s.buf[s.input]?.bind fun c => if c = SLASH then copyByte s else some s) = some next ∧
      copyWhile (fun c => c ≠ SLASH && notEndPath c) (size - next.input) next = some t ∧
      Holds size ⟨out ++ leadingSegment rest, rest.drop (leadingSegment rest).length⟩ t := by
  obtain ⟨c, tail, rfl⟩ := List.exists_cons_of_ne_nil nonempty
  rw [holds_read held, Option.bind_some, leadingSegment]
  by_cases slash : c = SLASH
  · obtain ⟨next, copied, holds⟩ := holds_copyByte held
    obtain ⟨t, run, whole⟩ := holds_copyWhile (fun c => c ≠ SLASH && notEndPath c) holds
    rw [if_pos slash, if_pos (show charAt (c :: tail) 0 = SLASH from slash)]
    refine ⟨next, t, copied, run, ?_⟩
    rw [slash, List.append_assoc] at whole
    rw [List.length_cons, List.drop_succ_cons, List.drop_succ_cons, List.drop_zero, drop_takeWhile_length]
    exact whole
  · obtain ⟨t, run, whole⟩ := holds_copyWhile (fun c => c ≠ SLASH && notEndPath c) held
    rw [if_neg slash, if_neg (show ¬ charAt (c :: tail) 0 = SLASH from slash)]
    refine ⟨s, t, rfl, run, ?_⟩
    rw [drop_takeWhile_length]
    exact whole

/-- Behind `/..` the input goes on with the slash that follows, or with one in the place of the last dot. -/
theorem holds_climb {gap : List UInt8} (length : out.length + gap.length + rest.length = size) (noNul : 0 ∉ rest)
    (three : 3 ≤ rest.length) : ∃ next,
      ((endAt (holding ⟨out, rest⟩ gap).buf ((holding ⟨out, rest⟩ gap).input + 3)).bind fun ended =>
        if ended = true then
          (store (holding ⟨out, rest⟩ gap).buf ((holding ⟨out, rest⟩ gap).input + 2) SLASH).bind fun buf =>
            some { holding ⟨out, rest⟩ gap with buf := buf, input := (holding ⟨out, rest⟩ gap).input + 2 }
        else some { holding ⟨out, rest⟩ gap with input := (holding ⟨out, rest⟩ gap).input + 3 }) = some next ∧
      Holds size ⟨out, if isEndPath (charAt rest 3) = true then SLASH :: rest.drop 3 else rest.drop 3⟩ next := by
  have third : endAt (holding ⟨out, rest⟩ gap).buf ((holding ⟨out, rest⟩ gap).input + 3) =
      some (isEndPath (charAt rest 3)) := endAt_string (out ++ gap) three
  rw [third, Option.bind_some]
  by_cases ended : isEndPath (charAt rest 3) = true
  · rw [if_pos ended, if_pos ended]
    obtain ⟨buf, stored, holds⟩ := holds_slash length noNul (Nat.lt_of_succ_le three)
    rw [stored]
    exact ⟨_, rfl, holds⟩
  · rw [if_neg ended, if_neg ended]
    exact ⟨_, rfl, holds_skip length noNul three⟩

end Steps

section Comparisons
variable (out gap : List UInt8) {rest literal : List UInt8} {n : Nat}

theorem starts_iff (width : literal.length = n) (noNul : 0 ∉ literal) :
    literal <+: rest ↔ strncmp rest literal n = 0 := by
  rw [strncmp_starts width noNul]
  exact ⟨fun ⟨tail, split⟩ => ⟨tail, split.symm⟩, fun ⟨tail, split⟩ => ⟨tail, split.symm⟩⟩

theorem startsAt_holding (width : literal.length = n) (noNul : 0 ∉ literal) :
    startsAt (holding ⟨out, rest⟩ gap).buf (holding ⟨out, rest⟩ gap).input literal =
      some (decide (strncmp rest literal n = 0)) := by
  have found := startsAt_string (out ++ gap) noNul rest
  rw [decide_eq_decide.mpr (starts_iff width noNul)] at found
  exact found

theorem endsAt_holding (width : literal.length = n) (noNul : 0 ∉ literal) :
    endsAt (holding ⟨out, rest⟩ gap).buf (holding ⟨out, rest⟩ gap).input literal =
      some (decide (strncmp rest literal n = 0) && isEndPath (charAt rest n)) := by
  have found := endsAt_string (out ++ gap) noNul rest
  rw [decide_eq_decide.mpr (starts_iff width noNul), width] at found
  exact found

theorem starts_length (width : literal.length = n) (noNul : 0 ∉ literal) (begins : strncmp rest literal n = 0) :
    n ≤ rest.length := by
  rw [← width]
  exact ((starts_iff width noNul).mpr begins).length_le

end Comparisons

/-- A round of the source is a round of the model, with every access inside the buffer. -/
theorem dotRound_holds (debug : Bool) {size : Nat} {d : DotState} {s : DotBuffer} (held : Holds size d s)
    (more : isEndPath (charAt d.rest 0) = false) :
    ∃ t, dotRound debug size s = some t ∧ Holds size (dotStep d) t := by
  obtain ⟨gap, rfl, length, noNul⟩ := held
  obtain ⟨out, rest⟩ := d
  dsimp only at more length noNul
  have nonempty : rest ≠ [] := by
    rintro rfl
    exact absurd more (by decide)
  have positive := List.length_pos_iff.mpr nonempty
  have asserted : ¬ (decide ((holding ⟨out, rest⟩ gap).input < (holding ⟨out, rest⟩ gap).out) ||
      decide (size ≤ (holding ⟨out, rest⟩ gap).input)) = true := by
    simp only [holding, List.length_append, Bool.or_eq_true, decide_eq_true_eq, not_or]
    omega
  have either (a : Prop) [Decidable a] (b : Bool) : (if decide a = true then some true else some b) =
      some (decide a || b) := by
    by_cases known : a <;> simp [known]
  unfold dotRound dotStep
  rw [if_neg asserted, @startsAt_holding out gap rest (bytes "./") 2 rfl (by decide),
    @startsAt_holding out gap rest (bytes "../") 3 rfl (by decide),
    @startsAt_holding out gap rest (bytes "/./") 3 rfl (by decide),
    @endsAt_holding out gap rest (bytes "/.") 2 rfl (by decide),
    @startsAt_holding out gap rest (bytes "/../") 4 rfl (by decide),
    @endsAt_holding out gap rest (bytes "/..") 3 rfl (by decide),
    @endsAt_holding out gap rest (bytes ".") 1 rfl (by decide),
    @endsAt_holding out gap rest (bytes "..") 2 rfl (by decide)]
  simp only [Option.bind_eq_bind, Option.bind_some, either]
  by_cases curA : strncmp rest (bytes "./") 2 = 0
  · rw [if_pos (decide_eq_true curA), if_pos curA]
    exact ⟨_, rfl, holds_skip length noNul (starts_length rfl (by decide) curA)⟩
  rw [if_neg (by rw [decide_eq_true_eq]; exact curA), if_neg curA]
  by_cases parentA : strncmp rest (bytes "../") 3 = 0
  · rw [if_pos (decide_eq_true parentA), if_pos parentA]
    exact ⟨_, rfl, holds_skip length noNul (starts_length rfl (by decide) parentA)⟩
  rw [if_neg (by rw [decide_eq_true_eq]; exact parentA), if_neg parentA]
  by_cases curB : strncmp rest (bytes "/./") 3 = 0
  · rw [if_pos (decide_eq_true curB), if_pos curB]
    exact ⟨_, rfl, holds_skip length noNul (Nat.le_of_succ_le (starts_length rfl (by decide) curB))⟩
  rw [if_neg (by rw [decide_eq_true_eq]; exact curB), if_neg curB]
  by_cases curEnd : (decide (strncmp rest (bytes "/.") 2 = 0) && isEndPath (charAt rest 2)) = true
  · rw [if_pos curEnd, if_pos curEnd]
    rw [Bool.and_eq_true, decide_eq_true_eq] at curEnd
    have two : 2 ≤ rest.length := starts_length rfl (by decide) curEnd.1
    obtain ⟨buf, stored, holds⟩ := holds_slash length noNul (Nat.lt_of_succ_le two)
    rw [stored]
    exact ⟨_, rfl, holds⟩
  rw [if_neg curEnd, if_neg curEnd]
  by_cases parentC : (decide (strncmp rest (bytes "/../") 4 = 0) ||
      (decide (strncmp rest (bytes "/..") 3 = 0) && isEndPath (charAt rest 3))) = true
  · rw [if_pos parentC, if_pos parentC]
    rw [Bool.or_eq_true, Bool.and_eq_true, decide_eq_true_eq, decide_eq_true_eq] at parentC
    have three : 3 ≤ rest.length := by
      rcases parentC with start | ⟨start, -⟩
      · exact Nat.le_of_succ_le (starts_length rfl (by decide) start)
      · exact starts_length rfl (by decide) start
    obtain ⟨next, climbed, reached⟩ := holds_climb length noNul three
    obtain ⟨o, trimmed, shorter⟩ := holds_trim reached
    obtain ⟨t, marked, holds⟩ := holds_mark debug shorter
    rw [climbed, Option.bind_some, trimmed]
    exact ⟨t, marked, holds⟩
  rw [if_neg parentC, if_neg parentC]
  by_cases curD : (decide (strncmp rest (bytes ".") 1 = 0) && isEndPath (charAt rest 1)) = true
  · rw [if_pos curD, if_pos curD]
    rw [Bool.and_eq_true, decide_eq_true_eq] at curD
    exact ⟨_, rfl, holds_skip length noNul (starts_length rfl (by decide) curD.1)⟩
  rw [if_neg curD, if_neg curD]
  by_cases parentD : (decide (strncmp rest (bytes "..") 2 = 0) && isEndPath (charAt rest 2)) = true
  · rw [if_pos parentD, if_pos parentD]
    rw [Bool.and_eq_true, decide_eq_true_eq] at parentD
    exact ⟨_, rfl, holds_skip length noNul (starts_length rfl (by decide) parentD.1)⟩
  rw [if_neg parentD, if_neg parentD]
  obtain ⟨next, t, first, copied, held⟩ := holds_segment ⟨gap, rfl, length, noNul⟩ nonempty
  obtain ⟨last, marked, holds⟩ := holds_mark debug held
  rw [first, Option.bind_some, copied]
  exact ⟨last, marked, holds⟩

/-- The loop ends within a round for each byte still to be read, and one to find the end. -/
theorem dotRounds_holds (debug : Bool) {size : Nat} {d : DotState} {s : DotBuffer} (held : Holds size d s)
    {rounds : Nat} (enough : d.rest.length < rounds) :
    ∃ t, dotRounds debug size rounds s = some t ∧ Holds size (removeDotsLoop d) t := by
  induction d using removeDotsLoop.induct generalizing s rounds with
  | case1 d ended =>
    obtain ⟨rounds, rfl⟩ := Nat.exists_eq_add_one_of_ne_zero (Nat.ne_zero_of_lt enough)
    have stops := held
    obtain ⟨gap, rfl, -, -⟩ := stops
    have here : endAt (holding d gap).buf (holding d gap).input = some (isEndPath (charAt d.rest 0)) :=
      endAt_string (d.out ++ gap) (Nat.zero_le _)
    rw [dotRounds, here, ended, removeDotsLoop, dif_pos ended]
    exact ⟨_, rfl, held⟩
  | case2 d more step =>
    obtain ⟨rounds, rfl⟩ := Nat.exists_eq_add_one_of_ne_zero (Nat.ne_zero_of_lt enough)
    have inside := Bool.eq_false_iff.mpr more
    obtain ⟨next, round, holds⟩ := dotRound_holds debug held inside
    obtain ⟨gap, rfl, -, -⟩ := held
    have here : endAt (holding d gap).buf (holding d gap).input = some (isEndPath (charAt d.rest 0)) :=
      endAt_string (d.out ++ gap) (Nat.zero_le _)
    have shorter := dotStep_shorter d inside
    have few : (dotStep d).rest.length < rounds := by omega
    obtain ⟨t, run, reached⟩ := step holds few
    rw [dotRounds, here, inside, removeDotsLoop, dif_neg more]
    refine ⟨t, ?_, reached⟩
    simp only [Option.bind_eq_bind, Option.bind_some, Bool.false_eq_true, if_false, round]
    exact run

/-- On a string and its terminator the call comes through, and leaves the result of the model. -/
theorem removeDotsInPlace_holds (debug : Bool) {s : List UInt8} (noNul : 0 ∉ s) :
    ∃ gap, removeDotsInPlace debug (s ++ [0]) s.length = some (removeDots s s.length ++ gap) ∧
      (removeDots s s.length ++ gap).length = s.length + 1 ∧ gap.head? = some 0 := by
  have start : Holds s.length ⟨[], s⟩ ⟨s ++ [0], 0, 0⟩ := ⟨[], rfl, by simp, noNul⟩
  obtain ⟨t, run, held⟩ := dotRounds_holds debug start (Nat.lt_succ_self _)
  obtain ⟨last, copied, holds⟩ := holds_copyWhile (fun _ => true) held
  have result : (removeDotsLoop ⟨[], s⟩).out ++ (removeDotsLoop ⟨[], s⟩).rest = removeDots s s.length := by
    rw [removeDots, List.take_length]
  have all : (removeDotsLoop ⟨[], s⟩).rest.takeWhile (fun _ => true) = (removeDotsLoop ⟨[], s⟩).rest :=
    List.takeWhile_eq_self_iff.mpr fun _ _ => rfl
  have none : (removeDotsLoop ⟨[], s⟩).rest.dropWhile (fun _ => true) = [] :=
    List.dropWhile_eq_nil_iff.mpr fun _ _ => rfl
  rw [all, none, result] at holds
  obtain ⟨gap, rfl, length, -⟩ := holds
  dsimp only at length
  rw [removeDotsInPlace, run]
  simp only [Option.bind_eq_bind, Option.bind_some, copied]
  cases gap with
  | nil =>
    refine ⟨[0], ?_, ?_, rfl⟩
    · rw [if_neg (by simp [holding] at length ⊢; omega)]
      simp [holding]
    · simp at length ⊢
      omega
  | cons g gap =>
    refine ⟨0 :: gap ++ [0], ?_, ?_, rfl⟩
    · rw [if_pos (by simp [holding] at length ⊢; omega)]
      simp [holding, store_append]
    · simp at length ⊢
      omega

/-- What `remove_dots` leaves in the string is what the standard says, followed by the rest as it was. -/
theorem removeDotsInPlace_rfc (debug : Bool) {s : List UInt8} (noNul : 0 ∉ s) :
    ∃ buf, removeDotsInPlace debug (s ++ [0]) s.length = some buf ∧ buf.length = s.length + 1 ∧
      cstr buf = removeDotSegments (pathPart s) ++ s.dropWhile notEndPath := by
  obtain ⟨gap, run, length, ended⟩ := removeDotsInPlace_holds debug noNul
  have text : 0 ∉ removeDots s s.length := by
    obtain ⟨path, split, -, inPath⟩ := removeDots_split s s.length
    rw [split, List.mem_append, not_or, List.take_length]
    refine ⟨fun member => ?_, fun member => noNul ((List.dropWhile_sublist _).mem member)⟩
    exact absurd (inPath 0 member) (by decide)
  obtain ⟨rest, rfl⟩ : ∃ rest, gap = 0 :: rest := by
    cases gap with
    | nil => cases ended
    | cons g rest => exact ⟨rest, congrArg (· :: rest) (Option.some.inj ended)⟩
  refine ⟨_, run, length, ?_⟩
  rw [← removeDots_rfc, cstr, takeWhile_append_stop _ (by decide)]
  exact List.takeWhile_eq_self_iff.mpr fun c member => decide_eq_true fun nul => text (nul ▸ member)

theorem removeDotsInPlace_climb : ∃ buf, removeDotsInPlace true (bytes "/a/b/../../../c/./d?x/../y" ++ [0]) 26 = some buf ∧
    buf.length = 27 ∧ cstr buf = removeDotSegments (pathPart (bytes "/a/b/../../../c/./d?x/../y")) ++
      (bytes "/a/b/../../../c/./d?x/../y").dropWhile notEndPath :=
  removeDotsInPlace_rfc true (s := bytes "/a/b/../../../c/./d?x/../y") (by decide)

example : (removeDotsInPlace false (bytes "/../a/./b/.." ++ [0]) 12).map cstr = some (bytes "/a/") := by decide +kernel

end Pupnp.Uri
