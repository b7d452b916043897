import Pupnp.Uri.Dots

/-!
Where percent-decoding and dot removal leave a path as it is: neither lengthens it, and each shortens a
path that has an escape or a dot segment.
-/

namespace Pupnp.Uri
open Pupnp.CString Pupnp.Path

/-! ### Escapes -/

theorem percentDecode_length (s : List UInt8) : (percentDecode s).length ≤ s.length := by
  induction s using percentDecode.induct with
  | case1 =>
    rw [percentDecode]
  | case2 c rest escaped step =>
    rw [percentDecode, if_pos escaped, List.length_cons, List.length_cons]
    rw [List.length_drop] at step
    omega
  | case3 c rest plain step =>
    rw [percentDecode, if_neg plain, List.length_cons, List.length_cons]
    omega

/-- The triplets that one pass from left to right decodes. -/
def escapes : List UInt8 → Nat
  | [] => 0
  | c :: rest => if isEscaped (c :: rest) 0 then escapes (rest.drop 2) + 1 else escapes rest
termination_by s => s.length
decreasing_by all_goals grind

theorem percentDecode_escapes (s : List UInt8) : (percentDecode s).length + 2 * escapes s = s.length := by
  induction s using percentDecode.induct with
  | case1 => rw [percentDecode, escapes, List.length_nil]
  | case2 c rest escaped step =>
    obtain ⟨high, low, behind, shape⟩ := isEscaped_shape escaped
    obtain ⟨rfl, rfl⟩ := List.cons.inj shape
    rw [percentDecode, if_pos escaped, escapes, if_pos escaped, List.length_cons, List.length_cons, List.length_cons,
      List.length_cons]
    rw [List.drop_succ_cons, List.drop_succ_cons, List.drop_zero] at step ⊢
    omega
  | case3 c rest plain step =>
    rw [percentDecode, if_neg plain, escapes, if_neg plain, List.length_cons, List.length_cons]
    omega

/-- `remove_escaped_chars` on a string: decoded in one pass, two bytes shorter for each triplet, zeros behind it. -/
theorem removeEscapedChars_triplets (s : List UInt8) : removeEscapedChars (s ++ [0]) s.length =
    (percentDecode s ++ List.replicate (2 * escapes s) 0 ++ [0], s.length - 2 * escapes s) := by
  obtain ⟨freed, run, size⟩ := removeEscapedChars_eq s
  have count := percentDecode_escapes s
  obtain rfl : freed = 2 * escapes s := by omega
  rw [run, List.replicate_succ', List.append_assoc]
  exact Prod.ext rfl (by dsimp only; omega)

example : removeEscapedChars (bytes "%2541%%20%4" ++ [0]) 11 = (bytes "%41% %4" ++ [0, 0, 0, 0] ++ [0], 7) := by
  decide +kernel

theorem percentDecode_plain {s : List UInt8} (plain : ∀ i, isEscaped s i = false) : percentDecode s = s := by
  induction s using percentDecode.induct with
  | case1 => rw [percentDecode]
  | case2 c rest escaped => cases escaped.symm.trans (plain 0)
  | case3 c rest here step =>
    rw [percentDecode, if_neg here, step fun i => plain (i + 1)]

theorem plain_of_percentDecode {s : List UInt8} (same : s.length ≤ (percentDecode s).length) (i : Nat) :
    isEscaped s i = false := by
  induction s using percentDecode.induct generalizing i with
  | case1 => simp [isEscaped, charAt]
  | case2 c rest escaped =>
    obtain ⟨high, low, behind, shape⟩ := isEscaped_shape escaped
    obtain ⟨rfl, rfl⟩ := List.cons.inj shape
    have decoded := percentDecode_length behind
    rw [percentDecode, if_pos escaped] at same
    simp only [List.drop_succ_cons, List.drop_zero, List.length_cons] at same
    omega
  | case3 c rest here step =>
    rw [percentDecode, if_neg here, List.length_cons, List.length_cons] at same
    cases i with
    | zero => exact Bool.eq_false_iff.mpr here
    | succ i => exact step (Nat.le_of_succ_le_succ same) i

/-! ### Dot segments -/

def NoDotSegments (path : List UInt8) : Prop := ∀ segment ∈ segments path, segment ≠ [DOT] ∧ segment ≠ [DOT, DOT]

instance (path : List UInt8) : Decidable (NoDotSegments path) :=
  inferInstanceAs (Decidable (∀ segment ∈ segments path, segment ≠ [DOT] ∧ segment ≠ [DOT, DOT]))

/-- The path of a request target, up to what ends it. -/
def pathPart (s : List UInt8) : List UInt8 := s.takeWhile notEndPath

theorem parent_length (path : List UInt8) : (parent path).length ≤ path.length := (parent_start path).length_le

theorem dotMove_length {s t : DotState} (moved : DotMove s t) :
    t.out.length + t.rest.length ≤ s.out.length + s.rest.length := by
  cases moved with
  | skip dots rest input =>
    rw [input]
    simp only [List.cons_append, List.length_cons, List.length_append]
    omega
  | stay dots rest input =>
    rw [input]
    simp only [List.cons_append, List.length_cons, List.length_append]
    omega
  | up dots rest input =>
    have shorter := parent_length s.out
    rw [input]
    simp only [List.cons_append, List.length_cons, List.length_append]
    omega
  | move slash name rest input =>
    rw [input]
    simp only [List.length_append]
    omega

theorem removeDotsLoop_length (s : DotState) :
    (removeDotsLoop s).out.length + (removeDotsLoop s).rest.length ≤ s.out.length + s.rest.length := by
  induction s using removeDotsLoop.induct with
  | case1 s ended => rw [removeDotsLoop, dif_pos ended]
  | case2 s more step =>
    rw [removeDotsLoop, dif_neg more]
    exact step.trans (dotMove_length (dotStep_move s (Bool.eq_false_iff.mpr more)))

theorem segment_unique {name behind name' behind' : List UInt8} (flat : ∀ c ∈ name, c ≠ SLASH ∧ isEndPath c = false)
    (stops : AtBoundary behind) (flat' : ∀ c ∈ name', c ≠ SLASH ∧ isEndPath c = false) (stops' : AtBoundary behind')
    (same : name ++ behind = name' ++ behind') : name = name' ∧ behind = behind' := by
  induction name generalizing name' with
  | nil =>
    cases name' with
    | nil => exact ⟨rfl, same⟩
    | cons c name' =>
      obtain ⟨noSlash, inside⟩ := flat' c List.mem_cons_self
      rw [List.nil_append] at same
      rw [same] at stops
      rcases stops with slash | ended
      · exact absurd slash noSlash
      · exact absurd (inside.symm.trans ended) Bool.false_ne_true
  | cons c name ih =>
    obtain ⟨noSlash, inside⟩ := flat c List.mem_cons_self
    cases name' with
    | nil =>
      rw [List.nil_append] at same
      rw [← same] at stops'
      rcases stops' with slash | ended
      · exact absurd slash noSlash
      · exact absurd (inside.symm.trans ended) Bool.false_ne_true
    | cons c' name' =>
      obtain ⟨rfl, rest⟩ := List.cons.inj same
      obtain ⟨rfl, rfl⟩ := ih (fun c member => flat c (List.mem_cons_of_mem _ member))
        (fun c member => flat' c (List.mem_cons_of_mem _ member)) rest
      exact ⟨rfl, rfl⟩

theorem segment_split {rest : List UInt8} (stops : AtBoundary rest) (more : isEndPath (charAt rest 0) = false) :
    ∃ name behind, rest = SLASH :: name ++ behind ∧ (∀ c ∈ name, c ≠ SLASH ∧ isEndPath c = false) ∧
      AtBoundary behind ∧ leadingSegment rest = SLASH :: name := by
  obtain ⟨slash, name, behind, input, segment, slashes, flat, next⟩ := leadingSegment_split rest more
  obtain rfl | ⟨rfl, nonempty⟩ := slashes
  · exact ⟨name, behind, input, flat, next, segment⟩
  · obtain ⟨c, others, rfl⟩ := List.exists_cons_of_ne_nil nonempty
    rw [input] at stops more
    rcases stops with slash | ended
    · exact absurd slash (flat c List.mem_cons_self).1
    · exact absurd (more.symm.trans ended) Bool.false_ne_true

theorem noDotSegments_segment {name behind : List UInt8} (flat : ∀ c ∈ name, c ≠ SLASH ∧ isEndPath c = false)
    (stops : AtBoundary behind) :
    NoDotSegments (pathPart (SLASH :: name ++ behind)) ↔
      (name ≠ [DOT] ∧ name ≠ [DOT, DOT]) ∧ NoDotSegments (pathPart behind) := by
  have front : pathPart (SLASH :: name ++ behind) = SLASH :: (name ++ pathPart behind) := by
    have kept : ∀ c ∈ SLASH :: name, notEndPath c = true := by
      intro c member
      obtain rfl | inside := List.mem_cons.mp member
      · rfl
      · rw [notEndPath, (flat c inside).2]
        rfl
    rw [pathPart, List.takeWhile_append_of_pos kept]
    rfl
  have own : SLASH ∉ name := fun member => (flat SLASH member).1 rfl
  have slashed (path : List UInt8) : segments (SLASH :: path) = [] :: segments path := segments_slash [] path
  have empty : ([] : List UInt8) ≠ [DOT] ∧ ([] : List UInt8) ≠ [DOT, DOT] := ⟨by simp, by simp⟩
  rw [front, NoDotSegments, slashed, List.forall_mem_cons, and_iff_right empty]
  cases behind with
  | nil =>
    rw [pathPart, List.takeWhile_nil, List.append_nil, segments_single own]
    simp [NoDotSegments, segments, empty]
  | cons c behind =>
    rcases stops with slash | ended
    · obtain rfl : c = SLASH := slash
      have passed : pathPart (SLASH :: behind) = SLASH :: pathPart behind := rfl
      rw [passed, segments_slash, segments_single own, NoDotSegments, slashed, List.singleton_append,
        List.forall_mem_cons, List.forall_mem_cons, and_iff_right empty]
    · have stopped : pathPart (c :: behind) = [] := by
        rw [pathPart, List.takeWhile_cons, if_neg]
        rw [notEndPath, show isEndPath c = true from ended]
        decide
      rw [stopped, List.append_nil, segments_single own]
      simp [NoDotSegments, segments, empty]

section Steps
variable {out name behind : List UInt8}

/-- The dots of a comparison in `remove_dots`, where what follows them starts a segment or ends the path. -/
theorem dots_of_starts (flat : ∀ c ∈ name, c ≠ SLASH ∧ isEndPath c = false) (stops : AtBoundary behind)
    {dots after : List UInt8} (only : dots = [DOT] ∨ dots = [DOT, DOT]) (stops' : AtBoundary after)
    (same : SLASH :: name ++ behind = SLASH :: dots ++ after) : name = dots := by
  have flat' : ∀ c ∈ dots, c ≠ SLASH ∧ isEndPath c = false := by
    obtain rfl | rfl := only <;> decide
  exact (segment_unique flat stops flat' stops' (List.cons.inj same).2).1

theorem not_starts {literal : List UInt8} {n : Nat} (size : literal.length = n) (noNul : 0 ∉ literal)
    (first : literal.head? ≠ some SLASH) (nonempty : literal ≠ []) : strncmp (SLASH :: name ++ behind) literal n ≠ 0 := by
  intro starts
  obtain ⟨rest, same⟩ := (strncmp_starts size noNul).mp starts
  cases literal with
  | nil => exact nonempty rfl
  | cons c literal =>
    obtain ⟨rfl, -⟩ := List.cons.inj same
    exact first rfl

theorem dotStep_plain (flat : ∀ c ∈ name, c ≠ SLASH ∧ isEndPath c = false) (stops : AtBoundary behind)
    (plain : name ≠ [DOT] ∧ name ≠ [DOT, DOT])
    (segment : leadingSegment (SLASH :: name ++ behind) = SLASH :: name) :
    dotStep ⟨out, SLASH :: name ++ behind⟩ = ⟨out ++ SLASH :: name, behind⟩ := by
  have one {after : List UInt8} (stops' : AtBoundary after) (same : SLASH :: name ++ behind = SLASH :: [DOT] ++ after) :
      False := plain.1 (dots_of_starts flat stops (.inl rfl) stops' same)
  have two {after : List UInt8} (stops' : AtBoundary after)
      (same : SLASH :: name ++ behind = SLASH :: [DOT, DOT] ++ after) : False :=
    plain.2 (dots_of_starts flat stops (.inr rfl) stops' same)
  have slash (after : List UInt8) : AtBoundary (SLASH :: after) := .inl rfl
  have curB : strncmp (SLASH :: name ++ behind) (bytes "/./") 3 ≠ 0 := by
    intro starts
    obtain ⟨rest, same⟩ := (strncmp_starts rfl (by decide)).mp starts
    exact one (slash rest) same
  have curEnd : ¬ (strncmp (SLASH :: name ++ behind) (bytes "/.") 2 = 0 ∧
      isEndPath (charAt (SLASH :: name ++ behind) 2) = true) := by
    rintro ⟨starts, ended⟩
    obtain ⟨rest, same⟩ := (strncmp_starts rfl (by decide)).mp starts
    rw [same] at ended
    exact one (.inr ended) same
  have parentC : strncmp (SLASH :: name ++ behind) (bytes "/../") 4 ≠ 0 := by
    intro starts
    obtain ⟨rest, same⟩ := (strncmp_starts rfl (by decide)).mp starts
    exact two (slash rest) same
  have parentEnd : ¬ (strncmp (SLASH :: name ++ behind) (bytes "/..") 3 = 0 ∧
      isEndPath (charAt (SLASH :: name ++ behind) 3) = true) := by
    rintro ⟨starts, ended⟩
    obtain ⟨rest, same⟩ := (strncmp_starts rfl (by decide)).mp starts
    rw [same] at ended
    exact two (.inr ended) same
  have curA := @not_starts name behind (bytes "./") 2 rfl (by decide) (by decide) (by decide)
  have parentA := @not_starts name behind (bytes "../") 3 rfl (by decide) (by decide) (by decide)
  have curD := @not_starts name behind (bytes ".") 1 rfl (by decide) (by decide) (by decide)
  have parentD := @not_starts name behind (bytes "..") 2 rfl (by decide) (by decide) (by decide)
  unfold dotStep
  simp only [Bool.and_eq_true, Bool.or_eq_true, decide_eq_true_eq]
  rw [if_neg curA, if_neg parentA, if_neg curB, if_neg curEnd, if_neg (not_or.mpr ⟨parentC, parentEnd⟩),
    if_neg (fun both => curD both.1), if_neg (fun both => parentD both.1), segment, List.drop_left]

theorem dotStep_dots (stops : AtBoundary behind) (dots : name = [DOT] ∨ name = [DOT, DOT]) :
    (dotStep ⟨out, SLASH :: name ++ behind⟩).out.length ≤ out.length := by
  unfold dotStep
  simp only [Bool.and_eq_true, Bool.or_eq_true, decide_eq_true_eq]
  split_ifs with curA parentA curB curEnd parentC
  · exact Nat.le_refl _
  · exact Nat.le_refl _
  · exact Nat.le_refl _
  · exact Nat.le_refl _
  · exact parent_length out
  · exact parent_length out
  · exact Nat.le_refl _
  · exact Nat.le_refl _
  · exfalso
    obtain rfl | rfl := dots
    · rcases stops with slash | ended
      · cases behind with
        | nil => exact absurd slash (by decide)
        | cons c rest =>
          obtain rfl : c = SLASH := slash
          exact curB ((strncmp_starts rfl (by decide)).mpr ⟨rest, rfl⟩)
      · exact curEnd ⟨(strncmp_starts rfl (by decide)).mpr ⟨behind, rfl⟩, ended⟩
    · rcases stops with slash | ended
      · cases behind with
        | nil => exact absurd slash (by decide)
        | cons c rest =>
          obtain rfl : c = SLASH := slash
          exact parentC (.inl ((strncmp_starts rfl (by decide)).mpr ⟨rest, rfl⟩))
      · exact parentC (.inr ⟨(strncmp_starts rfl (by decide)).mpr ⟨behind, rfl⟩, ended⟩)

end Steps

theorem removeDotsLoop_plain (s : DotState) (stops : AtBoundary s.rest) (plain : NoDotSegments (pathPart s.rest)) :
    (removeDotsLoop s).out ++ (removeDotsLoop s).rest = s.out ++ s.rest := by
  induction s using removeDotsLoop.induct with
  | case1 s ended => rw [removeDotsLoop, dif_pos ended]
  | case2 s more step =>
    obtain ⟨out, rest⟩ := s
    obtain ⟨name, behind, rfl, flat, next, segment⟩ := segment_split stops (Bool.eq_false_iff.mpr more)
    obtain ⟨own, others⟩ := (noDotSegments_segment flat next).mp plain
    have moved := @dotStep_plain out name behind flat next own segment
    rw [moved] at step
    rw [removeDotsLoop, dif_neg more, moved, step next others]
    simp

theorem removeDotsLoop_dots (s : DotState) (stops : AtBoundary s.rest) (dots : ¬ NoDotSegments (pathPart s.rest)) :
    (removeDotsLoop s).out.length + (removeDotsLoop s).rest.length < s.out.length + s.rest.length := by
  induction s using removeDotsLoop.induct with
  | case1 s ended =>
    have nothing : pathPart s.rest = [] := by
      cases shape : s.rest with
      | nil => rfl
      | cons c rest =>
        rw [shape] at ended
        rw [pathPart, List.takeWhile_cons, if_neg]
        rw [notEndPath, show isEndPath c = true from ended]
        decide
    rw [nothing] at dots
    exact absurd (by decide) dots
  | case2 s more step =>
    obtain ⟨out, rest⟩ := s
    have inside := Bool.eq_false_iff.mpr more
    obtain ⟨name, behind, rfl, flat, next, segment⟩ := segment_split stops inside
    rw [removeDotsLoop, dif_neg more]
    rw [noDotSegments_segment flat next, not_and_or] at dots
    by_cases own : name ≠ [DOT] ∧ name ≠ [DOT, DOT]
    · have moved := @dotStep_plain out name behind flat next own segment
      rw [moved] at step ⊢
      have shorter := step next (dots.resolve_left (not_not_intro own))
      simp only [List.length_append, List.length_cons, List.cons_append] at shorter ⊢
      omega
    · have dotted : name = [DOT] ∨ name = [DOT, DOT] := by
        by_contra neither
        exact own (not_or.mp neither)
      have written := @dotStep_dots out name behind next dotted
      have read := dotStep_shorter ⟨out, SLASH :: name ++ behind⟩ inside
      have rest := removeDotsLoop_length (dotStep ⟨out, SLASH :: name ++ behind⟩)
      dsimp only at read
      dsimp only
      omega

end Pupnp.Uri
