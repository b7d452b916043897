import Pupnp.Library.DotSegments
import Pupnp.Uri.Normal

/-!
`remove_dots` against the procedure of RFC 3986, and its run in place: reads and writes through the two
pointers of the source, each of them inside the string.
-/

namespace Pupnp.Uri
open Pupnp.CString Pupnp.Path

/-! ### The rules of the standard -/

section Rules
variable {rest literal : List UInt8} {n : Nat}

theorem pathPart_append {text : List UInt8} (inPath : ∀ c ∈ text, notEndPath c = true) (rest : List UInt8) :
    pathPart (text ++ rest) = text ++ pathPart rest := List.takeWhile_append_of_pos inPath

theorem pathPart_ended (ended : isEndPath (charAt rest 0) = true) : pathPart rest = [] := by
  cases rest with
  | nil => rfl
  | cons c rest =>
    rw [pathPart, List.takeWhile_cons_of_neg]
    rw [notEndPath, show isEndPath c = true from ended]
    decide

theorem ended_of_pathPart (none : pathPart rest = []) : isEndPath (charAt rest 0) = true := by
  cases rest with
  | nil => rfl
  | cons c rest =>
    by_contra more
    have inPath : notEndPath c = true := by
      rw [notEndPath, Bool.not_eq_true', ← Bool.not_eq_true]
      exact more
    rw [pathPart, List.takeWhile_cons_of_pos inPath] at none
    exact absurd none (List.cons_ne_nil _ _)

theorem dropWhile_ended (ended : isEndPath (charAt rest 0) = true) : rest.dropWhile notEndPath = rest := by
  have split := List.takeWhile_append_dropWhile (p := notEndPath) (l := rest)
  rwa [show rest.takeWhile notEndPath = [] from pathPart_ended ended, List.nil_append] at split

theorem starts_path (size : literal.length = n) (noNul : 0 ∉ literal) (inPath : ∀ c ∈ literal, notEndPath c = true) :
    strncmp rest literal n = 0 ↔ literal <+: pathPart rest := by
  rw [strncmp_starts size noNul]
  constructor
  · rintro ⟨behind, rfl⟩
    rw [pathPart_append inPath]
    exact List.prefix_append _ _
  · intro front
    obtain ⟨behind, split⟩ := front.trans (List.takeWhile_prefix notEndPath)
    exact ⟨behind, split.symm⟩

theorem starts_end (size : literal.length = n) (noNul : 0 ∉ literal) (inPath : ∀ c ∈ literal, notEndPath c = true) :
    strncmp rest literal n = 0 ∧ isEndPath (charAt rest n) = true ↔ pathPart rest = literal := by
  have at_ (behind : List UInt8) : charAt (literal ++ behind) n = charAt behind 0 := by
    rw [← size]
    exact charAt_append literal behind 0
  rw [strncmp_starts size noNul]
  constructor
  · rintro ⟨⟨behind, rfl⟩, ended⟩
    rw [at_] at ended
    rw [pathPart_append inPath, pathPart_ended ended, List.append_nil]
  · intro whole
    obtain ⟨behind, split⟩ : literal <+: rest := whole ▸ List.takeWhile_prefix notEndPath
    rw [← split, pathPart_append inPath] at whole
    have none := List.append_right_eq_self.mp whole
    rw [← split, at_]
    exact ⟨⟨behind, rfl⟩, ended_of_pathPart none⟩

end Rules

theorem leadingSegment_path {rest : List UInt8} (more : isEndPath (charAt rest 0) = false) :
    leadingSegment rest = headSegment (pathPart rest) := by
  cases rest with
  | nil => exact absurd more (by decide)
  | cons c rest =>
    have inPath : notEndPath c = true := by
      rw [notEndPath, show isEndPath c = false from more]
      rfl
    have segment (text : List UInt8) : (text.takeWhile notEndPath).takeWhile (· ≠ SLASH) =
        text.takeWhile fun c => c ≠ SLASH && notEndPath c := by
      rw [List.takeWhile_takeWhile]
      congr
      funext d
      simp
    rw [pathPart, List.takeWhile_cons_of_pos inPath, headSegment, segment, leadingSegment]
    by_cases slash : c = SLASH
    · rw [if_pos (show charAt (c :: rest) 0 = SLASH from slash), ← slash]
      rfl
    · rw [if_neg (show ¬ charAt (c :: rest) 0 = SLASH from slash), List.takeWhile_cons_of_pos]
      simp [slash, inPath]

theorem dotStep_rewrite (out : List UInt8) {rest : List UInt8} (more : isEndPath (charAt rest 0) = false) :
    rewriteDots (pathPart rest) out = (pathPart (dotStep ⟨out, rest⟩).rest, (dotStep ⟨out, rest⟩).out) := by
  have curA := @starts_path rest (bytes "./") 2 rfl (by decide) (by decide)
  have parentA := @starts_path rest (bytes "../") 3 rfl (by decide) (by decide)
  have curB := @starts_path rest (bytes "/./") 3 rfl (by decide) (by decide)
  have curEnd := @starts_end rest (bytes "/.") 2 rfl (by decide) (by decide)
  have parentC := @starts_path rest (bytes "/../") 4 rfl (by decide) (by decide)
  have parentEnd := @starts_end rest (bytes "/..") 3 rfl (by decide) (by decide)
  have curD := @starts_end rest (bytes ".") 1 rfl (by decide) (by decide)
  have parentD := @starts_end rest (bytes "..") 2 rfl (by decide) (by decide)
  have behind {literal : List UInt8} (front : literal <+: pathPart rest) :
      (pathPart rest).drop literal.length = pathPart (rest.drop literal.length) := by
    obtain ⟨tail, split⟩ := front
    have inPath : ∀ c ∈ literal, notEndPath c = true := fun c member =>
      List.mem_takeWhile_imp (show c ∈ pathPart rest from split ▸ List.mem_append_left _ member)
    obtain ⟨others, whole⟩ : literal <+: rest := ⟨_, (List.append_assoc _ _ _).symm.trans
      ((congrArg (· ++ rest.dropWhile notEndPath) split).trans List.takeWhile_append_dropWhile)⟩
    rw [← whole, pathPart_append inPath, List.drop_left, List.drop_left]
  have whole (n : Nat) {literal : List UInt8} (same : pathPart rest = literal) (size : literal.length = n) :
      pathPart (rest.drop n) = [] := by
    rw [← size, ← behind (same ▸ List.prefix_refl _), same, List.drop_length]
  have slashed (tail : List UInt8) : pathPart (SLASH :: tail) = SLASH :: pathPart tail :=
    @pathPart_append [SLASH] (by decide) tail
  unfold rewriteDots dotStep
  simp only [Bool.and_eq_true, Bool.or_eq_true, decide_eq_true_eq]
  simp only [curA, parentA, curB, curEnd, parentC, parentEnd, curD, parentD]
  by_cases one : bytes "./" <+: pathPart rest
  · rw [if_pos one, if_pos one]
    exact Prod.ext (behind one) rfl
  rw [if_neg one, if_neg one]
  by_cases two : bytes "../" <+: pathPart rest
  · rw [if_pos two, if_pos two]
    exact Prod.ext (behind two) rfl
  rw [if_neg two, if_neg two]
  by_cases three : bytes "/./" <+: pathPart rest
  · rw [if_pos three, if_pos three]
    obtain ⟨tail, rfl⟩ := (strncmp_starts rfl (by decide)).mp (curB.mpr three)
    rw [pathPart_append (by decide)]
    exact Prod.ext (slashed tail).symm rfl
  rw [if_neg three, if_neg three]
  by_cases four : pathPart rest = bytes "/."
  · rw [if_pos four, if_pos four]
    refine Prod.ext ?_ rfl
    dsimp only
    rw [slashed, whole 2 four rfl]
  rw [if_neg four, if_neg four]
  by_cases five : bytes "/../" <+: pathPart rest
  · rw [if_pos five, if_pos (.inl five)]
    obtain ⟨tail, rfl⟩ := (strncmp_starts rfl (by decide)).mp (parentC.mpr five)
    rw [pathPart_append (by decide)]
    exact Prod.ext (slashed tail).symm rfl
  rw [if_neg five]
  by_cases six : pathPart rest = bytes "/.."
  · rw [if_pos six, if_pos (.inr six)]
    refine Prod.ext ?_ rfl
    dsimp only
    rw [if_pos (parentEnd.mpr six).2, slashed, whole 3 six rfl]
  rw [if_neg six, if_neg (not_or.mpr ⟨five, six⟩)]
  by_cases seven : pathPart rest = bytes "."
  · rw [if_pos (.inl seven), if_pos seven]
    refine Prod.ext ?_ rfl
    dsimp only
    rw [whole 1 seven rfl]
  rw [if_neg seven]
  by_cases eight : pathPart rest = bytes ".."
  · rw [if_pos (.inr eight), if_pos eight]
    refine Prod.ext ?_ rfl
    dsimp only
    rw [whole 2 eight rfl]
  rw [if_neg (not_or.mpr ⟨seven, eight⟩), if_neg eight]
  have front : headSegment (pathPart rest) <+: pathPart rest := headSegment_start _
  rw [leadingSegment_path more]
  exact Prod.ext (behind front) rfl

theorem removeDotsLoop_rest (s : List UInt8) : (removeDotsLoop ⟨[], s⟩).rest = s.dropWhile notEndPath := by
  have start : DotsRemoved (s.dropWhile notEndPath) ⟨[], s⟩ :=
    ⟨not_hasDotDot_nil, fun c member => absurd member List.not_mem_nil, .inl rfl, rfl⟩
  obtain ⟨removed, ended⟩ := removeDotsLoop_removed start
  rw [← removed.tail, dropWhile_ended ended]

theorem removeDotsLoop_out (s : DotState) :
    (removeDotsLoop s).out = removeDotSegmentsFrom (pathPart s.rest) s.out := by
  induction s using removeDotsLoop.induct with
  | case1 s ended => rw [removeDotsLoop, dif_pos ended, pathPart_ended ended, removeDotSegmentsFrom_nil]
  | case2 s more step =>
    have inside := Bool.eq_false_iff.mpr more
    have nonempty : pathPart s.rest ≠ [] := fun none => more (ended_of_pathPart none)
    rw [removeDotsLoop, dif_neg more, step, removeDotSegmentsFrom_step nonempty, dotStep_rewrite s.out inside]

/-- What `remove_dots` makes of a string: the procedure on its path, and the rest as it was. -/
theorem removeDots_rfc (s : List UInt8) :
    removeDots s s.length = removeDotSegments (pathPart s) ++ s.dropWhile notEndPath := by
  rw [removeDots, List.take_length, removeDotsLoop_out, removeDotsLoop_rest]
  rfl

end Pupnp.Uri
