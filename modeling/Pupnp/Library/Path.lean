import Pupnp.Library.CString
import Mathlib.Data.List.DropRight

/-!
Slash-separated paths as byte strings: their segments, the `..` segments among
them, and what it means for a name to lie below a directory by its text alone.
-/

namespace Pupnp.Path
open Pupnp.CString

def SLASH : UInt8 := 47
def DOT : UInt8 := 46

def segments (path : List UInt8) : List (List UInt8) := path.splitOn SLASH

def HasDotDot (path : List UInt8) : Prop := [DOT, DOT] ∈ segments path

instance (path : List UInt8) : Decidable (HasDotDot path) :=
  inferInstanceAs (Decidable ([DOT, DOT] ∈ segments path))

/-- Everything up to the last slash, that slash left out; nothing where there is no slash. -/
def parent (path : List UInt8) : List UInt8 :=
  (path.reverse.dropWhile (· ≠ SLASH)).tail.reverse

def trimSlashes (path : List UInt8) : List UInt8 := path.rdropWhile (· = SLASH)

def Appended (path : List UInt8) : Prop := path = [] ∨ path.head? = some SLASH

/-- The name is the directory followed by a path that never climbs. -/
def Below (directory name : List UInt8) : Prop :=
  ∃ path, name = trimSlashes directory ++ path ∧ Appended path ∧ ¬ HasDotDot path

theorem segments_slash (a b : List UInt8) :
    segments (a ++ SLASH :: b) = segments a ++ segments b :=
  List.splitOn_append_cons_self a b

theorem segments_single {a : List UInt8} (flat : SLASH ∉ a) : segments a = [a] :=
  List.splitOn_eq_singleton flat

theorem hasDotDot_slash (a b : List UInt8) :
    HasDotDot (a ++ SLASH :: b) ↔ HasDotDot a ∨ HasDotDot b := by
  rw [HasDotDot, segments_slash, List.mem_append]
  rfl

theorem not_hasDotDot_nil : ¬ HasDotDot [] := by decide

theorem hasDotDot_single {a : List UInt8} (flat : SLASH ∉ a) :
    HasDotDot a ↔ a = [DOT, DOT] := by
  rw [HasDotDot, segments_single flat, List.mem_singleton, eq_comm]

theorem firstSegment (path : List UInt8) :
    SLASH ∉ path ∨ ∃ first rest, path = first ++ SLASH :: rest ∧ SLASH ∉ first := by
  by_cases slashed : SLASH ∈ path
  · exact Or.inr (List.eq_append_cons_of_mem slashed)
  · exact Or.inl slashed

theorem not_dotDot_of_mem {segment : List UInt8} {c : UInt8} (inside : c ∈ segment)
    (other : c ≠ DOT) : segment ≠ [DOT, DOT] := by
  intro equal
  simp [equal, other] at inside

theorem hasDotDot_append {c : UInt8} (notSlash : c ≠ SLASH) (notDot : c ≠ DOT) (a rest : List UInt8)
    (clean : ¬ HasDotDot a) : HasDotDot (a ++ c :: rest) ↔ HasDotDot (c :: rest) := by
  obtain flat | ⟨first, tail, rfl, -⟩ := firstSegment a
  · obtain flatRest | ⟨segment, behind, rfl, flatSegment⟩ := firstSegment rest
    · have flatAll : SLASH ∉ a ++ c :: rest := by simp [flat, flatRest, notSlash.symm]
      have flatTail : SLASH ∉ c :: rest := by simp [flatRest, notSlash.symm]
      rw [hasDotDot_single flatAll, hasDotDot_single flatTail]
      exact iff_of_false (not_dotDot_of_mem (by simp) notDot) (not_dotDot_of_mem (c := c) (by simp) notDot)
    · have flatAll : SLASH ∉ a ++ c :: segment := by simp [flat, flatSegment, notSlash.symm]
      have flatTail : SLASH ∉ c :: segment := by simp [flatSegment, notSlash.symm]
      have all := hasDotDot_slash (a ++ c :: segment) behind
      have tail := hasDotDot_slash (c :: segment) behind
      rw [hasDotDot_single flatAll] at all
      rw [hasDotDot_single flatTail] at tail
      simp only [List.append_assoc, List.cons_append] at all tail
      rw [all, tail, or_iff_right (not_dotDot_of_mem (c := c) (by simp) notDot),
        or_iff_right (not_dotDot_of_mem (c := c) (by simp) notDot)]
  · have shorter : tail.length < (first ++ SLASH :: tail).length := by simp; omega
    rw [hasDotDot_slash, not_or] at clean
    rw [List.append_assoc, List.cons_append, hasDotDot_slash, or_iff_right clean.1]
    exact hasDotDot_append notSlash notDot tail rest clean.2
termination_by a.length

theorem parent_start (path : List UInt8) : parent path <+: path := by
  have suffix : (path.reverse.dropWhile (· ≠ SLASH)).tail <:+ path.reverse :=
    (List.tail_suffix _).trans (List.dropWhile_suffix _)
  rw [← List.reverse_prefix, List.reverse_reverse] at suffix
  exact suffix

theorem parent_clean {path : List UInt8} (clean : ¬ HasDotDot path) : ¬ HasDotDot (parent path) := by
  unfold parent
  generalize reversed : path.reverse.dropWhile (· ≠ SLASH) = kept
  have split : path = kept.reverse ++ (path.reverse.takeWhile (· ≠ SLASH)).reverse := by
    rw [← List.reverse_append, ← reversed, List.takeWhile_append_dropWhile, List.reverse_reverse]
  cases kept with
  | nil => exact not_hasDotDot_nil
  | cons c before =>
    have slash : c = SLASH := by
      have := dropWhile_head (· ≠ SLASH) path.reverse
      simp only [reversed] at this
      simpa using this
    subst slash
    rw [List.reverse_cons, List.append_assoc, List.singleton_append] at split
    rw [split, hasDotDot_slash, not_or] at clean
    exact clean.1

theorem trimSlashes_split (path : List UInt8) :
    ∃ slashes, path = trimSlashes path ++ slashes ∧ ∀ c ∈ slashes, c = SLASH := by
  refine ⟨path.rtakeWhile (· = SLASH), List.rdropWhile_append_rtakeWhile.symm, ?_⟩
  intro c inside
  simpa using List.mem_rtakeWhile_imp inside

theorem hasDotDot_slashes {slashes : List UInt8} (all : ∀ c ∈ slashes, c = SLASH)
    (path : List UInt8) : HasDotDot (path ++ slashes) ↔ HasDotDot path := by
  induction slashes generalizing path with
  | nil => rw [List.append_nil]
  | cons c rest step =>
    obtain rfl : c = SLASH := all c (by simp)
    have smaller := step (fun d inside => all d (by simp [inside])) []
    rw [List.nil_append] at smaller
    rw [hasDotDot_slash, smaller, or_iff_left not_hasDotDot_nil]

theorem slashes_hasDotDot {slashes : List UInt8} (all : ∀ c ∈ slashes, c = SLASH)
    (path : List UInt8) : HasDotDot (slashes ++ path) ↔ HasDotDot path := by
  induction slashes with
  | nil => rw [List.nil_append]
  | cons c rest step =>
    obtain rfl : c = SLASH := all c (by simp)
    have cut := hasDotDot_slash [] (rest ++ path)
    rw [List.nil_append, or_iff_right not_hasDotDot_nil] at cut
    rw [List.cons_append, cut, step fun d inside => all d (by simp [inside])]

theorem hasDotDot_trimSlashes (path : List UInt8) :
    HasDotDot (trimSlashes path) ↔ HasDotDot path := by
  obtain ⟨slashes, split, all⟩ := trimSlashes_split path
  conv_rhs => rw [split]
  exact (hasDotDot_slashes all _).symm

theorem trimSlashes_append (a b : List UInt8) :
    trimSlashes (a ++ b) = if trimSlashes b = [] then trimSlashes a else a ++ trimSlashes b := by
  induction b using List.reverseRecOn with
  | nil => simp [trimSlashes]
  | append_singleton b c step =>
    rw [← List.append_assoc]
    by_cases slash : c = SLASH
    · simp only [trimSlashes, List.rdropWhile_concat, slash, decide_true, if_true]
      exact step
    · simp [trimSlashes, slash]

/-- Stripping the slashes of a directory and a path behind it leaves the directory alone. -/
theorem trimSlashes_below (directory : List UInt8) {path : List UInt8}
    (appended : Appended path) :
    ∃ rest, trimSlashes (directory ++ path) = trimSlashes directory ++ rest ∧ Appended rest ∧
      (HasDotDot rest ↔ HasDotDot path) := by
  rw [trimSlashes_append]
  split
  case isTrue bare =>
    refine ⟨[], by rw [List.append_nil], Or.inl rfl, ?_⟩
    rw [← hasDotDot_trimSlashes path, bare]
  case isFalse some =>
    obtain ⟨slashes, split, all⟩ := trimSlashes_split directory
    refine ⟨slashes ++ trimSlashes path, ?_, ?_, ?_⟩
    · rw [← List.append_assoc, ← split]
    · cases slashes with
      | nil =>
        obtain empty | headed := appended
        · simp [empty, trimSlashes] at some
        · obtain ⟨tail, kept⟩ := List.rdropWhile_prefix (· = SLASH) path
          cases shape : trimSlashes path with
          | nil => exact absurd shape some
          | cons c rest =>
            rw [trimSlashes] at shape
            rw [← kept, shape] at headed
            exact Or.inr headed
      | cons c rest => exact Or.inr (congrArg Option.some (all c (by simp)))
    · rw [slashes_hasDotDot all, hasDotDot_trimSlashes]

theorem below_iff {directory path : List UInt8} (appended : Appended path) :
    Below directory (trimSlashes directory ++ path) ↔ ¬ HasDotDot path := by
  constructor
  · rintro ⟨other, same, -, clean⟩
    rwa [List.append_cancel_left same]
  · intro clean
    exact ⟨path, rfl, appended, clean⟩

end Pupnp.Path
