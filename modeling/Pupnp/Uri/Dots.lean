import Pupnp.Uri.Parse
import Pupnp.Library.Path

/-!
Percent-decoding and dot-segment removal on the path of a URI. Both work in place
on a NUL-terminated buffer; `remove_dots` is kept as the bytes written so far and
the bytes still to be read.
-/

namespace Pupnp.Uri
open Pupnp.CString Pupnp.Path

def hexByte (high low : UInt8) : UInt8 := UInt8.ofNat (16 * digitVal high + digitVal low)

/-- `replace_escaped(in, index, max)`: the buffer and the size behind the call. -/
def replaceEscaped (buf : List UInt8) (index max : Nat) : List UInt8 × Nat :=
  if isEscaped buf index then
    let tempChar := hexByte (charAt buf (index + 1)) (charAt buf (index + 2))
    -- the bytes from `index + 3` on move up, zeros follow them up to the old end
    let moved := (tempChar :: ((buf.take max).drop (index + 3) ++ [0, 0])).take (max - index)
    (buf.take index ++ moved ++ buf.drop max, max - 2)
  else (buf, max)

def removeEscapedLoop (buf : List UInt8) (size i : Nat) : List UInt8 × Nat :=
  if _h : i < size then
    let next := replaceEscaped buf i size
    removeEscapedLoop next.1 next.2 (i + 1)
  else (buf, size)
termination_by size - i
decreasing_by
  simp only [replaceEscaped]
  split <;> simp only <;> omega

def removeEscapedChars (buf : List UInt8) (size : Nat) : List UInt8 × Nat :=
  removeEscapedLoop buf size 0

/-- Percent-decoding on its own terms: one pass, a decoded byte is never read again. -/
def percentDecode : List UInt8 → List UInt8
  | [] => []
  | c :: rest =>
      if isEscaped (c :: rest) 0 then
        hexByte (charAt rest 0) (charAt rest 1) :: percentDecode (rest.drop 2)
      else c :: percentDecode rest
termination_by s => s.length
decreasing_by all_goals grind

def isEndPath (c : UInt8) : Bool := c = 63 || c = 35 || c = 0

def notEndPath (c : UInt8) : Bool := !isEndPath c

/-- What `remove_dots` has written before `out` and what it has not read yet, from `in` on. -/
structure DotState where
  out : List UInt8
  rest : List UInt8
  deriving DecidableEq, Repr

/-- The segment case 2.E moves: the first slash, if any, and the bytes up to the next one. -/
def leadingSegment (rest : List UInt8) : List UInt8 :=
  let inSegment (c : UInt8) := c ≠ SLASH && notEndPath c
  if charAt rest 0 = SLASH then SLASH :: (rest.drop 1).takeWhile inSegment
  else rest.takeWhile inSegment

/-- One round of the loop of `remove_dots`, on input that does not stand at its end. -/
def dotStep (s : DotState) : DotState :=
  let rest := s.rest
  if strncmp rest (bytes "./") 2 = 0 then { s with rest := rest.drop 2 }
  else if strncmp rest (bytes "../") 3 = 0 then { s with rest := rest.drop 3 }
  else if strncmp rest (bytes "/./") 3 = 0 then { s with rest := rest.drop 2 }
  else if strncmp rest (bytes "/.") 2 = 0 && isEndPath (charAt rest 2) then
    { s with rest := SLASH :: rest.drop 2 }
  else if strncmp rest (bytes "/../") 4 = 0 ||
      (strncmp rest (bytes "/..") 3 = 0 && isEndPath (charAt rest 3)) then
    { out := parent s.out
      rest := if isEndPath (charAt rest 3) then SLASH :: rest.drop 3 else rest.drop 3 }
  else if strncmp rest (bytes ".") 1 = 0 && isEndPath (charAt rest 1) then
    { s with rest := rest.drop 1 }
  else if strncmp rest (bytes "..") 2 = 0 && isEndPath (charAt rest 2) then
    { s with rest := rest.drop 2 }
  else { out := s.out ++ leadingSegment rest, rest := rest.drop (leadingSegment rest).length }

theorem charAt_append (a b : List UInt8) (i : Nat) : charAt (a ++ b) (a.length + i) = charAt b i := by
  simp [charAt, List.getD_eq_getElem?_getD, List.getElem?_append_right]

theorem charAt_zeros (s : List UInt8) (n i : Nat) :
    charAt (s ++ List.replicate n 0) i = charAt s i := by
  simp only [charAt, List.getD_eq_getElem?_getD, List.getElem?_append, List.getElem?_replicate]
  grind

theorem isEscaped_inside (done todo : List UInt8) (freed : Nat) :
    isEscaped (done ++ todo ++ List.replicate freed 0) done.length = isEscaped todo 0 := by
  have first := charAt_append done todo 0
  rw [Nat.add_zero] at first
  simp only [isEscaped, charAt_zeros, charAt_append, first]

theorem isEscaped_shape {todo : List UInt8} (escaped : isEscaped todo 0 = true) :
    ∃ high low rest, todo = 37 :: high :: low :: rest := by
  match todo with
  | c :: high :: low :: rest =>
    have percent : c = 37 := by
      simp only [isEscaped, Bool.and_eq_true, decide_eq_true_eq] at escaped
      exact escaped.1.1
    exact ⟨high, low, rest, by rw [percent]⟩
  | [] => simp [isEscaped, charAt] at escaped
  | [c] => simp [isEscaped, charAt, isXdigit, isDigit] at escaped
  | [c, high] => simp [isEscaped, charAt, isXdigit, isDigit] at escaped

theorem replaceEscaped_inside (done : List UInt8) (high low : UInt8) (rest : List UInt8)
    (freed : Nat) (escaped : isEscaped (37 :: high :: low :: rest) 0 = true) :
    replaceEscaped (done ++ 37 :: high :: low :: rest ++ List.replicate freed 0) done.length
        (done.length + (rest.length + 3)) =
      ((done ++ [hexByte high low]) ++ rest ++ List.replicate (freed + 2) 0,
        (done ++ [hexByte high low]).length + rest.length) := by
  have first := charAt_append done (37 :: high :: low :: rest) 1
  have second := charAt_append done (37 :: high :: low :: rest) 2
  rw [replaceEscaped, if_pos (by rw [isEscaped_inside]; exact escaped)]
  have front : (done ++ 37 :: high :: low :: rest ++ List.replicate freed 0).take done.length = done := by
    rw [List.append_assoc, List.take_left]
  have size : done.length + (rest.length + 3) = (done ++ 37 :: high :: low :: rest).length := by simp
  have digits : ((done ++ 37 :: high :: low :: rest).drop (done.length + 3)) = rest := by
    rw [List.drop_length_add_append]
    rfl
  have zeros : [0, 0] ++ List.replicate freed (0 : UInt8) = List.replicate (freed + 2) 0 := by
    rw [Nat.add_comm, List.replicate_add]
    rfl
  simp only [charAt_zeros, first, second, front]
  rw [size, List.take_left, List.drop_left, digits, List.take_of_length_le, ← zeros]
  · simp [charAt]
    omega
  · simp

/-- Decoding rewrites the bytes not yet read and leaves zeros behind, one for each byte freed. -/
theorem removeEscapedLoop_eq (done todo : List UInt8) (freed : Nat) :
    ∃ more, removeEscapedLoop (done ++ todo ++ List.replicate freed 0) (done.length + todo.length)
        done.length =
      (done ++ percentDecode todo ++ List.replicate (freed + more) 0,
        done.length + (percentDecode todo).length) ∧
      (percentDecode todo).length + more = todo.length := by
  induction todo using percentDecode.induct generalizing done freed with
  | case1 =>
    refine ⟨0, ?_, by rw [percentDecode]; rfl⟩
    rw [removeEscapedLoop, dif_neg (by simp), percentDecode]
    rfl
  | case2 c rest escaped step =>
    obtain ⟨high, low, behind, shape⟩ := isEscaped_shape escaped
    obtain ⟨rfl, rfl⟩ := List.cons.inj shape
    obtain ⟨more, run, size⟩ := step (done ++ [hexByte high low]) (freed + 2)
    simp only [List.drop_succ_cons, List.drop_zero, List.length_append, List.length_singleton]
      at run size
    have here := replaceEscaped_inside done high low behind freed escaped
    have decoded : percentDecode (37 :: high :: low :: behind) =
        hexByte high low :: percentDecode behind := by
      rw [percentDecode, if_pos escaped]
      rfl
    refine ⟨more + 2, ?_, ?_⟩
    · rw [removeEscapedLoop, dif_pos (by simp)]
      simp only [List.length_cons, here, decoded]
      rw [List.length_append, List.length_singleton, run]
      simp only [List.append_assoc, List.cons_append, List.nil_append, Prod.mk.injEq]
      exact ⟨by rw [Nat.add_assoc, Nat.add_comm 2 more], by omega⟩
    · simp only [decoded, List.length_cons]
      omega
  | case3 c rest plain step =>
    obtain ⟨more, run, size⟩ := step (done ++ [c]) freed
    have decoded : percentDecode (c :: rest) = c :: percentDecode rest := by
      rw [percentDecode, if_neg plain]
    refine ⟨more, ?_, ?_⟩
    · rw [removeEscapedLoop, dif_pos (by simp), replaceEscaped, if_neg (by rwa [isEscaped_inside])]
      rw [List.append_assoc done, List.singleton_append, List.length_append,
        List.length_singleton] at run
      simp only [decoded, List.length_cons]
      rw [show done.length + (rest.length + 1) = done.length + 1 + rest.length by omega, run]
      simp only [List.append_assoc, List.cons_append, List.nil_append, Prod.mk.injEq]
      exact ⟨trivial, by omega⟩
    · rw [decoded, List.length_cons, List.length_cons]
      omega

/-- `remove_escaped_chars` on a string of the given size is percent-decoding with zeros behind. -/
theorem removeEscapedChars_eq (s : List UInt8) :
    ∃ freed, removeEscapedChars (s ++ [0]) s.length =
      (percentDecode s ++ List.replicate (freed + 1) 0, (percentDecode s).length) ∧
      (percentDecode s).length + freed = s.length := by
  obtain ⟨freed, run, size⟩ := removeEscapedLoop_eq [] s 1
  refine ⟨freed, ?_, size⟩
  simp only [List.nil_append, List.length_nil, Nat.zero_add] at run
  rw [removeEscapedChars, Nat.add_comm freed 1, ← run]
  rfl

def AtBoundary (rest : List UInt8) : Prop := charAt rest 0 = SLASH ∨ isEndPath (charAt rest 0) = true

/-- What one round can do; `move` is case 2.E, which never moves a `..` segment. -/
inductive DotMove (s : DotState) : DotState → Prop
  | skip (dots rest : List UInt8) (input : s.rest = DOT :: dots ++ rest)
      (only : ∀ c ∈ dots, c = DOT ∨ c = SLASH) : DotMove s ⟨s.out, rest⟩
  | stay (dots rest : List UInt8) (input : s.rest = SLASH :: DOT :: dots ++ rest)
      (only : ∀ c ∈ dots, c = DOT ∨ c = SLASH) : DotMove s ⟨s.out, SLASH :: rest⟩
  | up (dots rest : List UInt8) (input : s.rest = SLASH :: DOT :: DOT :: dots ++ rest)
      (only : ∀ c ∈ dots, c = DOT ∨ c = SLASH) : DotMove s ⟨parent s.out, SLASH :: rest⟩
  | move (slash name rest : List UInt8) (input : s.rest = slash ++ name ++ rest)
      (slashes : slash = [SLASH] ∨ slash = [] ∧ name ≠ [])
      (flat : ∀ c ∈ name, c ≠ SLASH ∧ isEndPath c = false) (notDotDot : name ≠ [DOT, DOT])
      (stops : AtBoundary rest) : DotMove s ⟨s.out ++ (slash ++ name), rest⟩

theorem strncmp_starts {literal s : List UInt8} {n : Nat} (size : literal.length = n)
    (noNul : 0 ∉ literal) : strncmp s literal n = 0 ↔ ∃ rest, s = literal ++ rest := by
  rw [← size, strncmp_literal s noNul]
  constructor
  · rintro ⟨rest, same⟩
    exact ⟨rest, same.symm⟩
  · rintro ⟨rest, same⟩
    exact ⟨rest, same.symm⟩

theorem atBoundary_dropWhile (rest : List UInt8) :
    AtBoundary (rest.dropWhile fun c => c ≠ SLASH && notEndPath c) := by
  have head := dropWhile_head (fun c => c ≠ SLASH && notEndPath c) rest
  cases shape : rest.dropWhile fun c => c ≠ SLASH && notEndPath c with
  | nil => exact Or.inr rfl
  | cons c tail =>
    rw [shape] at head
    have stopped := head c rfl
    by_cases slash : c = SLASH
    · exact Or.inl slash
    · exact Or.inr (by simpa [slash, notEndPath, charAt] using stopped)

theorem leadingSegment_split (rest : List UInt8) (more : isEndPath (charAt rest 0) = false) :
    ∃ slash name behind, rest = slash ++ name ++ behind ∧ leadingSegment rest = slash ++ name ∧
      (slash = [SLASH] ∨ slash = [] ∧ name ≠ []) ∧
      (∀ c ∈ name, c ≠ SLASH ∧ isEndPath c = false) ∧ AtBoundary behind := by
  have inside : ∀ text : List UInt8, ∀ c ∈ text.takeWhile (fun c => c ≠ SLASH && notEndPath c),
      c ≠ SLASH ∧ isEndPath c = false := by
    intro text c member
    simpa [notEndPath] using List.mem_takeWhile_imp member
  cases rest with
  | nil => simp [charAt, isEndPath] at more
  | cons c tail =>
    by_cases slash : c = SLASH
    · subst slash
      refine ⟨[SLASH], _, _, ?_, by simp [leadingSegment, charAt], Or.inl rfl, inside tail,
        atBoundary_dropWhile tail⟩
      simp
    · have first : c ≠ SLASH && notEndPath c := by simpa [slash, notEndPath, charAt] using more
      refine ⟨[], _, _, ?_, by simp [leadingSegment, charAt, slash], Or.inr ⟨rfl, ?_⟩,
        inside (c :: tail), atBoundary_dropWhile (c :: tail)⟩
      · simp
      · simp only [List.takeWhile_cons, first, if_true]
        exact List.cons_ne_nil _ _

theorem dotStep_move (s : DotState) (more : isEndPath (charAt s.rest 0) = false) :
    DotMove s (dotStep s) := by
  obtain ⟨out, input⟩ := s
  simp only at more
  simp only [dotStep]
  split_ifs with curA parentA curB curEnd parentC atEnd curD parentD
  all_goals try simp only [Bool.and_eq_true, Bool.or_eq_true, decide_eq_true_eq] at *
  · obtain ⟨rest, rfl⟩ := (strncmp_starts rfl (by decide)).mp curA
    exact .skip [SLASH] rest rfl (by simp)
  · obtain ⟨rest, rfl⟩ := (strncmp_starts rfl (by decide)).mp parentA
    exact .skip [DOT, SLASH] rest rfl (by simp)
  · obtain ⟨rest, rfl⟩ := (strncmp_starts rfl (by decide)).mp curB
    exact .stay [SLASH] rest rfl (by simp)
  · obtain ⟨rest, rfl⟩ := (strncmp_starts rfl (by decide)).mp curEnd.1
    exact .stay [] rest rfl (by simp)
  · obtain whole | ⟨start, -⟩ := parentC
    · obtain ⟨rest, rfl⟩ := (strncmp_starts rfl (by decide)).mp whole
      exact absurd (show isEndPath SLASH = true from atEnd) (by decide)
    · obtain ⟨rest, rfl⟩ := (strncmp_starts rfl (by decide)).mp start
      exact .up [] rest rfl (by simp)
  · obtain whole | ⟨-, ended⟩ := parentC
    · obtain ⟨rest, rfl⟩ := (strncmp_starts rfl (by decide)).mp whole
      exact .up [SLASH] rest rfl (by simp)
    · exact absurd ended atEnd
  · obtain ⟨rest, rfl⟩ := (strncmp_starts rfl (by decide)).mp curD.1
    exact .skip [] rest rfl (by simp)
  · obtain ⟨rest, rfl⟩ := (strncmp_starts rfl (by decide)).mp parentD.1
    exact .skip [DOT] rest rfl (by simp)
  · obtain ⟨slash, name, behind, input_eq, segment, slashes, flat, stops⟩ :=
      leadingSegment_split input more
    have dropped : input.drop (slash ++ name).length = behind := by rw [input_eq, List.drop_left]
    rw [segment, dropped]
    refine .move slash name behind input_eq slashes flat ?_ stops
    rintro rfl
    have boundary : (∃ tail, behind = SLASH :: tail) ∨ isEndPath (charAt behind 0) = true := by
      obtain slashed | ended := stops
      · cases behind with
        | nil => exact absurd slashed (by decide)
        | cons c tail => exact Or.inl ⟨tail, congrArg (· :: tail) slashed⟩
      · exact Or.inr ended
    obtain rfl | ⟨rfl, -⟩ := slashes
    · obtain ⟨tail, rfl⟩ | ended := boundary
      · exact parentC (Or.inl ((strncmp_starts rfl (by decide)).mpr ⟨tail, input_eq⟩))
      · refine parentC (Or.inr ⟨(strncmp_starts rfl (by decide)).mpr ⟨behind, input_eq⟩, ?_⟩)
        rw [input_eq]
        exact ended
    · obtain ⟨tail, rfl⟩ | ended := boundary
      · exact parentA ((strncmp_starts rfl (by decide)).mpr ⟨tail, input_eq⟩)
      · refine parentD ⟨(strncmp_starts rfl (by decide)).mpr ⟨behind, input_eq⟩, ?_⟩
        rw [input_eq]
        exact ended

theorem dotStep_shorter (s : DotState) (more : isEndPath (charAt s.rest 0) = false) :
    (dotStep s).rest.length < s.rest.length := by
  have moved := dotStep_move s more
  generalize dotStep s = t at moved ⊢
  cases moved with
  | skip dots rest input =>
    rw [input]
    simp only [List.cons_append, List.length_cons, List.length_append]
    omega
  | stay dots rest input =>
    rw [input]
    simp only [List.cons_append, List.length_cons, List.length_append]
    omega
  | up dots rest input =>
    rw [input]
    simp only [List.cons_append, List.length_cons, List.length_append]
    omega
  | move slash name rest input slashes =>
    have some : 0 < (slash ++ name).length := by
      obtain rfl | ⟨-, named⟩ := slashes
      · simp
      · have := List.length_pos_iff.mpr named
        rw [List.length_append]
        omega
    rw [input, List.length_append]
    simp only
    omega

def removeDotsLoop (s : DotState) : DotState :=
  if _more : isEndPath (charAt s.rest 0) then s else removeDotsLoop (dotStep s)
termination_by s.rest.length
decreasing_by exact dotStep_shorter s (by simpa using _more)

/-- `remove_dots(buf, size)`: the bytes before the NUL it ends with. -/
def removeDots (buf : List UInt8) (size : Nat) : List UInt8 :=
  let s := removeDotsLoop ⟨[], buf.take size⟩
  s.out ++ s.rest

structure DotsRemoved (tail : List UInt8) (s : DotState) : Prop where
  clean : ¬ HasDotDot s.out
  inPath : ∀ c ∈ s.out, isEndPath c = false
  seam : s.out = [] ∨ AtBoundary s.rest
  tail : s.rest.dropWhile notEndPath = tail

theorem mem_parent {path : List UInt8} {c : UInt8} (member : c ∈ parent path) : c ∈ path :=
  (parent_start path).subset member

theorem dropWhile_inPath {text : List UInt8} (inPath : ∀ c ∈ text, isEndPath c = false)
    (rest : List UInt8) : (text ++ rest).dropWhile notEndPath = rest.dropWhile notEndPath := by
  apply List.dropWhile_append_of_pos
  intro c member
  simp [notEndPath, inPath c member]

theorem dots_inPath {dots : List UInt8} (only : ∀ c ∈ dots, c = DOT ∨ c = SLASH) :
    ∀ c ∈ dots, isEndPath c = false := by
  intro c member
  obtain rfl | rfl := only c member <;> decide

theorem dotMove_keeps {tail : List UInt8} {s t : DotState} (kept : DotsRemoved tail s)
    (more : isEndPath (charAt s.rest 0) = false) (moved : DotMove s t) : DotsRemoved tail t := by
  obtain ⟨clean, inPath, seam, same⟩ := kept
  cases moved with
  | skip dots rest input only =>
    have empty : s.out = [] := by
      refine seam.resolve_right ?_
      rintro (slash | ended)
      · rw [input] at slash
        exact absurd (show DOT = SLASH from slash) (by decide)
      · rw [more] at ended
        contradiction
    refine ⟨clean, inPath, Or.inl empty, ?_⟩
    rw [input, dropWhile_inPath] at same
    · exact same
    · exact dots_inPath (by simpa using only)
  | stay dots rest input only =>
    refine ⟨clean, inPath, Or.inr (Or.inl rfl), ?_⟩
    rw [input, dropWhile_inPath] at same
    · exact same
    · exact dots_inPath (by simpa using only)
  | up dots rest input only =>
    refine ⟨parent_clean clean, fun c member => inPath c (mem_parent member), Or.inr (Or.inl rfl), ?_⟩
    rw [input, dropWhile_inPath] at same
    · exact same
    · exact dots_inPath (by simpa using only)
  | move slash name rest input slashes flat notDotDot stops =>
    have named : SLASH ∉ name := fun member => (flat SLASH member).1 rfl
    have segment : ∀ c ∈ slash ++ name, isEndPath c = false := by
      intro c member
      obtain slashed | member := List.mem_append.mp member
      · obtain rfl | ⟨rfl, -⟩ := slashes
        · rw [List.mem_singleton.mp slashed]
          decide
        · simp at slashed
      · exact (flat c member).2
    refine ⟨?_, ?_, Or.inr stops, ?_⟩
    · obtain rfl | ⟨rfl, nonempty⟩ := slashes
      · rw [List.singleton_append, hasDotDot_slash, hasDotDot_single named]
        exact not_or.mpr ⟨clean, notDotDot⟩
      · have empty : s.out = [] := by
          refine seam.resolve_right ?_
          rintro (slashed | ended)
          · obtain ⟨c, others, rfl⟩ := List.exists_cons_of_ne_nil nonempty
            rw [input] at slashed
            exact (flat c (by simp)).1 slashed
          · rw [more] at ended
            contradiction
        rw [empty, List.nil_append, List.nil_append, hasDotDot_single named]
        exact notDotDot
    · intro c member
      obtain member | member := List.mem_append.mp member
      · exact inPath c member
      · exact segment c member
    · rw [input, dropWhile_inPath segment] at same
      exact same

theorem removeDotsLoop_removed {tail : List UInt8} {s : DotState} (kept : DotsRemoved tail s) :
    DotsRemoved tail (removeDotsLoop s) ∧ isEndPath (charAt (removeDotsLoop s).rest 0) = true := by
  induction s using removeDotsLoop.induct with
  | case1 s ended =>
    rw [removeDotsLoop, dif_pos ended]
    exact ⟨kept, ended⟩
  | case2 s more step =>
    rw [removeDotsLoop, dif_neg more]
    have inside : isEndPath (charAt s.rest 0) = false := by simpa using more
    exact step (dotMove_keeps kept inside (dotStep_move s inside))

/-- The path comes out without a `..` segment; what stands behind its end comes out as it was. -/
theorem removeDots_split (buf : List UInt8) (size : Nat) :
    ∃ path, removeDots buf size = path ++ (buf.take size).dropWhile notEndPath ∧
      ¬ HasDotDot path ∧ ∀ c ∈ path, isEndPath c = false := by
  have start : DotsRemoved ((buf.take size).dropWhile notEndPath) ⟨[], buf.take size⟩ :=
    ⟨not_hasDotDot_nil, by simp, Or.inl rfl, rfl⟩
  obtain ⟨removed, ended⟩ := removeDotsLoop_removed start
  refine ⟨_, ?_, removed.clean, removed.inPath⟩
  rw [removeDots, ← removed.tail]
  cases shape : (removeDotsLoop ⟨[], buf.take size⟩).rest with
  | nil => simp
  | cons c rest =>
    rw [shape] at ended
    have stops : notEndPath c = false := by simpa [notEndPath, charAt] using ended
    simp [stops]

end Pupnp.Uri
