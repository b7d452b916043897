import Pupnp.Library.CString

/-! Where `strstr` finds a text in one that is put together around separators. -/

namespace Pupnp.CString

theorem strstr_isSome {needle s : List UInt8} : (strstr needle s).isSome ↔ needle <:+: s := by
  induction s with
  | nil =>
    rw [strstr, List.infix_nil]
    split
    next empty => simp [empty]
    next some => simp [some]
  | cons c rest ih =>
    rw [strstr, List.infix_cons_iff]
    split
    next here => simp [List.isPrefixOf_iff_prefix.mp here]
    next away =>
      have other : ¬needle <+: c :: rest := fun here => away (List.isPrefixOf_iff_prefix.mpr here)
      rw [Option.isSome_map, ih]
      simp [other]

theorem strstr_prefix (needle rest : List UInt8) : strstr needle (needle ++ rest) = some 0 := by
  cases whole : needle ++ rest with
  | nil =>
    have empty := (List.append_eq_nil_iff.mp whole).1
    rw [strstr, if_pos empty]
  | cons c more =>
    rw [strstr, if_pos]
    rw [← whole]
    exact List.isPrefixOf_iff_prefix.mpr (List.prefix_append _ _)

theorem strstr_some {needle s : List UInt8} {k : Nat} (found : strstr needle s = some k) :
    needle <+: s.drop k := by
  induction s generalizing k with
  | nil =>
    rw [strstr] at found
    split at found
    next empty =>
      cases found
      rw [empty]
      exact List.nil_prefix
    next => cases found
  | cons c rest ih =>
    rw [strstr] at found
    split at found
    next here =>
      cases found
      exact List.isPrefixOf_iff_prefix.mp here
    next =>
      obtain ⟨j, later, rfl⟩ := Option.map_eq_some_iff.mp found
      exact ih later

theorem strstr_first {needle s : List UInt8} {k j : Nat} (found : strstr needle s = some k)
    (here : needle <+: s.drop j) : k ≤ j := by
  induction s generalizing k j with
  | nil =>
    rw [strstr] at found
    split at found
    next => cases found; exact Nat.zero_le j
    next => cases found
  | cons c rest ih =>
    rw [strstr] at found
    split at found
    next => cases found; exact Nat.zero_le j
    next away =>
      obtain ⟨i, later, rfl⟩ := Option.map_eq_some_iff.mp found
      cases j with
      | zero => exact absurd (List.isPrefixOf_iff_prefix.mpr here) away
      | succ j => exact Nat.succ_le_succ (ih later here)

section Separator
variable {sep : UInt8}

theorem prefix_sep {needle a : List UInt8} (noSep : sep ∉ needle) (b : List UInt8) :
    needle <+: a ++ sep :: b ↔ needle <+: a := by
  induction needle generalizing a with
  | nil => simp
  | cons c needle ih =>
    obtain ⟨other, noSep⟩ := List.ne_and_not_mem_of_not_mem_cons noSep
    cases a with
    | nil => simp [List.cons_prefix_cons, other.symm]
    | cons d a => simp [List.cons_prefix_cons, ih noSep]

theorem prefix_atSep {x a : List UInt8} (noSep : sep ∉ x) (before : sep ∉ a) (y b : List UInt8) :
    x ++ sep :: y <+: a ++ sep :: b ↔ x = a ∧ y <+: b := by
  induction x generalizing a with
  | nil =>
    cases a with
    | nil => simp [List.cons_prefix_cons]
    | cons d a =>
      obtain ⟨other, -⟩ := List.ne_and_not_mem_of_not_mem_cons before
      simp [List.cons_prefix_cons, other]
  | cons c x ih =>
    obtain ⟨other, noSep⟩ := List.ne_and_not_mem_of_not_mem_cons noSep
    cases a with
    | nil => simp [List.cons_prefix_cons, other.symm]
    | cons d a =>
      obtain ⟨-, before⟩ := List.ne_and_not_mem_of_not_mem_cons before
      simp [List.cons_prefix_cons, ih noSep before, and_assoc]

theorem strstr_split {needle : List UInt8} (nonempty : needle ≠ []) (noSep : sep ∉ needle)
    (a b : List UInt8) : strstr needle (a ++ sep :: b) =
      (strstr needle a <|> (strstr needle b).map (· + (a.length + 1))) := by
  induction a with
  | nil =>
    have away : needle.isPrefixOf (sep :: b) = false := by
      rw [Bool.eq_false_iff, ne_eq, List.isPrefixOf_iff_prefix]
      intro here
      exact nonempty (List.prefix_nil.mp ((prefix_sep noSep b).mp here))
    simp [strstr, away, nonempty]
  | cons c a ih =>
    have same : needle.isPrefixOf (c :: (a ++ sep :: b)) = needle.isPrefixOf (c :: a) := by
      rw [Bool.eq_iff_iff, List.isPrefixOf_iff_prefix, List.isPrefixOf_iff_prefix]
      exact @prefix_sep sep needle (c :: a) noSep b
    rw [List.cons_append, strstr, strstr, same, ih]
    split
    next => rfl
    next =>
      cases strstr needle a with
      | some k => rfl
      | none =>
        cases strstr needle b with
        | none => rfl
        | some k => simp [Nat.add_assoc]

theorem infix_split {needle : List UInt8} (nonempty : needle ≠ []) (noSep : sep ∉ needle) (a b : List UInt8) :
    needle <:+: a ++ sep :: b ↔ needle <:+: a ∨ needle <:+: b := by
  rw [← strstr_isSome, ← strstr_isSome, ← strstr_isSome, strstr_split nonempty noSep]
  cases strstr needle a <;> simp

theorem strstr_sep {x a : List UInt8} (noSep : sep ∉ x) (before : sep ∉ a) (y b : List UInt8) :
    strstr (x ++ sep :: y) (a ++ sep :: b) =
      if x <:+ a ∧ y <+: b then some (a.length - x.length)
      else (strstr (x ++ sep :: y) b).map (· + (a.length + 1)) := by
  have across (a : List UInt8) (before : sep ∉ a) :
      (x ++ sep :: y).isPrefixOf (a ++ sep :: b) = true ↔ x = a ∧ y <+: b := by
    rw [List.isPrefixOf_iff_prefix]
    exact prefix_atSep noSep before y b
  induction a with
  | nil =>
    have here := across [] before
    rw [List.nil_append] at here
    rw [List.nil_append, strstr]
    by_cases found : x = [] ∧ y <+: b
    · rw [if_pos (here.mpr found), if_pos (by simpa using found)]
      simp
    · rw [if_neg (fun again => found (here.mp again)), if_neg (by simpa using found)]
      rfl
  | cons c a ih =>
    rw [List.cons_append, strstr, ih (List.ne_and_not_mem_of_not_mem_cons before).2]
    have here := across (c :: a) before
    rw [List.cons_append] at here
    by_cases found : x = c :: a ∧ y <+: b
    · rw [if_pos (here.mpr found), if_pos ⟨found.1 ▸ List.suffix_rfl, found.2⟩, found.1]
      simp
    · rw [if_neg (fun again => found (here.mp again))]
      have later : (x <:+ c :: a ∧ y <+: b) ↔ (x <:+ a ∧ y <+: b) := by
        rw [List.suffix_cons_iff]
        tauto
      by_cases inside : x <:+ a ∧ y <+: b
      · rw [if_pos inside, if_pos (later.mpr inside)]
        have shorter := inside.1.length_le
        simp only [Option.map_some, List.length_cons, Option.some.injEq]
        omega
      · rw [if_neg inside, if_neg (fun again => inside (later.mp again))]
        cases strstr (x ++ sep :: y) b with
        | none => rfl
        | some k => simp [Nat.add_assoc]

theorem strstr_noSep {needle s : List UInt8} (inside : sep ∈ needle) (noSep : sep ∉ s) :
    strstr needle s = none := by
  cases found : strstr needle s with
  | none => rfl
  | some k => exact absurd ((strstr_isSome.mp (Option.isSome_of_mem found)).subset inside) noSep

end Separator

end Pupnp.CString
