import Mathlib.Order.Lattice

/-!
Binary search over an interval of indices. The probe tells where the wanted entry lies: behind the index
where it is positive, before it where it is negative, and at it where it is zero.
-/

namespace Pupnp.BinarySearch

def search (probe : Nat → Int) (top bot : Nat) : Option Nat :=
  if _h : top < bot then
    let mid := (top + bot - 1) / 2
    if 0 < probe mid then search probe (mid + 1) bot
    else if probe mid < 0 then search probe top mid
    else some mid
  else none
termination_by bot - top
decreasing_by all_goals omega

variable {probe : Nat → Int} {top bot : Nat}

theorem search_hit {i : Nat} (found : search probe top bot = some i) : top ≤ i ∧ i < bot ∧ probe i = 0 := by
  fun_induction search probe top bot with
  | case1 top bot inside mid behind ih =>
    have later := ih found
    omega
  | case2 top bot inside mid _ before ih =>
    have earlier := ih found
    omega
  | case3 top bot inside mid notBehind notBefore =>
    obtain rfl := Option.some.inj found
    omega
  | case4 => cases found

/-- The entries ascend: behind one that the wanted entry is not behind, it is before all of them. -/
def Ascends (probe : Nat → Int) (top bot : Nat) : Prop :=
  ∀ i j, top ≤ i → i < j → j < bot → probe i ≤ 0 → probe j < 0

theorem search_none (ascends : Ascends probe top bot) (missed : search probe top bot = none) {i : Nat}
    (above : top ≤ i) (below : i < bot) : probe i ≠ 0 := by
  fun_induction search probe top bot with
  | case1 top bot inside mid behind ih =>
    intro here
    by_cases late : mid + 1 ≤ i
    · exact ih (fun i j first => ascends i j (by omega)) missed late below here
    · -- an entry up to `mid` at which the search should have stopped would put the entry at `mid` behind
      obtain rfl | earlier := Nat.eq_or_lt_of_le (Nat.le_of_not_lt late)
      · omega
      · have at_mid := ascends i mid above earlier (by omega) (by omega)
        omega
  | case2 top bot inside mid _ before ih =>
    intro here
    by_cases early : i < mid
    · exact ih (fun i j first second third => ascends i j first second (by omega)) missed above early here
    · obtain same | later := Nat.eq_or_lt_of_le (Nat.le_of_not_lt early)
      · rw [← same] at here
        omega
      · have at_i := ascends mid i (by omega) later below (by omega)
        omega
  | case3 => cases missed
  | case4 top bot empty => omega

theorem search_congr {probe' : Nat → Int} (behind : ∀ i, 0 < probe i ↔ 0 < probe' i)
    (before : ∀ i, probe i < 0 ↔ probe' i < 0) : search probe top bot = search probe' top bot := by
  fun_induction search probe top bot with
  | case1 top bot inside mid later ih =>
    rw [ih, search.eq_def probe' top bot, dif_pos inside]
    exact (if_pos ((behind mid).mp later)).symm
  | case2 top bot inside mid notBehind earlier ih =>
    rw [ih, search.eq_def probe' top bot, dif_pos inside]
    dsimp only
    rw [if_neg (fun later => notBehind ((behind _).mpr later)), if_pos ((before _).mp earlier)]
  | case3 top bot inside mid notBehind notBefore =>
    rw [search.eq_def probe' top bot, dif_pos inside]
    dsimp only
    rw [if_neg (fun later => notBehind ((behind _).mpr later)),
      if_neg (fun earlier => notBefore ((before _).mpr earlier))]
  | case4 top bot empty => rw [search.eq_def probe' top bot, dif_neg empty]

/-- A key in a linear order, compared with the entries of a strictly ascending list. -/
theorem ascends_of_pairwise {K : Type*} [LinearOrder K] {entries : List K} (sorted : entries.Pairwise (· < ·))
    (key : K) (before : ∀ i (inside : i < entries.length), probe i < 0 ↔ key < entries[i])
    (behind : ∀ i (inside : i < entries.length), 0 < probe i ↔ entries[i] < key) :
    Ascends probe 0 entries.length := by
  intro i j _ order inside notBehind
  have below : key ≤ entries[i] := by
    apply le_of_not_gt
    intro above
    have positive := (behind i (by omega)).mpr above
    omega
  exact (before j inside).mpr (lt_of_le_of_lt below (List.pairwise_iff_getElem.mp sorted i j _ _ order))

end Pupnp.BinarySearch
