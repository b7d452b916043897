import Mathlib.Data.List.GetD
import Mathlib.Data.List.Lex
import Mathlib.Data.List.Nodup
import Pupnp.Http.Message
import Pupnp.Library.BinarySearch

/-! Looking up the names of methods and headers: `map_str_to_int` over the tables of the parser. -/

namespace Pupnp.Http
open Pupnp.CString Pupnp.BinarySearch

/-! ### The comparisons -/

def nameKey (s : List UInt8) : List Nat := (cstr s).map UInt8.toNat

theorem nameKey_inj {s s' : List UInt8} : nameKey s = nameKey s' ↔ cstr s = cstr s' :=
  (List.map_injective_iff.mpr fun _ _ => UInt8.toNat_inj.mp).eq_iff

theorem cstr_cons {c : UInt8} (some : c ≠ 0) (s : List UInt8) : cstr (c :: s) = c :: cstr s := by
  rw [cstr, List.takeWhile_cons_of_pos (by simpa using some), cstr]

theorem nameKey_cons {c : UInt8} (some : c ≠ 0) (s : List UInt8) : nameKey (c :: s) = c.toNat :: nameKey s := by
  rw [nameKey, cstr_cons some, List.map_cons, nameKey]

theorem cstr_cstr (s : List UInt8) : cstr (cstr s) = cstr s := List.takeWhile_idem

theorem nameKey_nul (s : List UInt8) : nameKey (0 :: s) = [] := rfl

theorem memptrCmp_cons_same {c : UInt8} (some : c ≠ 0) (m s : List UInt8) :
    memptrCmp (c :: m) (c :: s) = memptrCmp m s := by
  simp [memptrCmp, strncmp, some]

theorem memptrCmp_cons_other {c d : UInt8} (other : c ≠ d) (m s : List UInt8) :
    memptrCmp (c :: m) (d :: s) = c.toNat - d.toNat := by
  have apart : (c.toNat : Int) - d.toNat ≠ 0 := by
    intro same
    have numbers : c.toNat = d.toNat := by omega
    exact other (UInt8.toNat_inj.mp numbers)
  simp [memptrCmp, strncmp, other, apart]

theorem toNat_pos {c : UInt8} (some : c ≠ 0) : 0 < c.toNat := by
  apply Nat.pos_of_ne_zero
  intro zero
  exact some (UInt8.toNat_inj.mp zero)

theorem memptrCmp_cons_nil {c : UInt8} (some : c ≠ 0) (m : List UInt8) : 0 < memptrCmp (c :: m) [] := by
  have positive := toNat_pos some
  simp [memptrCmp, strncmp, some]
  omega

/-- `memptr_cmp` orders a piece of memory, read as a C string, and a C string by their bytes. -/
theorem memptrCmp_sign (m : List UInt8) {s : List UInt8} (noNul : 0 ∉ s) :
    (memptrCmp m s < 0 ↔ nameKey m < nameKey s) ∧ (0 < memptrCmp m s ↔ nameKey s < nameKey m) := by
  induction m generalizing s with
  | nil =>
    cases s with
    | nil => exact ⟨by decide, by decide⟩
    | cons d s =>
      have some : d ≠ 0 := fun zero => noNul (zero ▸ List.mem_cons_self)
      rw [nameKey_cons some]
      simp [memptrCmp, strncmp, nameKey, cstr]
  | cons c m ih =>
    cases s with
    | nil =>
      by_cases nul : c = 0
      · subst nul
        exact ⟨by simp [memptrCmp, strncmp, nameKey, cstr], by simp [memptrCmp, strncmp, nameKey, cstr]⟩
      · have positive := memptrCmp_cons_nil nul m
        rw [nameKey_cons nul]
        refine ⟨iff_of_false (by omega) ?_, iff_of_true positive ?_⟩
        · simp [nameKey, cstr]
        · simp [nameKey, cstr]
    | cons d s =>
      have some : d ≠ 0 := fun zero => noNul (zero ▸ List.mem_cons_self)
      have rest : 0 ∉ s := fun member => noNul (List.mem_cons_of_mem _ member)
      rw [nameKey_cons some]
      by_cases same : c = d
      · subst same
        obtain ⟨less, greater⟩ := ih rest
        rw [memptrCmp_cons_same some, nameKey_cons some, List.cons_lt_cons_iff, List.cons_lt_cons_iff, less, greater]
        simp
      · rw [memptrCmp_cons_other same]
        by_cases nul : c = 0
        · subst nul
          have positive := toNat_pos some
          rw [nameKey_nul]
          refine ⟨iff_of_true ?_ (List.nil_lt_cons _ _), iff_of_false ?_ (List.not_lt_nil _)⟩
          · change (0 : Int) - d.toNat < 0
            omega
          · change ¬(0 : Int) < 0 - d.toNat
            omega
        · have apart : c.toNat ≠ d.toNat := fun numbers => same (UInt8.toNat_inj.mp numbers)
          rw [nameKey_cons nul, List.cons_lt_cons_iff, List.cons_lt_cons_iff]
          omega

theorem memptrCmp_eq_zero {m s : List UInt8} (noNul : 0 ∉ s) : memptrCmp m s = 0 ↔ cstr m = s := by
  obtain ⟨less, greater⟩ := memptrCmp_sign m noNul
  have keys : memptrCmp m s = 0 ↔ nameKey m = nameKey s := by
    constructor
    · intro zero
      apply le_antisymm
      · exact le_of_not_gt fun above => by have := greater.mpr above; omega
      · exact le_of_not_gt fun below => by have := less.mpr below; omega
    · intro same
      have notLess := less.not.mpr (same ▸ lt_irrefl _)
      have notGreater := greater.not.mpr (same ▸ lt_irrefl _)
      omega
  rw [keys, nameKey_inj, cstr_eq_self noNul]

theorem toLower_eq_zero {c : UInt8} : toLower c = 0 ↔ c = 0 := by
  revert c
  apply forall_byte
  decide +kernel

theorem strncasecmp_eq (a b : List UInt8) (n : Nat) :
    strncasecmp a b n = strncmp (a.map toLower) (b.map toLower) n := by
  have head (s : List UInt8) : (s.map toLower).headD 0 = toLower (s.headD 0) := by
    cases s <;> rfl
  induction n generalizing a b with
  | zero => rw [strncasecmp, strncmp]
  | succ n ih => rw [strncasecmp, strncmp, head, head, ih, List.map_tail, List.map_tail]

theorem memptrCmpNocase_eq (m s : List UInt8) : memptrCmpNocase m s = memptrCmp (m.map toLower) (s.map toLower) := by
  rw [memptrCmpNocase, memptrCmp, strncasecmp_eq, List.length_map, List.length_map]

theorem cstr_map_toLower (s : List UInt8) : cstr (s.map toLower) = (cstr s).map toLower := by
  rw [cstr, cstr, List.takeWhile_map]
  congr 2
  funext c
  simp [toLower_eq_zero]

/-! ### The tables -/

/-- The tables that the parser looks names up in. -/
inductive NameTable where
  | methods
  | headers
  deriving DecidableEq, Repr

namespace NameTable

def names : NameTable → List (List UInt8)
  | .methods => httpMethodTable.map (·.1)
  | .headers => httpHeaderNames.map (·.1)

def caseSensitive : NameTable → Bool
  | .methods => true
  | .headers => false

def fold (table : NameTable) (s : List UInt8) : List UInt8 := if table.caseSensitive then s else s.map toLower

/-- The string, which ends at its first NUL, is the entry. -/
def Same (table : NameTable) (name entry : List UInt8) : Prop := table.fold (cstr name) = table.fold entry

/-- What a lookup should return: the index of an entry that is the string, -1 where there is none. -/
structure FoundRight (table : NameTable) (name : List UInt8) : Prop where
  hit : ∀ i, mapStrToInt name table.names table.caseSensitive = some i →
    ∃ entry, table.names[i]? = some entry ∧ table.Same name entry
  miss : mapStrToInt name table.names table.caseSensitive = none → ∀ entry ∈ table.names, ¬table.Same name entry

def probe (table : NameTable) (name : List UInt8) (i : Nat) : Int :=
  memptrCmp (table.fold name) (table.fold (table.names.getD i []))

variable (table : NameTable) (name : List UInt8)

theorem names_noNul {entry : List UInt8} (member : entry ∈ table.names) : 0 ∉ table.fold entry := by
  revert entry
  cases table <;> decide +kernel

theorem cstr_fold : cstr (table.fold name) = table.fold (cstr name) := by
  cases table with
  | methods => rfl
  | headers => exact cstr_map_toLower name

end NameTable

theorem mapStrToIntLoop_search (cmp : List UInt8 → Int) (names : List (List UInt8)) (top bot : Nat) :
    mapStrToIntLoop cmp names top bot = search (fun i => cmp (names.getD i [])) top bot := by
  fun_induction mapStrToIntLoop cmp names top bot with
  | case1 top bot inside mid order behind ih =>
    rw [ih, search.eq_def _ top bot, dif_pos inside]
    exact (if_pos behind).symm
  | case2 top bot inside mid order notBehind before ih =>
    rw [ih, search.eq_def _ top bot, dif_pos inside]
    dsimp only
    rw [if_neg notBehind, if_pos before]
  | case3 top bot inside mid order notBehind notBefore =>
    rw [search.eq_def _ top bot, dif_pos inside]
    dsimp only
    rw [if_neg notBehind, if_neg notBefore]
  | case4 top bot empty => rw [search.eq_def _ top bot, dif_neg empty]

namespace NameTable
variable {table : NameTable} {name : List UInt8}

theorem mapStrToInt_search :
    mapStrToInt name table.names table.caseSensitive = search (table.probe name) 0 table.names.length := by
  rw [mapStrToInt, mapStrToIntLoop_search]
  congr 1
  funext i
  cases table with
  | methods => rfl
  | headers => exact memptrCmpNocase_eq _ _

theorem probe_eq_zero {i : Nat} (inside : i < table.names.length) :
    table.probe name i = 0 ↔ table.Same name table.names[i] := by
  have entry : table.names.getD i [] = table.names[i] := List.getD_eq_getElem _ _ inside
  rw [probe, entry, memptrCmp_eq_zero (table.names_noNul (List.getElem_mem inside)), cstr_fold, Same]

theorem hit {i : Nat} (found : mapStrToInt name table.names table.caseSensitive = some i) :
    ∃ entry, table.names[i]? = some entry ∧ table.Same name entry := by
  rw [mapStrToInt_search] at found
  obtain ⟨-, inside, zero⟩ := search_hit found
  exact ⟨table.names[i], List.getElem?_eq_getElem inside, (probe_eq_zero inside).mp zero⟩

def keys (table : NameTable) : List (List Nat) := table.names.map fun entry => nameKey (table.fold entry)

theorem headers_sorted : NameTable.headers.keys.Pairwise (· < ·) := by
  decide

theorem headers_ascend : Ascends (NameTable.headers.probe name) 0 NameTable.headers.names.length := by
  have keyed {i : Nat} (inside : i < NameTable.headers.keys.length) :
      (NameTable.headers.probe name i < 0 ↔ nameKey (NameTable.headers.fold name) < NameTable.headers.keys[i]) ∧
        (0 < NameTable.headers.probe name i ↔ NameTable.headers.keys[i] < nameKey (NameTable.headers.fold name)) := by
    have room : i < NameTable.headers.names.length := by simpa [keys] using inside
    have entry : NameTable.headers.names.getD i [] = NameTable.headers.names[i] := List.getD_eq_getElem _ _ room
    rw [probe, entry]
    simp only [keys, List.getElem_map]
    exact memptrCmp_sign _ (NameTable.headers.names_noNul (List.getElem_mem room))
  have size : NameTable.headers.keys.length = NameTable.headers.names.length := List.length_map _
  rw [← size]
  exact ascends_of_pairwise headers_sorted _ (fun i inside => (keyed inside).1) (fun i inside => (keyed inside).2)

theorem headers_right (name : List UInt8) : NameTable.headers.FoundRight name where
  hit _ found := hit found
  miss missed entry member same := by
    rw [mapStrToInt_search] at missed
    obtain ⟨i, inside, rfl⟩ := List.mem_iff_getElem.mp member
    exact search_none headers_ascend missed (Nat.zero_le i) inside ((probe_eq_zero inside).mpr same)

theorem mapStrToInt_cstr :
    mapStrToInt name table.names table.caseSensitive = mapStrToInt (cstr name) table.names table.caseSensitive := by
  have short : nameKey (table.fold name) = nameKey (table.fold (cstr name)) := by
    rw [nameKey_inj, cstr_fold, cstr_fold, cstr_cstr]
  have signs (i : Nat) : (table.probe name i < 0 ↔ table.probe (cstr name) i < 0) ∧
      (0 < table.probe name i ↔ 0 < table.probe (cstr name) i) := by
    have noNul : 0 ∉ table.fold (table.names.getD i []) := by
      by_cases inside : i < table.names.length
      · rw [List.getD_eq_getElem _ _ inside]
        exact table.names_noNul (List.getElem_mem inside)
      · rw [List.getD_eq_default _ _ (Nat.le_of_not_lt inside)]
        cases table <;> exact List.not_mem_nil
    obtain ⟨less, greater⟩ := memptrCmp_sign (table.fold name) noNul
    obtain ⟨less', greater'⟩ := memptrCmp_sign (table.fold (cstr name)) noNul
    rw [← short] at less' greater'
    exact ⟨less.trans less'.symm, greater.trans greater'.symm⟩
  rw [mapStrToInt_search, mapStrToInt_search]
  exact search_congr (fun i => (signs i).2) (fun i => (signs i).1)

/-- Every method but one is found under its name; the entry for PUT stands behind greater ones. -/
theorem methods_found : ∀ entry ∈ NameTable.methods.names,
    (mapStrToInt entry NameTable.methods.names true = none ↔ entry = bytes "PUT") := by
  with_unfolding_all decide

theorem methods_right_iff (name : List UInt8) :
    NameTable.methods.FoundRight name ↔ cstr name ≠ bytes "PUT" := by
  have same {entry : List UInt8} : NameTable.methods.Same name entry ↔ cstr name = entry := Iff.rfl
  constructor
  · intro right put
    have member : bytes "PUT" ∈ NameTable.methods.names := by decide
    apply right.miss ?_ _ member (same.mpr put)
    rw [mapStrToInt_cstr, put]
    exact (methods_found _ member).mpr rfl
  · intro other
    refine ⟨fun _ found => hit found, fun missed entry member is => ?_⟩
    have named : cstr name = entry := same.mp is
    rw [mapStrToInt_cstr, named] at missed
    exact other (named.trans ((methods_found entry member).mp missed))

/-- `map_str_to_int` finds every string that is in one of the tables, and no other one, except PUT. -/
theorem mapStrToInt_right_iff (table : NameTable) (name : List UInt8) :
    table.FoundRight name ↔ ¬(table = .methods ∧ cstr name = bytes "PUT") := by
  cases table with
  | headers => exact iff_of_true (headers_right name) (by simp)
  | methods => exact (methods_right_iff name).trans (by simp)

/-- A request for PUT is taken for one with an unknown method. -/
theorem put_missed : ¬∀ (table : NameTable) (name : List UInt8), table.FoundRight name := by
  intro right
  exact (methods_right_iff (bytes "PUT")).mp (right .methods (bytes "PUT")) (by decide)

end NameTable

/-! ### Header names -/

def SameName (a b : List UInt8) : Prop := (cstr a).map toLower = (cstr b).map toLower

instance (a b : List UInt8) : Decidable (SameName a b) := inferInstanceAs (Decidable (_ = _))

theorem headerEntry_whole : ∀ entry ∈ httpHeaderNames, cstr entry.1 = entry.1 := by
  decide

theorem headerIds_nodup : (httpHeaderNames.map (·.2)).Nodup := by
  decide

theorem headerId_known : ∀ entry ∈ httpHeaderNames, entry.2 ≠ .unknown := by
  decide

theorem sameName_entry {entry : List UInt8 × HdrId} (member : entry ∈ httpHeaderNames) {name : List UInt8} :
    NameTable.headers.Same name entry.1 ↔ SameName name entry.1 := by
  rw [SameName, headerEntry_whole entry member]
  exact Iff.rfl

theorem headerEntry_unique {first second : List UInt8 × HdrId} (here : first ∈ httpHeaderNames)
    (there : second ∈ httpHeaderNames) (same : SameName first.1 second.1) : first = second := by
  have keys : NameTable.headers.keys = httpHeaderNames.map fun entry => nameKey (entry.1.map toLower) := by
    rw [NameTable.keys, NameTable.names, List.map_map]
    rfl
  have different := (NameTable.headers_sorted.imp fun less => ne_of_lt less)
  rw [keys] at different
  apply List.inj_on_of_nodup_map different here there
  rw [nameKey_inj, cstr_map_toLower, cstr_map_toLower]
  exact same

theorem lookupHeader_some_iff {name : List UInt8} {id : HdrId} :
    lookupHeader name = some id ↔ ∃ entry, (entry, id) ∈ httpHeaderNames ∧ SameName name entry := by
  have right := NameTable.headers_right name
  have found {i : Nat} (hit : mapStrToInt name NameTable.headers.names false = some i) :
      ∃ entry, httpHeaderNames[i]? = some entry ∧ SameName name entry.1 := by
    obtain ⟨text, at_i, same⟩ := right.hit i hit
    obtain ⟨entry, here, rfl⟩ := Option.map_eq_some_iff.mp ((List.getElem?_map ..).symm.trans at_i)
    exact ⟨entry, here, (sameName_entry (List.mem_of_getElem? here)).mp same⟩
  rw [lookupHeader]
  constructor
  · intro looked
    obtain ⟨i, hit, mapped⟩ := Option.bind_eq_some_iff.mp looked
    obtain ⟨entry, here, same⟩ := found hit
    rw [here] at mapped
    obtain rfl := Option.some.inj mapped
    exact ⟨entry.1, List.mem_of_getElem? here, same⟩
  · rintro ⟨entry, member, same⟩
    cases looked : mapStrToInt name NameTable.headers.names false with
    | none =>
      have inside : entry ∈ NameTable.headers.names := List.mem_map_of_mem member
      exact absurd ((sameName_entry member).mpr same) (right.miss looked entry inside)
    | some i =>
      obtain ⟨other, here, same'⟩ := found looked
      have one : other = (entry, id) := headerEntry_unique (List.mem_of_getElem? here) member (same'.symm.trans same)
      change (mapStrToInt name NameTable.headers.names false).bind _ = _
      rw [looked, Option.bind_some, here, one]
      rfl

theorem lookupHeader_known {entry : List UInt8} {id : HdrId} (member : (entry, id) ∈ httpHeaderNames) :
    lookupHeader entry = some id :=
  lookupHeader_some_iff.mpr ⟨entry, member, rfl⟩

theorem lookupHeader_congr {a b : List UInt8} (same : SameName a b) : lookupHeader a = lookupHeader b := by
  apply Option.ext
  intro id
  rw [lookupHeader_some_iff, lookupHeader_some_iff]
  constructor
  · rintro ⟨entry, member, here⟩
    exact ⟨entry, member, same.symm.trans here⟩
  · rintro ⟨entry, member, here⟩
    exact ⟨entry, member, same.trans here⟩

theorem lookupHeader_inj {a b : List UInt8} {id : HdrId} (first : lookupHeader a = some id)
    (second : lookupHeader b = some id) : SameName a b := by
  obtain ⟨entry, member, same⟩ := lookupHeader_some_iff.mp first
  obtain ⟨other, member', same'⟩ := lookupHeader_some_iff.mp second
  have one := List.inj_on_of_nodup_map headerIds_nodup member member' rfl
  obtain ⟨rfl, -⟩ := Prod.mk.inj one
  exact same.trans same'.symm

theorem lookupHeader_ne {entry name : List UInt8} {id : HdrId} (member : (entry, id) ∈ httpHeaderNames)
    (other : ¬SameName name entry) : lookupHeader name ≠ some id :=
  fun looked => other (lookupHeader_inj looked (lookupHeader_known member))

theorem lookupHeader_ne_unknown {name : List UInt8} : lookupHeader name ≠ some .unknown := by
  intro looked
  obtain ⟨entry, member, -⟩ := lookupHeader_some_iff.mp looked
  exact headerId_known _ member rfl

end Pupnp.Http
