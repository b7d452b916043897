import Pupnp.Ssdp.Advertise

/-!
Search targets that name a device or service type with a version, and how
`AdvertiseAndReply` compares them with the types of a description.
-/

namespace Pupnp.Ssdp
open Pupnp.CString Pupnp.Uri

def COLON : UInt8 := 58

inductive Kind where
  | device
  | service
  deriving DecidableEq, Repr

def Kind.name : Kind → List UInt8
  | .device => bytes "device"
  | .service => bytes "service"

def IsName (s : List UInt8) : Prop := s ≠ [] ∧ ∀ c ∈ s, c ≠ COLON ∧ c ≠ 0

instance (s : List UInt8) : Decidable (IsName s) := inferInstanceAs (Decidable (_ ∧ _))

/-- A search target `urn:<domain>:device:<type>:<ver>` or `urn:<domain>:service:<type>:<ver>`. -/
structure SearchTarget where
  kind : Kind
  domain : List UInt8
  type : List UInt8
  ver : Nat
  domain_name : IsName domain
  type_name : IsName type
  ver_positive : 0 < ver

namespace SearchTarget
variable (t : SearchTarget)

def urn : List UInt8 := bytes "urn:" ++ t.domain ++ COLON :: t.kind.name ++ COLON :: t.type

def text : List UInt8 := t.urn ++ COLON :: decimalDigits t.ver

end SearchTarget

def versionOf (own : List UInt8) : Option (List UInt8 × Nat) :=
  let version := behindLastColon own
  if version.length < own.length ∧ version ≠ [] ∧ version.all isDigit then
    some (own.take (own.length - version.length - 1), digitsValue 10 version)
  else none

/-- The version of a type of the target's domain and type, where it is at least the target's. -/
def SearchTarget.wanted (t : SearchTarget) (own : List UInt8) : Option Nat :=
  match versionOf own with
  | none => none
  | some (urn, version) =>
      if sameIgnoringCase urn t.urn && t.ver ≤ version then some version else none

def SharesAllButTwo (t : SearchTarget) (own : List UInt8) : Prop :=
  (own.take (t.text.length - 2)).map toLower = (t.text.take (t.text.length - 2)).map toLower

instance (t : SearchTarget) (own : List UInt8) : Decidable (SharesAllButTwo t own) :=
  inferInstanceAs (Decidable (_ = _))

def SearchTarget.verNumber (t : SearchTarget) : Int := atoi (decimalDigits t.ver)

def lastNumber (own : List UInt8) : Int := atoi (own.drop (own.length - 1))

theorem toLower_ne_zero {c : UInt8} : c ≠ 0 → toLower c ≠ 0 := by
  revert c
  apply forall_byte
  decide +kernel

theorem strncasecmp_cons (c d : UInt8) (s own : List UInt8) (n : Nat) :
    strncasecmp (c :: s) (d :: own) (n + 1) =
      if toLower c ≠ toLower d then ((toLower c).toNat : Int) - (toLower d).toNat
      else if toLower c = 0 then 0 else strncasecmp s own n := rfl

theorem strncasecmp_nil (c : UInt8) (s : List UInt8) (n : Nat) :
    strncasecmp (c :: s) [] (n + 1) = strncasecmp (c :: s) [0] (n + 1) := rfl

theorem strncasecmp_zero {n : Nat} {s own : List UInt8} (inside : n ≤ s.length)
    (noNul : ∀ c ∈ s, c ≠ 0) :
    strncasecmp s own n = 0 ↔ (own.take n).map toLower = (s.take n).map toLower := by
  have apart (x y : UInt8) (differ : x ≠ y) : (x.toNat : Int) - y.toNat ≠ 0 := by
    intro same
    exact differ (UInt8.toNat_inj.mp (by omega))
  induction n generalizing s own with
  | zero => simp [strncasecmp]
  | succ n ih =>
    cases s with
    | nil => simp at inside
    | cons c s =>
      have char := toLower_ne_zero (noNul c List.mem_cons_self)
      cases own with
      | nil =>
        have ended : toLower c ≠ toLower 0 := char
        rw [strncasecmp_nil, strncasecmp_cons, if_pos ended]
        constructor
        · intro same
          exact absurd same (apart _ _ ended)
        · simp
      | cons d own =>
        rw [strncasecmp_cons, List.take_succ_cons, List.take_succ_cons, List.map_cons,
          List.map_cons, List.cons.injEq]
        have later := @ih s own (by simpa using inside) fun e member =>
          noNul e (List.mem_cons_of_mem c member)
        by_cases same : toLower c = toLower d
        · rw [if_neg (not_not.mpr same), if_neg char]
          apply later.trans
          simp [same]
        · rw [if_pos same]
          constructor
          · intro zero
            exact absurd zero (apart _ _ same)
          · rintro ⟨equal, -⟩
            exact absurd equal.symm same

theorem behindLastColon_append {before version : List UInt8} (digits : ∀ c ∈ version, isDigit c = true) :
    behindLastColon (before ++ COLON :: version) = version := by
  have free : ∀ c ∈ version.reverse, (decide (c ≠ 58)) = true := by
    intro c member
    have digit := digits c (List.mem_reverse.mp member)
    have other : c ≠ 58 := by
      rintro rfl
      contradiction
    simp [other]
  rw [behindLastColon, List.rtakeWhile, List.reverse_append, List.reverse_cons, List.append_assoc,
    List.takeWhile_append_of_pos free]
  simp [COLON]

namespace SearchTarget
variable (t : SearchTarget)

theorem behindLastColon_text : behindLastColon t.text = decimalDigits t.ver :=
  behindLastColon_append (decimalDigits_isDigit t.ver)

theorem noNul : ∀ c ∈ t.text, c ≠ 0 := by
  have kind : ∀ c ∈ t.kind.name, c ≠ 0 := by cases t.kind <;> decide
  have start : ∀ c ∈ bytes "urn:", c ≠ 0 := by decide
  have colon : COLON ≠ 0 := by decide
  have digit : ∀ c ∈ decimalDigits t.ver, c ≠ 0 := by
    rintro c member rfl
    exact absurd (decimalDigits_isDigit t.ver 0 member) (by decide)
  intro c member
  simp only [text, urn, List.mem_append, List.mem_cons] at member
  obtain (((here | here) | rfl | here) | rfl | here) | rfl | here := member
  · exact start c here
  · exact (t.domain_name.2 c here).2
  · exact colon
  · exact kind c here
  · exact colon
  · exact (t.type_name.2 c here).2
  · exact colon
  · exact digit c here

theorem compareTypes_text (own : List UInt8) : compareTypes t.text own =
    if SharesAllButTwo t own ∧ t.verNumber ≤ lastNumber own then
      some (decide (t.verNumber < lastNumber own)) else none := by
  rw [compareTypes, behindLastColon_text]
  change (if strncasecmp t.text own (t.text.length - 2) = 0 then
    if t.verNumber < lastNumber own then some true
    else if t.verNumber = lastNumber own then some false else none else none) = _
  have equal : strncasecmp t.text own (t.text.length - 2) = 0 ↔ SharesAllButTwo t own :=
    strncasecmp_zero (Nat.sub_le _ _) t.noNul
  by_cases shares : SharesAllButTwo t own
  · rw [if_pos (equal.mpr shares)]
    by_cases less : t.verNumber < lastNumber own
    · rw [if_pos less, if_pos ⟨shares, less.le⟩, decide_eq_true less]
    · rw [if_neg less]
      by_cases same : t.verNumber = lastNumber own
      · rw [if_pos same, if_pos ⟨shares, same.le⟩, decide_eq_false less]
      · rw [if_neg same, if_neg fun both => less (lt_of_le_of_ne both.2 same)]
  · rw [if_neg (mt equal.mp shares), if_neg fun both => shares both.1]

/-- A target that does not fit in a line is no longer one that the comparison can meet. -/
theorem long_shares {own : List UInt8} (short : own.length ≤ 99) (shares : SharesAllButTwo t own) :
    copyLine t.text = t.text := by
  have lengths := congrArg List.length shares
  simp only [List.length_map, List.length_take] at lengths
  rw [copyLine, List.take_of_length_le]
  unfold LINE_SIZE
  omega

end SearchTarget

end Pupnp.Ssdp
