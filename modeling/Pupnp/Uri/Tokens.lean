import Mathlib.Tactic.Set
import Mathlib.Tactic.SplitIfs
import Pupnp.Uri.Parse

/-! The tokens of a parsed URI: where they lie in the buffer and which characters they consist of. -/

namespace Pupnp.Uri
open Pupnp.CString

/-! ### Characters of a string -/

theorem charAt_some {s : List UInt8} {i : Nat} {c : UInt8} (nonNul : c ≠ 0) (here : charAt s i = c) :
    s.take (i + 1) = s.take i ++ [c] ∧ i < s.length := by
  by_cases inside : i < s.length
  · rw [charAt, List.getD_eq_getElem?_getD, List.getElem?_eq_getElem inside, Option.getD_some] at here
    rw [List.take_add_one, List.getElem?_eq_getElem inside, here]
    exact ⟨rfl, inside⟩
  · rw [charAt, List.getD_eq_getElem?_getD, List.getElem?_eq_none (by omega)] at here
    exact absurd here.symm nonNul

theorem charAt_takeWhile {s : List UInt8} {p : UInt8 → Bool} (short : (s.takeWhile p).length < s.length) :
    p (charAt s (s.takeWhile p).length) = false := by
  induction s with
  | nil => exact absurd short (Nat.not_lt_zero _)
  | cons c s ih =>
    by_cases here : p c = true
    · rw [List.takeWhile_cons_of_pos here, List.length_cons, List.length_cons] at short
      rw [List.takeWhile_cons_of_pos here]
      exact ih (Nat.lt_of_succ_lt_succ short)
    · rw [List.takeWhile_cons_of_neg here]
      exact Bool.eq_false_iff.mpr here

theorem charAt_drop (s : List UInt8) (n i : Nat) : charAt (s.drop n) i = charAt s (n + i) := by
  rw [charAt, charAt, List.getD_eq_getElem?_getD, List.getD_eq_getElem?_getD, List.getElem?_drop]

theorem charAt_take (s : List UInt8) {n i : Nat} (inside : i < n) : charAt (s.take n) i = charAt s i := by
  rw [charAt, charAt, List.getD_eq_getElem?_getD, List.getD_eq_getElem?_getD, List.getElem?_take_of_lt inside]

theorem charAt_mem {s : List UInt8} {c : UInt8} (member : c ∈ s) : ∃ i, i < s.length ∧ charAt s i = c := by
  obtain ⟨i, inside, found⟩ := List.mem_iff_getElem.mp member
  refine ⟨i, inside, ?_⟩
  rw [charAt, List.getD_eq_getElem?_getD, List.getElem?_eq_getElem inside, Option.getD_some, found]

theorem charAt_inside {s : List UInt8} {i : Nat} (inside : i < (cstr s).length) : charAt s i ≠ 0 := by
  obtain ⟨c, here⟩ : ∃ c, (cstr s)[i]? = some c := ⟨_, List.getElem?_eq_getElem inside⟩
  have nonNul := List.mem_takeWhile_imp (List.mem_of_getElem? here)
  obtain ⟨rest, split⟩ : cstr s <+: s := List.takeWhile_prefix _
  have same : charAt s i = c := by
    rw [charAt, List.getD_eq_getElem?_getD, ← split, List.getElem?_append_left inside, here, Option.getD_some]
  rw [same]
  simpa using nonNul

/-! ### Runs of URI characters -/

theorem uricEnd_accepts {s : List UInt8} {max i j : Nat} (from_i : i ≤ j) (before : j < uricEnd s max i) :
    (isUnreserved (charAt s j) || isReserved (charAt s j) || (j + 2 < max && isEscaped s j)) = true := by
  induction i using uricEnd.induct s max with
  | case1 i inside accepted ih =>
    rw [uricEnd, dif_pos inside, if_pos accepted] at before
    rcases Nat.lt_or_ge i j with later | here
    · exact ih later before
    · obtain rfl : i = j := Nat.le_antisymm from_i here
      exact accepted
  | case2 i inside refused =>
    rw [uricEnd, dif_pos inside, if_neg refused] at before
    omega
  | case3 i outside =>
    rw [uricEnd, dif_neg outside] at before
    omega

theorem uricEnd_stops {s : List UInt8} {max i : Nat} (inside : i ≤ max) :
    uricEnd s max i = max ∨ uricEnd s max i < max ∧ isUnreserved (charAt s (uricEnd s max i)) = false ∧
      isReserved (charAt s (uricEnd s max i)) = false := by
  induction i using uricEnd.induct s max with
  | case1 i below accepted ih =>
    rw [uricEnd, dif_pos below, if_pos accepted]
    exact ih below
  | case2 i below refused =>
    rw [uricEnd, dif_pos below, if_neg refused]
    rw [Bool.or_eq_true, not_or, Bool.or_eq_true, not_or, Bool.not_eq_true, Bool.not_eq_true] at refused
    exact .inr ⟨below, refused.1⟩
  | case3 i outside =>
    rw [uricEnd, dif_neg outside]
    exact .inl (Nat.le_antisymm inside (Nat.le_of_not_lt outside))

theorem parseUric_zero (s : List UInt8) : parseUric s 0 = 0 := by
  rw [parseUric, uricEnd, dif_neg (Nat.not_lt_zero 0)]

theorem parseUric_le (s : List UInt8) (max : Nat) : parseUric s max ≤ max := by
  rcases @uricEnd_stops s max 0 (Nat.zero_le _) with whole | ⟨before, -⟩
  · exact Nat.le_of_eq whole
  · exact Nat.le_of_lt before

theorem xdigit_unreserved {c : UInt8} : isXdigit c = true → isUnreserved c = true := by
  revert c
  apply forall_byte
  decide +kernel

theorem parseUric_escape {s : List UInt8} {max i : Nat} (before : i < parseUric s max) (inside : i + 2 < max)
    (escaped : isEscaped s i = true) : i + 2 < parseUric s max := by
  rw [isEscaped, Bool.and_eq_true, Bool.and_eq_true] at escaped
  obtain ⟨⟨-, high⟩, low⟩ := escaped
  have other {n : Nat} (digit : isXdigit (charAt s n) = true) (below : n < max) : parseUric s max ≠ n := by
    intro ends
    rcases @uricEnd_stops s max 0 (Nat.zero_le _) with whole | ⟨-, refused, -⟩
    · rw [parseUric] at ends
      omega
    · rw [parseUric] at ends
      rw [ends, xdigit_unreserved digit] at refused
      exact Bool.false_ne_true refused.symm
  have first := other high (by omega)
  have second := other low inside
  omega

/-! ### The characters of RFC 2396 -/

def isUric (c : UInt8) : Bool := isAlnum c || (bytes "-_.!~*'()").contains c || (bytes ";/?:@&=+$,").contains c

def isUricOrBrace (c : UInt8) : Bool := isUric c || c = 123 || c = 125

def UricText (plain : UInt8 → Bool) (t : List UInt8) : Prop :=
  ∀ i < t.length, plain (charAt t i) = true ∨ isEscaped t i = true

instance (plain : UInt8 → Bool) (t : List UInt8) : Decidable (UricText plain t) :=
  inferInstanceAs (Decidable (∀ i < t.length, _))

def SchemeText (t : List UInt8) : Prop := t ≠ [] → isAlpha (charAt t 0) = true ∧ ∀ c ∈ t, isSchemeChar c = true

def PortText (t : List UInt8) : Prop := t = [] ∨ ∃ digits, t = 58 :: digits ∧ ∀ c ∈ digits, isDigit c = true

def HostName (t : List UInt8) : Prop := ∀ c ∈ t, isHostChar c = true

/-- An IPv6 address in brackets, which RFC 2396 does not have. -/
def HostLiteral (res : Resolver) (t : List UInt8) : Prop :=
  ∃ srvname, t = [91] ++ srvname ++ [93] ∧ (res.inetPton .inet6 srvname).isSome = true

def HostportText (host : List UInt8 → Prop) (t : List UInt8) : Prop :=
  ∃ name port, t = name ++ port ∧ host name ∧ PortText port

theorem uric_brace {c : UInt8} (nonNul : c ≠ 0) :
    (isUnreserved c || isReserved c) = true → isUricOrBrace c = true := by
  revert nonNul
  revert c
  apply forall_byte
  decide +kernel

theorem parseUric_text {s : List UInt8} {max : Nat} (noNul : ∀ i < max, charAt s i ≠ 0) :
    UricText isUricOrBrace (s.take (parseUric s max)) := by
  intro i inside
  rw [List.length_take] at inside
  have before : i < parseUric s max := by omega
  have below := Nat.lt_of_lt_of_le before (parseUric_le s max)
  have accepted := uricEnd_accepts (Nat.zero_le i) before
  rw [charAt_take s before]
  rw [Bool.or_eq_true, Bool.and_eq_true, decide_eq_true_eq] at accepted
  rcases accepted with plain | ⟨limit, escaped⟩
  · exact .inl (uric_brace (noNul i below) plain)
  · have whole := parseUric_escape before limit escaped
    rw [isEscaped] at escaped
    refine .inr ?_
    rw [isEscaped, charAt_take s before, charAt_take s (by omega), charAt_take s whole]
    exact escaped

/-! ### Scheme, host and port -/

theorem schemeEnd_colon {s : List UInt8} {max i : Nat} (found : schemeEnd s max i ≠ 0) :
    i ≤ schemeEnd s max i ∧ schemeEnd s max i < max ∧ charAt s (schemeEnd s max i) = 58 ∧
      ∀ j, i ≤ j → j < schemeEnd s max i → isSchemeChar (charAt s j) = true := by
  induction i using schemeEnd.induct s max with
  | case1 i inside colon =>
    rw [schemeEnd, dif_pos inside, if_pos colon]
    exact ⟨Nat.le_refl i, inside, colon, fun j from_i before => by omega⟩
  | case2 i inside other accepted ih =>
    rw [schemeEnd, dif_pos inside, if_neg other, if_pos accepted] at found ⊢
    obtain ⟨after, limit, colon, chars⟩ := ih found
    refine ⟨by omega, limit, colon, fun j from_i before => ?_⟩
    rcases Nat.lt_or_ge i j with later | here
    · exact chars j later before
    · obtain rfl : i = j := Nat.le_antisymm from_i here
      exact accepted
  | case3 i inside other refused =>
    rw [schemeEnd, dif_pos inside, if_neg other, if_neg refused] at found
    exact absurd rfl found
  | case4 i outside =>
    rw [schemeEnd, dif_neg outside] at found
    exact absurd rfl found

theorem parseScheme_colon {s : List UInt8} {max : Nat} (found : parseScheme s max ≠ 0) :
    parseScheme s max < max ∧ charAt s (parseScheme s max) = 58 ∧ SchemeText (s.take (parseScheme s max)) := by
  unfold parseScheme at found ⊢
  split at found
  · exact absurd rfl found
  · next letter =>
      rw [if_neg letter]
      rw [Bool.or_eq_true, not_or, Bool.not_eq_true, Bool.not_eq_true, Bool.not_eq_false'] at letter
      obtain ⟨first, limit, colon, chars⟩ := schemeEnd_colon found
      refine ⟨limit, colon, fun _ => ⟨?_, fun c member => ?_⟩⟩
      · rw [charAt_take s (by omega)]
        exact letter.2
      · obtain ⟨j, inside, rfl⟩ := charAt_mem member
        rw [List.length_take] at inside
        rw [charAt_take s (by omega)]
        rcases Nat.eq_zero_or_pos j with rfl | later
        · rw [isSchemeChar, isAlnum, letter.2]
          rfl
        · exact chars j later (by omega)

/-- Where the host in front of a text ends: behind the bracket of an IPv6 address, or behind a name. -/
def hostEnd (t : List UInt8) : Nat :=
  if charAt t 0 = 91 then 2 + ((t.drop 1).takeWhile (· ≠ 93)).length else (t.takeWhile isHostChar).length

def hostportEnd (t : List UInt8) : Nat :=
  if charAt t (hostEnd t) = 58 then hostEnd t + 1 + ((t.drop (hostEnd t + 1)).takeWhile isDigit).length else hostEnd t

section Hostport
variable {res : Resolver} {workbuf : List UInt8}

theorem parsePort_stop {defaultPort stop port : Nat}
    (parsed : parsePort workbuf (if charAt workbuf (hostEnd workbuf) = 58 then hostEnd workbuf + 1 else hostEnd workbuf)
      (charAt workbuf (hostEnd workbuf) = 58) defaultPort = some (stop, port)) :
    stop = hostportEnd workbuf := by
  unfold parsePort at parsed
  unfold hostportEnd
  by_cases colon : charAt workbuf (hostEnd workbuf) = 58
  · rw [if_pos colon, decide_eq_true colon, if_pos rfl] at parsed
    dsimp only at parsed
    split_ifs at parsed
    rw [if_pos colon]
    exact (congrArg Prod.fst (Option.some.inj parsed)).symm
  · rw [if_neg colon, decide_eq_false colon, if_neg Bool.false_ne_true] at parsed
    rw [if_neg colon]
    exact (congrArg Prod.fst (Option.some.inj parsed)).symm

theorem parsePort_text {i : Nat} {defaultPort : Nat} {stop port : Nat}
    (parsed : parsePort workbuf (if charAt workbuf i = 58 then i + 1 else i) (charAt workbuf i = 58) defaultPort =
      some (stop, port))
    (inside : i ≤ workbuf.length) :
    ∃ text, workbuf.take stop = workbuf.take i ++ text ∧ PortText text ∧ stop ≤ workbuf.length := by
  unfold parsePort at parsed
  by_cases colon : charAt workbuf i = 58
  · rw [if_pos colon, decide_eq_true colon, if_pos rfl] at parsed
    dsimp only at parsed
    split_ifs at parsed
    obtain ⟨front, before⟩ := charAt_some (by decide) colon
    obtain ⟨stop_eq, -⟩ := Prod.mk.inj (Option.some.inj parsed)
    rw [← stop_eq]
    have digits := List.takeWhile_prefix isDigit (l := workbuf.drop (i + 1))
    have length := digits.length_le
    rw [List.length_drop] at length
    refine ⟨58 :: (workbuf.drop (i + 1)).takeWhile isDigit, ?_, .inr ⟨_, rfl, fun c => List.mem_takeWhile_imp⟩,
      by omega⟩
    rw [List.take_add, front, ← List.prefix_iff_eq_take.mp digits, List.append_assoc]
    rfl
  · rw [if_neg colon, decide_eq_false colon, if_neg Bool.false_ne_true] at parsed
    obtain ⟨rfl, -⟩ := Prod.mk.inj (Option.some.inj parsed)
    exact ⟨[], (List.append_nil _).symm, .inl rfl, inside⟩

theorem parseHostport_text {s : List UInt8} {defaultPort : Nat} {found : HostportType}
    (parsed : parseHostport res s defaultPort = some found) :
    found.text.buff = some 0 ∧ found.text.size ≤ s.length ∧
      HostportText (fun host => HostName host ∨ HostLiteral res host) (s.take found.text.size) := by
  have copy : (cstr s).take 255 <+: s := (List.take_prefix _ _).trans (List.takeWhile_prefix _)
  unfold parseHostport at parsed
  dsimp only at parsed
  generalize (cstr s).take 255 = workbuf at parsed copy
  have back {i stop : Nat} (known : HostName (workbuf.take i) ∨ HostLiteral res (workbuf.take i))
      (result : ∃ text, workbuf.take stop = workbuf.take i ++ text ∧ PortText text ∧ stop ≤ workbuf.length) :
      stop ≤ s.length ∧ HostportText (fun host => HostName host ∨ HostLiteral res host) (s.take stop) := by
    obtain ⟨text, split, port, inside⟩ := result
    have same : s.take stop = workbuf.take stop := by
      rw [List.prefix_iff_eq_take.mp copy, List.take_take, Nat.min_eq_left inside]
    rw [same]
    exact ⟨inside.trans copy.length_le, _, text, split, known, port⟩
  split at parsed
  · next bracket =>
      split at parsed
      · cases parsed
      · next closed =>
          simp only [Option.bind_eq_bind, Option.bind_eq_some_iff, Option.some.injEq] at parsed
          obtain ⟨⟨stop, port⟩, ported, addr, address, rfl⟩ := parsed
          set srvname := (workbuf.drop 1).takeWhile (· ≠ 93) with srvname_eq
          have front := (charAt_some (by decide) bracket).1
          rw [Nat.zero_add, List.take_zero, List.nil_append] at front
          have name : (workbuf.drop 1).take srvname.length = srvname :=
            (List.prefix_iff_eq_take.mp (List.takeWhile_prefix _)).symm
          have close : charAt workbuf (1 + srvname.length) = 93 := by
            have length : srvname.length < (workbuf.drop 1).length := by
              rw [List.length_drop]
              omega
            have last := charAt_takeWhile length
            rw [← srvname_eq, charAt_drop] at last
            simpa using last
          have body : workbuf.take (2 + srvname.length) = [91] ++ srvname ++ [93] := by
            have next := (charAt_some (by decide) close).1
            rw [show 2 + srvname.length = 1 + srvname.length + 1 by omega, next, List.take_add, front, name]
          have literal : HostLiteral res (workbuf.take (2 + srvname.length)) :=
            ⟨srvname, body, Option.isSome_iff_exists.mpr ⟨addr, address⟩⟩
          exact ⟨rfl, back (.inr literal) (parsePort_text ported (by omega))⟩
  · have name : HostName (workbuf.take (workbuf.takeWhile isHostChar).length) := by
      rw [← List.prefix_iff_eq_take.mp (List.takeWhile_prefix isHostChar)]
      exact fun c => List.mem_takeWhile_imp
    have inside := (List.takeWhile_prefix isHostChar (l := workbuf)).length_le
    split at parsed
    · simp only [Option.bind_eq_bind, Option.bind_eq_some_iff, Option.some.injEq] at parsed
      obtain ⟨⟨stop, port⟩, ported, addr, -, rfl⟩ := parsed
      exact ⟨rfl, back (.inl name) (parsePort_text ported inside)⟩
    · simp only [Option.bind_eq_bind, Option.bind_eq_some_iff, Option.some.injEq] at parsed
      obtain ⟨addr, -, ⟨stop, port⟩, ported, rfl⟩ := parsed
      exact ⟨rfl, back (.inl name) (parsePort_text ported inside)⟩

/-- How much of a text the parser takes as host and port is known from its copy of the text. -/
theorem parseHostport_size {s : List UInt8} {defaultPort : Nat} {found : HostportType}
    (parsed : parseHostport res s defaultPort = some found) : found.text.size = hostportEnd ((cstr s).take 255) := by
  unfold parseHostport at parsed
  dsimp only at parsed
  generalize (cstr s).take 255 = workbuf at parsed ⊢
  by_cases bracket : charAt workbuf 0 = 91
  · have host : hostEnd workbuf = 2 + ((workbuf.drop 1).takeWhile (· ≠ 93)).length := if_pos bracket
    rw [if_pos bracket, ← host] at parsed
    split at parsed
    · cases parsed
    · simp only [Option.bind_eq_bind, Option.bind_eq_some_iff, Option.some.injEq] at parsed
      obtain ⟨⟨stop, port⟩, ported, addr, -, rfl⟩ := parsed
      exact parsePort_stop ported
  · have host : hostEnd workbuf = (workbuf.takeWhile isHostChar).length := if_neg bracket
    rw [if_neg bracket, ← host] at parsed
    split at parsed
    · simp only [Option.bind_eq_bind, Option.bind_eq_some_iff, Option.some.injEq] at parsed
      obtain ⟨⟨stop, port⟩, ported, addr, -, rfl⟩ := parsed
      exact parsePort_stop ported
    · simp only [Option.bind_eq_bind, Option.bind_eq_some_iff, Option.some.injEq] at parsed
      obtain ⟨addr, -, ⟨stop, port⟩, ported, rfl⟩ := parsed
      exact parsePort_stop ported

end Hostport

/-! ### All tokens -/

def afterScheme (s : List UInt8) (max : Nat) : Nat := if parseScheme s max = 0 then 0 else parseScheme s max + 1

/-- Two slashes behind the scheme, before `max`. -/
def HasAuthority (s : List UInt8) (max : Nat) : Prop :=
  afterScheme s max + 1 < max ∧ charAt s (afterScheme s max) = 47 ∧ charAt s (afterScheme s max + 1) = 47

instance (s : List UInt8) (max : Nat) : Decidable (HasAuthority s max) := inferInstanceAs (Decidable (_ ∧ _))

structure Parts (res : Resolver) (s : List UInt8) (max : Nat) (uri : UriType) (beginPath : Nat) : Prop where
  scheme : uri.scheme = if parseScheme s max = 0 then ⟨none, 0⟩ else ⟨some 0, parseScheme s max⟩
  type : uri.type = if parseScheme s max = 0 then .relative else .absolute
  hostport : ¬ HasAuthority s max ∧ uri.hostport = ⟨⟨none, 0⟩, none⟩ ∧ beginPath = afterScheme s max ∨
    HasAuthority s max ∧ ∃ defaultPort found, parseHostport res (s.drop (afterScheme s max + 2)) defaultPort = some found ∧
      uri.hostport = { found with text := found.text.shift (afterScheme s max + 2) } ∧
      beginPath = afterScheme s max + 2 + found.text.size
  pathquery : uri.pathquery = ⟨some beginPath, parseUric (s.drop beginPath) (subSize max beginPath)⟩
  pathType : uri.pathType = if 0 < uri.pathquery.size ∧ charAt s beginPath = 47 then .absPath
    else if parseScheme s max = 0 then .relPath else .opaquePart
  fragment : uri.fragment =
    if beginPath + uri.pathquery.size < max ∧ charAt s (beginPath + uri.pathquery.size) = 35 then
      ⟨some (beginPath + uri.pathquery.size + 1), parseUric (s.drop (beginPath + uri.pathquery.size + 1))
        (max - (beginPath + uri.pathquery.size + 1))⟩
    else ⟨none, 0⟩

theorem parseUri_split {res : Resolver} {s : List UInt8} {max : Nat} {uri : UriType}
    (parsed : parseUri res s max = some uri) : ∃ beginPath, Parts res s max uri beginPath := by
  unfold parseUri at parsed
  simp only [Bool.and_eq_true, decide_eq_true_eq] at parsed
  rw [show (if parseScheme s max = 0 then 0 else parseScheme s max + 1) = afterScheme s max from rfl] at parsed
  generalize (if tokenStringCasecmp _ (bytes "https") = 0 then 443 else 80) = defaultPort at parsed
  by_cases authority : HasAuthority s max
  · have slashes : (afterScheme s max + 1 < max ∧ charAt s (afterScheme s max) = 47) ∧
        charAt s (afterScheme s max + 1) = 47 := and_assoc.mpr authority
    rw [if_pos slashes] at parsed
    obtain ⟨hostport, mapped, result⟩ := Option.bind_eq_some_iff.mp parsed
    obtain ⟨found, hosted, rfl⟩ := Option.map_eq_some_iff.mp mapped
    simp only [if_pos slashes] at result
    obtain rfl := Option.some.inj result
    exact ⟨_, rfl, rfl, .inr ⟨authority, defaultPort, found, hosted, rfl, rfl⟩, rfl, rfl, rfl⟩
  · have none : ¬ ((afterScheme s max + 1 < max ∧ charAt s (afterScheme s max) = 47) ∧
        charAt s (afterScheme s max + 1) = 47) := fun slashes => authority (and_assoc.mp slashes)
    rw [if_neg none] at parsed
    obtain ⟨hostport, nothing, result⟩ := Option.bind_eq_some_iff.mp parsed
    obtain rfl := Option.some.inj nothing
    simp only [if_neg none] at result
    obtain rfl := Option.some.inj result
    exact ⟨_, rfl, rfl, .inl ⟨authority, rfl, rfl⟩, rfl, rfl, rfl⟩

def portOfScheme (s : List UInt8) (max : Nat) : Nat :=
  if tokenStringCasecmp (s.take (parseScheme s max)) (bytes "https") = 0 then 443 else 80

theorem parseUri_host (res : Resolver) {s : List UInt8} {max : Nat} (authority : HasAuthority s max) :
    (parseUri res s max).map UriType.hostport =
      (parseHostport res (s.drop (afterScheme s max + 2)) (portOfScheme s max)).map fun h =>
        { h with text := h.text.shift (afterScheme s max + 2) } := by
  have scheme : UriToken.read (if parseScheme s max = 0 then ⟨none, 0⟩ else ⟨some 0, parseScheme s max⟩) s =
      s.take (parseScheme s max) := by
    split_ifs with none
    · rw [none]
      rfl
    · rfl
  have slashes : (afterScheme s max + 1 < max ∧ charAt s (afterScheme s max) = 47) ∧
      charAt s (afterScheme s max + 1) = 47 := and_assoc.mpr authority
  unfold parseUri
  simp only [Bool.and_eq_true, decide_eq_true_eq]
  rw [scheme, show (if parseScheme s max = 0 then 0 else parseScheme s max + 1) = afterScheme s max from rfl,
    if_pos slashes, show (if tokenStringCasecmp (s.take (parseScheme s max)) (bytes "https") = 0 then 443 else 80) =
    portOfScheme s max from rfl]
  cases parseHostport res (s.drop (afterScheme s max + 2)) (portOfScheme s max) <;> rfl

theorem parseUri_hostless (res : Resolver) {s : List UInt8} {max : Nat} (hostless : ¬HasAuthority s max) :
    (parseUri res s max).isSome = true := by
  have none : ¬((afterScheme s max + 1 < max ∧ charAt s (afterScheme s max) = 47) ∧
      charAt s (afterScheme s max + 1) = 47) := fun slashes => hostless (and_assoc.mp slashes)
  unfold parseUri
  simp only [Bool.and_eq_true, decide_eq_true_eq]
  rw [show (if parseScheme s max = 0 then 0 else parseScheme s max + 1) = afterScheme s max from rfl, if_neg none]
  rfl

/-- The tokens that are there stand one behind the other, from `first` on and before `max`. -/
def InOrder (max : Nat) : Nat → List UriToken → Prop
  | first, [] => first ≤ max
  | first, ⟨none, size⟩ :: rest => size = 0 ∧ InOrder max first rest
  | first, ⟨some buff, size⟩ :: rest => first ≤ buff ∧ InOrder max (buff + size) rest

theorem InOrder.weaken {max first later : Nat} (after : first ≤ later) {tokens : List UriToken}
    (order : InOrder max later tokens) : InOrder max first tokens := by
  induction tokens with
  | nil => exact after.trans order
  | cons token rest ih =>
    obtain ⟨_ | buff, size⟩ := token
    · exact ⟨order.1, ih order.2⟩
    · exact ⟨after.trans order.1, order.2⟩

theorem InOrder.append {middle max first : Nat} {front back : List UriToken} (before : InOrder middle first front)
    (behind : InOrder max middle back) : InOrder max first (front ++ back) := by
  induction front generalizing first with
  | nil => exact behind.weaken before
  | cons token rest ih =>
    obtain ⟨_ | buff, size⟩ := token
    · exact ⟨before.1, ih before.2⟩
    · exact ⟨before.1, ih before.2⟩

/-- What a parse leaves in its tokens, over the characters of a path and the hosts. -/
structure TokensIn (plain : UInt8 → Bool) (host : List UInt8 → Prop) (s : List UInt8) (max : Nat) (uri : UriType) :
    Prop where
  order : InOrder max 0 [uri.scheme, uri.hostport.text, uri.pathquery, uri.fragment]
  scheme : SchemeText (uri.scheme.read s)
  hostport : HostportText host (uri.hostport.text.read s)
  pathquery : UricText plain (uri.pathquery.read s)
  fragment : UricText plain (uri.fragment.read s)

theorem afterScheme_le (s : List UInt8) (max : Nat) : afterScheme s max ≤ max := by
  unfold afterScheme
  split_ifs with none
  · exact Nat.zero_le max
  · exact (parseScheme_colon none).1

/-- The host and port behind two slashes, which the parser reads without `max`, end before `max`. -/
def HostportInside (s : List UInt8) (max : Nat) : Prop :=
  HasAuthority s max → afterScheme s max + 2 + hostportEnd ((cstr (s.drop (afterScheme s max + 2))).take 255) ≤ max

instance (s : List UInt8) (max : Nat) : Decidable (HostportInside s max) := inferInstanceAs (Decidable (_ → _))

/-- A buffer and a length that an `int`, the parser's type for the offset of the path, holds. -/
structure Readable (s : List UInt8) (max : Nat) : Prop where
  inside : max ≤ (cstr s).length
  int : max < 2 ^ 31
  hostport : HostportInside s max

section Whole
variable {res : Resolver} {s : List UInt8} {max : Nat} {uri : UriType} {beginPath : Nat}

theorem Parts.front (parts : Parts res s max uri beginPath) (hostport : HostportInside s max) :
    beginPath ≤ max ∧ InOrder beginPath 0 [uri.scheme, uri.hostport.text] ∧
      HostportText (fun host => HostName host ∨ HostLiteral res host) (uri.hostport.text.read s) := by
  have start := afterScheme_le s max
  have scheme {first : Nat} {rest : List UriToken} (behind : first = afterScheme s max)
      (later : ∀ n ≤ first, InOrder beginPath n rest) : InOrder beginPath 0 (uri.scheme :: rest) := by
    rw [parts.scheme]
    unfold afterScheme at behind
    split_ifs at behind ⊢
    · exact ⟨rfl, later 0 (Nat.zero_le _)⟩
    · exact ⟨Nat.le_refl 0, later _ (by omega)⟩
  rcases parts.hostport with ⟨-, none, begins⟩ | ⟨authority, defaultPort, found, hosted, host, begins⟩
  · rw [none, begins]
    refine ⟨start, ?_, [], [], rfl, .inl fun c member => absurd member List.not_mem_nil, .inl rfl⟩
    rw [← begins]
    exact scheme rfl fun n below => ⟨rfl, begins ▸ below⟩
  · obtain ⟨first, size, hostText⟩ := parseHostport_text hosted
    have buff : uri.hostport.text = ⟨some (afterScheme s max + 2), found.text.size⟩ := by
      rw [host, UriToken.shift, first, Option.map_some, Nat.zero_add]
    have ending := hostport authority
    rw [← parseHostport_size hosted] at ending
    rw [buff]
    refine ⟨begins ▸ ending, ?_, hostText⟩
    exact scheme rfl fun n below => ⟨by omega, Nat.le_of_eq begins.symm⟩

theorem Parts.pathquery_le (parts : Parts res s max uri beginPath) (limit : beginPath ≤ max) :
    beginPath + uri.pathquery.size ≤ max := by
  have rest := subSize_le limit
  have taken := parseUric_le (s.drop beginPath) (subSize max beginPath)
  rw [parts.pathquery]
  dsimp only
  omega

theorem Parts.back (parts : Parts res s max uri beginPath) (limit : beginPath ≤ max) :
    InOrder max beginPath [uri.pathquery, uri.fragment] := by
  have fragment : InOrder max (beginPath + uri.pathquery.size) [uri.fragment] := by
    rw [parts.fragment]
    split_ifs with sharp
    · have taken := parseUric_le (s.drop (beginPath + uri.pathquery.size + 1)) (max - (beginPath + uri.pathquery.size + 1))
      exact ⟨Nat.le_succ _, by unfold InOrder; omega⟩
    · exact ⟨rfl, parts.pathquery_le limit⟩
  rw [parts.pathquery] at fragment ⊢
  exact ⟨Nat.le_refl _, fragment⟩

/-- The tokens of a parsed URI stand in order before `max`, each of the characters of its part. -/
theorem parseUri_tokensIn (buffer : Readable s max) (parsed : parseUri res s max = some uri) :
    TokensIn isUricOrBrace (fun host => HostName host ∨ HostLiteral res host) s max uri := by
  obtain ⟨beginPath, parts⟩ := parseUri_split parsed
  obtain ⟨limit, front, host⟩ := parts.front buffer.hostport
  have inside := buffer.inside
  have rest := subSize_le limit
  have text {from_ size : Nat} (below : from_ + size ≤ max) :
      UricText isUricOrBrace ((s.drop from_).take (parseUric (s.drop from_) size)) := by
    apply parseUric_text
    intro i before
    rw [charAt_drop]
    exact charAt_inside (by omega)
  refine ⟨front.append (parts.back limit), ?_, host, ?_, ?_⟩
  · rw [parts.scheme]
    split_ifs with none
    · exact fun nonempty => absurd rfl nonempty
    · exact (parseScheme_colon none).2.2
  · rw [parts.pathquery]
    exact text (by omega)
  · rw [parts.fragment]
    split_ifs with sharp
    · exact text (by omega)
    · intro i before
      exact absurd before (Nat.not_lt_zero i)

end Whole

/-- Hosts that read as IPv4 addresses have one. -/
def numericHosts : Resolver where
  getaddrinfo _ := none
  inetPton family text := if family = .inet && looksLikeIPv4 text then some text else none
  gIfIndex := 0

theorem parseUri_tokensIn_header : ∃ uri, parseUri numericHosts (bytes "http://10.0.0.1:80/%41\x7bx\x7d?q#f HTTP/1.1") 29 = some uri ∧
    TokensIn isUricOrBrace (fun host => HostName host ∨ HostLiteral numericHosts host)
      (bytes "http://10.0.0.1:80/%41\x7bx\x7d?q#f HTTP/1.1") 29 uri := by
  obtain ⟨uri, parsed⟩ : ∃ uri, parseUri numericHosts (bytes "http://10.0.0.1:80/%41\x7bx\x7d?q#f HTTP/1.1") 29 = some uri :=
    Option.isSome_iff_exists.mp (by decide +kernel)
  exact ⟨uri, parsed, parseUri_tokensIn ⟨by decide +kernel, by decide, by decide +kernel⟩ parsed⟩

/-- A brace in the path is not a character of RFC 2396. -/
theorem parseUri_tokensIn_brace : ¬ ∀ (res : Resolver) (s : List UInt8) (max : Nat) (uri : UriType),
    max ≤ (cstr s).length → parseUri res s max = some uri → TokensIn isUric HostName s max uri := by
  intro claim
  obtain ⟨uri, parsed⟩ : ∃ uri, parseUri numericHosts (bytes "/\x7b") 2 = some uri :=
    Option.isSome_iff_exists.mp (by decide)
  have path : (parseUri numericHosts (bytes "/\x7b") 2).map (fun uri => uri.pathquery) = some ⟨some 0, 2⟩ := by decide +kernel
  rw [parsed] at path
  have tokens := (claim numericHosts _ 2 uri (by decide) parsed).pathquery
  rw [show uri.pathquery = ⟨some 0, 2⟩ from Option.some.inj path] at tokens
  revert tokens
  decide

end Pupnp.Uri
