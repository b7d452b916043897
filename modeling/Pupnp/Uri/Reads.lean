import Pupnp.Uri.Tokens

/-!
The bytes that `parse_uri` reads. The parser once more, over reads that are refused outside the string and its
terminator, and where it agrees with the parser that reads zeros there.
-/

namespace Pupnp.Uri
open Pupnp.CString

/-- The byte of a string at `i`; behind the string there is its terminator. -/
def readAt (s : List UInt8) (i : Nat) : Option UInt8 := if i ≤ s.length then some (charAt s i) else none

def isEscapedIn (s : List UInt8) (i : Nat) : Option Bool := do
  let percent ← readAt s i
  if percent ≠ 37 then some false
  else
    let high ← readAt s (i + 1)
    if !isXdigit high then some false
    else
      let low ← readAt s (i + 2)
      some (isXdigit low)

/-- Whether `parse_uric` takes the byte at `i` of the text from `base` on. -/
def acceptsIn (s : List UInt8) (base max i : Nat) : Option Bool := do
  let c ← readAt s (base + i)
  if isUnreserved c || isReserved c then some true
  else if i + 2 < max then isEscapedIn s (base + i)
  else some false

def uricEndIn (s : List UInt8) (base max i : Nat) : Option Nat :=
  if _h : i < max then do
    let accepted ← acceptsIn s base max i
    if accepted then uricEndIn s base max (i + 1) else some i
  else some i
termination_by max - i

def parseUricIn (s : List UInt8) (base max : Nat) : Option Nat := uricEndIn s base max 0

def schemeEndIn (s : List UInt8) (max i : Nat) : Option Nat :=
  if _h : i < max then do
    let c ← readAt s i
    if c = 58 then some i else if isSchemeChar c then schemeEndIn s max (i + 1) else some 0
  else some 0
termination_by max - i

def parseSchemeIn (s : List UInt8) (max : Nat) : Option Nat :=
  if max = 0 then some 0
  else do
    let c ← readAt s 0
    if !isAlpha c then some 0 else schemeEndIn s max 1

/-- `strncpy` from `base` on, over zeros: the bytes before the terminator, `n` of them at most. -/
def strncpyIn (s : List UInt8) (base : Nat) : Nat → Option (List UInt8)
  | 0 => some []
  | n + 1 => do
      let c ← readAt s base
      if c = 0 then some [] else (strncpyIn s (base + 1) n).map (c :: ·)

def hasAuthorityIn (s : List UInt8) (max start : Nat) : Option Bool :=
  if start + 1 < max then do
    let first ← readAt s start
    if first ≠ 47 then some false
    else
      let second ← readAt s (start + 1)
      some (second = 47)
  else some false

def fragmentIn (s : List UInt8) (max beginFragment : Nat) : Option UriToken :=
  if beginFragment < max then do
    let sharp ← readAt s beginFragment
    if sharp = 35 then
      (parseUricIn s (beginFragment + 1) (max - (beginFragment + 1))).map fun size => ⟨some (beginFragment + 1), size⟩
    else some ⟨none, 0⟩
  else some ⟨none, 0⟩

def pathIn (s : List UInt8) (max : Nat) (schemeSize : Nat) (hostport : HostportType) (beginPath : Nat) :
    Option UriType := do
  let scheme : UriToken := if schemeSize = 0 then ⟨none, 0⟩ else ⟨some 0, schemeSize⟩
  let type := if schemeSize = 0 then UriKind.relative else .absolute
  let size ← parseUricIn s beginPath (subSize max beginPath)
  let pathType :=
    if 0 < size && charAt s beginPath = 47 then PathType.absPath
    else if schemeSize = 0 then .relPath else .opaquePart
  let fragment ← fragmentIn s max (beginPath + size)
  some ⟨type, scheme, pathType, ⟨some beginPath, size⟩, fragment, hostport⟩

def afterHostIn (s : List UInt8) (max schemeSize start : Nat) : Option HostportType → Option (Option UriType)
  | none => some none
  | some h =>
      (pathIn s max schemeSize { h with text := h.text.shift (start + 2) } (start + 2 + h.text.size)).map some

/-- `parse_uri(in, max, out)`, `none` when it reads outside the string. The bytes of the scheme and the first
byte of the path are read again where they have been read before. -/
def parseUriIn (res : Resolver) (s : List UInt8) (max : Nat) : Option (Option UriType) := do
  let schemeSize ← parseSchemeIn s max
  let start := if schemeSize = 0 then 0 else schemeSize + 1
  let defaultPort := if tokenStringCasecmp (s.take schemeSize) (bytes "https") = 0 then 443 else 80
  let hasAuthority ← hasAuthorityIn s max start
  if hasAuthority then
    let workbuf ← strncpyIn s (start + 2) 255
    afterHostIn s max schemeSize start (parseHostport res workbuf defaultPort)
  else (pathIn s max schemeSize ⟨⟨none, 0⟩, none⟩ start).map some

/-! ### Single reads -/

theorem readAt_inside {s : List UInt8} {i : Nat} (inside : i ≤ s.length) : readAt s i = some (charAt s i) := if_pos inside

theorem readAt_outside {s : List UInt8} {i : Nat} (outside : s.length < i) : readAt s i = none :=
  if_neg (Nat.not_le_of_lt outside)

theorem charAt_length (s : List UInt8) : charAt s s.length = 0 := by
  rw [charAt, List.getD_eq_getElem?_getD, List.getElem?_eq_none (Nat.le_refl _), Option.getD_none]

theorem inside_of_kind {p : UInt8 → Bool} (nul : p 0 = false) {s : List UInt8} {i : Nat} (kind : p (charAt s i) = true) :
    i < s.length := by
  refine (charAt_some (fun zero => ?_) rfl).2
  rw [zero, nul] at kind
  exact Bool.false_ne_true kind

theorem isEscapedIn_eq {s : List UInt8} {i : Nat} (inside : i ≤ s.length) : isEscapedIn s i = some (isEscaped s i) := by
  rw [isEscapedIn, isEscaped, readAt_inside inside, Option.bind_eq_bind, Option.bind_some]
  by_cases percent : charAt s i = 37
  · have first : i + 1 ≤ s.length := (charAt_some (by decide) percent).2
    rw [if_neg (not_not_intro percent), readAt_inside first, Option.bind_some, decide_eq_true percent, Bool.true_and]
    cases high : isXdigit (charAt s (i + 1)) with
    | false => rfl
    | true =>
      have second : i + 2 ≤ s.length := inside_of_kind (by decide) high
      simp only [Bool.not_true, Bool.false_eq_true, if_false, readAt_inside second]
      rfl
  · rw [if_pos percent, decide_eq_false percent]
    rfl

/-! ### The scheme and the host -/

theorem schemeEndIn_eq {s : List UInt8} {max i : Nat} (inside : i ≤ s.length) :
    schemeEndIn s max i = some (schemeEnd s max i) := by
  induction i using schemeEnd.induct s max with
  | case1 i below colon =>
    rw [schemeEndIn, schemeEnd, dif_pos below, dif_pos below, readAt_inside inside, if_pos colon]
    exact if_pos colon
  | case2 i below other accepted ih =>
    have next : i + 1 ≤ s.length := inside_of_kind (by decide) accepted
    rw [schemeEndIn, schemeEnd, dif_pos below, dif_pos below, readAt_inside inside, if_neg other, if_pos accepted, ← ih next]
    exact (if_neg other).trans (if_pos accepted)
  | case3 i below other refused =>
    rw [schemeEndIn, schemeEnd, dif_pos below, dif_pos below, readAt_inside inside, if_neg other, if_neg refused]
    exact (if_neg other).trans (if_neg refused)
  | case4 i outside => rw [schemeEndIn, schemeEnd, dif_neg outside, dif_neg outside]

theorem parseSchemeIn_eq (s : List UInt8) (max : Nat) : parseSchemeIn s max = some (parseScheme s max) := by
  unfold parseSchemeIn parseScheme
  by_cases none : max = 0
  · rw [if_pos none, decide_eq_true none]
    rfl
  · rw [if_neg none, decide_eq_false none, readAt_inside (Nat.zero_le _), Bool.false_or, Option.bind_eq_bind, Option.bind_some]
    cases letter : isAlpha (charAt s 0) with
    | false => rfl
    | true => exact schemeEndIn_eq (inside_of_kind (by decide) letter)

theorem afterScheme_inside (s : List UInt8) (max : Nat) : afterScheme s max ≤ s.length := by
  unfold afterScheme
  split_ifs with none
  · exact Nat.zero_le _
  · exact (charAt_some (by decide) (parseScheme_colon none).2.1).2

theorem hasAuthorityIn_eq {s : List UInt8} {max start : Nat} (inside : start ≤ s.length) :
    hasAuthorityIn s max start =
      some (start + 1 < max && charAt s start = 47 && charAt s (start + 1) = 47) := by
  unfold hasAuthorityIn
  by_cases room : start + 1 < max
  · rw [if_pos room, decide_eq_true room, readAt_inside inside, Option.bind_eq_bind, Option.bind_some, Bool.true_and]
    by_cases slash : charAt s start = 47
    · have next : start + 1 ≤ s.length := (charAt_some (by decide) slash).2
      rw [if_neg (not_not_intro slash), readAt_inside next, decide_eq_true slash, Bool.true_and]
      rfl
    · rw [if_pos slash, decide_eq_false slash]
      rfl
  · rw [if_neg room, decide_eq_false room]
    rfl

theorem strncpyIn_eq {s : List UInt8} {base : Nat} (inside : base ≤ s.length) (n : Nat) :
    strncpyIn s base n = some ((cstr (s.drop base)).take n) := by
  induction n generalizing base with
  | zero => rfl
  | succ n ih =>
    rw [strncpyIn, readAt_inside inside, Option.bind_eq_bind, Option.bind_some]
    by_cases zero : charAt s base = 0
    · rw [if_pos zero]
      have none : cstr (s.drop base) = [] := by
        rw [← Nat.add_zero base, ← charAt_drop] at zero
        cases rest : s.drop base with
        | nil => rfl
        | cons c t =>
          rw [rest] at zero
          exact List.takeWhile_cons_of_neg (by simpa [charAt] using zero)
      rw [none, List.take_nil]
    · have before : base < s.length := (charAt_some zero rfl).2
      have split : s.drop base = charAt s base :: s.drop (base + 1) := by
        rw [List.drop_eq_getElem_cons before, charAt, List.getD_eq_getElem?_getD, List.getElem?_eq_getElem before,
          Option.getD_some]
      have first : cstr (s.drop base) = charAt s base :: cstr (s.drop (base + 1)) := by
        rw [split]
        exact List.takeWhile_cons_of_pos (decide_eq_true zero)
      rw [if_neg zero, ih before, first, List.take_succ_cons]
      rfl

theorem parseHostport_copy (res : Resolver) (t : List UInt8) (defaultPort : Nat) :
    parseHostport res ((cstr t).take 255) defaultPort = parseHostport res t defaultPort := by
  have same : (cstr ((cstr t).take 255)).take 255 = (cstr t).take 255 := by
    have whole : cstr ((cstr t).take 255) = (cstr t).take 255 := by
      apply List.takeWhile_eq_self_iff.mpr
      intro c member
      have nonNul := List.mem_takeWhile_imp (List.mem_of_mem_take member)
      exact nonNul
    rw [whole, List.take_take, Nat.min_self]
  unfold parseHostport
  rw [same]

/-! ### The path and the fragment -/

/-- A byte that `parse_uric` takes by itself; the terminator is one, as `strchr` finds it in every set. -/
def isUriByte (c : UInt8) : Bool := isUnreserved c || isReserved c

/-- The text of a path and a fragment goes on to the terminator, so `parse_uric` goes past it. -/
def RunsOut (t : List UInt8) : Prop :=
  UricText isUriByte t ∨ ∃ path fragment, t = path ++ 35 :: fragment ∧ UricText isUriByte path ∧ UricText isUriByte fragment

theorem uricEnd_ge (s : List UInt8) (max i : Nat) : i ≤ uricEnd s max i := by
  induction i using uricEnd.induct s max with
  | case1 i inside accepted ih =>
    rw [uricEnd, dif_pos inside, if_pos accepted]
    omega
  | case2 i inside refused => rw [uricEnd, dif_pos inside, if_neg refused]
  | case3 i outside => rw [uricEnd, dif_neg outside]

theorem uricEnd_refuses {s : List UInt8} {max i : Nat} (below : uricEnd s max i < max) :
    ¬(isUnreserved (charAt s (uricEnd s max i)) || isReserved (charAt s (uricEnd s max i)) ||
      (uricEnd s max i + 2 < max && isEscaped s (uricEnd s max i))) = true := by
  induction i using uricEnd.induct s max with
  | case1 i inside accepted ih =>
    rw [uricEnd, dif_pos inside, if_pos accepted] at below ⊢
    exact ih below
  | case2 i inside refused =>
    rw [uricEnd, dif_pos inside, if_neg refused]
    exact refused
  | case3 i outside =>
    rw [uricEnd, dif_neg outside] at below
    exact absurd below outside

theorem acceptsIn_eq {s : List UInt8} {base i : Nat} (inside : base + i ≤ s.length) (max : Nat) :
    acceptsIn s base max i = some (isUnreserved (charAt (s.drop base) i) || isReserved (charAt (s.drop base) i) ||
      (i + 2 < max && isEscaped (s.drop base) i)) := by
  have escaped : isEscaped (s.drop base) i = isEscaped s (base + i) := by
    rw [isEscaped, isEscaped, charAt_drop, charAt_drop, charAt_drop]
    rfl
  rw [acceptsIn, readAt_inside inside, isEscapedIn_eq inside, escaped, charAt_drop, Option.bind_eq_bind, Option.bind_some]
  cases isUnreserved (charAt s (base + i)) || isReserved (charAt s (base + i)) with
  | true => rfl
  | false => by_cases room : i + 2 < max <;> simp [room]

/-- The loop with a limit behind the terminator: once it has taken that, it reads the next byte. -/
theorem uricEndIn_eq {s : List UInt8} {base max i : Nat} (limit : base + max = s.length + 2) (inside : base + i ≤ s.length) :
    uricEndIn s base max i =
      if base + uricEnd (s.drop base) max i < s.length then some (uricEnd (s.drop base) max i) else none := by
  induction i using uricEnd.induct (s.drop base) max with
  | case1 i below accepted ih =>
    rw [uricEndIn, dif_pos below, acceptsIn_eq inside, accepted, uricEnd, dif_pos below, if_pos accepted]
    change uricEndIn s base max (i + 1) = _
    rcases Nat.lt_or_eq_of_le inside with before | last
    · exact ih before
    · have more := uricEnd_ge (s.drop base) max (i + 1)
      have past : uricEndIn s base max (i + 1) = none := by
        rw [uricEndIn, dif_pos (by omega), acceptsIn, readAt_outside (by omega)]
        rfl
      rw [past, if_neg (by omega)]
  | case2 i below refused =>
    rw [uricEndIn, dif_pos below, acceptsIn_eq inside, uricEnd, dif_pos below, if_neg refused, if_pos]
    · exact if_neg refused
    · by_contra outside
      have last : base + i = s.length := by omega
      have nul : isReserved 0 = true := by decide
      rw [charAt_drop, last, charAt_length, nul, Bool.or_true, Bool.true_or] at refused
      exact refused rfl
  | case3 i outside => omega

theorem parseUricIn_eq {s : List UInt8} {base max : Nat} (inside : base ≤ s.length) (limit : base + max = s.length + 2) :
    parseUricIn s base max =
      if parseUric (s.drop base) max < (s.drop base).length then some (parseUric (s.drop base) max) else none := by
  have same : base + uricEnd (s.drop base) max 0 < s.length ↔ uricEnd (s.drop base) max 0 < (s.drop base).length := by
    rw [List.length_drop]
    omega
  rw [parseUricIn, uricEndIn_eq limit inside, parseUric]
  exact if_congr same rfl rfl

theorem parseUric_whole (t : List UInt8) : t.length ≤ parseUric t (t.length + 2) ↔ UricText isUriByte t := by
  constructor
  · intro whole i inside
    have accepted := uricEnd_accepts (Nat.zero_le i) (Nat.lt_of_lt_of_le inside whole)
    rw [Bool.or_eq_true, Bool.and_eq_true] at accepted
    exact accepted.imp_right And.right
  · intro text
    by_contra short
    have before : parseUric t (t.length + 2) < t.length := Nat.lt_of_not_le short
    have refused := @uricEnd_refuses t (t.length + 2) 0 (Nat.lt_add_right 2 before)
    rw [Bool.or_eq_true, Bool.and_eq_true, decide_eq_true_eq] at refused
    exact refused ((text _ before).imp_right fun escaped => ⟨Nat.add_lt_add_right before 2, escaped⟩)

theorem charAt_front {s : List UInt8} {i : Nat} (inside : i < s.length) (rest : List UInt8) :
    charAt (s ++ rest) i = charAt s i := by
  rw [charAt, charAt, List.getD_eq_getElem?_getD, List.getD_eq_getElem?_getD, List.getElem?_append_left inside]

theorem isEscaped_append {s : List UInt8} {i : Nat} (escaped : isEscaped s i = true) (rest : List UInt8) :
    isEscaped (s ++ rest) i = true := by
  rw [isEscaped, Bool.and_eq_true, Bool.and_eq_true, decide_eq_true_eq] at escaped
  obtain ⟨⟨percent, high⟩, low⟩ := escaped
  have first := (charAt_some (by decide) percent).2
  have second : i + 1 < s.length := inside_of_kind (by decide) high
  have third : i + 2 < s.length := inside_of_kind (by decide) low
  rw [isEscaped, charAt_front first, charAt_front second, charAt_front third, percent, high, low]
  rfl

theorem runsOut_iff (t : List UInt8) : RunsOut t ↔ t.length ≤ parseUric t (t.length + 2) ∨
    charAt t (parseUric t (t.length + 2)) = 35 ∧ UricText isUriByte (t.drop (parseUric t (t.length + 2) + 1)) := by
  rw [RunsOut, parseUric_whole]
  refine or_congr_right' fun short => ?_
  rw [← parseUric_whole, Nat.not_le] at short
  have refused := @uricEnd_refuses t (t.length + 2) 0 (Nat.lt_add_right 2 short)
  rw [Bool.or_eq_true, Bool.and_eq_true, decide_eq_true_eq] at refused
  rw [parseUric] at short ⊢
  have accepts {i : Nat} := @uricEnd_accepts t (t.length + 2) 0 i (Nat.zero_le i)
  have escapes {i : Nat} (before : i < uricEnd t (t.length + 2) 0) (inside : i + 2 < t.length + 2)
      (escaped : isEscaped t i = true) : i + 2 < uricEnd t (t.length + 2) 0 := parseUric_escape before inside escaped
  generalize uricEnd t (t.length + 2) 0 = e at short refused accepts escapes ⊢
  constructor
  · rintro ⟨path, fragment, rfl, pathText, fragmentText⟩
    have here : charAt (path ++ 35 :: fragment) path.length = 35 := by
      rw [charAt, List.getD_eq_getElem?_getD, List.getElem?_append_right (Nat.le_refl _), Nat.sub_self]
      rfl
    have behind : e ≤ path.length := by
      by_contra later
      have accepted := accepts (Nat.lt_of_not_le later)
      rw [isEscaped, here] at accepted
      simp [show isUnreserved 35 = false by decide, show isReserved 35 = false by decide] at accepted
    have before : path.length ≤ e := by
      by_contra earlier
      have inside := Nat.lt_of_not_le earlier
      refine refused ((pathText e inside).imp (fun plain => ?_) fun escaped => ⟨?_, isEscaped_append escaped _⟩)
      · rw [charAt_front inside]
        exact plain
      · omega
    obtain rfl := Nat.le_antisymm before behind
    refine ⟨here, ?_⟩
    rwa [List.drop_append, List.drop_of_length_le (Nat.le_succ _), List.nil_append, Nat.add_sub_cancel_left]
  · rintro ⟨sharp, text⟩
    refine ⟨t.take e, t.drop (e + 1), ?_, fun i inside => ?_, text⟩
    · have next : t.drop e = 35 :: t.drop (e + 1) := by
        rw [List.drop_eq_getElem_cons short, ← sharp, charAt, List.getD_eq_getElem?_getD, List.getElem?_eq_getElem short,
          Option.getD_some]
      rw [← next, List.take_append_drop]
    · rw [List.length_take] at inside
      have before : i < e := by omega
      have accepted := accepts before
      rw [Bool.or_eq_true, Bool.and_eq_true, decide_eq_true_eq] at accepted
      rw [charAt_take t before]
      refine accepted.imp_right fun escape => ?_
      have whole := escapes before escape.1 escape.2
      have same := escape.2
      rw [isEscaped] at same ⊢
      rwa [charAt_take t before, charAt_take t (by omega), charAt_take t whole]

/-! ### A whole URI -/

theorem parseUricIn_limit {s : List UInt8} {base : Nat} (inside : base ≤ s.length) :
    parseUricIn s base (s.length + 2 - base) =
      if parseUric (s.drop base) ((s.drop base).length + 2) < (s.drop base).length
      then some (parseUric (s.drop base) ((s.drop base).length + 2)) else none := by
  have limit : s.length + 2 - base = (s.drop base).length + 2 := by
    rw [List.length_drop]
    omega
  rw [limit]
  refine parseUricIn_eq inside ?_
  rw [List.length_drop]
  omega

section Path
variable {s : List UInt8} {beginPath : Nat}

theorem pathIn_runsOut (inside : beginPath ≤ s.length) (fits : s.length + 2 < 2 ^ 64) (runsOut : RunsOut (s.drop beginPath))
    (schemeSize : Nat) (hostport : HostportType) : pathIn s (s.length + 2) schemeSize hostport beginPath = none := by
  rw [pathIn, subSize_sub (by omega) fits, parseUricIn_limit inside]
  by_cases short : parseUric (s.drop beginPath) ((s.drop beginPath).length + 2) < (s.drop beginPath).length
  · rw [if_pos short]
    obtain ⟨sharp, text⟩ := ((runsOut_iff _).mp runsOut).resolve_left (Nat.not_le_of_lt short)
    generalize parseUric (s.drop beginPath) ((s.drop beginPath).length + 2) = e at short sharp text
    rw [List.length_drop] at short
    rw [charAt_drop] at sharp
    rw [List.drop_drop, ← parseUric_whole, ← Nat.add_assoc] at text
    have fragment : fragmentIn s (s.length + 2) (beginPath + e) = none := by
      rw [fragmentIn, if_pos (by omega), readAt_inside (by omega), Option.bind_eq_bind, Option.bind_some, if_pos sharp,
        parseUricIn_limit (by omega), if_neg (Nat.not_lt_of_le text)]
      rfl
    rw [Option.bind_eq_bind, Option.bind_some, fragment]
    rfl
  · rw [if_neg short]
    rfl

theorem pathIn_stops {res : Resolver} {uri : UriType} (parts : Parts res s (s.length + 2) uri beginPath)
    (inside : beginPath ≤ s.length) (fits : s.length + 2 < 2 ^ 64) (stops : ¬RunsOut (s.drop beginPath)) :
    pathIn s (s.length + 2) (parseScheme s (s.length + 2)) uri.hostport beginPath = some uri := by
  obtain ⟨scheme, type, -, pathquery, pathType, fragment⟩ := parts
  have limit : s.length + 2 - beginPath = (s.drop beginPath).length + 2 := by
    rw [List.length_drop]
    omega
  rw [subSize_sub (by omega) fits, limit] at pathquery
  rw [runsOut_iff, not_or, Nat.not_le] at stops
  obtain ⟨short, noFragment⟩ := stops
  rw [pathIn, subSize_sub (by omega) fits, parseUricIn_limit inside, if_pos short]
  rw [pathquery] at pathType fragment
  dsimp only at pathType fragment
  generalize parseUric (s.drop beginPath) ((s.drop beginPath).length + 2) = e at *
  rw [List.length_drop] at short
  have fragment' : fragmentIn s (s.length + 2) (beginPath + e) = some uri.fragment := by
    rw [fragmentIn, if_pos (by omega), readAt_inside (by omega), Option.bind_eq_bind, Option.bind_some, fragment]
    by_cases sharp : charAt s (beginPath + e) = 35
    · have text : ¬UricText isUriByte (s.drop (beginPath + e + 1)) := by
        rw [charAt_drop, List.drop_drop, not_and, ← Nat.add_assoc] at noFragment
        exact noFragment sharp
      rw [← parseUric_whole, Nat.not_le] at text
      have limit' : s.length + 2 - (beginPath + e + 1) = (s.drop (beginPath + e + 1)).length + 2 := by
        rw [List.length_drop]
        omega
      rw [if_pos sharp, if_pos ⟨by omega, sharp⟩, parseUricIn_limit (by omega), if_pos text, limit']
      rfl
    · rw [if_neg sharp, if_neg (fun both => sharp both.2)]
  rw [Option.bind_eq_bind, Option.bind_some, fragment', Option.bind_eq_bind, Option.bind_some]
  cases uri
  simp only at scheme type pathquery pathType
  simp only [scheme, type, pathquery, pathType, Bool.and_eq_true, decide_eq_true_eq]

end Path

def pathText (s : List UInt8) (uri : UriType) : List UInt8 := s.drop (uri.pathquery.buff.getD 0)

section Whole
variable {res : Resolver} {s : List UInt8}

theorem parseUriIn_front (res : Resolver) (s : List UInt8) (max : Nat) :
    parseUriIn res s max =
      if HasAuthority s max then
        afterHostIn s max (parseScheme s max) (afterScheme s max)
          (parseHostport res (s.drop (afterScheme s max + 2)) (portOfScheme s max))
      else (pathIn s max (parseScheme s max) ⟨⟨none, 0⟩, none⟩ (afterScheme s max)).map some := by
  have start := afterScheme_inside s max
  rw [parseUriIn, parseSchemeIn_eq, Option.bind_eq_bind, Option.bind_some,
    show (if parseScheme s max = 0 then 0 else parseScheme s max + 1) = afterScheme s max from rfl]
  dsimp only
  rw [hasAuthorityIn_eq start, Option.bind_eq_bind, Option.bind_some]
  by_cases authority : HasAuthority s max
  · obtain ⟨room, first, second⟩ := authority
    have behind : afterScheme s max + 2 ≤ s.length := (charAt_some (by decide) second).2
    have slashes : HasAuthority s max := ⟨room, first, second⟩
    rw [decide_eq_true room, decide_eq_true first, decide_eq_true second, if_pos slashes, strncpyIn_eq behind,
      ← parseHostport_copy]
    rfl
  · have none : (decide (afterScheme s max + 1 < max) && decide (charAt s (afterScheme s max) = 47) &&
        decide (charAt s (afterScheme s max + 1) = 47)) = false := by
      rw [Bool.eq_false_iff]
      intro slashes
      simp only [Bool.and_eq_true, decide_eq_true_eq] at slashes
      exact authority (and_assoc.mp slashes)
    rw [if_neg authority, none]
    rfl

theorem pathText_parts {uri : UriType} {max beginPath : Nat} (parts : Parts res s max uri beginPath) :
    pathText s uri = s.drop beginPath := by
  rw [pathText, parts.pathquery]
  rfl

theorem parseUriIn_path {uri : UriType} {max : Nat} (parsed : parseUri res s max = some uri) :
    ∃ beginPath, Parts res s max uri beginPath ∧ beginPath ≤ s.length ∧
      parseUriIn res s max = (pathIn s max (parseScheme s max) uri.hostport beginPath).map some := by
  obtain ⟨beginPath, parts⟩ := parseUri_split parsed
  refine ⟨beginPath, parts, ?_⟩
  rw [parseUriIn_front]
  rcases parts.hostport with ⟨hostless, none, begins⟩ | ⟨authority, -, found, -, host, begins⟩
  · rw [if_neg hostless, none, begins]
    exact ⟨afterScheme_inside s max, rfl⟩
  · have hosted := parseUri_host res authority
    rw [parsed, Option.map_some, host] at hosted
    obtain ⟨h, parsedHost, same⟩ := Option.map_eq_some_iff.mp hosted.symm
    have size : found.text.size = h.text.size := (congrArg (fun hostport => hostport.text.size) same).symm
    have length := (parseHostport_text parsedHost).2.1
    have behind : afterScheme s max + 2 ≤ s.length := (charAt_some (by decide) authority.2.2).2
    rw [List.length_drop] at length
    rw [if_pos authority, parsedHost, afterHostIn, same, host, begins, size]
    exact ⟨by omega, rfl⟩

/-- A parse that fails, or stops before the terminator, reads only bytes of the string. -/
theorem parseUriIn_inside (fits : s.length + 2 < 2 ^ 64)
    (stops : ∀ uri, parseUri res s (s.length + 2) = some uri → ¬RunsOut (pathText s uri)) :
    parseUriIn res s (s.length + 2) = some (parseUri res s (s.length + 2)) := by
  cases parsed : parseUri res s (s.length + 2) with
  | none =>
    have authority : HasAuthority s (s.length + 2) := by
      by_contra hostless
      have some := parseUri_hostless res hostless
      rw [parsed] at some
      exact Bool.false_ne_true some
    have hosted := parseUri_host res authority
    rw [parsed] at hosted
    rw [parseUriIn_front, if_pos authority, Option.map_eq_none_iff.mp hosted.symm]
    rfl
  | some uri =>
    obtain ⟨beginPath, parts, inside, front⟩ := parseUriIn_path parsed
    have here := stops uri parsed
    rw [pathText_parts parts] at here
    rw [front, pathIn_stops parts inside fits here]
    rfl

theorem parseUriIn_outside (fits : s.length + 2 < 2 ^ 64) {uri : UriType}
    (parsed : parseUri res s (s.length + 2) = some uri) (runsOut : RunsOut (pathText s uri)) :
    parseUriIn res s (s.length + 2) = none := by
  obtain ⟨beginPath, parts, inside, front⟩ := parseUriIn_path parsed
  rw [pathText_parts parts] at runsOut
  rw [front, pathIn_runsOut inside fits runsOut]
  rfl

end Whole

end Pupnp.Uri
