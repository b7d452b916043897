import Pupnp.Gena.SubscribeUrl
import Pupnp.Uri.Reads

/-!
The two passes of `create_url_list` over a CALLBACK header. A URL is parsed with a limit that is two bytes behind
the last one of the value, and a `>` is not asked for.
-/

namespace Pupnp.Gena.UrlList
open Pupnp.CString Pupnp.Uri
open Pupnp.Gena.Subscribe (urlAt UrlList createUrlList Numeric)

def UPNP_E_OUTOF_MEMORY : Int := -104

/-- A header value, which lies in memory with a terminator behind it. -/
structure HeaderValue where
  buf : List UInt8
  fits : buf.length < 2 ^ 63
  deriving DecidableEq, Repr

/-- A parsed URL; its tokens count from `base` in the copy of the value. -/
structure ParsedUrl where
  base : Nat
  uri : UriType
  deriving DecidableEq, Repr

structure UrlListIn where
  size : Nat
  urls : List UInt8
  parsedURLs : List ParsedUrl
  deriving DecidableEq, Repr

/-- The URL behind the byte at `i`, if that is a `<` and not the last byte. -/
def parseAt (res : Resolver) (buff : List UInt8) (i : Nat) : Option (Option UriType) :=
  if charAt buff i = 60 && i + 1 < buff.length then
    (parseUriIn res (buff.drop (i + 1)) (buff.length - i + 1)).map fun url => url.filter fun url => url.hostport.text.size ≠ 0
  else some none

def firstPass (res : Nat → Resolver) (buff : List UInt8) : List Nat → Nat → Option Nat
  | [], count => some count
  | i :: rest, count => do
      let url ← parseAt (res i) buff i
      firstPass res buff rest (if url.isSome then count + 1 else count)

def secondPass (res : Nat → Resolver) (buff : List UInt8) (count : Nat) : List Nat → List ParsedUrl → Option (List ParsedUrl)
  | [], parsedURLs => some parsedURLs
  | i :: rest, parsedURLs => do
      let url ← parseAt (res i) buff i
      match url with
      | none => secondPass res buff count rest parsedURLs
      | some uri =>
          if count ≤ parsedURLs.length + 1 then some (parsedURLs ++ [⟨i + 1, uri⟩])
          else secondPass res buff count rest (parsedURLs ++ [⟨i + 1, uri⟩])

/-- `create_url_list`, `none` when it reads outside the value: the code that it returns and the list. What a host
name resolves to behind the `<` at a place may not be the same in the two passes. -/
def createUrlListIn (first second : Nat → Resolver) (malloc : Bool) (urlList : HeaderValue) :
    Option (Except Int (Int × UrlListIn)) := do
  let buff := urlList.buf
  let count ← firstPass first buff (List.range buff.length) 0
  if count = 0 then some (.ok (0, ⟨0, [], []⟩))
  else if !malloc then some (.error UPNP_E_OUTOF_MEMORY)
  else
    let parsedURLs ← secondPass second buff count (List.range buff.length) []
    some (.ok (toInt32 count, ⟨count, buff, parsedURLs⟩))

/-! ### What is asked of it -/

def isBracket (c : UInt8) : Bool := c = 60 || c = 62

/-- The place of the `>` of a text that begins at `base`; no other bracket may come before it. -/
def closeOf (buff : List UInt8) (base : Nat) : Option Nat :=
  let close := base + ((buff.drop base).takeWhile fun c => !isBracket c).length
  if charAt buff close = 62 then some close else none

structure InBrackets (buff : List UInt8) (url : ParsedUrl) : Prop where
  opened : 0 < url.base ∧ charAt buff (url.base - 1) = 60
  closed : ∃ close, closeOf buff url.base = some close ∧
    ∀ token ∈ [url.uri.scheme, url.uri.hostport.text, url.uri.pathquery, url.uri.fragment],
      url.base + token.buff.getD 0 + token.size ≤ close

/-- No byte is read outside the value, and the list that comes back holds the number of URLs that is returned,
each between its own brackets. -/
structure UrlListRight (result : Option (Except Int (Int × UrlListIn))) : Prop where
  reads : result ≠ none
  list : ∀ returned list, result = some (.ok (returned, list)) → returned = list.size ∧
    list.size = list.parsedURLs.length ∧ ∀ url ∈ list.parsedURLs, InBrackets list.urls url

/-! ### When it holds -/

/-- A URL is parsed behind the byte at `i`, and its path or fragment goes on to the end of the value. -/
def Overruns (res : Resolver) (buff : List UInt8) (i : Nat) : Prop :=
  charAt buff i = 60 ∧ i + 1 < buff.length ∧ ∃ uri, parseUri res (buff.drop (i + 1)) (buff.length - i + 1) = some uri ∧
    RunsOut (pathText (buff.drop (i + 1)) uri)

def found (res : Nat → Resolver) (buff : List UInt8) (places : List Nat) : List ParsedUrl :=
  places.filterMap fun i => (urlAt (res i) buff i).map (⟨i + 1, ·⟩)

/-- The second pass: no URL that it comes to goes on to the end, it finds enough of them, and those are closed. -/
structure Stored (second : Nat → Resolver) (buff : List UInt8) (count : Nat) : Prop where
  stops : ∀ i < buff.length, (found second buff (List.range i)).length < count → ¬Overruns (second i) buff i
  enough : count ≤ (found second buff (List.range buff.length)).length
  closed : ∀ url ∈ (found second buff (List.range buff.length)).take count, (closeOf buff url.base).isSome = true
  isInt : count < 2 ^ 31

structure WellBracketed (first second : Nat → Resolver) (malloc : Bool) (buff : List UInt8) : Prop where
  stops : ∀ i < buff.length, ¬Overruns (first i) buff i
  stored : found first buff (List.range buff.length) ≠ [] → malloc = true →
    Stored second buff (found first buff (List.range buff.length)).length

/-! ### The reads of the two passes -/

section Parse
variable {res : Resolver} {buff : List UInt8} {i : Nat}

theorem limit_behind (inside : i + 1 < buff.length) : buff.length - i + 1 = (buff.drop (i + 1)).length + 2 := by
  rw [List.length_drop]
  omega

theorem parseAt_inside (fits : buff.length < 2 ^ 63) (stops : ¬Overruns res buff i) :
    parseAt res buff i = some (urlAt res buff i) := by
  rw [parseAt, urlAt]
  by_cases bracket : charAt buff i = 60 ∧ i + 1 < buff.length
  · have cond : (decide (charAt buff i = 60) && decide (i + 1 < buff.length)) = true := by
      rw [decide_eq_true bracket.1, decide_eq_true bracket.2]
      rfl
    rw [if_pos cond, if_pos cond, limit_behind bracket.2, parseUriIn_inside]
    · rfl
    · rw [← limit_behind bracket.2]
      omega
    · intro uri parsed runsOut
      rw [← limit_behind bracket.2] at parsed
      exact stops ⟨bracket.1, bracket.2, uri, parsed, runsOut⟩
  · have cond : ¬(decide (charAt buff i = 60) && decide (i + 1 < buff.length)) = true := by
      rw [Bool.and_eq_true, decide_eq_true_eq, decide_eq_true_eq]
      exact bracket
    rw [if_neg cond, if_neg cond]

theorem parseAt_outside (fits : buff.length < 2 ^ 63) (overruns : Overruns res buff i) : parseAt res buff i = none := by
  obtain ⟨open', inside, uri, parsed, runsOut⟩ := overruns
  have limit := limit_behind inside
  rw [limit] at parsed
  rw [parseAt, decide_eq_true open', decide_eq_true inside, limit, parseUriIn_outside (by omega) parsed runsOut]
  rfl

end Parse

section Passes
variable {res : Nat → Resolver} {buff : List UInt8}

theorem found_cons (res : Nat → Resolver) (buff : List UInt8) (i : Nat) (rest : List Nat) :
    found res buff (i :: rest) = ((urlAt (res i) buff i).map (⟨i + 1, ·⟩)).toList ++ found res buff rest := by
  unfold found
  rw [List.filterMap_cons]
  cases urlAt (res i) buff i <;> rfl

theorem firstPass_inside (fits : buff.length < 2 ^ 63) {places : List Nat} (stops : ∀ i ∈ places, ¬Overruns (res i) buff i)
    (count : Nat) : firstPass res buff places count = some (count + (found res buff places).length) := by
  induction places generalizing count with
  | nil => rfl
  | cons i rest ih =>
    rw [firstPass, parseAt_inside fits (stops i List.mem_cons_self), Option.bind_eq_bind, Option.bind_some,
      ih fun j member => stops j (List.mem_cons_of_mem i member), found_cons, List.length_append]
    cases urlAt (res i) buff i with
    | none => exact congrArg some (congrArg (count + ·) (Nat.zero_add _).symm)
    | some uri => exact congrArg some (Nat.add_assoc count 1 _)

theorem firstPass_outside (fits : buff.length < 2 ^ 63) {places : List Nat} {i : Nat} (member : i ∈ places)
    (overruns : Overruns (res i) buff i) (count : Nat) : firstPass res buff places count = none := by
  induction places generalizing count with
  | nil => exact absurd member List.not_mem_nil
  | cons j rest ih =>
    rw [firstPass]
    rcases List.mem_cons.mp member with rfl | later
    · rw [parseAt_outside fits overruns]
      rfl
    · cases parseAt (res j) buff j with
      | none => rfl
      | some url => exact ih later _

def ComesTo (res : Nat → Resolver) (buff : List UInt8) (count : Nat) (places : List Nat) (stored i : Nat) : Prop :=
  ∃ before after, places = before ++ i :: after ∧ stored + (found res buff before).length < count

theorem ComesTo.cons {count j stored i : Nat} {rest : List Nat}
    (comes : ComesTo res buff count rest (stored + (urlAt (res j) buff j).toList.length) i) :
    ComesTo res buff count (j :: rest) stored i := by
  obtain ⟨before, after, split, few⟩ := comes
  refine ⟨j :: before, after, congrArg (j :: ·) split, ?_⟩
  rw [found_cons, List.length_append, ← Nat.add_assoc]
  cases here : urlAt (res j) buff j <;> rw [here] at few <;> exact few

theorem secondPass_inside (fits : buff.length < 2 ^ 63) {count : Nat} {places : List Nat} {stored : List ParsedUrl}
    (room : stored.length < count) (stops : ∀ i, ComesTo res buff count places stored.length i → ¬Overruns (res i) buff i) :
    secondPass res buff count places stored = some (stored ++ (found res buff places).take (count - stored.length)) := by
  induction places generalizing stored with
  | nil =>
    rw [found, List.filterMap_nil, List.take_nil, List.append_nil]
    rfl
  | cons i rest ih =>
    have here := stops i ⟨[], rest, rfl, room⟩
    rw [secondPass, parseAt_inside fits here, Option.bind_eq_bind, Option.bind_some, found_cons]
    have later (stored' : List ParsedUrl) (length : stored'.length = stored.length + (urlAt (res i) buff i).toList.length)
        (j : Nat) (comes : ComesTo res buff count rest stored'.length j) : ¬Overruns (res j) buff j := by
      rw [length] at comes
      exact stops j comes.cons
    cases url : urlAt (res i) buff i with
    | none =>
      rw [url] at later
      exact ih room (later stored rfl)
    | some uri =>
      rw [url] at later
      have split : count - stored.length = count - (stored.length + 1) + 1 := by omega
      rw [Option.map_some, Option.toList_some, List.singleton_append, split, List.take_succ_cons]
      dsimp only
      by_cases full : count ≤ stored.length + 1
      · rw [if_pos full, Nat.sub_eq_zero_of_le full]
        rfl
      · rw [if_neg full, ih (by rw [List.length_append]; exact Nat.lt_of_not_le full)
          (later _ (by rw [List.length_append]; rfl)), List.append_assoc, List.length_append]
        rfl

theorem secondPass_outside (fits : buff.length < 2 ^ 63) {count i : Nat} {places : List Nat} {stored : List ParsedUrl}
    (comes : ComesTo res buff count places stored.length i) (overruns : Overruns (res i) buff i) :
    secondPass res buff count places stored = none := by
  induction places generalizing stored with
  | nil =>
    obtain ⟨before, after, split, -⟩ := comes
    exact absurd split.symm (by simp)
  | cons j rest ih =>
    by_cases here : Overruns (res j) buff j
    · rw [secondPass, parseAt_outside fits here]
      rfl
    · obtain ⟨before, after, split, few⟩ := comes
      cases before with
      | nil =>
        obtain ⟨rfl, -⟩ := List.cons.inj split
        exact absurd overruns here
      | cons k before =>
        obtain ⟨rfl, rfl⟩ := List.cons.inj split
        rw [found_cons, List.length_append] at few
        rw [secondPass, parseAt_inside fits here, Option.bind_eq_bind, Option.bind_some]
        cases url : urlAt (res j) buff j with
        | none =>
          rw [url] at few
          exact ih ⟨before, after, rfl, by simpa using few⟩
        | some uri =>
          rw [url] at few
          simp only [Option.map_some, Option.toList_some, List.length_singleton] at few
          dsimp only
          rw [if_neg (by omega)]
          exact ih ⟨before, after, rfl, by rw [List.length_append, List.length_singleton]; omega⟩

theorem comesTo_range {res : Nat → Resolver} {buff : List UInt8} {count n i : Nat} :
    ComesTo res buff count (List.range n) 0 i ↔ i < n ∧ (found res buff (List.range i)).length < count := by
  constructor
  · rintro ⟨before, after, split, few⟩
    have length : before.length < n := by
      have total := congrArg List.length split
      rw [List.length_range, List.length_append, List.length_cons] at total
      omega
    have place : i = before.length := by
      have here := congrArg (·[before.length]?) split
      simp only [List.getElem?_range length, List.getElem?_append_right (Nat.le_refl _), Nat.sub_self,
        List.getElem?_cons_zero, Option.some.injEq] at here
      exact here.symm
    have front : before = List.range i := by
      have taken := congrArg (List.take before.length) split
      rw [List.take_range, List.take_left, Nat.min_eq_left (Nat.le_of_lt length), ← place] at taken
      exact taken.symm
    rw [Nat.zero_add, front] at few
    rw [place] at few ⊢
    exact ⟨length, few⟩
  · rintro ⟨inside, few⟩
    refine ⟨List.range i, (List.range (n - (i + 1))).map (i + 1 + ·), ?_, by rwa [Nat.zero_add]⟩
    have split : n = i + 1 + (n - (i + 1)) := by omega
    rw [split, List.range_add, List.range_succ, List.append_assoc, Nat.add_sub_cancel_left]
    rfl

end Passes

/-! ### Brackets -/

def NoBrackets (s : List UInt8) (n : Nat) : Prop := ∀ i < n, isBracket (charAt s i) = false

theorem NoBrackets.upTo {s : List UInt8} {n m : Nat} (front : NoBrackets s n)
    (more : ∀ i, n ≤ i → i < m → isBracket (charAt s i) = false) : NoBrackets s m := by
  intro i before
  rcases Nat.lt_or_ge i n with early | late
  · exact front i early
  · exact more i late before

theorem NoBrackets.behind {s : List UInt8} {n m : Nat} (front : NoBrackets s n) (rest : NoBrackets (s.drop n) m) :
    NoBrackets s (n + m) := by
  refine front.upTo fun i late before => ?_
  have here := rest (i - n) (by omega)
  rwa [charAt_drop, Nat.add_sub_cancel' late] at here

theorem schemeChar_noBracket {c : UInt8} : isSchemeChar c = true → isBracket c = false := by
  revert c
  apply forall_byte
  decide +kernel

theorem hostByte_noBracket {c : UInt8} : (isHostChar c || Subscribe.isAddr6Char c) = true → isBracket c = false := by
  revert c
  apply forall_byte
  decide +kernel

theorem uriByte_noBracket {c : UInt8} : (isUriByte c || c = 37) = true → isBracket c = false := by
  revert c
  apply forall_byte
  decide +kernel

theorem afterScheme_noBrackets (s : List UInt8) (max : Nat) : NoBrackets s (afterScheme s max) := by
  unfold afterScheme
  split_ifs with none
  · exact fun i before => absurd before (Nat.not_lt_zero i)
  · obtain ⟨-, colon, text⟩ := parseScheme_colon none
    have inside := (charAt_some (by decide) colon).2
    intro i before
    rcases Nat.lt_or_eq_of_le (Nat.le_of_lt_succ before) with early | rfl
    · have nonempty : s.take (parseScheme s max) ≠ [] := by
        intro empty
        have length := congrArg List.length empty
        rw [List.length_take, List.length_nil] at length
        omega
      apply schemeChar_noBracket
      apply (text nonempty).2
      rw [← charAt_take s early, charAt, List.getD_eq_getElem?_getD, List.getElem?_eq_getElem (by rw [List.length_take]; omega)]
      exact List.getElem_mem _
    · rw [colon]
      rfl

theorem parseUric_noBrackets {s : List UInt8} {max : Nat} : NoBrackets s (parseUric s max) := by
  intro i before
  have accepted := uricEnd_accepts (Nat.zero_le i) before
  apply uriByte_noBracket
  rw [Bool.or_eq_true, Bool.and_eq_true] at accepted
  rcases accepted with plain | ⟨-, escaped⟩
  · rw [isUriByte, plain]
    rfl
  · rw [isEscaped, Bool.and_eq_true, Bool.and_eq_true] at escaped
    rw [escaped.1.1, Bool.or_true]

theorem hostport_noBrackets {res : Resolver} (numeric : Numeric res) {t : List UInt8}
    (text : HostportText (fun host => HostName host ∨ HostLiteral res host) t) : ∀ c ∈ t, isBracket c = false := by
  obtain ⟨name, port, rfl, host, digits⟩ := text
  intro c member
  rcases List.mem_append.mp member with inName | inPort
  · rcases host with chars | ⟨srvname, rfl, literal⟩
    · exact hostByte_noBracket (by rw [chars c inName]; rfl)
    · obtain ⟨addr, address⟩ := Option.isSome_iff_exists.mp literal
      rcases List.mem_append.mp inName with front | close
      · rcases List.mem_append.mp front with bracket | inside
        · rw [List.mem_singleton.mp bracket]
          rfl
        · exact hostByte_noBracket (by rw [numeric srvname addr address c inside, Bool.or_true])
      · rw [List.mem_singleton.mp close]
        rfl
  · rcases digits with rfl | ⟨number, rfl, only⟩
    · exact absurd inPort List.not_mem_nil
    · rcases List.mem_cons.mp inPort with rfl | digit
      · rfl
      · have kind := only c digit
        exact hostByte_noBracket (by rw [isHostChar, isAlnum, kind, Bool.or_true]; rfl)

theorem tokens_noBrackets {res : Resolver} (numeric : Numeric res) {s : List UInt8} {max : Nat} {uri : UriType}
    (parsed : parseUri res s max = some uri) : ∀ token ∈ [uri.scheme, uri.hostport.text, uri.pathquery, uri.fragment],
      NoBrackets s (token.buff.getD 0 + token.size) := by
  obtain ⟨beginPath, parts⟩ := parseUri_split parsed
  have start := afterScheme_noBrackets s max
  have none : NoBrackets s ((⟨none, 0⟩ : UriToken).buff.getD 0 + (⟨none, 0⟩ : UriToken).size) :=
    fun i before => absurd before (Nat.not_lt_zero i)
  have scheme : NoBrackets s (uri.scheme.buff.getD 0 + uri.scheme.size) := by
    rw [parts.scheme]
    unfold afterScheme at start
    split_ifs at start ⊢
    · exact none
    · intro i before
      dsimp only [Option.getD_some] at before
      exact start i (by omega)
  have host : NoBrackets s (uri.hostport.text.buff.getD 0 + uri.hostport.text.size) ∧ NoBrackets s beginPath := by
    rcases parts.hostport with ⟨-, hostless, begins⟩ | ⟨⟨-, first, second⟩, defaultPort, h, hosted, host, begins⟩
    · rw [hostless, begins]
      exact ⟨none, start⟩
    · obtain ⟨buff, size, text⟩ := parseHostport_text hosted
      have chars := hostport_noBrackets numeric text
      have slashes : NoBrackets s (afterScheme s max + 2) := by
        refine start.upTo fun i late before => ?_
        obtain rfl | rfl : i = afterScheme s max ∨ i = afterScheme s max + 1 := by omega
        · rw [first]
          rfl
        · rw [second]
          rfl
      have whole : NoBrackets s (afterScheme s max + 2 + h.text.size) := by
        refine slashes.behind fun i before => chars _ ?_
        rw [← charAt_take _ before, charAt, List.getD_eq_getElem?_getD, List.getElem?_eq_getElem (by rw [List.length_take]; omega)]
        exact List.getElem_mem _
      rw [host, begins, UriToken.shift, buff]
      dsimp only [Option.map_some, Option.getD_some]
      rw [Nat.zero_add]
      exact ⟨whole, whole⟩
  have path : NoBrackets s (beginPath + uri.pathquery.size) := by
    rw [parts.pathquery]
    exact host.2.behind parseUric_noBrackets
  have fragment : NoBrackets s (uri.fragment.buff.getD 0 + uri.fragment.size) := by
    rw [parts.fragment]
    split_ifs with sharp
    · have upTo : NoBrackets s (beginPath + uri.pathquery.size + 1) := by
        refine path.upTo fun i late before => ?_
        obtain rfl : i = beginPath + uri.pathquery.size := by omega
        rw [sharp.2]
        rfl
      exact upTo.behind parseUric_noBrackets
    · exact none
  intro token member
  simp only [List.mem_cons, List.not_mem_nil, or_false] at member
  rcases member with rfl | rfl | rfl | rfl
  · exact scheme
  · exact host.1
  · rw [parts.pathquery] at path ⊢
    exact path
  · exact fragment

theorem inBrackets_iff {res : Nat → Resolver} (numeric : ∀ i, Numeric (res i)) {buff : List UInt8} {places : List Nat}
    {url : ParsedUrl} (member : url ∈ found res buff places) :
    InBrackets buff url ↔ (closeOf buff url.base).isSome = true := by
  obtain ⟨i, -, stored⟩ := List.mem_filterMap.mp member
  obtain ⟨uri, here, rfl⟩ := Option.map_eq_some_iff.mp stored
  unfold urlAt at here
  split at here
  next bracket =>
    rw [Bool.and_eq_true, decide_eq_true_eq] at bracket
    have parsed := (Option.filter_eq_some_iff.mp here).1
    constructor
    · intro between
      obtain ⟨close, found, -⟩ := between.closed
      exact Option.isSome_iff_exists.mpr ⟨close, found⟩
    · intro closed
      obtain ⟨close, found⟩ := Option.isSome_iff_exists.mp closed
      refine ⟨⟨Nat.succ_pos i, bracket.1⟩, close, found, fun token inside => ?_⟩
      have plain := tokens_noBrackets (numeric i) parsed token inside
      rw [closeOf] at found
      split at found
      next gt =>
        obtain rfl := Option.some.inj found
        by_contra longer
        have here := plain ((buff.drop (i + 1)).takeWhile fun c => !isBracket c).length (by dsimp only at longer; omega)
        rw [charAt_drop, gt] at here
        exact Bool.false_ne_true here.symm
      next => contradiction
  next => contradiction

/-! ### The whole list -/

theorem toInt32_count (count : Nat) : toInt32 count = count ↔ count < 2 ^ 31 := by
  unfold toInt32
  rw [Int.bmod_def]
  split <;> omega

section Whole
variable {first second : Nat → Resolver} {value : HeaderValue}

theorem createUrlListIn_overruns {i : Nat} (inside : i < value.buf.length) (overruns : Overruns (first i) value.buf i)
    (malloc : Bool) : createUrlListIn first second malloc value = none := by
  rw [createUrlListIn, firstPass_outside value.fits (List.mem_range.mpr inside) overruns]
  rfl

theorem createUrlListIn_counted (stops : ∀ i < value.buf.length, ¬Overruns (first i) value.buf i) (malloc : Bool) :
    createUrlListIn first second malloc value =
      (let count := (found first value.buf (List.range value.buf.length)).length
      if count = 0 then some (.ok (0, ⟨0, [], []⟩))
      else if !malloc then some (.error UPNP_E_OUTOF_MEMORY)
      else (secondPass second value.buf count (List.range value.buf.length) []).map fun parsedURLs =>
        .ok (toInt32 count, ⟨count, value.buf, parsedURLs⟩)) := by
  have counted := firstPass_inside value.fits (fun i member => stops i (List.mem_range.mp member)) 0
  rw [createUrlListIn, counted, Nat.zero_add, Option.bind_eq_bind, Option.bind_some]
  generalize (found first value.buf (List.range value.buf.length)).length = count
  dsimp only
  cases secondPass second value.buf count (List.range value.buf.length) [] <;> rfl

theorem secondPass_right (numeric : ∀ i, Numeric (second i)) {count : Nat} (positive : 0 < count) :
    UrlListRight ((secondPass second value.buf count (List.range value.buf.length) []).map fun parsedURLs =>
        .ok (toInt32 count, ⟨count, value.buf, parsedURLs⟩)) ↔ Stored second value.buf count := by
  by_cases stops : ∀ i, ComesTo second value.buf count (List.range value.buf.length) 0 i → ¬Overruns (second i) value.buf i
  · have stored := @secondPass_inside second value.buf value.fits count (List.range value.buf.length) [] positive stops
    rw [stored, List.nil_append, List.length_nil, Nat.sub_zero, Option.map_some]
    have members : ∀ url ∈ (found second value.buf (List.range value.buf.length)).take count,
        (InBrackets value.buf url ↔ (closeOf value.buf url.base).isSome = true) := by
      intro url member
      exact inBrackets_iff numeric (List.mem_of_mem_take member)
    constructor
    · intro right
      obtain ⟨returned, size, between⟩ := right.list _ _ rfl
      dsimp only at returned size between
      rw [List.length_take] at size
      refine ⟨fun i inside few => stops i (comesTo_range.mpr ⟨inside, few⟩), by omega, fun url member => ?_,
        (toInt32_count count).mp returned⟩
      exact (members url member).mp (between url member)
    · intro good
      refine ⟨Option.some_ne_none _, ?_⟩
      intro returned list same
      obtain ⟨rfl, rfl⟩ := Prod.mk.inj (Except.ok.inj (Option.some.inj same))
      refine ⟨(toInt32_count count).mpr good.isInt, ?_, fun url member => (members url member).mpr (good.closed url member)⟩
      exact (List.length_take_of_le good.enough).symm
  · simp only [not_forall, not_not] at stops
    obtain ⟨i, comes, overruns⟩ := stops
    have outside := @secondPass_outside second value.buf value.fits count i _ [] comes overruns
    rw [outside]
    constructor
    · intro right
      exact absurd rfl right.reads
    · intro good
      obtain ⟨inside, few⟩ := comesTo_range.mp comes
      exact absurd overruns (good.stops i inside few)

end Whole

/-- Where one resolver answers for both passes, this is the list that a subscription gets. -/
theorem createUrlListIn_createUrlList {res : Resolver} {value : HeaderValue} {returned : Int} {list : UrlListIn}
    (result : createUrlListIn (fun _ => res) (fun _ => res) true value = some (.ok (returned, list))) :
    createUrlList res value.buf = ⟨list.size, list.urls, list.parsedURLs.map ParsedUrl.uri⟩ := by
  by_cases stops : ∀ i < value.buf.length, ¬Overruns res value.buf i
  · have uris (places : List Nat) :
        (found (fun _ => res) value.buf places).map ParsedUrl.uri = places.filterMap (urlAt res value.buf) := by
      rw [found, List.map_filterMap]
      apply List.filterMap_congr
      intro i _
      cases urlAt res value.buf i <;> rfl
    have whole := uris (List.range value.buf.length)
    rw [createUrlListIn_counted stops] at result
    dsimp only at result
    rw [createUrlList, ← whole]
    by_cases none : found (fun _ => res) value.buf (List.range value.buf.length) = []
    · rw [none, List.length_nil, if_pos rfl] at result
      obtain ⟨rfl, rfl⟩ := Prod.mk.inj (Except.ok.inj (Option.some.inj result))
      rw [none]
      rfl
    · have positive := List.length_pos_iff.mpr none
      have stored := @secondPass_inside (fun _ => res) value.buf value.fits _ (List.range value.buf.length) [] positive
        fun i comes => stops i (comesTo_range.mp comes).1
      rw [if_neg (Nat.ne_of_gt positive), Bool.not_true, if_neg Bool.false_ne_true, stored, List.nil_append, List.length_nil,
        Nat.sub_zero, List.take_length] at result
      obtain ⟨rfl, rfl⟩ := Prod.mk.inj (Except.ok.inj (Option.some.inj result))
      rw [List.length_map, if_neg (fun empty => none (List.map_eq_nil_iff.mp empty))]
  · simp only [not_forall, not_not] at stops
    obtain ⟨i, inside, overruns⟩ := stops
    rw [@createUrlListIn_overruns (fun _ => res) _ value i inside overruns] at result
    exact absurd result.symm (Option.some_ne_none _)

theorem uricText_noBrackets {t : List UInt8} (text : UricText isUriByte t) : NoBrackets t t.length := by
  intro i inside
  apply uriByte_noBracket
  rcases text i inside with plain | escaped
  · rw [plain, Bool.true_or]
  · rw [isEscaped, Bool.and_eq_true, Bool.and_eq_true] at escaped
    rw [escaped.1.1, Bool.or_true]

theorem runsOut_noBrackets {t : List UInt8} (runsOut : RunsOut t) : NoBrackets t t.length := by
  rcases runsOut with path | ⟨path, fragment, rfl, pathText, fragmentText⟩
  · exact uricText_noBrackets path
  · have front : NoBrackets (path ++ 35 :: fragment) path.length := by
      intro i before
      rw [charAt_front before]
      exact uricText_noBrackets pathText i before
    have rest : NoBrackets (35 :: fragment) (1 + fragment.length) := by
      have sharp : NoBrackets (35 :: fragment) 1 := by
        intro i before
        obtain rfl := Nat.lt_one_iff.mp before
        rfl
      exact sharp.behind (uricText_noBrackets fragmentText)
    have length : (path ++ 35 :: fragment).length = path.length + (1 + fragment.length) := by
      rw [List.length_append, List.length_cons, Nat.add_comm fragment.length]
    rw [length]
    apply front.behind
    rwa [List.drop_left]

theorem overruns_last {res : Resolver} (numeric : Numeric res) {buff : List UInt8} {i : Nat} (overruns : Overruns res buff i) :
    ∀ j, i < j → j < buff.length → isBracket (charAt buff j) = false := by
  obtain ⟨-, -, uri, parsed, runsOut⟩ := overruns
  intro j behind inside
  have path : NoBrackets (buff.drop (i + 1)) (uri.pathquery.buff.getD 0) := fun k before =>
    tokens_noBrackets numeric parsed uri.pathquery (by simp) k (Nat.lt_add_right _ before)
  have whole := path.behind (runsOut_noBrackets runsOut)
  have length : ((buff.drop (i + 1)).drop (uri.pathquery.buff.getD 0)).length =
      buff.length - (i + 1) - uri.pathquery.buff.getD 0 := by
    rw [List.length_drop, List.length_drop]
  have here := whole (j - (i + 1)) (by omega)
  rwa [charAt_drop, Nat.add_sub_cancel' behind] at here

/-- `create_url_list` reads no byte outside the value and returns as many URLs as it stores, each between its own
brackets, exactly when no URL that it parses goes on to the end of the value, and those that it stores are closed
and as many as it has counted. -/
theorem createUrlListIn_right (first second : Nat → Resolver) (numeric : ∀ i, Numeric (second i)) (malloc : Bool)
    (value : HeaderValue) :
    UrlListRight (createUrlListIn first second malloc value) ↔ WellBracketed first second malloc value.buf := by
  by_cases stops : ∀ i < value.buf.length, ¬Overruns (first i) value.buf i
  · rw [createUrlListIn_counted stops]
    dsimp only
    by_cases none : found first value.buf (List.range value.buf.length) = []
    · rw [none, List.length_nil, if_pos rfl]
      constructor
      · intro
        exact ⟨stops, fun some => absurd none some⟩
      · intro
        refine ⟨Option.some_ne_none _, ?_⟩
        rintro returned list ⟨⟩
        exact ⟨rfl, rfl, fun url member => absurd member List.not_mem_nil⟩
    · have positive := List.length_pos_iff.mpr none
      rw [if_neg (Nat.ne_of_gt positive)]
      cases malloc with
      | false =>
          constructor
          · intro
            exact ⟨stops, fun _ allocated => absurd allocated Bool.false_ne_true⟩
          · intro
            refine ⟨Option.some_ne_none _, ?_⟩
            rintro returned list ⟨⟩
      | true =>
          have right := @secondPass_right second value numeric _ positive
          exact right.trans ⟨fun good => ⟨stops, fun _ _ => good⟩, fun well => well.stored none rfl⟩
  · simp only [not_forall, not_not] at stops
    obtain ⟨i, inside, overruns⟩ := stops
    rw [createUrlListIn_overruns inside overruns]
    constructor
    · intro right
      exact absurd rfl right.reads
    · intro well
      exact absurd overruns (well.stops i inside)

/-! ### Two values -/

/-- `inet_pton` for one address; there are no host names. -/
def oneHost : Resolver where
  getaddrinfo _ := none
  inetPton family text := if family = .inet ∧ text = bytes "10.0.0.2" then some [10, 0, 0, 2] else none
  gIfIndex := 2

theorem oneHost_numeric : Numeric oneHost := by
  intro text addr read
  change (if AddrFamily.inet6 = .inet ∧ text = bytes "10.0.0.2" then some [10, 0, 0, 2] else none) = some addr at read
  rw [if_neg (fun both => absurd both.1 (by decide))] at read
  contradiction

def closedValue : HeaderValue := ⟨bytes "<http://10.0.0.2/>", by decide⟩

theorem createUrlListIn_right_closed : WellBracketed (fun _ => oneHost) (fun _ => oneHost) true closedValue.buf ∧
    UrlListRight (createUrlListIn (fun _ => oneHost) (fun _ => oneHost) true closedValue) := by
  have stops : ∀ i < closedValue.buf.length, ¬Overruns oneHost closedValue.buf i := by
    intro i inside overruns
    rcases Nat.eq_or_lt_of_le (Nat.le_of_lt_succ inside) with last | before
    · exact absurd overruns.2.1 (by rw [last]; decide)
    · exact absurd (overruns_last oneHost_numeric overruns 17 before (by decide)) (by decide)
  have well : WellBracketed (fun _ => oneHost) (fun _ => oneHost) true closedValue.buf := by
    refine ⟨stops, fun _ _ => ⟨fun i inside _ => stops i inside, Nat.le_refl _, ?_, ?_⟩⟩
    · decide +kernel
    · decide +kernel
  exact ⟨well, (createUrlListIn_right (fun _ => oneHost) (fun _ => oneHost) (fun _ => oneHost_numeric) true closedValue).mpr well⟩

def storesUnclosed : Option (Except Int (Int × UrlListIn)) → Bool
  | some (.ok (_, list)) => list.parsedURLs.any fun url => (closeOf list.urls url.base).isNone
  | _ => false

theorem storesUnclosed_wrong {result : Option (Except Int (Int × UrlListIn))} (unclosed : storesUnclosed result = true) :
    ¬UrlListRight result := by
  intro right
  unfold storesUnclosed at unclosed
  split at unclosed
  next returned list =>
    obtain ⟨url, member, none⟩ := List.any_eq_true.mp unclosed
    obtain ⟨-, -, between⟩ := right.list returned list rfl
    obtain ⟨close, found, -⟩ := (between url member).closed
    rw [found] at none
    contradiction
  next => contradiction

/-- Without its `>` a URL is read past the end of the value; behind a blank it is taken as it is. -/
theorem createUrlListIn_unterminated :
    ¬UrlListRight (createUrlListIn (fun _ => oneHost) (fun _ => oneHost) true ⟨bytes "<http://10.0.0.2/", by decide⟩) ∧
      ¬UrlListRight (createUrlListIn (fun _ => oneHost) (fun _ => oneHost) true ⟨bytes "<http://10.0.0.2/ ", by decide⟩) := by
  constructor
  · intro right
    have outside : (createUrlListIn (fun _ => oneHost) (fun _ => oneHost) true
        ⟨bytes "<http://10.0.0.2/", by decide⟩).isNone = true := by decide +kernel
    exact right.reads (Option.isNone_iff_eq_none.mp outside)
  · apply storesUnclosed_wrong
    decide +kernel

end Pupnp.Gena.UrlList
