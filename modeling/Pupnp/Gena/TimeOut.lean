import Pupnp.Ssdp.CtrlPt

/-!
The duration of a subscription: what a device reads from the TIMEOUT header of a SUBSCRIBE or of a
renewal, and how it bounds that by its own maximum.
-/

namespace Pupnp.Gena
open Pupnp.CString Pupnp.Http Pupnp.Ssdp

def UPNP_INFINITE : Int := -1
def DEFAULT_TIMEOUT : Int := 1801

/-- A `MaxSubscriptionTimeOut` that a device can have. -/
structure MaxTimeOut where
  value : Int
  valid : value = UPNP_INFINITE ∨ 0 ≤ value

/-- `UpnpSetMaxSubscriptionTimeOut` on a device handle: a new setting, or `UPNP_E_INVALID_HANDLE`. -/
def upnpSetMaxSubscriptionTimeOut (setting : Int) : Option MaxTimeOut :=
  if refused : setting ≠ UPNP_INFINITE ∧ setting < 0 then none
  else some ⟨setting, by omega⟩

/-- The number of seconds in a TIMEOUT value, if it is "Second-" with a number or with "infinite". -/
def readTimeOut (value : List UInt8) : Option Int :=
  let m := matchstr value "%iSecond-%d%0"
  if m.1 = .ok then some (intArg m.2.2 0)
  else if memptrCmpNocase value (bytes "Second-infinite") = 0 then some UPNP_INFINITE
  else none

def setTimeOut : Option (List UInt8) → Int
  | none => 1801
  | some value => (readTimeOut value).getD DEFAULT_TIMEOUT

def boundTimeOut (maxSubscriptionTimeOut timeOut : Int) : Int :=
  if maxSubscriptionTimeOut ≠ UPNP_INFINITE ∧
      (timeOut = UPNP_INFINITE ∨ maxSubscriptionTimeOut < timeOut) then maxSubscriptionTimeOut
  else timeOut

/-- What a device grants: the duration it answers with, and `expireTime`, 0 for an infinite one. -/
structure Grant where
  timeOut : Int
  expireTime : Int
  deriving DecidableEq, Repr

/-- The duration in `gena_process_subscription_request`. -/
def subscriptionGrant (maxSubscriptionTimeOut now : Int) (header : Option (List UInt8)) : Grant :=
  let timeOut := boundTimeOut maxSubscriptionTimeOut (setTimeOut header)
  ⟨timeOut, if 0 ≤ timeOut then now + timeOut else 0⟩

/-- The duration in `gena_process_subscription_renewal_request`. -/
def renewalGrant (maxSubscriptionTimeOut now : Int) (header : Option (List UInt8)) : Grant :=
  let timeOut := boundTimeOut maxSubscriptionTimeOut (setTimeOut header)
  ⟨timeOut, if timeOut = UPNP_INFINITE then 0 else now + timeOut⟩

/-! ### The values that the match takes -/

/-- The number behind "Second-", in any case, of a value that ends with it. -/
def secondsOf (value : List UInt8) : Option Int :=
  if (value.take 7).map toLower = bytes "second-" && (value.drop 7).all isIdentifierChar then
    (wholeNumber 10 (value.drop 7)).filter fun n => 0 ≤ n && n ≤ LONG_MAX
  else none

theorem format_seconds : format "%iSecond-%d%0" =
    .setCase false :: ((bytes "Second-").map Directive.char ++ [.int 10, .endOfMsg]) := by
  decide

theorem vfmatchLoop_letters {sc : Scanner} (text : List UInt8) (later : List Directive) :
    if (sc.rest.take text.length).map toLower = text.map toLower then
      vfmatchLoop false sc (text.map Directive.char ++ later) =
        vfmatchLoop false { sc with cursor := sc.cursor + text.length } later
    else (vfmatchLoop false sc (text.map Directive.char ++ later)).1 ≠ .ok := by
  induction text generalizing sc with
  | nil => simp
  | cons c text ih =>
    cases here : sc.rest with
    | nil =>
      have ended : sc.msg[sc.cursor]? = none := by
        have head := congrArg List.head? here
        rwa [Scanner.rest, List.head?_drop] at head
      rw [if_neg (by simp)]
      simp [vfmatchLoop, matchDirective, matchChar, ended]
    | cons d rest =>
      have first : sc.msg[sc.cursor]? = some d := by
        have head := congrArg List.head? here
        rwa [Scanner.rest, List.head?_drop] at head
      have behind : Scanner.rest { sc with cursor := sc.cursor + 1 } = rest := @rest_advance sc [d] rest here
      have others := @ih { sc with cursor := sc.cursor + 1 }
      rw [behind] at others
      by_cases same : toLower c = toLower d
      · have matched : matchDirective false sc (.char c) = (.ok, { sc with cursor := sc.cursor + 1 }, []) := by
          simp [matchDirective, matchChar, first, same]
        have step : vfmatchLoop false sc ((c :: text).map Directive.char ++ later) =
            vfmatchLoop false { sc with cursor := sc.cursor + 1 } (text.map Directive.char ++ later) := by
          rw [List.map_cons, List.cons_append, vfmatchLoop, matched]
          rfl
        rw [step]
        have heads : ((d :: rest).take (c :: text).length).map toLower = (c :: text).map toLower ↔
            (rest.take text.length).map toLower = text.map toLower := by
          simp [same]
        by_cases tails : (rest.take text.length).map toLower = text.map toLower
        · rw [if_pos tails] at others
          rw [if_pos (heads.mpr tails), others, List.length_cons]
          simp only [Nat.add_assoc, Nat.add_comm 1]
        · rw [if_neg tails] at others
          rw [if_neg (mt heads.mp tails)]
          exact others
      · rw [if_neg (by simp [Ne.symm same])]
        simp [vfmatchLoop, matchDirective, matchChar, first, same]

theorem wholeNumber_strtol {base : Nat} {text : List UInt8} (nonempty : text ≠ []) :
    (wholeNumber base text).filter (fun n => 0 ≤ n && n ≤ LONG_MAX) =
      if (strtol base text).num < 0 || (strtol base text).endOff ≠ text.length ||
          (((strtol base text).num = LONG_MIN || (strtol base text).num = LONG_MAX) &&
            (strtol base text).erange) then none
      else some (strtol base text).num := by
  cases found : numeral base text with
  | none =>
    have read : strtol base text = ⟨0, 0, false⟩ := by rw [strtol, found]
    have some_bytes : 0 ≠ text.length := (List.length_pos_of_ne_nil nonempty).ne
    rw [read, wholeNumber, found]
    simp [some_bytes]
  | some n =>
    have text_value : wholeNumber base text = if n.length = text.length then some n.value else none := by
      rw [wholeNumber, found, Option.bind_some]
    rw [text_value]
    by_cases large : LONG_MAX < n.value
    · have read : strtol base text = ⟨LONG_MAX, n.length, true⟩ := by
        rw [strtol, found]
        exact if_pos large
      have tooLarge : ¬n.value ≤ LONG_MAX := by omega
      rw [read]
      split_ifs <;> simp_all
    · by_cases small : n.value < LONG_MIN
      · have read : strtol base text = ⟨LONG_MIN, n.length, true⟩ := by
          rw [strtol, found]
          exact (if_neg large).trans (if_pos small)
        have negative : ¬0 ≤ n.value := by unfold LONG_MIN at small; omega
        rw [read]
        by_cases whole : n.length = text.length
        · simp [whole, negative, LONG_MIN]
        · simp [whole]
      · have read : strtol base text = ⟨n.value, n.length, false⟩ := by
          rw [strtol, found]
          exact (if_neg large).trans (if_neg small)
        have most : n.value ≤ LONG_MAX := by omega
        rw [read]
        by_cases whole : n.length = text.length
        · by_cases negative : n.value < 0
          · simp [whole, negative, Int.not_le.mpr negative]
          · simp [whole, negative, most, Int.not_lt.mp negative]
        · simp [whole]

theorem vfmatchLoop_lastNumber (caseSensitive : Bool) (sc : Scanner) :
    ((vfmatchLoop caseSensitive sc [.int 10, .endOfMsg]).1 = .ok ↔ (matchInt sc 10).1 = .ok ∧
      (matchInt sc 10).2.1.cursor = (matchInt sc 10).2.1.msg.length) ∧
    ((matchInt sc 10).1 = .ok → (vfmatchLoop caseSensitive sc [.int 10, .endOfMsg]).2.2 =
      (matchInt sc 10).2.2.toList.map .int) := by
  simp only [vfmatchLoop, matchDirective]
  by_cases matched : (matchInt sc 10).1 = .ok
  · by_cases ends : (matchInt sc 10).2.1.cursor = (matchInt sc 10).2.1.msg.length
    · simp [matched, ends]
    · simp [matched, ends]
  · simp [matched]

theorem scanToken_notIdentifier {entire : Bool} {c : UInt8} {rest : List UInt8} {type : TokenType} {n : Nat}
    (first : ¬isIdentifierChar c = true) (scanned : scanToken entire (c :: rest) = .ok (type, n)) :
    type ≠ .identifier := by
  simp only [scanToken, if_neg first] at scanned
  split_ifs at scanned
  · rw [(scanRun_ok scanned).1]
    decide
  · split at scanned
    · cases scanned
    · split_ifs at scanned <;> cases scanned <;> decide
  · cases scanned
    decide
  · split at scanned <;> cases scanned
    decide
  · cases scanned
    decide
  · cases scanned
    decide

theorem lastNumber_match {sc : Scanner} (entire : sc.entireMsgLoaded = true) (inside : sc.cursor ≤ sc.msg.length)
    (caseSensitive : Bool) :
    match if sc.rest.all isIdentifierChar then
        (wholeNumber 10 sc.rest).filter fun n => 0 ≤ n && n ≤ LONG_MAX else none with
    | some n => (vfmatchLoop caseSensitive sc [.int 10, .endOfMsg]).1 = .ok ∧
        (vfmatchLoop caseSensitive sc [.int 10, .endOfMsg]).2.2 = [.int (toInt32 n)]
    | none => (vfmatchLoop caseSensitive sc [.int 10, .endOfMsg]).1 ≠ .ok := by
  obtain ⟨status, args⟩ := vfmatchLoop_lastNumber caseSensitive sc
  have length : sc.rest.length = sc.msg.length - sc.cursor := by rw [Scanner.rest, List.length_drop]
  cases shape : sc.rest with
  | nil =>
    have token : scannerGetToken sc = .error .incomplete := by rw [scannerGetToken_rest, shape]; rfl
    have failed : (matchInt sc 10).1 ≠ .ok := by
      rw [matchInt, token]
      simp
    simpa [wholeNumber, numeral] using fun ok => failed (status.mp ok).1
  | cons c rest =>
    by_cases first : isIdentifierChar c = true
    · have token : scannerGetToken sc = .ok (⟨.identifier, ⟨sc.cursor, (rest.takeWhile isIdentifierChar).length + 1⟩⟩,
          { sc with cursor := sc.cursor + ((rest.takeWhile isIdentifierChar).length + 1) }) := by
        rw [scannerGetToken_rest, entire, shape, scanToken.eq_def]
        dsimp only
        rw [if_pos first, scanRun]
        simp
      have number : strtol 10 (sc.msg.drop sc.cursor) = strtol 10 (c :: rest) := by
        rw [← shape]
        rfl
      rw [shape, List.length_cons] at length
      by_cases chars : (c :: rest).all isIdentifierChar = true
      · have run : rest.takeWhile isIdentifierChar = rest := by
          rw [List.takeWhile_eq_self_iff]
          rw [List.all_eq_true] at chars
          exact fun d member => chars d (List.mem_cons_of_mem c member)
        have ends : sc.cursor + (rest.length + 1) = sc.msg.length := by omega
        rw [if_pos chars, wholeNumber_strtol (List.cons_ne_nil c rest)]
        rw [matchInt, token] at status args
        simp only [if_true, number, run] at status args
        rw [List.length_cons]
        split_ifs at status args ⊢ with refused
        · intro ok
          cases (status.mp ok).1
        · exact ⟨status.mpr ⟨rfl, ends⟩, args rfl⟩
      · have short : (rest.takeWhile isIdentifierChar).length < rest.length := by
          by_contra whole
          have run : rest.takeWhile isIdentifierChar = rest :=
            (List.takeWhile_prefix isIdentifierChar).eq_of_length_le (Nat.not_lt.mp whole)
          rw [List.takeWhile_eq_self_iff] at run
          rw [List.all_cons, first, Bool.true_and, List.all_eq_true] at chars
          exact chars run
        rw [if_neg chars]
        intro ok
        obtain ⟨matched, ends⟩ := status.mp ok
        rw [matchInt, token] at matched ends
        simp only [if_true] at matched ends
        split_ifs at matched ends
        dsimp only at ends
        omega
    · have failed : (matchInt sc 10).1 ≠ .ok := by
        intro ok
        rw [matchInt, scannerGetToken_rest, shape] at ok
        cases scanned : scanToken sc.entireMsgLoaded (c :: rest) with
        | error refused =>
          rw [scanned] at ok
          obtain rfl | rfl := scanToken_error scanned
          · cases ok
          · cases ok
        | ok found =>
          rw [scanned] at ok
          dsimp only at ok
          rw [if_neg (scanToken_notIdentifier first scanned)] at ok
          cases ok
      have chars : ¬(c :: rest).all isIdentifierChar = true := by simp [first]
      rw [if_neg chars]
      exact fun ok => failed (status.mp ok).1

theorem matchstr_seconds (value : List UInt8) :
    match secondsOf value with
    | some n => (matchstr value "%iSecond-%d%0").1 = .ok ∧
        (matchstr value "%iSecond-%d%0").2.2 = [.int (toInt32 n)]
    | none => (matchstr value "%iSecond-%d%0").1 ≠ .ok := by
  have letters := @vfmatchLoop_letters ⟨value, 0, true⟩ (bytes "Second-") [.int 10, .endOfMsg]
  have seven : (bytes "Second-").length = 7 := by decide
  have lower : (bytes "Second-").map toLower = bytes "second-" := by decide
  have fmt : vfmatchLoop true ⟨value, 0, true⟩ (format "%iSecond-%d%0") =
      vfmatchLoop false ⟨value, 0, true⟩ ((bytes "Second-").map Directive.char ++ [.int 10, .endOfMsg]) := by
    rw [format_seconds, vfmatchLoop]
    rfl
  have rest : Scanner.rest ⟨value, 0, true⟩ = value := List.drop_zero
  rw [seven, lower, rest, ← fmt] at letters
  rw [matchstr, matchFormat, vfmatch]
  dsimp only
  unfold secondsOf
  by_cases word : (value.take 7).map toLower = bytes "second-"
  · rw [if_pos word] at letters
    have inside : 0 + 7 ≤ value.length := by
      have length := congrArg List.length word
      have seven' : (bytes "second-").length = 7 := by decide
      rw [List.length_map, List.length_take, seven'] at length
      omega
    have number := @lastNumber_match ⟨value, 0 + 7, true⟩ rfl inside false
    rw [letters]
    have same : Scanner.rest ⟨value, 0 + 7, true⟩ = value.drop 7 := rfl
    rw [same] at number
    simpa [word] using number
  · rw [if_neg word] at letters
    rw [if_neg (by simp only [word, decide_false, Bool.false_and]; simp)]
    exact letters

theorem readTimeOut_seconds {value : List UInt8} {n : Int} (seconds : secondsOf value = some n) :
    readTimeOut value = some (toInt32 n) := by
  have matched := matchstr_seconds value
  rw [seconds] at matched
  rw [readTimeOut]
  rw [if_pos matched.1, matched.2]
  rfl

theorem readTimeOut_other {value : List UInt8} (other : secondsOf value = none) :
    readTimeOut value = some UPNP_INFINITE ∨ readTimeOut value = none := by
  have matched := matchstr_seconds value
  rw [other] at matched
  rw [readTimeOut]
  rw [if_neg matched]
  split
  · exact .inl rfl
  · exact .inr rfl

/-! ### The grants of the two requests -/

/-- The expiry of a grant made at `now` lies within the maximum from then on. -/
def Grant.Bounded (grant : Grant) (now maxSubscriptionTimeOut : Int) : Prop :=
  now ≤ grant.expireTime ∧ grant.expireTime ≤ now + maxSubscriptionTimeOut

theorem grants_bounded_setTimeOut {max : MaxTimeOut} (finite : max.value ≠ UPNP_INFINITE) {now : Int} (epoch : 0 < now)
    (header : Option (List UInt8)) :
    ((subscriptionGrant max.value now header).Bounded now max.value ∧
      (renewalGrant max.value now header).Bounded now max.value ∧
      subscriptionGrant max.value now header = renewalGrant max.value now header) ↔
    setTimeOut header = UPNP_INFINITE ∨ 0 ≤ setTimeOut header := by
  have most : 0 ≤ max.value := max.valid.resolve_left finite
  have sentinel : UPNP_INFINITE = -1 := rfl
  unfold subscriptionGrant renewalGrant Grant.Bounded
  generalize setTimeOut header = timeOut
  dsimp only
  unfold boundTimeOut
  by_cases clamped : max.value ≠ UPNP_INFINITE ∧ (timeOut = UPNP_INFINITE ∨ max.value < timeOut)
  · simp only [if_pos clamped, if_pos most, if_neg finite, and_true]
    omega
  · have short : timeOut ≠ UPNP_INFINITE ∧ timeOut ≤ max.value := by omega
    simp only [if_neg clamped, if_neg short.1, Grant.mk.injEq, true_and]
    by_cases duration : 0 ≤ timeOut
    · simp only [if_pos duration, and_true]
      omega
    · simp only [if_neg duration]
      omega

/-- Exactly the numbers whose low 32 bits are a negative `int` other than the sentinel go wrong. -/
theorem toInt32_duration {n : Int} :
    (toInt32 n = UPNP_INFINITE ∨ 0 ≤ toInt32 n) ↔ (n % 2 ^ 32 < 2 ^ 31 ∨ n % 2 ^ 32 = 2 ^ 32 - 1) := by
  unfold toInt32 UPNP_INFINITE Int.bmod
  dsimp only
  split_ifs <;> omega

/-- A device with a finite maximum keeps to it, in both requests alike, unless the header asks for a
number of seconds that `match_int` narrows to a negative one. -/
theorem grants_bounded_iff (max : MaxTimeOut) (finite : max.value ≠ UPNP_INFINITE) (now : Int) (epoch : 0 < now)
    (header : Option (List UInt8)) :
    ((subscriptionGrant max.value now header).Bounded now max.value ∧
      (renewalGrant max.value now header).Bounded now max.value ∧
      subscriptionGrant max.value now header = renewalGrant max.value now header) ↔
    ∀ value n, header = some value → secondsOf value = some n →
      n % 2 ^ 32 < 2 ^ 31 ∨ n % 2 ^ 32 = 2 ^ 32 - 1 := by
  rw [grants_bounded_setTimeOut finite epoch]
  cases header with
  | none => exact iff_of_true (.inr (by decide)) nofun
  | some value =>
      cases seconds : secondsOf value with
      | none =>
          have fallback : setTimeOut (some value) = UPNP_INFINITE ∨ 0 ≤ setTimeOut (some value) := by
            obtain read | read := readTimeOut_other seconds
            · exact .inl (by rw [setTimeOut, read]; rfl)
            · exact .inr (by rw [setTimeOut, read]; decide)
          refine iff_of_true fallback ?_
          rintro _ n ⟨⟩ found
          exact nomatch seconds.symm.trans found
      | some n =>
          have read : setTimeOut (some value) = toInt32 n := by
            rw [setTimeOut, readTimeOut_seconds seconds]
            rfl
          rw [read, toInt32_duration]
          constructor
          · rintro fits _ m ⟨⟩ found
            obtain rfl := Option.some.inj (seconds.symm.trans found)
            exact fits
          · exact fun all => all value n rfl seconds

theorem grants_bounded_halfHour :
    (subscriptionGrant 300 1000 (some (bytes "Second-1800"))).Bounded 1000 300 ∧
      (renewalGrant 300 1000 (some (bytes "Second-1800"))).Bounded 1000 300 ∧
      subscriptionGrant 300 1000 (some (bytes "Second-1800")) = renewalGrant 300 1000 (some (bytes "Second-1800")) := by
  refine (grants_bounded_iff ⟨300, by decide⟩ (by decide) 1000 (by decide) _).mpr ?_
  rintro _ n ⟨⟩ found
  have seconds : secondsOf (bytes "Second-1800") = some 1800 := by decide
  obtain rfl := Option.some.inj (seconds.symm.trans found)
  decide

/-- "Second-2147483648" against a maximum of 1800 seconds: a SUBSCRIBE never expires, and a renewal
has expired long ago. -/
theorem grants_overflow :
    ¬∀ (max : MaxTimeOut), max.value ≠ UPNP_INFINITE → ∀ now : Int, 0 < now → ∀ header : Option (List UInt8),
      (subscriptionGrant max.value now header).Bounded now max.value ∧
        (renewalGrant max.value now header).Bounded now max.value ∧
        subscriptionGrant max.value now header = renewalGrant max.value now header := by
  intro all
  have granted : subscriptionGrant 1800 1000 (some (bytes "Second-2147483648")) = ⟨-2147483648, 0⟩ := by
    decide
  have early := (all ⟨1800, by decide⟩ (by decide) 1000 (by decide) (some (bytes "Second-2147483648"))).1.1
  rw [granted] at early
  exact absurd early (by decide)

end Pupnp.Gena
