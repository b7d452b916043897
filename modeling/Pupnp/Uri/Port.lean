import Mathlib.Tactic.Ring
import Pupnp.Library.Decimal
import Pupnp.Uri.Tokens

/-! The port of a URL: what its text says and what the parser stores. -/

namespace Pupnp.Uri
open Pupnp.CString

/-- The parser and the resolver take the host in front of the parser's copy of the text. -/
def hostAccepted (res : Resolver) (workbuf : List UInt8) : Bool :=
  if charAt workbuf 0 = 91 then
    1 + ((workbuf.drop 1).takeWhile (· ≠ 93)).length < workbuf.length &&
      (res.inetPton .inet6 ((workbuf.drop 1).takeWhile (· ≠ 93))).isSome
  else if looksLikeIPv4 (workbuf.takeWhile isHostChar) then
    (res.inetPton .inet (workbuf.takeWhile isHostChar)).isSome
  else (res.getaddrinfo (workbuf.takeWhile isHostChar)).isSome

def shortPort (text : List UInt8) : Nat := (atoi text % 2 ^ 16).toNat

def portRead (workbuf : List UInt8) (defaultPort : Nat) : Option Nat :=
  if charAt workbuf (hostEnd workbuf) = 58 then
    if shortPort (workbuf.drop (hostEnd workbuf + 1)) = 0 then none
    else some (shortPort (workbuf.drop (hostEnd workbuf + 1)))
  else some defaultPort

theorem parsePort_port (workbuf : List UInt8) (defaultPort : Nat) :
    (parsePort workbuf (if charAt workbuf (hostEnd workbuf) = 58 then hostEnd workbuf + 1 else hostEnd workbuf)
      (charAt workbuf (hostEnd workbuf) = 58) defaultPort).map Prod.snd = portRead workbuf defaultPort := by
  unfold parsePort portRead shortPort
  by_cases colon : charAt workbuf (hostEnd workbuf) = 58
  · rw [if_pos colon, if_pos colon, decide_eq_true colon, if_pos rfl]
    dsimp only
    split_ifs <;> rfl
  · rw [if_neg colon, if_neg colon, decide_eq_false colon, if_neg Bool.false_ne_true]
    rfl

theorem parseHostport_port (res : Resolver) (s : List UInt8) (defaultPort : Nat) :
    (parseHostport res s defaultPort).map (fun found => found.ipAddress.map SockAddr.port) =
      if hostAccepted res ((cstr s).take 255) then (portRead ((cstr s).take 255) defaultPort).map some else none := by
  unfold parseHostport
  dsimp only
  generalize (cstr s).take 255 = workbuf
  have port := parsePort_port workbuf defaultPort
  unfold hostAccepted
  by_cases bracket : charAt workbuf 0 = 91
  · rw [show hostEnd workbuf = _ from if_pos bracket] at port
    simp only [if_pos bracket]
    rw [← port]
    by_cases closed : workbuf.length ≤ 1 + ((workbuf.drop 1).takeWhile (· ≠ 93)).length
    · rw [if_pos closed, decide_eq_false (Nat.not_lt_of_le closed)]
      rfl
    · rw [if_neg closed, decide_eq_true (Nat.lt_of_not_le closed), Bool.true_and]
      generalize parsePort workbuf _ _ defaultPort = ported
      cases ported <;> cases res.inetPton .inet6 ((workbuf.drop 1).takeWhile (· ≠ 93)) <;> rfl
  · rw [show hostEnd workbuf = _ from if_neg bracket] at port
    simp only [if_neg bracket]
    rw [← port]
    generalize parsePort workbuf _ _ defaultPort = ported
    by_cases ip : looksLikeIPv4 (workbuf.takeWhile isHostChar) = true
    · rw [if_pos ip, if_pos ip]
      cases ported <;> cases res.inetPton .inet (workbuf.takeWhile isHostChar) <;> rfl
    · rw [if_neg ip, if_neg ip]
      cases ported <;> cases res.getaddrinfo (workbuf.takeWhile isHostChar) <;> rfl

/-! ### The text of the port -/

def explicitPort (t : List UInt8) : List UInt8 := (t.drop (hostEnd t + 1)).takeWhile isDigit

theorem takeWhile_take_eq (p : UInt8 → Bool) (t : List UInt8) (n : Nat) :
    (t.take n).takeWhile p = (t.takeWhile p).take n := by
  induction t generalizing n with
  | nil => simp
  | cons c t ih =>
    cases n with
    | zero => rfl
    | succ n =>
      by_cases kind : p c = true
      · rw [List.take_succ_cons, List.takeWhile_cons_of_pos kind, List.takeWhile_cons_of_pos kind,
          List.take_succ_cons, ih]
      · rw [List.take_succ_cons, List.takeWhile_cons_of_neg kind, List.takeWhile_cons_of_neg kind, List.take_nil]

theorem hostEnd_copy {t : List UInt8} {n : Nat} (inside : hostEnd t < n) : hostEnd (t.take n) = hostEnd t := by
  unfold hostEnd at inside ⊢
  rw [charAt_take t (by omega)]
  split at inside
  · next bracket =>
      rw [if_pos bracket, if_pos bracket, List.drop_take, takeWhile_take_eq, List.length_take, Nat.min_eq_right (by omega)]
  · next name =>
      rw [if_neg name, if_neg name, takeWhile_take_eq, List.length_take, Nat.min_eq_right (by omega)]

theorem hostEnd_cut {t : List UInt8} {n : Nat} (outside : n ≤ hostEnd t) (positive : 0 < n) :
    charAt (t.take n) (hostEnd (t.take n)) = 0 := by
  have behind : n ≤ hostEnd (t.take n) := by
    unfold hostEnd at outside ⊢
    rw [charAt_take t positive]
    split at outside
    · next bracket =>
        rw [if_pos bracket, List.drop_take, takeWhile_take_eq, List.length_take]
        omega
    · next name =>
        rw [if_neg name, takeWhile_take_eq, List.length_take]
        omega
  rw [charAt, List.getD_eq_getElem?_getD, List.getElem?_eq_none, Option.getD_none]
  rw [List.length_take]
  omega

/-- `atoi` of a text that begins with digits is their value, where a short holds it. -/
theorem shortPort_digits {text : List UInt8} (nonempty : text.takeWhile isDigit ≠ [])
    (small : digitsValue 10 (text.takeWhile isDigit) ≤ 65535) :
    shortPort text = digitsValue 10 (text.takeWhile isDigit) := by
  have stop : ∀ c ∈ (text.dropWhile isDigit).head?, ¬ digitVal c < 10 := by
    intro c member
    have other := dropWhile_head isDigit text c member
    rw [← digitVal_decimal] at other
    exact of_decide_eq_false other
  have value := strtol_digits_append nonempty (fun c member => List.mem_takeWhile_imp member) stop (by omega)
  rw [List.takeWhile_append_dropWhile] at value
  rw [shortPort, atoi, value]
  omega

section Right
variable {res : Resolver} {t : List UInt8} {defaultPort : Nat}

/-- What the port of a host and port should be. -/
def PortValue (t : List UInt8) (port : Nat) : Prop :=
  explicitPort t ≠ [] ∧ port = digitsValue 10 (explicitPort t) ∧ 1 ≤ port ∧ port ≤ 65535

/-- The host is refused; or its port is one that `atoi` makes 0, or is a number of 16 bits in the first 255 bytes;
or these bytes do not reach the colon, and the port is the default one. -/
def PortReadable (res : Resolver) (t : List UInt8) (defaultPort : Nat) : Prop :=
  hostAccepted res (t.take 255) = false ∨
    hostEnd t < 255 ∧ (shortPort ((t.take 255).drop (hostEnd t + 1)) = 0 ∨
      explicitPort t ≠ [] ∧ hostEnd t + 1 + (explicitPort t).length ≤ 255 ∧ digitsValue 10 (explicitPort t) ≤ 65535) ∨
    255 ≤ hostEnd t ∧ explicitPort t ≠ [] ∧ digitsValue 10 (explicitPort t) = defaultPort

/-- The property of a parse is one of the port that is read, where the host is accepted. -/
theorem parseHostport_forall (noNul : (0 : UInt8) ∉ t) (accepted : hostAccepted res (t.take 255) = true) (p : Nat → Prop) :
    (∀ found, parseHostport res t defaultPort = some found → ∃ address, found.ipAddress = some address ∧ p address.port) ↔
      ∀ port, portRead (t.take 255) defaultPort = some port → p port := by
  have result := parseHostport_port res t defaultPort
  have copy : cstr t = t := cstr_eq_self noNul
  rw [copy, if_pos accepted] at result
  constructor
  · intro right port read
    rw [read] at result
    obtain ⟨found, parsed, stored⟩ := Option.map_eq_some_iff.mp result
    obtain ⟨address, known, value⟩ := right found parsed
    rw [known] at stored
    exact Option.some.inj stored ▸ value
  · intro right found parsed
    rw [parsed, Option.map_some] at result
    obtain ⟨port, read, stored⟩ := Option.map_eq_some_iff.mp result.symm
    obtain ⟨address, known, rfl⟩ := Option.map_eq_some_iff.mp stored.symm
    exact ⟨address, known, right _ read⟩

theorem explicitPort_copy (t : List UInt8) :
    ((t.take 255).drop (hostEnd t + 1)).takeWhile isDigit = (explicitPort t).take (255 - (hostEnd t + 1)) := by
  rw [List.drop_take, takeWhile_take_eq]
  rfl

theorem digitsValue_take {ds : List UInt8} {n : Nat} (cut : n < ds.length) (positive : digitsValue 10 (ds.take n) ≠ 0) :
    digitsValue 10 (ds.take n) < digitsValue 10 ds := by
  have split := digitsValue_append 10 (ds.take n) (ds.drop n)
  have more : (ds.drop n).length = ds.length - n - 1 + 1 := by
    rw [List.length_drop]
    omega
  rw [List.take_append_drop, more, Nat.pow_succ] at split
  have power : 1 ≤ 10 ^ (ds.length - n - 1) := Nat.one_le_pow _ _ (by decide)
  calc digitsValue 10 (ds.take n) < digitsValue 10 (ds.take n) * 10 := by omega
    _ ≤ digitsValue 10 (ds.take n) * (10 ^ (ds.length - n - 1) * 10) := Nat.mul_le_mul_left _ (by omega)
    _ ≤ digitsValue 10 ds := by omega

theorem parseHostport_right_iff (noNul : (0 : UInt8) ∉ t) (colon : charAt t (hostEnd t) = 58)
    (usual : 1 ≤ defaultPort ∧ defaultPort ≤ 65535) :
    (∀ found, parseHostport res t defaultPort = some found → ∃ address, found.ipAddress = some address ∧
      PortValue t address.port) ↔ PortReadable res t defaultPort := by
  by_cases accepted : hostAccepted res (t.take 255) = true
  · rw [parseHostport_forall noNul accepted, PortReadable, or_iff_right (by rw [accepted]; decide)]
    rcases Nat.lt_or_ge (hostEnd t) 255 with inside | outside
    · rw [or_iff_left (fun cut => Nat.not_le_of_lt inside cut.1), and_iff_right inside]
      have read : portRead (t.take 255) defaultPort =
          if shortPort ((t.take 255).drop (hostEnd t + 1)) = 0 then none
          else some (shortPort ((t.take 255).drop (hostEnd t + 1))) := by
        rw [portRead, hostEnd_copy inside, charAt_take t inside, if_pos colon]
      rw [read]
      by_cases zero : shortPort ((t.take 255).drop (hostEnd t + 1)) = 0
      · rw [if_pos zero]
        exact iff_of_true (fun port none => by cases none) (.inl zero)
      · rw [if_neg zero, or_iff_right zero]
        have copied := explicitPort_copy t
        constructor
        · intro right
          obtain ⟨digits, value, positive, small⟩ := right _ rfl
          refine ⟨digits, ?_, value ▸ small⟩
          by_contra cut
          have room : 255 - (hostEnd t + 1) < (explicitPort t).length := by omega
          rcases Nat.eq_zero_or_pos (255 - (hostEnd t + 1)) with full | more
          · rw [List.drop_of_length_le (by rw [List.length_take]; omega)] at zero
            exact zero (by decide)
          · have some_digits : ((t.take 255).drop (hostEnd t + 1)).takeWhile isDigit ≠ [] := by
              rw [copied]
              intro none
              have length := congrArg List.length none
              rw [List.length_take, List.length_nil] at length
              omega
            by_cases nothing : digitsValue 10 ((explicitPort t).take (255 - (hostEnd t + 1))) = 0
            · have read := shortPort_digits some_digits (by rw [copied, nothing]; decide)
              rw [copied, nothing] at read
              exact zero read
            · have less := digitsValue_take room nothing
              have read := shortPort_digits some_digits (by rw [copied]; omega)
              rw [copied] at read
              omega
        · rintro ⟨digits, whole, small⟩ port found
          obtain rfl := Option.some.inj found
          have all : (explicitPort t).take (255 - (hostEnd t + 1)) = explicitPort t :=
            List.take_of_length_le (by omega)
          rw [all] at copied
          have value := @shortPort_digits ((t.take 255).drop (hostEnd t + 1)) (by rw [copied]; exact digits)
            (by rw [copied]; exact small)
          rw [copied] at value
          exact ⟨digits, value, Nat.one_le_iff_ne_zero.mpr zero, value ▸ small⟩
    · have none : charAt (t.take 255) (hostEnd (t.take 255)) ≠ 58 := by
        rw [hostEnd_cut outside (by decide)]
        decide
      rw [or_iff_right (fun known => Nat.not_lt_of_le outside known.1), and_iff_right outside, portRead, if_neg none]
      constructor
      · intro right
        obtain ⟨digits, value, -⟩ := right _ rfl
        exact ⟨digits, value.symm⟩
      · rintro ⟨digits, value⟩ port found
        obtain rfl := Option.some.inj found
        exact ⟨digits, value.symm, usual⟩
  · have result := parseHostport_port res t defaultPort
    have copy : cstr t = t := cstr_eq_self noNul
    rw [copy, if_neg accepted] at result
    refine iff_of_true (fun found parsed => ?_) (.inl (Bool.eq_false_iff.mpr accepted))
    rw [parsed] at result
    cases result

end Right

/-! ### The port of a URL -/

/-- The text behind the two slashes of a URL. -/
def hostText (url : List UInt8) : List UInt8 := url.drop (afterScheme url url.length + 2)

def schemePort (url : List UInt8) : Nat :=
  if tokenStringCasecmp (url.take (parseScheme url url.length)) (bytes "https") = 0 then 443 else 80

theorem parseUri_hostport (res : Resolver) {url : List UInt8} (authority : HasAuthority url url.length) :
    (parseUri res url url.length).map (fun uri => uri.hostport.ipAddress) =
      (parseHostport res (hostText url) (schemePort url)).map HostportType.ipAddress := by
  have hosts := congrArg (Option.map HostportType.ipAddress) (parseUri_host res authority)
  rw [Option.map_map, Option.map_map] at hosts
  exact hosts

/-- The port that a URL names is the one that its address gets, exactly where it can be read. -/
theorem parseUri_port_iff (res : Resolver) {url : List UInt8} (noNul : (0 : UInt8) ∉ url)
    (authority : HasAuthority url url.length) (colon : charAt (hostText url) (hostEnd (hostText url)) = 58) :
    (∀ uri, parseUri res url url.length = some uri → ∃ address, uri.hostport.ipAddress = some address ∧
      PortValue (hostText url) address.port) ↔ PortReadable res (hostText url) (schemePort url) := by
  have usual : 1 ≤ schemePort url ∧ schemePort url ≤ 65535 := by
    unfold schemePort
    split_ifs <;> decide
  have text : (0 : UInt8) ∉ hostText url := fun member => noNul (List.mem_of_mem_drop member)
  have same := parseUri_hostport res authority
  rw [← parseHostport_right_iff text colon usual]
  constructor
  · intro right found parsed
    rw [parsed, Option.map_some] at same
    obtain ⟨uri, known, stored⟩ := Option.map_eq_some_iff.mp same
    rw [← stored]
    exact right uri known
  · intro right uri parsed
    rw [parsed, Option.map_some] at same
    obtain ⟨found, known, stored⟩ := Option.map_eq_some_iff.mp same.symm
    rw [← stored]
    exact right found known

theorem parseUri_port_usual : (∀ uri, parseUri numericHosts (bytes "http://10.0.0.1:8080/") 21 = some uri →
    ∃ address, uri.hostport.ipAddress = some address ∧ PortValue (hostText (bytes "http://10.0.0.1:8080/")) address.port) ↔
      PortReadable numericHosts (hostText (bytes "http://10.0.0.1:8080/")) (schemePort (bytes "http://10.0.0.1:8080/")) :=
  parseUri_port_iff numericHosts (by decide) (by decide +kernel) (by decide +kernel)

/-- 65616 is 80 to an `unsigned short`. -/
theorem parseUri_port_wraps : ¬ ∀ (res : Resolver) (url : List UInt8), (0 : UInt8) ∉ url → HasAuthority url url.length →
    charAt (hostText url) (hostEnd (hostText url)) = 58 → ∀ uri, parseUri res url url.length = some uri →
    ∃ address, uri.hostport.ipAddress = some address ∧ PortValue (hostText url) address.port := by
  intro claim
  have parsed : (parseUri numericHosts (bytes "http://10.0.0.1:65616/") 22).map
      (fun uri => uri.hostport.ipAddress.map SockAddr.port) = some (some 80) := by decide +kernel
  obtain ⟨uri, known, stored⟩ := Option.map_eq_some_iff.mp parsed
  obtain ⟨address, has, -, value, -⟩ := claim numericHosts (bytes "http://10.0.0.1:65616/") (by decide)
    (by decide +kernel) (by decide +kernel) uri known
  rw [has] at stored
  rw [show address.port = 80 from Option.some.inj stored] at value
  exact absurd value (by decide +kernel)

end Pupnp.Uri
