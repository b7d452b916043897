import Pupnp.Gena.SubscribeMessage
import Pupnp.Uri.Tokens

/-! The URLs of a subscription: what a parsed URL consists of, and the one in a CALLBACK header. -/

namespace Pupnp.Gena.Subscribe
open Pupnp.CString Pupnp.Uri Pupnp.Http Pupnp.Ssdp

/-- `inet_pton` reads an IPv6 address from hexadecimal digits, colons and dots only. -/
def Numeric (res : Resolver) : Prop :=
  ∀ text addr, res.inetPton .inet6 text = some addr → ∀ c ∈ text, isAddr6Char c = true

theorem addr6Char_graphic {c : UInt8} : isAddr6Char c = true → isTextChar c = true ∧ c ≠ SP := by
  simp only [isAddr6Char, isXdigit, isDigit, isTextChar, SP, Bool.or_eq_true, Bool.and_eq_true, decide_eq_true_eq,
    UInt8.le_iff_toNat_le, ne_eq, ← UInt8.toNat_inj, UInt8.reduceToNat]
  omega

theorem addr6Char_noBracket {c : UInt8} : isAddr6Char c = true → decide (c ≠ 93) = true := by
  simp only [isAddr6Char, isXdigit, isDigit, Bool.or_eq_true, Bool.and_eq_true, decide_eq_true_eq,
    UInt8.le_iff_toNat_le, ne_eq, ← UInt8.toNat_inj, UInt8.reduceToNat]
  omega

theorem hostChar_graphic {c : UInt8} : isHostChar c = true → isTextChar c = true ∧ c ≠ SP := by
  simp only [isHostChar, isAlnum, isAlpha, isUpper, isLower, isDigit, isTextChar, SP, Bool.or_eq_true,
    Bool.and_eq_true, decide_eq_true_eq, UInt8.le_iff_toNat_le, ne_eq, ← UInt8.toNat_inj, UInt8.reduceToNat]
  omega

theorem uric_graphic {c : UInt8} (noNul : c ≠ 0) :
    (isUnreserved c || isReserved c) = true → isTextChar c = true ∧ c ≠ SP := by
  revert noNul
  revert c
  apply forall_byte
  decide +kernel

/-! ### The characters of a URL -/

theorem parseUric_graphic {s : List UInt8} (noNul : (0 : UInt8) ∉ s) (max : Nat) : Graphic (s.take (parseUric s max)) := by
  intro c member
  obtain ⟨j, inside, here⟩ := charAt_mem member
  rw [List.length_take] at inside
  rw [charAt_take s (by omega)] at here
  have nonNul : c ≠ 0 := fun nul => noNul (nul ▸ List.mem_of_mem_take member)
  have accepted := @uricEnd_accepts s max 0 j (Nat.zero_le j) (by unfold parseUric at inside; omega)
  rw [here, Bool.or_eq_true, Bool.and_eq_true] at accepted
  rcases accepted with uric | ⟨-, escaped⟩
  · exact uric_graphic nonNul uric
  · rw [isEscaped, here, Bool.and_eq_true, Bool.and_eq_true, decide_eq_true_eq] at escaped
    rw [escaped.1.1]
    decide

theorem graphic_port {text : List UInt8} (port : PortText text) : Graphic text := by
  rcases port with rfl | ⟨digits, rfl, only⟩
  · exact fun c member => absurd member List.not_mem_nil
  · intro c member
    rcases List.mem_cons.mp member with rfl | digit
    · decide
    · exact digit_graphic (only c digit)

theorem parseHostport_graphic {res : Resolver} (numeric : Numeric res) {s : List UInt8} {defaultPort : Nat}
    {found : HostportType} (parsed : parseHostport res s defaultPort = some found) :
    found.text.buff = some 0 ∧ Graphic (s.take found.text.size) ∧ found.text.size ≤ s.length := by
  obtain ⟨first, size, name, port, split, host, digits⟩ := parseHostport_text parsed
  refine ⟨first, ?_, size⟩
  rw [split]
  refine Graphic.append ?_ (graphic_port digits)
  rcases host with plain | ⟨srvname, rfl, address⟩
  · exact fun c member => hostChar_graphic (plain c member)
  · obtain ⟨addr, known⟩ := Option.isSome_iff_exists.mp address
    refine (Graphic.append ?_ fun c member => addr6Char_graphic (numeric srvname addr known c member)).append ?_
    · intro c member
      rw [List.mem_singleton.mp member]
      decide
    · intro c member
      rw [List.mem_singleton.mp member]
      decide

theorem parseUri_parts {res : Resolver} {s : List UInt8} {max : Nat} {uri : UriType}
    (parsed : parseUri res s max = some uri) (host : uri.hostport.text.size ≠ 0) :
    ∃ start defaultPort found, start ≤ max ∧ parseHostport res (s.drop start) defaultPort = some found ∧
      uri.hostport = { found with text := found.text.shift start } ∧
      uri.pathquery = ⟨some (start + found.text.size),
        parseUric (s.drop (start + found.text.size)) (subSize max (start + found.text.size))⟩ := by
  obtain ⟨beginPath, parts⟩ := parseUri_split parsed
  rcases parts.hostport with ⟨-, none, -⟩ | ⟨authority, defaultPort, found, hosted, hostport, rfl⟩
  · rw [none] at host
    exact absurd rfl host
  · exact ⟨_, defaultPort, found, authority.1, hosted, hostport, parts.pathquery⟩

theorem httpFixStrUrl_graphic {res : Resolver} (numeric : Numeric res) {url : List UInt8} (noNul : (0 : UInt8) ∉ url)
    {dest : FixedUrl} (fixed : httpFixStrUrl res url = some dest) :
    Graphic dest.pathquery ∧ dest.pathquery ≠ [] ∧ Graphic dest.hostport := by
  unfold httpFixStrUrl at fixed
  obtain ⟨uri, parsed, fixed⟩ := Option.bind_eq_some_iff.mp fixed
  split at fixed
  · cases fixed
  · split at fixed
    · cases fixed
    · next host =>
        obtain rfl := Option.some.inj fixed
        obtain ⟨start, defaultPort, found, inside, hosted, hostport, pathquery⟩ := parseUri_parts parsed host
        obtain ⟨first, graphic, size⟩ := parseHostport_graphic numeric hosted
        rw [List.length_drop] at size
        refine ⟨?_, ?_, ?_⟩
        · dsimp only
          split
          · unfold Graphic
            decide
          · rw [pathquery, UriToken.read]
            exact parseUric_graphic (fun member => noNul (List.mem_of_mem_drop member)) _
        · dsimp only
          split
          · decide
          · next some_path =>
              rw [pathquery] at some_path ⊢
              have before : start + found.text.size < url.length := by
                by_contra outside
                have ended : start + found.text.size = url.length := by omega
                have nothing : subSize url.length (start + found.text.size) = 0 := by
                  rw [ended, subSize]
                  omega
                rw [nothing, parseUric_zero] at some_path
                exact absurd rfl some_path
              rw [UriToken.read]
              intro none
              have length := congrArg List.length none
              simp only [Option.getD_some, List.length_take, List.length_drop, List.length_nil] at length
              dsimp only at some_path
              omega
        · dsimp only
          rw [hostport, UriToken.read]
          simp only [UriToken.shift, first, Option.map_some, Option.getD_some, Nat.zero_add]
          exact graphic

/-! ### The URL of a CALLBACK header -/

/-- The address of a host by itself, as `parse_hostport` finds it. -/
def hostAddress (res : Resolver) (host : List UInt8) : Option SockAddr :=
  if charAt host 0 = 91 then (res.inetPton .inet6 (host.drop 1).dropLast).map (⟨.inet6, ·, 0, res.gIfIndex⟩)
  else if looksLikeIPv4 host then (res.inetPton .inet host).map (⟨.inet, ·, 0, 0⟩)
  else res.getaddrinfo host

inductive HostText : List UInt8 → Prop
  | plain {host : List UInt8} (chars : ∀ c ∈ host, isHostChar c = true) (fits : host.length ≤ 15) : HostText host
  | bracketed (addr : Addr6Text) : HostText (bytes "[" ++ addr.text ++ bytes "]")

theorem portDigits (port : UInt16) : (∀ c ∈ number port.toNat, isDigit c = true) ∧ number port.toNat ≠ [] ∧
    digitsValue 10 (number port.toNat) = port.toNat ∧ (number port.toNat).length ≤ 5 := by
  have small := port.toNat_lt
  have same : number port.toNat = decimalDigits port.toNat := by
    rw [number]
    congr 1
    omega
  rw [same]
  exact ⟨decimalDigits_isDigit _, decimalDigits_ne_nil _, digitsValue_decimalDigits _,
    @decimalDigits_length 4 _ (by omega)⟩

def portText (port : UInt16) : List UInt8 := 58 :: (number port.toNat ++ bytes "/>")

theorem parsePort_portText {workbuf host : List UInt8} {port : UInt16} (shape : workbuf = host ++ portText port)
    (defaultPort : Nat) :
    charAt workbuf host.length = 58 ∧
      parsePort workbuf (host.length + 1) true defaultPort =
        if port.toNat = 0 then none else some (host.length + 1 + (number port.toNat).length, port.toNat) := by
  obtain ⟨digits, nonempty, value, -⟩ := portDigits port
  have small := port.toNat_lt
  have colon : charAt workbuf host.length = 58 := by
    rw [shape, charAt, List.getD_eq_getElem?_getD, List.getElem?_append_right (Nat.le_refl _), Nat.sub_self]
    rfl
  have behind : workbuf.drop (host.length + 1) = number port.toNat ++ bytes "/>" := by
    rw [shape, portText, ← List.singleton_append, ← List.append_assoc]
    exact List.drop_left' (by simp)
  have number_value := @strtol_digits_append _ (bytes "/>") nonempty digits (by rintro _ ⟨⟩; decide)
    (by rw [value]; omega)
  rw [value] at number_value
  have read : (atoi (workbuf.drop (host.length + 1)) % 2 ^ 16).toNat = port.toNat := by
    rw [atoi, behind, number_value]
    omega
  have run : (workbuf.drop (host.length + 1)).takeWhile isDigit = number port.toNat := by
    have slash : isDigit 47 = false := by decide
    have tail : bytes "/>" = 47 :: [62] := by decide
    rw [behind, List.takeWhile_append_of_pos digits, tail, List.takeWhile_cons_of_neg (by rw [slash]; simp),
      List.append_nil]
  refine ⟨colon, ?_⟩
  rw [parsePort, if_pos rfl]
  dsimp only
  rw [read, run]

theorem parseHostport_portText (res : Resolver) {host : List UInt8} (text : HostText host) (port : UInt16)
    (defaultPort : Nat) :
    parseHostport res (host ++ portText port) defaultPort =
      if port.toNat = 0 then none
      else (hostAddress res host).map fun address =>
        ⟨⟨some 0, host.length + 1 + (number port.toNat).length⟩, some { address with port := port.toNat }⟩ := by
  have digits := portDigits port
  have tail_noNul : (0 : UInt8) ∉ portText port := by
    intro member
    rcases List.mem_cons.mp member with colon | member
    · exact absurd colon (by decide)
    · rcases List.mem_append.mp member with digit | path
      · exact absurd (digits.1 0 digit) (by decide)
      · exact absurd path (by decide)
  have copy (noNul : (0 : UInt8) ∉ host) (fits : host.length ≤ 47) :
      (cstr (host ++ portText port)).take 255 = host ++ portText port := by
    have whole : cstr (host ++ portText port) = host ++ portText port := by
      rw [cstr, List.takeWhile_eq_self_iff]
      intro c member
      have nonNul : c ≠ 0 := fun nul => (List.mem_append.mp (nul ▸ member)).elim noNul tail_noNul
      simpa using nonNul
    have two : (bytes "/>").length = 2 := by decide
    rw [whole]
    refine List.take_of_length_le ?_
    simp only [portText, List.length_append, List.length_cons, two]
    omega
  cases text with
  | plain chars fits =>
    have noNul : (0 : UInt8) ∉ host := fun member => absurd (chars 0 member) (by decide)
    have colon : isHostChar 58 = false := by decide
    have first : charAt (host ++ portText port) 0 ≠ 91 := by
      cases host with
      | nil =>
        change (58 : UInt8) ≠ 91
        decide
      | cons c host =>
        intro bracket
        have letter := chars c List.mem_cons_self
        rw [show c = 91 from bracket] at letter
        exact absurd letter (by decide)
    have own : charAt host 0 ≠ 91 := by
      cases host with
      | nil => decide
      | cons c host => exact first
    have name : (host ++ portText port).takeWhile isHostChar = host := by
      rw [List.takeWhile_append_of_pos chars, portText, List.takeWhile_cons_of_neg (by rw [colon]; simp),
        List.append_nil]
    obtain ⟨stop, ported⟩ := @parsePort_portText _ host port rfl defaultPort
    unfold parseHostport
    simp only [copy noNul (by omega), first, if_false, name, stop, decide_true, if_true, ported, hostAddress, own]
    by_cases ip : looksLikeIPv4 host = true
    · simp only [ip, if_true]
      by_cases zero : port.toNat = 0
      · simp [zero]
      · cases res.inetPton .inet host <;> simp [zero]
    · simp only [ip]
      by_cases zero : port.toNat = 0
      · cases res.getaddrinfo host <;> simp [zero]
      · cases res.getaddrinfo host <;> simp [zero]
  | bracketed addr =>
    set host := bytes "[" ++ addr.text ++ bytes "]" with host_eq
    have shape : host = 91 :: (addr.text ++ [93]) := by
      rw [host_eq]
      simp [bytes]
    have noNul : (0 : UInt8) ∉ host := by
      rw [shape]
      intro member
      rcases List.mem_cons.mp member with bracket | member
      · exact absurd bracket (by decide)
      · rcases List.mem_append.mp member with inside | bracket
        · exact absurd (addr.chars 0 inside) (by decide)
        · exact absurd bracket (by decide)
    have length : host.length = addr.text.length + 2 := by
      rw [shape]
      simp
    have first : charAt (host ++ portText port) 0 = 91 := by rw [shape]; rfl
    have own : charAt host 0 = 91 := by rw [shape]; rfl
    have inner : (host.drop 1).dropLast = addr.text := by
      rw [shape]
      simp
    have name : ((host ++ portText port).drop 1).takeWhile (· ≠ 93) = addr.text := by
      have plain : ∀ c ∈ addr.text, decide (c ≠ 93) = true := by
        intro c member
        exact addr6Char_noBracket (addr.chars c member)
      rw [shape, List.cons_append, List.drop_succ_cons, List.drop_zero, List.append_assoc,
        List.takeWhile_append_of_pos plain, List.singleton_append, List.takeWhile_cons_of_neg (by simp),
        List.append_nil]
    obtain ⟨stop, ported⟩ := @parsePort_portText _ host port rfl defaultPort
    have closed : ¬(host ++ portText port).length ≤ 1 + addr.text.length := by
      rw [List.length_append, length]
      omega
    have behind : 2 + addr.text.length = host.length := by omega
    have fits := addr.fits
    unfold parseHostport
    simp only [copy noNul (by omega), first, if_true, name, closed, if_false, behind, stop, decide_true, ported,
      hostAddress, own, inner]
    by_cases zero : port.toNat = 0
    · simp [zero]
    · cases res.inetPton .inet6 addr.text <;> simp [zero]

theorem parseScheme_http {t : List UInt8} {max : Nat} (long : 6 < max) :
    parseScheme (bytes "http://" ++ t) max = 4 := by
  have text : bytes "http://" ++ t = 104 :: 116 :: 116 :: 112 :: 58 :: 47 :: 47 :: t := rfl
  have letters : isAlpha 104 = true ∧ isSchemeChar 116 = true ∧ isSchemeChar 112 = true := by decide
  rw [text, parseScheme]
  simp only [charAt, List.getD_cons_zero, letters.1, Bool.not_true, Bool.or_false, decide_eq_true_eq]
  rw [if_neg (by omega), schemeEnd, dif_pos (by omega)]
  simp only [charAt, List.getD_cons_succ, List.getD_cons_zero, letters.2.1, if_true]
  rw [if_neg (by decide), schemeEnd, dif_pos (by omega)]
  simp only [charAt, List.getD_cons_succ, List.getD_cons_zero, letters.2.1, if_true]
  rw [if_neg (by decide), schemeEnd, dif_pos (by omega)]
  simp only [charAt, List.getD_cons_succ, List.getD_cons_zero, letters.2.2, if_true]
  rw [if_neg (by decide), schemeEnd, dif_pos (by omega)]
  simp only [charAt, List.getD_cons_succ, List.getD_cons_zero, if_true]

theorem parseUri_http (res : Resolver) {t : List UInt8} {max : Nat} (long : 6 < max) :
    (parseUri res (bytes "http://" ++ t) max).map (fun uri => (uri.hostport, uri.pathquery)) =
      (parseHostport res t 80).map fun found => ({ found with text := found.text.shift 7 },
        ⟨some (7 + found.text.size), parseUric (t.drop found.text.size) (subSize max (7 + found.text.size))⟩) := by
  have scheme := @parseScheme_http t max long
  have name : (UriToken.mk (some 0) 4).read (bytes "http://" ++ t) = bytes "http" := rfl
  have other : tokenStringCasecmp (bytes "http") (bytes "https") ≠ 0 := by decide
  have slashes : charAt (bytes "http://" ++ t) 5 = 47 ∧ charAt (bytes "http://" ++ t) 6 = 47 := ⟨rfl, rfl⟩
  have behind (n : Nat) : (bytes "http://" ++ t).drop (7 + n) = t.drop n := by
    have seven : (bytes "http://").length = 7 := by decide
    rw [← seven, List.drop_length_add_append]
  have host := behind 0
  rw [List.drop_zero, Nat.add_zero] at host
  have four : ¬(4 : Nat) = 0 := by decide
  unfold parseUri
  simp only [scheme, four, if_false, name, other, Nat.reduceAdd, slashes, decide_true, Bool.and_true, host,
    decide_eq_true long, if_true]
  cases parseHostport res t 80 with
  | none => rfl
  | some found =>
    have size : (found.text.shift 7).size = found.text.size := rfl
    simp [behind, size]

theorem parseUric_slash {max : Nat} (long : 1 < max) : parseUric (bytes "/>") max = 1 := by
  have slash : (isUnreserved 47 || isReserved 47) = true := by decide
  have bracket : (isUnreserved 62 || isReserved 62) = false := by decide
  have text : charAt (bytes "/>") 0 = 47 ∧ charAt (bytes "/>") 1 = 62 := by decide
  have percent : isEscaped (bytes "/>") 1 = false := by decide
  rw [parseUric, uricEnd, dif_pos (by omega), text.1, slash, Bool.true_or, if_pos rfl, uricEnd, dif_pos long, text.2, bracket,
    percent]
  simp

/-- Recorded are the host and the port of this one URL, with the path "/". -/
structure SingleUrl (res : Resolver) (list : UrlList) (host : List UInt8) (port : UInt16) : Prop where
  size : list.size = 1
  urls : list.urls = callbackValue host port
  parsed : ∃ url address, list.parsedURLs = [url] ∧ hostAddress res host = some address ∧
    url.hostport.ipAddress = some { address with port := port.toNat } ∧
    url.hostport.text.read (list.urls.drop 1) = host ++ 58 :: number port.toNat ∧
    url.pathquery.read (list.urls.drop 1) = bytes "/"

theorem createUrlList_first {res : Resolver} {buff rest : List UInt8} (shape : buff = 60 :: rest)
    (others : (60 : UInt8) ∉ rest) :
    createUrlList res buff =
      ⟨(urlAt res buff 0).toList.length, if (urlAt res buff 0).toList = [] then [] else buff, (urlAt res buff 0).toList⟩ := by
  have later : ∀ i, urlAt res buff (i + 1) = none := by
    intro i
    have noBracket : charAt buff (i + 1) ≠ 60 := by
      rw [shape, charAt, List.getD_cons_succ, List.getD_eq_getElem?_getD]
      by_cases inside : i < rest.length
      · rw [List.getElem?_eq_getElem inside, Option.getD_some]
        exact fun same => others (same ▸ List.getElem_mem inside)
      · rw [List.getElem?_eq_none (by omega)]
        decide
    simp [urlAt, noBracket]
  have found : (List.range buff.length).filterMap (urlAt res buff) = (urlAt res buff 0).toList := by
    have length : buff.length = rest.length + 1 := by rw [shape, List.length_cons]
    have none : ((List.range rest.length).map Nat.succ).filterMap (urlAt res buff) = [] := by
      rw [List.filterMap_map, List.filterMap_eq_nil_iff]
      exact fun i _ => later i
    rw [length, List.range_succ_eq_map, List.filterMap_cons, none]
    cases urlAt res buff 0 <;> rfl
  rw [createUrlList, found]

/-- What a device records from the CALLBACK header of a control point, if it records anything. -/
theorem createUrlList_callback {res : Resolver} {host : List UInt8} (text : HostText host) {port : UInt16}
    (some_url : (createUrlList res (callbackValue host port)).size ≠ 0) :
    SingleUrl res (createUrlList res (callbackValue host port)) host port := by
  have digits := portDigits port
  set t := host ++ portText port with t_eq
  have shape : callbackValue host port = 60 :: (bytes "http://" ++ t) := by
    rw [callbackValue, t_eq, portText]
    simp [bytes]
  have others : (60 : UInt8) ∉ bytes "http://" ++ t := by
    have own : (60 : UInt8) ∉ host := by
      cases text with
      | plain chars _ => exact fun member => absurd (chars 60 member) (by decide)
      | bracketed addr =>
        intro member
        simp only [List.mem_append] at member
        rcases member with (bracket | inside) | bracket
        · exact absurd bracket (by decide)
        · exact absurd (addr.chars 60 inside) (by decide)
        · exact absurd bracket (by decide)
    rw [t_eq, portText]
    simp only [List.mem_append, List.mem_cons]
    rintro (letters | inside | colon | digit | path)
    · exact absurd letters (by decide)
    · exact own inside
    · exact absurd colon (by decide)
    · exact absurd (digits.1 60 digit) (by decide)
    · exact absurd path (by decide)
  have single := @createUrlList_first res _ _ shape others
  rw [single] at some_url ⊢
  cases found : urlAt res (callbackValue host port) 0 with
  | none =>
    rw [found] at some_url
    exact absurd rfl some_url
  | some url =>
    have length : t.length + 8 = (callbackValue host port).length := by
      have seven : (bytes "http://").length = 7 := by decide
      rw [shape, List.length_cons, @List.length_append _ (bytes "http://") t, seven]
      omega
    have behind : (callbackValue host port).drop 1 = bytes "http://" ++ t := by rw [shape]; rfl
    rw [urlAt] at found
    split at found
    · rw [Option.filter_eq_some_iff, Nat.zero_add, behind, Nat.sub_zero] at found
      have parsed := @parseUri_http res t ((callbackValue host port).length + 1) (by omega)
      rw [found.1, Option.map_some, t_eq, parseHostport_portText res text port] at parsed
      split at parsed
      · cases parsed
      · obtain ⟨found_host, hosted, same⟩ := Option.map_eq_some_iff.mp parsed.symm
        obtain ⟨address, resolved, rfl⟩ := Option.map_eq_some_iff.mp hosted
        obtain ⟨hostport, pathquery⟩ := Prod.mk.inj same
        set authority := host ++ 58 :: number port.toNat with authority_eq
        have size : host.length + 1 + (number port.toNat).length = authority.length := by
          rw [authority_eq, List.length_append, List.length_cons]
          omega
        have split : t = authority ++ bytes "/>" := by
          rw [t_eq, portText, authority_eq, List.append_assoc, List.cons_append]
        have two : (bytes "/>").length = 2 := by decide
        have total : t.length = authority.length + 2 := by rw [split, List.length_append, two]
        have left : subSize ((callbackValue host port).length + 1) (7 + authority.length) = 4 := by
          rw [subSize]
          omega
        have seven : (bytes "http://").length = 7 := by decide
        refine ⟨rfl, rfl, url, address, rfl, resolved, ?_, ?_, ?_⟩
        · rw [← hostport]
        · simp only [Option.toList_some, reduceCtorEq, if_false, behind]
          rw [← hostport]
          simp only [UriToken.read, UriToken.shift, Option.map_some, Option.getD_some, Nat.zero_add, size]
          rw [← seven, List.drop_left, split, List.take_left]
        · simp only [Option.toList_some, reduceCtorEq, if_false, behind]
          rw [← pathquery]
          simp only [size]
          rw [← t_eq, split, List.drop_left, left, parseUric_slash (by decide), UriToken.read, Option.getD_some,
            ← List.append_assoc]
          have front : (bytes "http://" ++ authority).length = 7 + authority.length := by
            rw [List.length_append, seven]
          rw [← front, List.drop_left]
          rfl
    · cases found

def someUuid : UuidUpnp := ⟨1, 2, 3, 4, 5, #v[6, 7, 8, 9, 10, 11]⟩

end Pupnp.Gena.Subscribe
