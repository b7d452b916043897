import Pupnp.Gena.SubscribeUrl
import Pupnp.Library.Bits

/-!
The check that the delivery URLs of a subscription are on the network of the device. An IPv6 address is
compared in whole bytes only, and the address of a URL is read as one of the requester's family whatever
its own family is.
-/

namespace Pupnp.Gena.DeliveryUrls
open Pupnp.CString Pupnp.Uri Pupnp.Bits Pupnp.Gena.Subscribe

inductive NetBits where
  | mask (set : List UInt8)
  | first (length : Nat)
  deriving DecidableEq, Repr

def NetBits.Has : NetBits → Nat → Prop
  | .mask set, i => bitAt set i = true
  | .first length, i => i < length

instance : ∀ (bits : NetBits) i, Decidable (bits.Has i)
  | .mask set, i => inferInstanceAs (Decidable (bitAt set i = true))
  | .first length, i => inferInstanceAs (Decidable (i < length))

def NetBits.wholeBytes : NetBits → NetBits
  | .mask set => .mask set
  | .first length => .first (8 * (length / 8))

structure Network where
  addr : List UInt8
  bits : NetBits
  deriving DecidableEq, Repr

/-- The network of the local interface for an address, by the family of the requester and the scope of
the address; `none` where an address of the interface cannot be read. -/
def localNetwork (server : Server) (addr : List UInt8) : Option Network :=
  let res := server.resolver
  let iface := server.iface
  match server.foreign with
  | .inet =>
      match res.inetPton .inet iface.gIF_IPV4, res.inetPton .inet iface.gIF_IPV4_NETMASK with
      | some genaAddr4, some genaNetmask => some ⟨genaAddr4, .mask genaNetmask⟩
      | _, _ => none
  | .inet6 =>
      match res.inetPton .inet6 iface.gIF_IPV6.text, res.inetPton .inet6 iface.gIF_IPV6_ULA_GUA.text with
      | some genaAddr6Lla, some genaAddr6UlaGua =>
          some (if in6IsAddrLinklocal addr then ⟨genaAddr6Lla, .first iface.gIF_IPV6_PREFIX_LENGTH⟩
            else ⟨genaAddr6UlaGua, .first iface.gIF_IPV6_ULA_GUA_PREFIX_LENGTH⟩)
      | _, _ => none

def AgreeOn (bits : Nat → Prop) (addr addr' : List UInt8) : Prop := ∀ i, bits i → bitAt addr i = bitAt addr' i

/-- The URL has an address of the requester's family, and that is on the network of the interface. -/
def InNetwork (server : Server) (url : UriType) : Prop :=
  ∃ a, url.hostport.ipAddress = some a ∧ a.family = server.foreign ∧
    ∃ net, localNetwork server a.addr = some net ∧ AgreeOn net.bits.Has a.addr net.addr

def addressRead (server : Server) (url : UriType) : List UInt8 :=
  match server.foreign with
  | .inet => sinAddr url
  | .inet6 => sin6Addr url

/-- What stands there agrees with the address of the interface in the whole bytes of the network. -/
def AgreesInBytes (server : Server) (url : UriType) : Prop :=
  ∃ net, localNetwork server (addressRead server url) = some net ∧
    AgreeOn net.bits.wholeBytes.Has (addressRead server url) net.addr

/-- The URL has an address of the requester's family, and that agrees with the address of the interface
in the bits behind the last whole byte. -/
def AgreesBehind (server : Server) (url : UriType) : Prop :=
  ∃ a, url.hostport.ipAddress = some a ∧ a.family = server.foreign ∧
    ∀ net, localNetwork server a.addr = some net →
      AgreeOn (fun i => net.bits.Has i ∧ ¬ net.bits.wholeBytes.Has i) a.addr net.addr

def width : AddrFamily → Nat
  | .inet => 4
  | .inet6 => 16

/-- The functions of the system give addresses of the right size. -/
structure Widths (res : Resolver) : Prop where
  inetPton : ∀ family text addr, res.inetPton family text = some addr → addr.length = width family
  getaddrinfo : ∀ name a, res.getaddrinfo name = some a → a.addr.length = width a.family

section
variable {res : Resolver} {server : Server}

theorem parseHostport_width (widths : Widths res) {s : List UInt8} {defaultPort : Nat} {found : HostportType}
    (parsed : parseHostport res s defaultPort = some found) :
    ∃ a, found.ipAddress = some a ∧ a.addr.length = width a.family := by
  unfold parseHostport at parsed
  dsimp only at parsed
  split at parsed
  next =>
    split at parsed
    next => cases parsed
    next =>
      simp only [Option.bind_eq_bind, Option.bind_eq_some_iff, Option.some.injEq] at parsed
      obtain ⟨_, -, addr, address, rfl⟩ := parsed
      exact ⟨_, rfl, widths.inetPton .inet6 _ addr address⟩
  next =>
    split at parsed
    next =>
      simp only [Option.bind_eq_bind, Option.bind_eq_some_iff, Option.some.injEq] at parsed
      obtain ⟨_, -, addr, address, rfl⟩ := parsed
      exact ⟨_, rfl, widths.inetPton .inet _ addr address⟩
    next =>
      simp only [Option.bind_eq_bind, Option.bind_eq_some_iff, Option.some.injEq] at parsed
      obtain ⟨a, address, _, -, rfl⟩ := parsed
      exact ⟨_, rfl, widths.getaddrinfo _ a address⟩

theorem createUrlList_width (widths : Widths res) {callback : List UInt8} {url : UriType}
    (member : url ∈ (createUrlList res callback).parsedURLs) :
    ∃ a, url.hostport.ipAddress = some a ∧ a.addr.length = width a.family := by
  obtain ⟨i, -, found⟩ := List.mem_filterMap.mp member
  unfold urlAt at found
  split at found
  next =>
    obtain ⟨parsed, host⟩ := Option.filter_eq_some_iff.mp found
    obtain ⟨start, defaultPort, hostport, -, hosted, same, -⟩ := parseUri_parts parsed (of_decide_eq_true host)
    have known := parseHostport_width widths hosted
    rw [same]
    exact known
  next => cases found

theorem addressRead_of_family {url : UriType} {a : SockAddr} (address : url.hostport.ipAddress = some a)
    (family : a.family = server.foreign) : addressRead server url = a.addr := by
  obtain ⟨own, addr, port, scopeId⟩ := a
  obtain rfl : own = server.foreign := family
  unfold addressRead sinAddr sin6Addr
  rw [address]
  cases server.foreign <;> rfl

theorem addressRead_width {url : UriType}
    (known : ∃ a, url.hostport.ipAddress = some a ∧ a.addr.length = width a.family) :
    (addressRead server url).length = width server.foreign := by
  obtain ⟨⟨family, addr, port, scopeId⟩, address, length⟩ := known
  unfold addressRead sinAddr sin6Addr
  rw [address]
  cases server.foreign <;> cases family <;> simp [width] at length ⊢ <;> exact length

theorem agreeOn_split (bits : NetBits) (addr addr' : List UInt8) :
    AgreeOn bits.Has addr addr' ↔
      AgreeOn bits.wholeBytes.Has addr addr' ∧
        AgreeOn (fun i => bits.Has i ∧ ¬ bits.wholeBytes.Has i) addr addr' := by
  have within (i : Nat) (has : bits.wholeBytes.Has i) : bits.Has i := by
    cases bits with
    | mask => exact has
    | first length =>
      unfold NetBits.wholeBytes NetBits.Has at *
      omega
  constructor
  · intro agree
    exact ⟨fun i has => agree i (within i has), fun i both => agree i both.1⟩
  · rintro ⟨whole, behind⟩ i has
    by_cases byte : bits.wholeBytes.Has i
    · exact whole i byte
    · exact behind i ⟨has, byte⟩

/-- A URL is on the network if it agrees with the interface in the bits that are compared and in the
others. -/
theorem inNetwork_iff (url : UriType) : InNetwork server url ↔ AgreesInBytes server url ∧ AgreesBehind server url := by
  constructor
  · rintro ⟨a, address, family, net, found, agree⟩
    obtain ⟨whole, behind⟩ := (agreeOn_split net.bits a.addr net.addr).mp agree
    constructor
    · refine ⟨net, ?_⟩
      rw [addressRead_of_family address family]
      exact ⟨found, whole⟩
    · refine ⟨a, address, family, ?_⟩
      intro other same
      obtain rfl := Option.some.inj (found.symm.trans same)
      exact behind
  · rintro ⟨⟨net, found, whole⟩, a, address, family, behind⟩
    rw [addressRead_of_family address family] at found whole
    exact ⟨a, address, family, net, found, (agreeOn_split net.bits a.addr net.addr).mpr ⟨whole, behind net found⟩⟩

theorem agreesInBytes_iff {url : UriType} {net : Network} (found : localNetwork server (addressRead server url) = some net) :
    AgreesInBytes server url ↔ AgreeOn net.bits.wholeBytes.Has (addressRead server url) net.addr := by
  constructor
  · rintro ⟨other, same, agree⟩
    obtain rfl := Option.some.inj (found.symm.trans same)
    exact agree
  · exact fun agree => ⟨net, found, agree⟩

theorem take_agrees {addr addr' : List UInt8} (same : addr.length = addr'.length) (prefixLength : Nat) :
    addr.take (prefixLength / 8) = addr'.take (prefixLength / 8) ↔
      AgreeOn (NetBits.first prefixLength).wholeBytes.Has addr addr' := take_eq_iff same _

theorem validate_iff (widths : Widths server.resolver) {list : UrlList} (nonempty : list.parsedURLs ≠ [])
    (known : ∀ url ∈ list.parsedURLs, ∃ a, url.hostport.ipAddress = some a ∧ a.addr.length = width a.family) :
    genaValidateDeliveryUrls server list = true ↔ ∀ url ∈ list.parsedURLs, AgreesInBytes server url := by
  obtain ⟨first, isFirst⟩ := List.exists_mem_of_ne_nil _ nonempty
  have size (url : UriType) (member : url ∈ list.parsedURLs) := @addressRead_width server url (known url member)
  have unread (none : ∀ addr, localNetwork server addr = none) :
      false = true ↔ ∀ url ∈ list.parsedURLs, AgreesInBytes server url := by
    constructor
    · nofun
    · intro all
      obtain ⟨net, found, -⟩ := all first isFirst
      rw [none] at found
      cases found
  unfold genaValidateDeliveryUrls
  cases family : server.foreign with
  | inet =>
    have read (url : UriType) : addressRead server url = sinAddr url := by rw [addressRead, family]
    dsimp only
    split
    next genaAddr4 genaNetmask interface netmask =>
      have net (addr : List UInt8) : localNetwork server addr = some ⟨genaAddr4, .mask genaNetmask⟩ := by
        simp only [localNetwork, family, interface, netmask]
      have length := widths.inetPton .inet _ _ interface
      have length' := widths.inetPton .inet _ _ netmask
      rw [List.all_eq_true]
      refine forall₂_congr fun url member => ?_
      have own := size url member
      rw [family, read] at own
      rw [agreesInBytes_iff (net _), read, decide_eq_true_eq]
      exact and_eq_iff (length'.trans own.symm) (length'.trans length.symm)
    next missing =>
      apply unread
      intro addr
      simp only [localNetwork, family]
  | inet6 =>
    have read (url : UriType) : addressRead server url = sin6Addr url := by rw [addressRead, family]
    dsimp only
    split
    next genaAddr6Lla genaAddr6UlaGua lla ulaGua =>
      have length := widths.inetPton .inet6 _ _ lla
      have length' := widths.inetPton .inet6 _ _ ulaGua
      rw [List.all_eq_true]
      refine forall₂_congr fun url member => ?_
      have own := size url member
      rw [family, read] at own
      by_cases scope : in6IsAddrLinklocal (sin6Addr url) = true
      · have net : localNetwork server (addressRead server url) =
            some ⟨genaAddr6Lla, .first server.iface.gIF_IPV6_PREFIX_LENGTH⟩ := by
          simp only [localNetwork, family, lla, ulaGua, read, scope, if_true]
        rw [if_pos scope, agreesInBytes_iff net, read, decide_eq_true_eq]
        exact take_agrees (own.trans length.symm) _
      · have net : localNetwork server (addressRead server url) =
            some ⟨genaAddr6UlaGua, .first server.iface.gIF_IPV6_ULA_GUA_PREFIX_LENGTH⟩ := by
          simp only [localNetwork, family, lla, ulaGua, read, scope, if_false, Bool.false_eq_true]
        rw [if_neg scope, agreesInBytes_iff net, read, decide_eq_true_eq]
        exact take_agrees (own.trans length'.symm) _
    next missing =>
      apply unread
      intro addr
      simp only [localNetwork, family]

end

/-- The URLs of an accepted request are all on the network of the device, just if one of them differs from
the address of the interface in the bytes that are compared (then the request is turned away), or each of
them has the requester's family and agrees with the interface in the remaining bits. -/
theorem accepted_inNetwork_iff (server : Server) (widths : Widths server.resolver) (callback : List UInt8) :
    (genaValidateDeliveryUrls server (createUrlList server.resolver callback) = true →
        ∀ url ∈ (createUrlList server.resolver callback).parsedURLs, InNetwork server url) ↔
      (∃ url ∈ (createUrlList server.resolver callback).parsedURLs, ¬ AgreesInBytes server url) ∨
        ∀ url ∈ (createUrlList server.resolver callback).parsedURLs, AgreesBehind server url := by
  have known (url : UriType) (member : url ∈ (createUrlList server.resolver callback).parsedURLs) :=
    createUrlList_width widths member
  generalize createUrlList server.resolver callback = list at known ⊢
  by_cases empty : list.parsedURLs = []
  · simp [empty]
  have accepted := validate_iff widths empty known
  constructor
  · intro sound
    by_cases differs : ∃ url ∈ list.parsedURLs, ¬ AgreesInBytes server url
    · exact .inl differs
    · refine .inr fun url member => ?_
      have all (other : UriType) (member : other ∈ list.parsedURLs) : AgreesInBytes server other := by
        by_contra not
        exact differs ⟨other, member, not⟩
      exact ((inNetwork_iff url).mp (sound (accepted.mpr all) url member)).2
  · rintro (⟨other, found, differs⟩ | behind) accept url member
    · exact absurd (accepted.mp accept other found) differs
    · exact (inNetwork_iff url).mpr ⟨accepted.mp accept url member, behind url member⟩

/-! ### Prefixes -/

def numericAddresses : List (AddrFamily × List UInt8 × List UInt8) :=
  [(.inet6, bytes "fe80::1", [0xfe, 0x80, 0, 0, 0, 0, 0, 0, 0, 0, 0, 0, 0, 0, 0, 1]),
    (.inet6, bytes "fd00:0:0:10::1", [0xfd, 0, 0, 0, 0, 0, 0, 0x10, 0, 0, 0, 0, 0, 0, 0, 1]),
    (.inet6, bytes "fd00:0:0:1f::9", [0xfd, 0, 0, 0, 0, 0, 0, 0x1f, 0, 0, 0, 0, 0, 0, 0, 9]),
    (.inet6, bytes "fd00:0:0:2f::9", [0xfd, 0, 0, 0, 0, 0, 0, 0x2f, 0, 0, 0, 0, 0, 0, 0, 9]),
    (.inet, bytes "10.0.0.2", [10, 0, 0, 2])]

def numericResolver : Resolver where
  getaddrinfo _ := none
  inetPton family text := (numericAddresses.find? fun (f, t, _) => f = family && t = text).map (·.2.2)
  gIfIndex := 2

theorem numericResolver_widths : Widths numericResolver where
  inetPton := by
    intro family text addr read
    obtain ⟨⟨own, name, addr⟩, found, rfl⟩ := Option.map_eq_some_iff.mp read
    have same := List.find?_some found
    rw [Bool.and_eq_true, decide_eq_true_eq] at same
    obtain ⟨rfl, -⟩ := same
    have sizes : ∀ entry ∈ numericAddresses, entry.2.2.length = width entry.1 := by decide
    exact sizes _ (List.mem_of_find?_eq_some found)
  getaddrinfo := nofun

/-- A device on a network fd00:0:0:10::/60, or one with another prefix, that is asked over IPv6. -/
def device6 (prefixLength : Nat) : Server where
  resolver := numericResolver
  iface := ⟨none, none, ⟨bytes "fe80::1", by decide, by decide⟩, 64, ⟨bytes "fd00:0:0:10::1", by decide, by decide⟩,
    prefixLength, 0, 49152, 49152⟩
  env := ⟨⟨4, 1, 0, 1970, 0, 16, 40⟩, bytes "Linux", bytes "6.1", none, fun _ => false⟩
  now := 1000
  uuid := someUuid
  foreign := .inet6
  sends := true

def delivered (callback : String) : List UriType := (createUrlList numericResolver (bytes callback)).parsedURLs

theorem localNetwork_device6 (prefixLength : Nat) {addr : List UInt8} (global : in6IsAddrLinklocal addr = false) :
    localNetwork (device6 prefixLength) addr =
      some ⟨[0xfd, 0, 0, 0, 0, 0, 0, 0x10, 0, 0, 0, 0, 0, 0, 0, 1], .first prefixLength⟩ := by
  have lla : numericResolver.inetPton .inet6 (bytes "fe80::1") =
      some [0xfe, 0x80, 0, 0, 0, 0, 0, 0, 0, 0, 0, 0, 0, 0, 0, 1] := by decide
  have ulaGua : numericResolver.inetPton .inet6 (bytes "fd00:0:0:10::1") =
      some [0xfd, 0, 0, 0, 0, 0, 0, 0x10, 0, 0, 0, 0, 0, 0, 0, 1] := by decide
  simp only [localNetwork, device6, lla, ulaGua, global, Bool.false_eq_true, if_false]

/-- fd00:0:0:1f::9 is on the network fd00:0:0:10::/60. -/
theorem accepted_inNetwork_60 : genaValidateDeliveryUrls (device6 60)
      (createUrlList numericResolver (bytes "<http://[fd00:0:0:1f::9]/>")) = true ∧
    (delivered "<http://[fd00:0:0:1f::9]/>").length = 1 ∧
    ∀ url ∈ delivered "<http://[fd00:0:0:1f::9]/>", InNetwork (device6 60) url := by
  have accept : genaValidateDeliveryUrls (device6 60)
      (createUrlList numericResolver (bytes "<http://[fd00:0:0:1f::9]/>")) = true := by with_unfolding_all decide
  refine ⟨accept, by with_unfolding_all decide, ?_⟩
  refine (accepted_inNetwork_iff (device6 60) numericResolver_widths (bytes "<http://[fd00:0:0:1f::9]/>")).mpr
    (.inr fun url member => ?_) accept
  have addresses : ∀ url ∈ delivered "<http://[fd00:0:0:1f::9]/>", url.hostport.ipAddress =
      some ⟨.inet6, [0xfd, 0, 0, 0, 0, 0, 0, 0x1f, 0, 0, 0, 0, 0, 0, 0, 9], 80, 2⟩ := by with_unfolding_all decide
  refine ⟨_, addresses url member, rfl, ?_⟩
  intro net found
  rw [localNetwork_device6 60 (by decide)] at found
  obtain rfl := Option.some.inj found
  rintro i ⟨inside, behind⟩
  have four : i = 56 ∨ i = 57 ∨ i = 58 ∨ i = 59 := by
    unfold NetBits.Has NetBits.wholeBytes at *
    omega
  obtain rfl | rfl | rfl | rfl := four <;> decide

/-- Accepted are fd00:0:0:2f::9 on the network fd00:0:0:10::/60, and 10.0.0.2 where fewer than eight bits
of an IPv6 address tell. -/
theorem outside_accepted :
    (genaValidateDeliveryUrls (device6 60) (createUrlList numericResolver (bytes "<http://[fd00:0:0:2f::9]/>")) = true ∧
      ∃ url ∈ delivered "<http://[fd00:0:0:2f::9]/>", ¬ InNetwork (device6 60) url) ∧
    (genaValidateDeliveryUrls (device6 7) (createUrlList numericResolver (bytes "<http://10.0.0.2/>")) = true ∧
      ∃ url ∈ delivered "<http://10.0.0.2/>", ∀ a, url.hostport.ipAddress = some a → a.family ≠ .inet6) := by
  refine ⟨⟨by with_unfolding_all decide, ?_⟩, by with_unfolding_all decide, ?_⟩
  · have six : (delivered "<http://[fd00:0:0:2f::9]/>").head?.map (·.hostport.ipAddress) =
        some (some ⟨.inet6, [0xfd, 0, 0, 0, 0, 0, 0, 0x2f, 0, 0, 0, 0, 0, 0, 0, 9], 80, 2⟩) := by with_unfolding_all decide
    obtain ⟨url, first, address⟩ := Option.map_eq_some_iff.mp six
    refine ⟨url, List.mem_of_head? first, ?_⟩
    rintro ⟨a, own, -, net, found, agree⟩
    obtain rfl := Option.some.inj (address.symm.trans own)
    rw [localNetwork_device6 60 (by decide)] at found
    obtain rfl := Option.some.inj found
    exact absurd (agree 59 (by decide)) (by decide)
  · have four : (delivered "<http://10.0.0.2/>").head?.map (·.hostport.ipAddress) =
        some (some ⟨.inet, [10, 0, 0, 2], 80, 0⟩) := by with_unfolding_all decide
    obtain ⟨url, first, address⟩ := Option.map_eq_some_iff.mp four
    refine ⟨url, List.mem_of_head? first, ?_⟩
    intro a own
    obtain rfl := Option.some.inj (address.symm.trans own)
    nofun

end Pupnp.Gena.DeliveryUrls
