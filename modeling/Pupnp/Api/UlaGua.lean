import Mathlib.Data.List.Basic
import Pupnp.Api.IfInfo

/-!
The ULA or GUA that `UpnpGetIfInfo` publishes. It publishes the last one that it has stored, and only together
with a link-local address; whether a GUA may be stored is asked of a text that the search does not write.
-/

namespace Pupnp.Api.IfInfo
open Pupnp.CString
open Pupnp.Gena.Subscribe (in6IsAddrLinklocal)

def SockAddress.isUla : SockAddress → Bool
  | .inet6 sin6Addr _ => sin6Addr.isUla
  | _ => false

def SockAddress.isUlaOrGua : SockAddress → Bool
  | .inet6 sin6Addr _ => sin6Addr.isUla || sin6Addr.isGlobal
  | _ => false

/-- The addresses of the interface with this name, in the order of the list. -/
def addressesOf (gIF_NAME : List UInt8) (list : List IfAddrs) : List SockAddress :=
  list.filterMap fun ifa => if ifa.isOf gIF_NAME then ifa.usable else none

def wanted (addresses : List SockAddress) : SockAddress → Bool
  | .inet6 sin6Addr _ => if addresses.any SockAddress.isUla then sin6Addr.isUla else sin6Addr.isGlobal
  | _ => false

def Globals.Publishes (g : Globals) : SockAddress → Prop
  | .inet6 sin6Addr netmask =>
      g.gIF_IPV6_ULA_GUA = some sin6Addr ∧ g.gIF_IPV6_ULA_GUA_PREFIX_LENGTH = upnpComputeIpv6PrefixLength netmask
  | _ => False

/-- Where the interface has a ULA or a GUA, the globals are those of one that is wanted. -/
def UlaGuaRight (addresses : List SockAddress) (g : Globals) : Prop :=
  addresses.any SockAddress.isUlaOrGua = true →
    ∃ address ∈ addresses, wanted addresses address = true ∧ g.Publishes address

/-! ### The interface that is kept -/

def candidate (stored : Bool) : SockAddress → Option (In6Addr × Nat)
  | .inet6 sin6Addr netmask =>
      if sin6Addr.isUla || (sin6Addr.isGlobal && !stored) then some (sin6Addr, upnpComputeIpv6PrefixLength netmask) else none
  | _ => none

def linkLocal (stored : Bool) : SockAddress → Option (In6Addr × Nat)
  | .inet6 sin6Addr netmask =>
      if sin6Addr.isUla || (sin6Addr.isGlobal && !stored) then none
      else if sin6Addr.isLinklocal then some (sin6Addr, upnpComputeIpv6PrefixLength netmask) else none
  | _ => none

def ipv4 : SockAddress → Option (List UInt8 × List UInt8)
  | .inet sinAddr sinNetmask => some (sinAddr, sinNetmask)
  | _ => none

def isValid (stored : Bool) (address : SockAddress) : Bool :=
  (ipv4 address).isSome || ((candidate stored address).isSome || (linkLocal stored address).isSome)

structure Kept where
  name : Option (List UInt8)
  addresses : List SockAddress

/-- A name that was not asked for is given up at an address of another family, while no address has done. -/
def Kept.add (named stored : Bool) (name : List UInt8) (addresses : List SockAddress) (address : SockAddress) : Kept :=
  if address = .other && (!named && !addresses.any (isValid stored)) then ⟨none, []⟩ else ⟨some name, addresses ++ [address]⟩

def Kept.next (named stored : Bool) (k : Kept) (ifa : IfAddrs) : Kept :=
  match ifa.usable, k.name with
  | none, _ => k
  | some address, none => Kept.add named stored (nameOf ifa.ifaName) [] address
  | some address, some name => if ifa.isOf name then Kept.add named stored name k.addresses address else k

def kept (ifName : Option (List UInt8)) (stored : Bool) (list : List IfAddrs) : Kept :=
  list.foldl (Kept.next ifName.isSome stored) ⟨ifName.map fun name => nameOf (cstr name), []⟩

/-- What is published: the last address stored, if there is a link-local address as well. -/
def published (stored : Bool) (addresses : List SockAddress) : Option SockAddress :=
  if addresses.any fun address => (linkLocal stored address).isSome then
    (addresses.filter fun address => (candidate stored address).isSome).getLast?
  else none

/-- What is published is a ULA, or the interface has none. Where nothing is published the interface has neither
a ULA nor a GUA, or the globals are right already. -/
def WellChosen (ifName : Option (List UInt8)) (list : List IfAddrs) (g : Globals) : Prop :=
  let k := kept ifName g.gIF_IPV6_ULA_GUA.isSome list
  let addresses := addressesOf (k.name.getD []) list
  match published g.gIF_IPV6_ULA_GUA.isSome k.addresses with
  | some address => addresses.any SockAddress.isUla = true → address.isUla = true
  | none => UlaGuaRight addresses g

/-! ### The search -/

def lastOf {α β : Type*} (f : α → Option β) (list : List α) : Option β := (list.filterMap f).getLast?

theorem lastOf_snoc {α β : Type*} (f : α → Option β) (list : List α) (a : α) :
    lastOf f (list ++ [a]) = (f a).or (lastOf f list) := by
  unfold lastOf
  rw [List.filterMap_append]
  cases here : f a with
  | none => simp [here]
  | some b => simp [here]

theorem lastOf_filter {α β : Type*} (f : α → Option β) (list : List α) :
    lastOf f list = ((list.filter fun a => (f a).isSome).getLast?).bind f := by
  induction list using List.reverseRecOn with
  | nil => rfl
  | append_singleton list a ih =>
    rw [lastOf_snoc, List.filter_append]
    cases here : f a with
    | none => simp [here, ih]
    | some b => simp [here]

theorem lastOf_isSome {α β : Type*} (f : α → Option β) (list : List α) :
    (lastOf f list).isSome = list.any fun a => (f a).isSome := by
  induction list using List.reverseRecOn with
  | nil => rfl
  | append_singleton list a ih =>
    rw [lastOf_snoc, List.any_append, ← ih]
    cases here : f a <;> simp [here]

structure Follows (stored : Bool) (s : Search) (k : Kept) : Prop where
  found : s.ifnameFound = k.name.isSome
  name : ∀ name ∈ k.name, s.gIF_NAME = name
  v4 : s.v4 = lastOf ipv4 k.addresses
  v6 : s.v6 = lastOf (linkLocal stored) k.addresses
  v6ulagua : s.v6ulagua = lastOf (candidate stored) k.addresses
  fresh : k.name = none → k.addresses = []

section Search
variable {named stored : Bool} {s : Search} {k : Kept}

theorem keepAddress_follows {name : List UInt8} {addresses : List SockAddress} (follows : Follows stored s ⟨some name, addresses⟩)
    (address : SockAddress) :
    Follows stored (keepAddress named stored s address) (Kept.add named stored name addresses address) := by
  obtain ⟨found, same, v4, v6, v6ulagua, -⟩ := follows
  have goesOn (s' : Search) (other : ¬(address = .other ∧ named = false ∧ addresses.any (isValid stored) = false))
      (found' : s'.ifnameFound = s.ifnameFound) (name' : s'.gIF_NAME = s.gIF_NAME)
      (v4' : s'.v4 = (ipv4 address).or s.v4) (v6' : s'.v6 = (linkLocal stored address).or s.v6)
      (v6ulagua' : s'.v6ulagua = (candidate stored address).or s.v6ulagua) :
      Follows stored s' (Kept.add named stored name addresses address) := by
    have stays : Kept.add named stored name addresses address = ⟨some name, addresses ++ [address]⟩ := by
      rw [Kept.add, if_neg]
      simpa using other
    rw [stays]
    refine ⟨found'.trans found, fun name inside => name'.trans (same name inside), ?_, ?_, ?_, fun none => absurd none (Option.some_ne_none _)⟩
    · rw [lastOf_snoc, v4', v4]
    · rw [lastOf_snoc, v6', v6]
    · rw [lastOf_snoc, v6ulagua', v6ulagua]
  cases address with
  | inet sinAddr sinNetmask => exact goesOn _ (by simp) rfl rfl rfl rfl rfl
  | inet6 sin6Addr netmask =>
    cases stores : sin6Addr.isUla || (sin6Addr.isGlobal && !stored) with
    | true =>
      have step : keepAddress named stored s (.inet6 sin6Addr netmask) =
          { s with v6ulagua := some (sin6Addr, upnpComputeIpv6PrefixLength netmask) } := by
        cases ula : sin6Addr.isUla with
        | true => simp [keepAddress, ula]
        | false =>
          rw [ula, Bool.false_or] at stores
          simp [keepAddress, ula, stores]
      rw [step]
      exact goesOn _ (by simp) rfl rfl rfl (by simp [linkLocal, stores]) (by simp [candidate, stores])
    | false =>
      obtain ⟨ula, global⟩ := Bool.or_eq_false_iff.mp stores
      cases lla : sin6Addr.isLinklocal with
      | true =>
        have step : keepAddress named stored s (.inet6 sin6Addr netmask) =
            { s with v6 := some (sin6Addr, upnpComputeIpv6PrefixLength netmask) } := by
          simp [keepAddress, ula, global, lla]
        rw [step]
        exact goesOn _ (by simp) rfl rfl rfl (by simp [linkLocal, stores, lla]) (by simp [candidate, stores])
      | false =>
        have step : keepAddress named stored s (.inet6 sin6Addr netmask) = s := by
          simp [keepAddress, ula, global, lla]
        rw [step]
        exact goesOn _ (by simp) rfl rfl rfl (by simp [linkLocal, stores, lla]) (by simp [candidate, stores])
  | other =>
    have none : (s.v4.isNone && (s.v6ulagua.isNone && s.v6.isNone)) = !addresses.any (isValid stored) := by
      have parts : addresses.any (isValid stored) = (s.v4.isSome || (s.v6ulagua.isSome || s.v6.isSome)) := by
        rw [v4, v6, v6ulagua, lastOf_isSome, lastOf_isSome, lastOf_isSome]
        rw [Bool.eq_iff_iff]
        simp only [List.any_eq_true, Bool.or_eq_true, isValid, and_or_left, exists_or]
      rw [parts]
      cases s.v4 <;> cases s.v6ulagua <;> cases s.v6 <;> rfl
    by_cases gone : (!named && !addresses.any (isValid stored)) = true
    · have empty := gone
      rw [Bool.and_eq_true, ← none] at empty
      simp only [Bool.and_eq_true, Option.isNone_iff_eq_none] at empty
      obtain ⟨-, noV4, noUlaGua, noV6⟩ := empty
      rw [Kept.add, keepAddress, none, if_pos gone, if_pos (by simp [gone])]
      exact ⟨rfl, fun _ inside => absurd inside (Option.not_mem_none _), noV4, noV6, noUlaGua, fun _ => rfl⟩
    · have step : keepAddress named stored s .other = s := by
        rw [keepAddress, none, if_neg gone]
      rw [step]
      exact goesOn _ (by simpa using gone) rfl rfl rfl rfl rfl

theorem searchRound_follows (follows : Follows stored s k) (ifa : IfAddrs) :
    Follows stored (searchRound named stored s ifa) (Kept.next named stored k ifa) := by
  unfold searchRound Kept.next
  cases ifa.usable with
  | none => exact follows
  | some address =>
    obtain ⟨name, addresses⟩ := k
    have found := follows.found
    cases name with
    | none =>
      have empty := follows.fresh rfl
      simp only at empty
      subst empty
      simp only [Option.isSome_none] at found
      simp only [found, Bool.not_false, if_true]
      have start : Follows stored { s with gIF_NAME := nameOf ifa.ifaName, ifnameFound := true } ⟨some (nameOf ifa.ifaName), []⟩ := by
        refine ⟨rfl, ?_, follows.v4, follows.v6, follows.v6ulagua, fun none => absurd none (Option.some_ne_none _)⟩
        rintro name ⟨⟩
        rfl
      exact keepAddress_follows start address
    | some name =>
      have same : s.gIF_NAME = name := follows.name name rfl
      simp only [Option.isSome_some] at found
      simp only [found, Bool.not_true, Bool.false_eq_true, if_false, same]
      cases own : ifa.isOf name with
      | true => exact keepAddress_follows follows address
      | false => exact follows

theorem search_follows (follows : Follows stored s k) (list : List IfAddrs) :
    Follows stored (list.foldl (searchRound named stored) s) (list.foldl (Kept.next named stored) k) := by
  induction list generalizing s k with
  | nil => exact follows
  | cons ifa list ih => exact ih (searchRound_follows follows ifa)

end Search

theorem strncmp_self (s : List UInt8) (n : Nat) : strncmp s s n = 0 := by
  induction n generalizing s with
  | zero => rfl
  | succ n ih =>
    simp only [strncmp, ne_eq, not_true_eq_false, if_false]
    split
    · rfl
    · exact ih s.tail

theorem isOf_nameOf (ifa : IfAddrs) : ifa.isOf (nameOf ifa.ifaName) = true := by
  have short := ifa.short
  have whole : nameOf ifa.ifaName = ifa.ifaName := List.take_of_length_le (by rw [LINE_SIZE]; rw [IFNAMSIZ] at short; omega)
  rw [whole, IfAddrs.isOf, strncmp_self]
  rfl

theorem kept_sublist (named stored : Bool) (start : Option (List UInt8)) (list : List IfAddrs) {name : List UInt8}
    (named_ : (list.foldl (Kept.next named stored) ⟨start, []⟩).name = some name) :
    (list.foldl (Kept.next named stored) ⟨start, []⟩).addresses.Sublist (addressesOf name list) := by
  induction list using List.reverseRecOn generalizing name with
  | nil => exact List.Sublist.refl _
  | append_singleton list ifa ih =>
    rw [List.foldl_append, List.foldl_cons, List.foldl_nil] at named_ ⊢
    generalize list.foldl (Kept.next named stored) ⟨start, []⟩ = k at named_ ih ⊢
    have split : addressesOf name (list ++ [ifa]) =
        addressesOf name list ++ (if ifa.isOf name then ifa.usable else none).toList := by
      unfold addressesOf
      rw [List.filterMap_append, List.filterMap_cons, List.filterMap_nil]
      cases (if ifa.isOf name then ifa.usable else none) <;> rfl
    have added {own : List UInt8} {addresses : List SockAddress} {address : SockAddress} (usable : ifa.usable = some address)
        (isOf : ifa.isOf own = true) (before : addresses.Sublist (addressesOf own list))
        (kept : (Kept.add named stored own addresses address).name = some name) :
        (Kept.add named stored own addresses address).addresses.Sublist (addressesOf name (list ++ [ifa])) := by
      unfold Kept.add at kept ⊢
      split at kept
      next => contradiction
      next goesOn =>
        obtain rfl := Option.some.inj kept
        rw [if_neg goesOn, split, if_pos isOf, usable]
        exact before.append_right _
    unfold Kept.next at named_ ⊢
    split at named_
    next => rw [split]; exact (ih named_).trans (List.sublist_append_left _ _)
    next address usable _ => exact added usable (isOf_nameOf ifa) (List.nil_sublist _) named_
    next address own usable kept =>
      by_cases isOf : ifa.isOf own = true
      · rw [if_pos isOf] at named_ ⊢
        exact added usable isOf (ih kept) named_
      · rw [if_neg isOf] at named_ ⊢
        rw [split]
        exact (ih named_).trans (List.sublist_append_left _ _)

theorem linkLocal_specified {stored : Bool} {address : SockAddress} {v6 : In6Addr} {length : Nat}
    (lla : linkLocal stored address = some (v6, length)) : v6.isUnspecified = false := by
  unfold linkLocal at lla
  split at lla
  next sin6Addr netmask =>
    split at lla
    next => contradiction
    next =>
      split at lla
      next scope =>
        obtain ⟨rfl, -⟩ := Prod.mk.inj (Option.some.inj lla)
        rw [In6Addr.isLinklocal, in6IsAddrLinklocal, Bool.and_eq_true, decide_eq_true_eq] at scope
        have first := scope.1
        unfold In6Addr.isUnspecified
        cases bytes : sin6Addr.s6Addr with
        | nil =>
          have size := sin6Addr.size
          rw [bytes] at size
          contradiction
        | cons byte rest =>
          rw [bytes, List.getD_cons_zero] at first
          rw [List.all_cons, first]
          rfl
      next => contradiction
  next => contradiction

theorem UlaGuaRight.congr {addresses : List SockAddress} {g g' : Globals} (right : UlaGuaRight addresses g)
    (ulaGua : g'.gIF_IPV6_ULA_GUA = g.gIF_IPV6_ULA_GUA)
    (length : g'.gIF_IPV6_ULA_GUA_PREFIX_LENGTH = g.gIF_IPV6_ULA_GUA_PREFIX_LENGTH) : UlaGuaRight addresses g' := by
  intro some
  obtain ⟨address, member, good, publishes⟩ := right some
  refine ⟨address, member, good, ?_⟩
  cases address with
  | inet sinAddr sinNetmask => exact publishes
  | inet6 sin6Addr netmask => exact ⟨ulaGua.trans publishes.1, length.trans publishes.2⟩
  | other => exact publishes

theorem storeV6_ulaGua (s : Search) (g : Globals) (specified : ∀ v6 ∈ s.v6, v6.1.isUnspecified = false) :
    (storeV6 s g).gIF_NAME = g.gIF_NAME ∧
      ((∃ v6ulagua, s.v6.isSome = true ∧ s.v6ulagua = some v6ulagua ∧
          (storeV6 s g).gIF_IPV6_ULA_GUA = some v6ulagua.1 ∧
          (storeV6 s g).gIF_IPV6_ULA_GUA_PREFIX_LENGTH = v6ulagua.2) ∨
        (s.v6 = none ∨ s.v6ulagua = none) ∧ (storeV6 s g).gIF_IPV6_ULA_GUA = g.gIF_IPV6_ULA_GUA ∧
          (storeV6 s g).gIF_IPV6_ULA_GUA_PREFIX_LENGTH = g.gIF_IPV6_ULA_GUA_PREFIX_LENGTH) := by
  unfold storeV6
  cases lla : s.v6 with
  | none => exact ⟨rfl, .inr ⟨.inl rfl, rfl, rfl⟩⟩
  | some v6 =>
    simp only [specified v6 lla, Bool.false_eq_true, if_false]
    cases s.v6ulagua with
    | none => exact ⟨rfl, .inr ⟨.inr rfl, rfl, rfl⟩⟩
    | some v6ulagua => exact ⟨rfl, .inl ⟨v6ulagua, rfl, rfl, rfl, rfl⟩⟩

theorem storeV4_frame (s : Search) (g : Globals) : (storeV4 s g).gIF_NAME = g.gIF_NAME ∧
    (storeV4 s g).gIF_IPV6_ULA_GUA = g.gIF_IPV6_ULA_GUA ∧
    (storeV4 s g).gIF_IPV6_ULA_GUA_PREFIX_LENGTH = g.gIF_IPV6_ULA_GUA_PREFIX_LENGTH := by
  unfold storeV4
  split <;> exact ⟨rfl, rfl, rfl⟩

/-- An address that may be published is one of the two kinds, and is published with its own prefix. -/
theorem candidate_publishes {stored : Bool} {address : SockAddress} {v6ulagua : In6Addr × Nat}
    (stores : candidate stored address = some v6ulagua) :
    address.isUlaOrGua = true ∧ ∃ netmask, address = .inet6 v6ulagua.1 netmask ∧
      v6ulagua.2 = upnpComputeIpv6PrefixLength netmask := by
  unfold candidate at stores
  split at stores
  next sin6Addr netmask =>
    split at stores
    next kind =>
      obtain rfl := Option.some.inj stores
      refine ⟨?_, netmask, rfl, rfl⟩
      simp only [Bool.or_eq_true, Bool.and_eq_true, SockAddress.isUlaOrGua] at kind ⊢
      exact kind.imp_right And.left
    next => contradiction
  next => contradiction

theorem wanted_iff {addresses : List SockAddress} {address : SockAddress} (member : address ∈ addresses)
    (kind : address.isUlaOrGua = true) :
    wanted addresses address = true ↔ (addresses.any SockAddress.isUla = true → address.isUla = true) := by
  cases address with
  | inet sinAddr sinNetmask => contradiction
  | other => contradiction
  | inet6 sin6Addr netmask =>
    change (if addresses.any SockAddress.isUla = true then sin6Addr.isUla else sin6Addr.isGlobal) = true ↔
      (_ → sin6Addr.isUla = true)
    split
    next ula => exact ⟨fun good _ => good, fun good => good ula⟩
    next noUla =>
      refine ⟨fun _ ula => absurd ula noUla, fun _ => ?_⟩
      have other : sin6Addr.isUla = false := by
        by_contra ula
        rw [Bool.not_eq_false] at ula
        exact noUla (List.any_eq_true.mpr ⟨_, member, ula⟩)
      change (sin6Addr.isUla || sin6Addr.isGlobal) = true at kind
      rwa [other, Bool.false_or] at kind

/-- The globals that hold one of the addresses are right if and only if it is wanted. -/
theorem ulaGuaRight_iff {addresses : List SockAddress} {g : Globals} {address : SockAddress} (member : address ∈ addresses)
    (kind : address.isUlaOrGua = true) (publishes : g.Publishes address) :
    UlaGuaRight addresses g ↔ wanted addresses address = true := by
  constructor
  · intro right
    obtain ⟨another, -, good, same⟩ := right (List.any_eq_true.mpr ⟨address, member, kind⟩)
    cases address with
    | inet sinAddr sinNetmask => contradiction
    | other => contradiction
    | inet6 sin6Addr netmask =>
      cases another with
      | inet sinAddr sinNetmask => contradiction
      | other => contradiction
      | inet6 sin6Addr' netmask' =>
        obtain rfl : sin6Addr = sin6Addr' := Option.some.inj (publishes.1.symm.trans same.1)
        exact good
  · exact fun good _ => ⟨address, member, good, publishes⟩

theorem publish_ulaGua {stored : Bool} {s : Search} {k : Kept} (follows : Follows stored s k) {list : List IfAddrs}
    {name : List UInt8} (inside : k.addresses.Sublist (addressesOf name list)) (named : s.gIF_NAME = name)
    (specified : ∀ v6 ∈ s.v6, v6.1.isUnspecified = false) {g g' : Globals} (own : g'.gIF_NAME = s.gIF_NAME)
    (ulaGua : g'.gIF_IPV6_ULA_GUA = g.gIF_IPV6_ULA_GUA)
    (length : g'.gIF_IPV6_ULA_GUA_PREFIX_LENGTH = g.gIF_IPV6_ULA_GUA_PREFIX_LENGTH) :
    UlaGuaRight (addressesOf (storeV6 s g').gIF_NAME list) (storeV6 s g') ↔
      match published stored k.addresses with
      | some address => (addressesOf name list).any SockAddress.isUla = true → address.isUla = true
      | none => UlaGuaRight (addressesOf name list) g := by
  obtain ⟨frame, ends⟩ := storeV6_ulaGua s g' specified
  rw [frame, own, named]
  have linkLocals : s.v6.isSome = k.addresses.any fun address => (linkLocal stored address).isSome := by
    rw [follows.v6, lastOf_isSome]
  have last := follows.v6ulagua
  rw [lastOf_filter] at last
  rcases ends with ⟨v6ulagua, lla, found, published'⟩ | ⟨nothing, same⟩
  · rw [last] at found
    obtain ⟨address, final, stores⟩ := Option.bind_eq_some_iff.mp found
    have chosen : published stored k.addresses = some address := by
      rw [published, if_pos (linkLocals.symm.trans lla), final]
    have member := inside.subset (List.mem_of_mem_filter (List.mem_of_getLast? final))
    obtain ⟨kind, netmask, rfl, ownLength⟩ := candidate_publishes stores
    rw [chosen]
    exact (ulaGuaRight_iff member kind ⟨published'.1, published'.2.trans ownLength⟩).trans (wanted_iff member kind)
  · have chosen : published stored k.addresses = none := by
      unfold published
      rcases nothing with noLla | noUlaGua
      · rw [if_neg (by rw [← linkLocals, noLla]; exact Bool.false_ne_true)]
      · cases final : (k.addresses.filter fun address => (candidate stored address).isSome).getLast? with
        | none => exact ite_self none
        | some address =>
          have stores := (List.mem_filter.mp (List.mem_of_getLast? final)).2
          rw [noUlaGua, final, Option.bind_some] at last
          rw [← last] at stores
          exact absurd stores Bool.false_ne_true
    rw [chosen]
    have toOld := same.1.trans ulaGua
    have toOld' := same.2.trans length
    exact ⟨fun right => right.congr toOld.symm toOld'.symm, fun right => right.congr toOld toOld'⟩

/-- Whenever `UpnpGetIfInfo` succeeds: a ULA or GUA of the interface is published as it should be if and only
if the last one that is stored is of the right kind and there is a link-local address, or else nothing had to
be published. -/
theorem upnpGetIfInfo_ulaGua (ifNametoindex : List UInt8 → Nat) (list : List IfAddrs) (ifName : Option (List UInt8))
    (g : Globals) (success : (upnpGetIfInfo ifNametoindex (some list) ifName g).1 = UPNP_E_SUCCESS) :
    UlaGuaRight (addressesOf (upnpGetIfInfo ifNametoindex (some list) ifName g).2.gIF_NAME list)
        (upnpGetIfInfo ifNametoindex (some list) ifName g).2 ↔ WellChosen ifName list g := by
  generalize called : upnpGetIfInfo ifNametoindex (some list) ifName g = result at success ⊢
  unfold upnpGetIfInfo at called
  split at called
  next =>
    rw [← called] at success
    exact absurd success (by simp [UPNP_E_INVALID_INTERFACE, UPNP_E_SUCCESS])
  next =>
    dsimp only at called
    have start : Follows g.gIF_IPV6_ULA_GUA.isSome ⟨copyName g ifName, ifName.isSome, none, none, none⟩
        ⟨ifName.map fun name => nameOf (cstr name), []⟩ := by
      cases ifName with
      | none => exact ⟨rfl, fun _ none => absurd none (Option.not_mem_none _), rfl, rfl, rfl, fun _ => rfl⟩
      | some name =>
          refine ⟨rfl, ?_, rfl, rfl, rfl, fun _ => rfl⟩
          rintro own ⟨⟩
          rfl
    have follows := @search_follows ifName.isSome _ _ _ start list
    have inside {name : List UInt8} := @kept_sublist ifName.isSome g.gIF_IPV6_ULA_GUA.isSome
      (ifName.map fun name => nameOf (cstr name)) list name
    unfold WellChosen kept
    generalize list.foldl (searchRound ifName.isSome g.gIF_IPV6_ULA_GUA.isSome) _ = s at called follows
    generalize list.foldl (Kept.next ifName.isSome g.gIF_IPV6_ULA_GUA.isSome) _ = k at follows inside ⊢
    unfold publish at called
    dsimp only at called
    split at called
    next =>
      rw [← called] at success
      exact absurd success (by simp [UPNP_E_INVALID_INTERFACE, UPNP_E_SUCCESS])
    next done =>
      simp only [Bool.or_eq_true, not_or, Bool.not_eq_true', Bool.not_eq_false] at done
      obtain ⟨name, named⟩ := Option.isSome_iff_exists.mp (follows.found.symm.trans done.1)
      have specified : ∀ v6 ∈ s.v6, v6.1.isUnspecified = false := by
        intro v6 found
        rw [follows.v6, lastOf_filter] at found
        obtain ⟨address, -, lla⟩ := Option.bind_eq_some_iff.mp found
        exact linkLocal_specified lla
      obtain ⟨own, ulaGua, length⟩ := storeV4_frame s { g with gIF_NAME := s.gIF_NAME }
      rw [← called]
      simp only [named, Option.getD_some]
      exact publish_ulaGua follows (inside named) (follows.name name named) specified own ulaGua length

/-! ### A run -/

/-- An address with these two bytes in front. -/
def in6Addr (first second : UInt8) : In6Addr := ⟨[first, second, 0, 0, 0, 0, 0, 0, 0, 0, 0, 0, 0, 0, 0, 1], rfl⟩

def netmask64 : In6Addr := ⟨[255, 255, 255, 255, 255, 255, 255, 255, 0, 0, 0, 0, 0, 0, 0, 0], rfl⟩

def eth0 (first second : UInt8) : IfAddrs where
  ifaName := [101, 116, 104, 48]
  loopback := false
  up := true
  multicast := true
  ifaAddr := some (.inet6 (in6Addr first second) (some netmask64))
  short := by decide
  noNul := by decide

def noGlobals : Globals := ⟨[], 0, none, none, none, 0, none, 0⟩

/-- A link-local address, then a GUA and a ULA. -/
theorem upnpGetIfInfo_ulaGua_last :
    WellChosen none [eth0 0xfe 0x80, eth0 0x20 0x01, eth0 0xfd 0x00] noGlobals ∧
      UlaGuaRight [.inet6 (in6Addr 0xfe 0x80) (some netmask64), .inet6 (in6Addr 0x20 0x01) (some netmask64),
          .inet6 (in6Addr 0xfd 0x00) (some netmask64)]
        (upnpGetIfInfo (fun _ => 2) (some [eth0 0xfe 0x80, eth0 0x20 0x01, eth0 0xfd 0x00]) none noGlobals).2 := by
  have right := upnpGetIfInfo_ulaGua (fun _ => 2) [eth0 0xfe 0x80, eth0 0x20 0x01, eth0 0xfd 0x00] none noGlobals (by decide)
  have good : WellChosen none [eth0 0xfe 0x80, eth0 0x20 0x01, eth0 0xfd 0x00] noGlobals := fun _ => by decide
  exact ⟨good, right.mpr good⟩

/-- A GUA behind the ULA is published in its place. -/
theorem upnpGetIfInfo_overwritten :
    (upnpGetIfInfo (fun _ => 2) (some [eth0 0xfe 0x80, eth0 0xfd 0x00, eth0 0x20 0x01]) none noGlobals).1 = UPNP_E_SUCCESS ∧
      (eth0 0xfd 0x00).ifaAddr.any SockAddress.isUla = true ∧
      ¬UlaGuaRight (addressesOf
          (upnpGetIfInfo (fun _ => 2) (some [eth0 0xfe 0x80, eth0 0xfd 0x00, eth0 0x20 0x01]) none noGlobals).2.gIF_NAME
          [eth0 0xfe 0x80, eth0 0xfd 0x00, eth0 0x20 0x01])
        (upnpGetIfInfo (fun _ => 2) (some [eth0 0xfe 0x80, eth0 0xfd 0x00, eth0 0x20 0x01]) none noGlobals).2 := by
  refine ⟨by decide, by decide, fun right => ?_⟩
  obtain ⟨address, member, good, publishes⟩ := right (by decide)
  have three : address ∈ [SockAddress.inet6 (in6Addr 0xfe 0x80) (some netmask64), .inet6 (in6Addr 0xfd 0x00) (some netmask64),
      .inet6 (in6Addr 0x20 0x01) (some netmask64)] := member
  simp only [List.mem_cons, List.not_mem_nil, or_false] at three
  rcases three with rfl | rfl | rfl
  · exact absurd publishes.1 (by decide)
  · exact absurd publishes.1 (by decide)
  · exact absurd good (by decide)

end Pupnp.Api.IfInfo
