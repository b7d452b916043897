import Pupnp.Gena.Subscribe

/-!
The choice of the network interface. `UpnpGetIfInfo` goes once over the list of `getifaddrs`, keeps the first
interface that will do, and its last addresses of each kind.
-/

namespace Pupnp.Api.IfInfo
open Pupnp.CString
open Pupnp.Gena.Subscribe (in6IsAddrLinklocal)

def UPNP_E_SUCCESS : Int := 0
def UPNP_E_INIT : Int := -105
def UPNP_E_INVALID_INTERFACE : Int := -121
def LINE_SIZE : Nat := 180
def IFNAMSIZ : Nat := 16

structure In6Addr where
  s6Addr : List UInt8
  size : s6Addr.length = 16
  deriving DecidableEq, Repr

def In6Addr.isUnspecified (a : In6Addr) : Bool := a.s6Addr.all (· = 0)

/-- `IN6_IS_ADDR_ULA`; the mask is in the first byte. -/
def In6Addr.isUla (a : In6Addr) : Bool := a.s6Addr.getD 0 0 &&& 0xfe = 0xfc

def In6Addr.isGlobal (a : In6Addr) : Bool := a.s6Addr.getD 0 0 &&& 0x70 = 0x20

def In6Addr.isLinklocal (a : In6Addr) : Bool := in6IsAddrLinklocal a.s6Addr

inductive SockAddress where
  | inet (sinAddr sinNetmask : List UInt8)
  | inet6 (sin6Addr : In6Addr) (netmask : Option In6Addr)
  | other
  deriving DecidableEq, Repr

structure IfAddrs where
  ifaName : List UInt8
  loopback : Bool
  up : Bool
  multicast : Bool
  ifaAddr : Option SockAddress
  short : ifaName.length < IFNAMSIZ
  noNul : 0 ∉ ifaName
  deriving DecidableEq, Repr

/-- The globals that are set here. An IPv6 text is kept as the address that `inet_ntop` has written it for,
`none` while it is empty. -/
structure Globals where
  gIF_NAME : List UInt8
  gIF_INDEX : Nat
  gIF_IPV4 : Option (List UInt8)
  gIF_IPV4_NETMASK : Option (List UInt8)
  gIF_IPV6 : Option In6Addr
  gIF_IPV6_PREFIX_LENGTH : Nat
  gIF_IPV6_ULA_GUA : Option In6Addr
  gIF_IPV6_ULA_GUA_PREFIX_LENGTH : Nat
  deriving DecidableEq, Repr

/-- The inner loop of `UpnpComputeIpv6PrefixLength`: a byte is 0 after eight rounds. -/
def countBits : Nat → Nat → Nat
  | 0, _ => 0
  | rounds + 1, byte => if byte = 0 then 0 else byte % 2 + countBits rounds (byte / 2)

def upnpComputeIpv6PrefixLength : Option In6Addr → Nat
  | none => 0
  | some netmask => (netmask.s6Addr.map fun byte => countBits 8 byte.toNat).sum

/-- The locals of the search; an address that has not been found is `none`. -/
structure Search where
  gIF_NAME : List UInt8
  ifnameFound : Bool
  v4 : Option (List UInt8 × List UInt8)
  v6 : Option (In6Addr × Nat)
  v6ulagua : Option (In6Addr × Nat)
  deriving DecidableEq, Repr

/-- "Keep interface addresses for later." `stored` is whether the text of `gIF_IPV6_ULA_GUA` is not empty. -/
def keepAddress (named stored : Bool) (s : Search) : SockAddress → Search
  | .inet sinAddr sinNetmask => { s with v4 := some (sinAddr, sinNetmask) }
  | .inet6 sin6Addr netmask =>
      if sin6Addr.isUla then { s with v6ulagua := some (sin6Addr, upnpComputeIpv6PrefixLength netmask) }
      else if sin6Addr.isGlobal && !stored then
        { s with v6ulagua := some (sin6Addr, upnpComputeIpv6PrefixLength netmask) }
      else if sin6Addr.isLinklocal then { s with v6 := some (sin6Addr, upnpComputeIpv6PrefixLength netmask) }
      else s
  | .other =>
      if !named && (s.v4.isNone && (s.v6ulagua.isNone && s.v6.isNone)) then { s with ifnameFound := false } else s

def IfAddrs.usable (ifa : IfAddrs) : Option SockAddress :=
  if ifa.loopback || (!ifa.up || !ifa.multicast) then none else ifa.ifaAddr

def nameOf (name : List UInt8) : List UInt8 := name.take (LINE_SIZE - 1)

/-- The entry is of the interface with this name. -/
def IfAddrs.isOf (ifa : IfAddrs) (gIF_NAME : List UInt8) : Bool := strncmp gIF_NAME ifa.ifaName LINE_SIZE = 0

def searchRound (named stored : Bool) (s : Search) (ifa : IfAddrs) : Search :=
  match ifa.usable with
  | none => s
  | some address =>
      if !s.ifnameFound then
        keepAddress named stored { s with gIF_NAME := nameOf ifa.ifaName, ifnameFound := true } address
      else if !ifa.isOf s.gIF_NAME then s
      else keepAddress named stored s address

def storeV4 (s : Search) (g : Globals) : Globals :=
  match s.v4 with
  | none => g
  | some (addr, netmask) => { g with gIF_IPV4 := some addr, gIF_IPV4_NETMASK := some netmask }

def storeV6 (s : Search) (g : Globals) : Globals :=
  match s.v6 with
  | none => g
  | some (v6, length) =>
      if v6.isUnspecified then g
      else
        let g := { g with gIF_IPV6 := some v6, gIF_IPV6_PREFIX_LENGTH := length }
        match s.v6ulagua with
        | none => g
        | some (v6ulagua, length) => { g with gIF_IPV6_ULA_GUA := some v6ulagua, gIF_IPV6_ULA_GUA_PREFIX_LENGTH := length }

/-- The end of `UpnpGetIfInfo`, with `gIF_NAME` as the search has left it. -/
def publish (ifNametoindex : List UInt8 → Nat) (s : Search) (g : Globals) : Int × Globals :=
  let g := { g with gIF_NAME := s.gIF_NAME }
  if !s.ifnameFound || (s.v4.isNone && (s.v6.isNone && s.v6ulagua.isNone)) then (UPNP_E_INVALID_INTERFACE, g)
  else (UPNP_E_SUCCESS, storeV6 s { storeV4 s g with gIF_INDEX := ifNametoindex g.gIF_NAME })

def copyName (g : Globals) : Option (List UInt8) → List UInt8
  | none => g.gIF_NAME
  | some name => nameOf (cstr name)

/-- `UpnpGetIfInfo`; `getifaddrs` gives a list or fails. -/
def upnpGetIfInfo (ifNametoindex : List UInt8 → Nat) (getifaddrs : Option (List IfAddrs)) (ifName : Option (List UInt8))
    (g : Globals) : Int × Globals :=
  if ifName.any fun name => LINE_SIZE < (cstr name).length then (UPNP_E_INVALID_INTERFACE, g)
  else
    match getifaddrs with
    | none => (UPNP_E_INIT, { g with gIF_NAME := copyName g ifName })
    | some list =>
        let s : Search := ⟨copyName g ifName, ifName.isSome, none, none, none⟩
        publish ifNametoindex (list.foldl (searchRound ifName.isSome g.gIF_IPV6_ULA_GUA.isSome) s) g

end Pupnp.Api.IfInfo
