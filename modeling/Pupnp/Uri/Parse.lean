import Pupnp.Library.CString

/-! URI parsing after RFC 2396, as the HTTP parser and the device description code use it. -/

namespace Pupnp.Uri
open Pupnp.CString

inductive AddrFamily where
  | inet
  | inet6
  deriving DecidableEq, Repr

structure SockAddr where
  family : AddrFamily
  addr : List UInt8
  port : Nat
  scopeId : Nat
  deriving DecidableEq, Repr

/-- Name resolution and the interface index, which lie outside the library. -/
structure Resolver where
  /-- The first IPv4 or IPv6 result of `getaddrinfo`. -/
  getaddrinfo : List UInt8 → Option SockAddr
  inetPton : AddrFamily → List UInt8 → Option (List UInt8)
  gIfIndex : Nat

/-- A part of the parsed string: the offset of its first byte, if any, and its size. -/
structure UriToken where
  buff : Option Nat
  size : Nat
  deriving DecidableEq, Repr

def UriToken.read (t : UriToken) (s : List UInt8) : List UInt8 := (s.drop (t.buff.getD 0)).take t.size

inductive UriKind where
  | absolute
  | relative
  deriving DecidableEq, Repr

inductive PathType where
  | absPath
  | relPath
  | opaquePart
  deriving DecidableEq, Repr

structure HostportType where
  text : UriToken
  ipAddress : Option SockAddr
  deriving DecidableEq, Repr

structure UriType where
  type : UriKind
  scheme : UriToken
  pathType : PathType
  pathquery : UriToken
  fragment : UriToken
  hostport : HostportType
  deriving DecidableEq, Repr

def charAt (s : List UInt8) (i : Nat) : UInt8 := s.getD i 0

def isReserved (c : UInt8) : Bool := strchr (bytes ";/?:@&=+$,\x7b\x7d") c
def isMark (c : UInt8) : Bool := strchr (bytes "-_.!~*'()") c
def isUnreserved (c : UInt8) : Bool := isAlnum c || isMark c

def isEscaped (s : List UInt8) (i : Nat) : Bool :=
  charAt s i = 37 && isXdigit (charAt s (i + 1)) && isXdigit (charAt s (i + 2))

/-- Number of bytes `parse_uric` accepts from position `i` on, counted from 0. -/
def uricEnd (s : List UInt8) (max i : Nat) : Nat :=
  if _h : i < max then
    if isUnreserved (charAt s i) || isReserved (charAt s i) || (i + 2 < max && isEscaped s i)
    then uricEnd s max (i + 1)
    else i
  else i
termination_by max - i

def parseUric (s : List UInt8) (max : Nat) : Nat := uricEnd s max 0

def isSchemeChar (c : UInt8) : Bool := isAlnum c || c = 43 || c = 45 || c = 46

def schemeEnd (s : List UInt8) (max i : Nat) : Nat :=
  if _h : i < max then
    if charAt s i = 58 then i
    else if isSchemeChar (charAt s i) then schemeEnd s max (i + 1)
    else 0
  else 0
termination_by max - i

def parseScheme (s : List UInt8) (max : Nat) : Nat :=
  if max = 0 || !isAlpha (charAt s 0) then 0 else schemeEnd s max 1

def isHostChar (c : UInt8) : Bool := isAlnum c || c = 46 || c = 45

def looksLikeIPv4 (name : List UInt8) : Bool :=
  name.contains 46 && isDigit ((name.reverse.takeWhile (· ≠ 46)).reverse.headD 0)

def atoi (s : List UInt8) : Int := toInt32 (strtol 10 s).num

/-- The port behind a host that ends at `c`: the end of its digits and its value. -/
def parsePort (workbuf : List UInt8) (c : Nat) (hasPort : Bool) (defaultPort : Nat) :
    Option (Nat × Nat) :=
  if hasPort then
    let port := (atoi (workbuf.drop c) % 2 ^ 16).toNat
    if port = 0 then none
    else some (c + ((workbuf.drop c).takeWhile isDigit).length, port)
  else some (c, defaultPort)

def parseHostport (res : Resolver) (s : List UInt8) (defaultPort : Nat) : Option HostportType :=
  let workbuf := (cstr s).take 255
  if charAt workbuf 0 = 91 then
    let srvname := (workbuf.drop 1).takeWhile (· ≠ 93)
    if workbuf.length ≤ 1 + srvname.length then none
    else do
      let close := 2 + srvname.length
      let hasPort := charAt workbuf close = 58
      let (stop, port) ← parsePort workbuf (if hasPort then close + 1 else close) hasPort defaultPort
      let addr ← res.inetPton .inet6 srvname
      some ⟨⟨some 0, stop⟩, some ⟨.inet6, addr, port, res.gIfIndex⟩⟩
  else
    let srvname := workbuf.takeWhile isHostChar
    let hasPort := charAt workbuf srvname.length = 58
    let c := if hasPort then srvname.length + 1 else srvname.length
    if looksLikeIPv4 srvname then do
      let (stop, port) ← parsePort workbuf c hasPort defaultPort
      let addr ← res.inetPton .inet srvname
      some ⟨⟨some 0, stop⟩, some ⟨.inet, addr, port, 0⟩⟩
    else do
      let found ← res.getaddrinfo srvname
      let (stop, port) ← parsePort workbuf c hasPort defaultPort
      some ⟨⟨some 0, stop⟩, some { found with port := port }⟩

def subSize (a b : Nat) : Nat := (a + 2 ^ 64 - b) % 2 ^ 64

theorem subSize_sub {a b : Nat} (inside : b ≤ a) (fits : a < 2 ^ 64) : subSize a b = a - b := by
  have split : a + 2 ^ 64 - b = a - b + 2 ^ 64 := by omega
  rw [subSize, split, Nat.add_mod_right, Nat.mod_eq_of_lt (by omega)]

theorem subSize_le {a b : Nat} (inside : b ≤ a) : subSize a b ≤ a - b := by
  have split : a + 2 ^ 64 - b = a - b + 2 ^ 64 := by omega
  rw [subSize, split, Nat.add_mod_right]
  exact Nat.mod_le _ _

def UriToken.shift (t : UriToken) (n : Nat) : UriToken := { t with buff := t.buff.map (· + n) }

def tokenStringCasecmp (t s : List UInt8) : Int :=
  if t.length ≠ s.length then 1 else strncasecmp t s t.length

/-- `parse_uri(in, max, out)`; `none` is an error code. -/
def parseUri (res : Resolver) (s : List UInt8) (max : Nat) : Option UriType := do
  let schemeSize := parseScheme s max
  let scheme : UriToken := if schemeSize = 0 then ⟨none, 0⟩ else ⟨some 0, schemeSize⟩
  let start := if schemeSize = 0 then 0 else schemeSize + 1
  let type := if schemeSize = 0 then UriKind.relative else .absolute
  let hasAuthority := start + 1 < max && charAt s start = 47 && charAt s (start + 1) = 47
  let defaultPort := if tokenStringCasecmp (scheme.read s) (bytes "https") = 0 then 443 else 80
  let hostport ←
    if hasAuthority then
      (parseHostport res (s.drop (start + 2)) defaultPort).map fun h =>
        { h with text := h.text.shift (start + 2) }
    else some ⟨⟨none, 0⟩, none⟩
  let beginPath := if hasAuthority then start + 2 + hostport.text.size else start
  let size := parseUric (s.drop beginPath) (subSize max beginPath)
  let pathType :=
    if 0 < size && charAt s beginPath = 47 then PathType.absPath
    else if schemeSize = 0 then .relPath else .opaquePart
  let beginFragment := beginPath + size
  let fragment : UriToken :=
    if beginFragment < max && charAt s beginFragment = 35 then
      ⟨some (beginFragment + 1), parseUric (s.drop (beginFragment + 1)) (max - (beginFragment + 1))⟩
    else ⟨none, 0⟩
  some ⟨type, scheme, pathType, ⟨some beginPath, size⟩, fragment, hostport⟩

end Pupnp.Uri
