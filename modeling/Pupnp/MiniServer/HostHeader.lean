import Pupnp.Http.Method
import Pupnp.Library.Buffer

/-!
The Host header as a guard against DNS rebinding: `host_header_is_numeric` on the copy of its value, and
what `dispatch_request` does with the answer.
-/

namespace Pupnp.MiniServer
open Pupnp.CString Pupnp.Uri Pupnp.Http

/-! ### The check of the source -/

def scanBack (hostPort : List UInt8) : Nat → Option Nat
  | 0 => some 0
  | s + 1 => do
      let c ← hostPort[s + 1]?
      if c ≠ 93 && c ≠ 58 then scanBack hostPort s else some (s + 1)

/-- The two calls of `inet_pton`, where `s` is behind the address. -/
def isNumeric (res : Resolver) (hostPort : List UInt8) (s : Nat) : Option Bool := do
  let host ← cstrAt hostPort 0
  if (res.inetPton .inet host).isSome then some true
  else if host.length < 3 || host.head? ≠ some 91 then some false
  else if (← if s = 0 then none else hostPort[s - 1]?) ≠ 93 then some false
  else
    let hostPort ← store hostPort (s - 1) 0
    let addr ← cstrAt hostPort 1
    some (res.inetPton .inet6 addr).isSome

/-- `host_header_is_numeric`; `none` is an access outside the buffer. -/
def hostHeaderIsNumeric (res : Resolver) (hostPort : List UInt8) (hostPortSize : Nat) : Option Bool := do
  -- the scan starts at the last byte, in front of the buffer where the value is empty
  let s ← if hostPortSize = 0 then none else scanBack hostPort (hostPortSize - 1)
  if (← hostPort[s]?) = 58 then
    let hostPort ← store hostPort s 0
    isNumeric res hostPort s
  else isNumeric res hostPort hostPortSize

def UPNP_E_BAD_HTTPMSG : Int := -119
def HTTP_INTERNAL_SERVER_ERROR : Int := 500
def NAME_SIZE : Nat := 256

/-- The globals that `dispatch_request` reads. -/
structure Dispatcher where
  resolver : Resolver
  /-- `gSoapCallback`, `gGenaCallback` and `gGetCallback` -/
  callbacks : Handler → Bool
  /-- `gWebCallback_HostValidate`, with its cookie -/
  hostValidate : Option (List UInt8 → Int)
  allowLiteralHostRedirection : Bool

inductive Dispatched where
  | handled (handler : Handler)
  | redirected
  | refused (rc : Int)
  deriving DecidableEq, Repr

/-- The host validation of the web server; the other callbacks have none. -/
def Dispatcher.validation (d : Dispatcher) (handler : Handler) : Option (List UInt8 → Int) :=
  if handler = .web then d.hostValidate else none

/-- `dispatch_request`; `none` is an access outside `host_port`. -/
def dispatch (d : Dispatcher) (msg : HttpMessage) : Option Dispatched :=
  match dispatchRequest msg.method with
  | none => some (.refused HTTP_INTERNAL_SERVER_ERROR)
  | some handler =>
      if !d.callbacks handler then some (.refused HTTP_INTERNAL_SERVER_ERROR)
      else
        match httpmsgFindHdr msg .host with
        | none => some (.refused UPNP_E_BAD_HTTPMSG)
        | some header =>
            let hostPort := header.value.take (NAME_SIZE - 1)
            match d.validation handler with
            | some validate =>
                some (if validate (cstr hostPort) = UPNP_E_BAD_HTTPMSG then .refused UPNP_E_BAD_HTTPMSG else .handled handler)
            | none =>
                (hostHeaderIsNumeric d.resolver (hostPort ++ [0]) hostPort.length).map fun numeric =>
                  if numeric then .handled handler
                  else if d.allowLiteralHostRedirection then .redirected
                  else .refused UPNP_E_BAD_HTTPMSG

/-! ### What it accepts -/

def IsLiteral (res : Resolver) (host : List UInt8) : Prop :=
  (res.inetPton .inet host).isSome = true ∨
    ∃ addr, host = [91] ++ addr ++ [93] ∧ (res.inetPton .inet6 addr).isSome = true

/-- A literal, and behind it nothing or a colon and text of some kind. -/
def LiteralWith (port : List UInt8 → Prop) (res : Resolver) (value : List UInt8) : Prop :=
  ∃ host behind, value = host ++ behind ∧ IsLiteral res host ∧ (behind = [] ∨ ∃ text, behind = 58 :: text ∧ port text)

/-- Text in which a backward scan does not stop. -/
def NoMark (text : List UInt8) : Prop := ∀ c ∈ text, c ≠ 93 ∧ c ≠ 58

/-- The answer of the two calls of `inet_pton` on an address that ends where its string does. -/
def numericHost (res : Resolver) (host : List UInt8) : Bool :=
  (res.inetPton .inet host).isSome ||
    (3 ≤ host.length && host.head? = some 91 && host.getLast? = some 93 &&
      (res.inetPton .inet6 (host.drop 1).dropLast).isSome)

theorem numericHost_bracketed (res : Resolver) (addr : List UInt8) (c : UInt8) (long : 0 < addr.length)
    (four : ¬(res.inetPton .inet (91 :: (addr ++ [c]))).isSome = true) :
    numericHost res (91 :: (addr ++ [c])) = (decide (c = 93) && (res.inetPton .inet6 addr).isSome) := by
  have length : (decide (3 ≤ (91 :: (addr ++ [c])).length)) = true := by
    rw [decide_eq_true_eq, List.length_cons, List.length_append, List.length_singleton]
    omega
  have last : (91 :: (addr ++ [c])).getLast? = some c := by
    rw [← List.cons_append, List.getLast?_append, List.getLast?_singleton]
    rfl
  have inner : ((91 :: (addr ++ [c])).drop 1).dropLast = addr := by
    rw [List.drop_one, List.tail_cons, List.dropLast_concat]
  rw [numericHost, Bool.eq_false_iff.mpr four, Bool.false_or, length, last, inner]
  simp

theorem numericHost_literal {res : Resolver} {host : List UInt8} (numeric : numericHost res host = true) :
    IsLiteral res host := by
  rw [numericHost, Bool.or_eq_true] at numeric
  rcases numeric with four | bracketed
  · exact .inl four
  · simp only [Bool.and_eq_true, decide_eq_true_eq] at bracketed
    obtain ⟨⟨⟨-, first⟩, last⟩, six⟩ := bracketed
    obtain ⟨rest, rfl⟩ := List.head?_eq_some_iff.mp first
    obtain ⟨front, split⟩ := List.getLast?_eq_some_iff.mp last
    cases front with
    | nil => cases split
    | cons d addr =>
      rw [List.cons_append] at split
      obtain ⟨rfl, rfl⟩ := List.cons.inj split
      rw [List.drop_one, List.tail_cons, List.dropLast_concat] at six
      exact .inr ⟨addr, rfl, six⟩

theorem isNumeric_value {res : Resolver} {host : List UInt8} (noNul : 0 ∉ host) (behind : List UInt8) :
    isNumeric res (host ++ 0 :: behind) host.length = some (numericHost res host) := by
  have text : cstrAt (host ++ 0 :: behind) 0 = some host := cstrAt_append [] behind noNul
  rw [isNumeric, text]
  simp only [Option.bind_eq_bind, Option.bind_some]
  by_cases four : (res.inetPton .inet host).isSome = true
  · rw [if_pos four, numericHost, four]
    rfl
  rw [if_neg four]
  by_cases short : (decide (host.length < 3) || decide (host.head? ≠ some 91)) = true
  · rw [if_pos short, numericHost, Bool.eq_false_iff.mpr four]
    rw [Bool.or_eq_true, decide_eq_true_eq, decide_eq_true_eq, ← Nat.not_le] at short
    rcases short with short | other
    · rw [decide_eq_false short]
      rfl
    · rw [decide_eq_false other, Bool.and_false]
      rfl
  rw [if_neg short]
  rw [Bool.or_eq_true, not_or, decide_eq_true_eq, decide_eq_true_eq, not_not] at short
  obtain ⟨long, bracket⟩ := short
  obtain ⟨addr, c, rfl⟩ : ∃ addr c, host = 91 :: (addr ++ [c]) := by
    cases host with
    | nil => cases bracket
    | cons first rest =>
      obtain rfl : first = 91 := Option.some.inj bracket
      rcases List.eq_nil_or_concat rest with rfl | ⟨addr, c, rfl⟩
      · exact absurd (show 1 < 3 by decide) long
      · exact ⟨addr, c, by rw [List.concat_eq_append]⟩
  have long' : 0 < addr.length := by
    rw [List.length_cons, List.length_append, List.length_singleton] at long
    omega
  have shape (d : UInt8) : 91 :: (addr ++ [d]) ++ 0 :: behind = (91 :: addr) ++ d :: (0 :: behind) := by simp
  have last : (91 :: (addr ++ [c])).length - 1 = (91 :: addr).length := by simp
  rw [numericHost_bracketed res addr c long' four, if_neg (by simp), last, shape, read_here, Option.bind_some]
  by_cases close : c = 93
  · rw [if_neg (not_not_intro close), store_append]
    have inner : cstrAt ((91 :: addr) ++ 0 :: (0 :: behind)) 1 = some addr :=
      cstrAt_append [91] (0 :: behind) fun member => noNul (List.mem_cons_of_mem _ (List.mem_append_left _ member))
    rw [Option.bind_some, inner, decide_eq_true close]
    rfl
  · rw [if_pos close, decide_eq_false close]
    rfl

theorem scanBack_mark {front rest : List UInt8} {c : UInt8} (plain : NoMark rest) (mark : c = 93 ∨ c = 58 ∨ front = [])
    (behind : List UInt8) : scanBack (front ++ c :: (rest ++ behind)) (front.length + rest.length) = some front.length := by
  induction rest using List.reverseRecOn generalizing behind with
  | nil =>
    rw [List.length_nil, Nat.add_zero, List.nil_append]
    rcases Nat.eq_zero_or_pos front.length with none | some_
    · rw [none]
      rfl
    · obtain ⟨n, length⟩ := Nat.exists_eq_add_one_of_ne_zero (Nat.ne_of_gt some_)
      have here := read_here front behind c
      have stops : ¬ (decide (c ≠ 93) && decide (c ≠ 58)) = true := by
        rcases mark with rfl | rfl | rfl
        · decide
        · decide
        · exact absurd rfl (Nat.ne_of_gt some_)
      rw [length] at here ⊢
      rw [scanBack, here]
      simp only [Option.bind_eq_bind, Option.bind_some, if_neg stops]
  | append_singleton rest d ih =>
    have other := plain d (List.mem_append_right _ List.mem_cons_self)
    have here : (front ++ c :: (rest ++ [d] ++ behind))[front.length + rest.length + 1]? = some d := by
      have read := read_here (front ++ c :: rest) behind d
      rw [List.length_append, List.length_cons] at read
      rw [Nat.add_assoc, ← read]
      simp
    have goes : (decide (d ≠ 93) && decide (d ≠ 58)) = true := by
      rw [decide_eq_true other.1, decide_eq_true other.2]
      rfl
    have before := ih (fun e member => plain e (List.mem_append_left _ member)) (d :: behind)
    rw [List.length_append, List.length_singleton, ← Nat.add_assoc, scanBack, here]
    simp only [Option.bind_eq_bind, Option.bind_some, if_pos goes]
    rwa [List.append_assoc, List.singleton_append]

theorem lastMark {value : List UInt8} (nonempty : value ≠ []) :
    ∃ front c rest, value = front ++ c :: rest ∧ NoMark rest ∧ (c = 93 ∨ c = 58 ∨ front = []) := by
  induction value using List.reverseRecOn with
  | nil => exact absurd rfl nonempty
  | append_singleton value d ih =>
    by_cases mark : d = 93 ∨ d = 58
    · refine ⟨value, d, [], rfl, fun c member => absurd member List.not_mem_nil, ?_⟩
      exact mark.imp_right .inl
    · rcases List.eq_nil_or_concat value with rfl | known
      · exact ⟨[], d, [], rfl, fun c member => absurd member List.not_mem_nil, .inr (.inr rfl)⟩
      · obtain ⟨front, c, rest, split, plain, stop⟩ := ih (by
          obtain ⟨init, last, same⟩ := known
          rw [same, List.concat_eq_append]
          exact List.append_ne_nil_of_right_ne_nil _ (List.cons_ne_nil _ _))
        refine ⟨front, c, rest ++ [d], by rw [split, List.append_assoc]; rfl, ?_, stop⟩
        intro e member
        rcases List.mem_append.mp member with inside | last
        · exact plain e inside
        · rw [List.mem_singleton.mp last]
          exact not_or.mp mark

theorem hostHeaderIsNumeric_split (res : Resolver) {front rest : List UInt8} {c : UInt8} (plain : NoMark rest)
    (mark : c = 93 ∨ c = 58 ∨ front = []) (noNul : 0 ∉ front ++ c :: rest) :
    hostHeaderIsNumeric res (front ++ c :: rest ++ [0]) (front ++ c :: rest).length =
      some (numericHost res (if c = 58 then front else front ++ c :: rest)) := by
  have scanned := scanBack_mark plain mark [0]
  have last : (front ++ c :: rest).length - 1 = front.length + rest.length := by
    rw [List.length_append, List.length_cons]
    omega
  have buffer : front ++ c :: rest ++ [0] = front ++ c :: (rest ++ [0]) := by simp
  have here := read_here front (rest ++ [0]) c
  rw [hostHeaderIsNumeric, if_neg (by simp), last, buffer, scanned]
  simp only [Option.bind_eq_bind, Option.bind_some, here]
  by_cases colon : c = 58
  · rw [if_pos colon, if_pos colon, store_append, Option.bind_some]
    exact isNumeric_value (fun member => noNul (List.mem_append_left _ member)) (rest ++ [0])
  · rw [if_neg colon, if_neg colon, ← buffer]
    exact isNumeric_value noNul []

/-- On a value of at least one byte the check stays in the buffer, and takes literals only. -/
theorem hostHeaderIsNumeric_literal (res : Resolver) {value : List UInt8} (nonempty : value ≠ []) (noNul : 0 ∉ value) :
    ∃ verdict, hostHeaderIsNumeric res (value ++ [0]) value.length = some verdict ∧
      (verdict = true → LiteralWith NoMark res value) := by
  obtain ⟨front, c, rest, rfl, plain, stop⟩ := lastMark nonempty
  refine ⟨_, hostHeaderIsNumeric_split res plain stop noNul, fun yes => ?_⟩
  by_cases colon : c = 58
  · rw [if_pos colon] at yes
    exact ⟨front, c :: rest, rfl, numericHost_literal yes, .inr ⟨rest, by rw [colon], plain⟩⟩
  · rw [if_neg colon] at yes
    exact ⟨_, [], (List.append_nil _).symm, numericHost_literal yes, .inl rfl⟩

/-- Without a host validation, a request gets to its handler only with a literal in front of its Host value. -/
theorem dispatch_literal {d : Dispatcher} {msg : HttpMessage} {handler : Handler}
    (method : dispatchRequest msg.method = some handler) (noValidation : d.validation handler = none) {header : HttpHeader}
    (host : httpmsgFindHdr msg .host = some header) (nonempty : header.value ≠ []) (noNul : 0 ∉ header.value) :
    ∃ result, dispatch d msg = some result ∧ (∀ h, result = .handled h →
      LiteralWith NoMark d.resolver (header.value.take (NAME_SIZE - 1))) := by
  have copied : header.value.take (NAME_SIZE - 1) ≠ [] := by
    intro none
    rw [List.take_eq_nil_iff] at none
    exact none.elim (by decide) nonempty
  obtain ⟨verdict, checked, literal⟩ := hostHeaderIsNumeric_literal d.resolver copied
    fun member => noNul (List.mem_of_mem_take member)
  unfold dispatch
  simp only [method, host, noValidation]
  by_cases callback : (!d.callbacks handler) = true
  · rw [if_pos callback]
    exact ⟨_, rfl, fun h refused => by cases refused⟩
  · rw [if_neg callback, checked]
    refine ⟨_, rfl, fun h handled => literal ?_⟩
    cases verdict with
    | true => rfl
    | false =>
        simp only [Bool.false_eq_true, if_false] at handled
        split at handled <;> cases handled

/-- A server with all callbacks and no validation, where one address is valid. -/
def guarded : Dispatcher where
  resolver :=
    { getaddrinfo := fun _ => none
      inetPton := fun family text => if family = .inet && text = bytes "10.0.0.1" then some [10, 0, 0, 1] else none
      gIfIndex := 0 }
  callbacks _ := true
  hostValidate := none
  allowLiteralHostRedirection := false

def requestTo (host : List UInt8) : HttpMessage :=
  { httpmsgInit true .put with method := .get, headers := [⟨bytes "HOST", .host, host⟩] }

theorem dispatch_literal_port : ∃ result, dispatch guarded (requestTo (bytes "10.0.0.1:80")) = some result ∧
    (∀ h, result = .handled h → LiteralWith NoMark guarded.resolver ((bytes "10.0.0.1:80").take (NAME_SIZE - 1))) :=
  @dispatch_literal guarded (requestTo (bytes "10.0.0.1:80")) .web rfl rfl ⟨bytes "HOST", .host, bytes "10.0.0.1:80"⟩
    rfl (by decide) (by decide)

/-- What stands behind the last colon is not looked at. -/
theorem dispatch_literal_text : ¬ ∀ (d : Dispatcher) (msg : HttpMessage) (handler : Handler) (header : HttpHeader),
    dispatchRequest msg.method = some handler → d.validation handler = none → httpmsgFindHdr msg .host = some header →
    ∃ result, dispatch d msg = some result ∧ (∀ h, result = .handled h →
      LiteralWith (fun text => ∀ c ∈ text, isDigit c = true) d.resolver header.value) := by
  intro claim
  obtain ⟨result, known, literal⟩ := claim guarded (requestTo (bytes "10.0.0.1:x")) .web
    ⟨bytes "HOST", .host, bytes "10.0.0.1:x"⟩ rfl rfl rfl
  have handled : dispatch guarded (requestTo (bytes "10.0.0.1:x")) = some (.handled .web) := by decide +kernel
  obtain ⟨host, behind, split, valid, port⟩ := literal .web (Option.some.inj (known.symm.trans handled))
  have address : host = bytes "10.0.0.1" := by
    rcases valid with four | ⟨addr, -, six⟩
    · by_contra other
      simp [guarded, other] at four
    · simp [guarded] at six
  have text : behind = bytes ":x" := List.append_cancel_left (split.symm.trans (by rw [address]; rfl))
  rcases port with none | ⟨digits, colon, only⟩
  · rw [text] at none
    exact absurd none (by decide)
  · have x : digits = bytes "x" := (List.cons.inj (colon.symm.trans text)).2
    exact absurd (only 120 (x ▸ List.mem_cons_self)) (by decide)

end Pupnp.MiniServer
