import Pupnp.Library.CString

/-! The token scanner of the HTTP parser. -/

namespace Pupnp.Http
open Pupnp.CString

inductive TokenType where
  | identifier
  | whitespace
  | crlf
  | ctrl
  | separator
  | quotedString
  deriving DecidableEq, Repr

inductive ParseStatus where
  | success
  | incomplete
  | incompleteEntity
  | failure
  | ok
  | noMatch
  | continue1
  deriving DecidableEq, Repr

structure Memptr where
  buf : Nat
  length : Nat
  deriving DecidableEq, Repr

def Memptr.read (m : Memptr) (msg : List UInt8) : List UInt8 := (msg.drop m.buf).take m.length

/-- The scanner reads the raw message that the parser's `msg.msg` stores. -/
structure Scanner where
  msg : List UInt8
  cursor : Nat
  entireMsgLoaded : Bool
  deriving DecidableEq, Repr

def scannerInit (msg : List UInt8) : Scanner := ⟨msg, 0, false⟩

structure Token where
  type : TokenType
  str : Memptr
  deriving DecidableEq, Repr

def isSeparatorChar (c : UInt8) : Bool := strchr (bytes " \t()<>@,;:\\\"/[]?={}") c

def isIdentifierChar (c : UInt8) : Bool := 32 ≤ c && c ≤ 126 && !isSeparatorChar c

def isControlChar (c : UInt8) : Bool := c ≤ 31 || c = 127

/-- A negative `char` is a byte from 128 on, so the test `c < 0` is part of `32 ≤ c`. -/
def isQdtextChar (c : UInt8) : Bool := (32 ≤ c && c ≠ 127) || c = CR || c = LF || c = TAB

inductive QuoteScan where
  | closed (length : Nat)
  | unclosed
  | bad
  deriving DecidableEq, Repr

/-- The loop behind an opening quote; `n` bytes of the token are already taken. -/
def scanQuoted : List UInt8 → Nat → QuoteScan
  | [], _ => .unclosed
  | c :: rest, n =>
      if c = 34 then .closed (n + 1)
      else if c = 92 then
        match rest with
        | [] => .unclosed
        | _ :: rest' => scanQuoted rest' (n + 2)
      else if isQdtextChar c then scanQuoted rest (n + 1)
      else .bad

/-- A maximal run of `p` bytes behind the first one, which may go on past the
bytes loaded so far. -/
def scanRun (entire : Bool) (p : UInt8 → Bool) (type : TokenType) (rest : List UInt8) :
    Except ParseStatus (TokenType × Nat) :=
  let run := (rest.takeWhile p).length
  if !entire && run = rest.length then .error .incomplete else .ok (type, run + 1)

/-- Type and length of the token at the start of `input`, the bytes from the cursor on. -/
def scanToken (entire : Bool) (input : List UInt8) : Except ParseStatus (TokenType × Nat) :=
  match input with
  | [] => .error .incomplete
  | c :: rest =>
      if isIdentifierChar c then scanRun entire isIdentifierChar .identifier rest
      else if c = SP || c = TAB then scanRun entire (fun d => d = SP || d = TAB) .whitespace rest
      else if c = CR then
        match rest with
        | [] => .error .incomplete
        | d :: _ => if d ≠ LF then .ok (.ctrl, 1) else .ok (.crlf, 2)
      else if c = LF then .ok (.crlf, 1)
      else if c = 34 then
        match scanQuoted rest 1 with
        | .closed n => .ok (.quotedString, n)
        | .unclosed => .error .incomplete
        | .bad => .error .failure
      else if isSeparatorChar c then .ok (.separator, 1)
      else if isControlChar c then .ok (.ctrl, 1)
      else .error .failure

def scannerGetToken (sc : Scanner) : Except ParseStatus (Token × Scanner) :=
  match scanToken sc.entireMsgLoaded (sc.msg.drop sc.cursor) with
  | .error status => .error status
  | .ok (type, length) =>
      .ok (⟨type, ⟨sc.cursor, length⟩⟩, { sc with cursor := sc.cursor + length })

def Scanner.remaining (sc : Scanner) : Nat := sc.msg.length - sc.cursor

theorem scanQuoted_closed {input : List UInt8} {n m : Nat} (closed : scanQuoted input n = .closed m) :
    n < m ∧ m ≤ n + input.length := by
  fun_induction scanQuoted input n with
  | case1 => cases closed
  | case2 => cases closed; simp
  | case3 => cases closed
  | case4 n _ _ rest ih =>
    have bound := ih closed
    simp only [List.length_cons]
    omega
  | case5 _ rest n _ _ _ ih =>
    have bound := ih closed
    simp only [List.length_cons]
    omega
  | case6 => cases closed

theorem scanRun_ok {entire : Bool} {p : UInt8 → Bool} {type found : TokenType} {rest : List UInt8}
    {n : Nat} (scanned : scanRun entire p type rest = .ok (found, n)) :
    found = type ∧ n = (rest.takeWhile p).length + 1 := by
  simp only [scanRun] at scanned
  split_ifs at scanned
  cases scanned
  exact ⟨rfl, rfl⟩

theorem scanToken_length {entire : Bool} {input : List UInt8} {type : TokenType} {n : Nat}
    (scanned : scanToken entire input = .ok (type, n)) : 0 < n ∧ n ≤ input.length := by
  have run (p : UInt8 → Bool) (t : TokenType) (c : UInt8) (rest : List UInt8)
      (h : scanRun entire p t rest = .ok (type, n)) : 0 < n ∧ n ≤ (c :: rest).length := by
    have bound := (scanRun_ok h).2
    have := List.takeWhile_prefix p (l := rest) |>.length_le
    simp only [List.length_cons]
    omega
  unfold scanToken at scanned
  split at scanned
  · cases scanned
  · split_ifs at scanned
    · exact run _ _ _ _ scanned
    · exact run _ _ _ _ scanned
    · split at scanned
      · cases scanned
      · split_ifs at scanned <;> cases scanned <;> simp
    · cases scanned; simp
    · split at scanned
      · rename_i closed
        cases scanned
        have bound := scanQuoted_closed closed
        simp only [List.length_cons]
        omega
      · cases scanned
      · cases scanned
    · cases scanned; simp
    · cases scanned; simp

/-- A token is read from the cursor on, is not empty and moves the cursor to its end. -/
theorem scannerGetToken_ok {sc next : Scanner} {token : Token}
    (scanned : scannerGetToken sc = .ok (token, next)) :
    next = { sc with cursor := sc.cursor + token.str.length } ∧ token.str.buf = sc.cursor ∧
      0 < token.str.length ∧ sc.cursor + token.str.length ≤ sc.msg.length := by
  unfold scannerGetToken at scanned
  split at scanned
  · cases scanned
  · rename_i type length found
    cases scanned
    have bound := scanToken_length found
    rw [List.length_drop] at bound
    refine ⟨rfl, rfl, bound.1, ?_⟩
    dsimp only
    omega

theorem scannerGetToken_remaining {sc next : Scanner} {token : Token}
    (scanned : scannerGetToken sc = .ok (token, next)) : next.remaining < sc.remaining := by
  obtain ⟨moved, -, positive, bound⟩ := scannerGetToken_ok scanned
  subst moved
  simp only [Scanner.remaining]
  omega

end Pupnp.Http
