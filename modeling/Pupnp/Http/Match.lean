import Pupnp.Http.Scanner
import Mathlib.Data.List.DropRight

/-!
The matchers of the HTTP parser and the interpreter of their formats. A matcher
returns a status, the scanner it leaves behind and what it stores through its
out arguments; a value is stored even where a later directive fails.
-/

namespace Pupnp.Http
open Pupnp.CString

def skipBlankLines (sc : Scanner) : ParseStatus × Scanner :=
  match _h : scannerGetToken sc with
  | .error status => (status, sc)
  | .ok (token, next) =>
      if token.type = .whitespace || token.type = .crlf then skipBlankLines next
      -- the token that is no blank is pushed back
      else (.ok, sc)
termination_by sc.remaining
decreasing_by exact scannerGetToken_remaining _h

/-- One round of `skip_lws`: a blank, or a CRLF with a blank behind it. -/
def matchLws (sc : Scanner) : ParseStatus ⊕ Scanner :=
  match scannerGetToken sc with
  | .error status => .inl status
  | .ok (token, next) =>
      if token.type = .crlf then
        match scannerGetToken next with
        | .error status => .inl status
        | .ok (blank, after) => if blank.type = .whitespace then .inr after else .inl .ok
      else if token.type = .whitespace then .inr next
      else .inl .ok

theorem matchLws_remaining {sc next : Scanner} (matched : matchLws sc = .inr next) :
    next.remaining < sc.remaining := by
  unfold matchLws at matched
  split at matched
  · cases matched
  · rename_i token middle first
    have step := scannerGetToken_remaining first
    split_ifs at matched
    · split at matched
      · cases matched
      · rename_i second
        split_ifs at matched
        cases matched
        exact (scannerGetToken_remaining second).trans step
    · cases matched
      exact step

def skipLws (sc : Scanner) : ParseStatus × Scanner :=
  match _h : matchLws sc with
  | .inr next => skipLws next
  | .inl status =>
      -- with the whole message loaded an incomplete token is the end of it
      (if status = .incomplete && sc.entireMsgLoaded then .ok else status, sc)
termination_by sc.remaining
decreasing_by exact matchLws_remaining _h

def nonWsRun (sc : Scanner) : ParseStatus × Scanner :=
  match _h : scannerGetToken sc with
  | .error status => (status, sc)
  | .ok (token, next) =>
      if token.type ≠ .whitespace && token.type ≠ .crlf then nonWsRun next else (.ok, sc)
termination_by sc.remaining
decreasing_by exact scannerGetToken_remaining _h

def matchNonWsString (sc : Scanner) : ParseStatus × Scanner × Memptr :=
  let run := nonWsRun sc
  let str : Memptr := ⟨sc.cursor, run.2.cursor - sc.cursor⟩
  if run.1 = .ok || (run.1 = .incomplete && sc.entireMsgLoaded) then
    if str.length = 0 then (.noMatch, run.2, str) else (.ok, run.2, str)
  else (run.1, sc, str)

/-- Tokens of a header value. `crlf` is the position of a line end that ends the
value unless a blank follows it; `length` counts all bytes taken so far. -/
def rawValueRun (sc : Scanner) (crlf : Option Nat) (length : Nat) : ParseStatus × Scanner × Nat :=
  match _h : scannerGetToken sc with
  | .error status => (status, sc, length)
  | .ok (token, next) =>
      match crlf with
      | none =>
          if token.type = .crlf then rawValueRun next (some sc.cursor) (length + token.str.length)
          else rawValueRun next none (length + token.str.length)
      | some position =>
          if token.type = .whitespace then rawValueRun next none (length + token.str.length)
          else (.ok, { sc with cursor := position }, length)
termination_by sc.remaining
decreasing_by all_goals exact scannerGetToken_remaining _h

def isBlank (c : UInt8) : Bool := c = SP || c = TAB || c = CR || c = LF

def trimRight (value : List UInt8) : Nat := (value.rdropWhile isBlank).length

def matchRawValue (sc : Scanner) : ParseStatus × Scanner × Memptr :=
  let run := rawValueRun sc none 0
  let raw : Memptr := ⟨sc.cursor, run.2.2⟩
  if run.1 = .ok then (.ok, run.2.1, ⟨sc.cursor, trimRight (raw.read sc.msg)⟩)
  else (run.1, sc, raw)

/-- The value is stored whenever an identifier was read, also for `noMatch`. -/
def matchInt (sc : Scanner) (base : Nat) : ParseStatus × Scanner × Option Int :=
  match scannerGetToken sc with
  | .error status => (status, sc, none)
  | .ok (token, next) =>
      if token.type = .identifier then
        let r := strtol base (sc.msg.drop token.str.buf)
        if r.num < 0 || r.endOff ≠ token.str.length ||
            ((r.num = LONG_MIN || r.num = LONG_MAX) && r.erange) then
          (.noMatch, sc, some (toInt32 r.num))
        else (.ok, next, some (toInt32 r.num))
      else (.noMatch, sc, none)

def crlfRun (sc : Scanner) : ParseStatus × Scanner :=
  match _h : scannerGetToken sc with
  | .error status => (status, sc)
  | .ok (token, next) => if token.type ≠ .crlf then crlfRun next else (.ok, sc)
termination_by sc.remaining
decreasing_by exact scannerGetToken_remaining _h

def readUntilCrlf (sc : Scanner) : ParseStatus × Scanner × Memptr :=
  let run := crlfRun sc
  (run.1, run.2, ⟨sc.cursor, run.2.cursor - sc.cursor⟩)

def matchChar (sc : Scanner) (c : UInt8) (caseSensitive : Bool) : ParseStatus × Scanner :=
  match sc.msg[sc.cursor]? with
  | none => (.incomplete, sc)
  | some scanChar =>
      let next := { sc with cursor := sc.cursor + 1 }
      if (if caseSensitive then c = scanChar else toLower c = toLower scanChar) then (.ok, next)
      else (.noMatch, next)

inductive Directive where
  | rawValue
  | identifier
  | crlf
  | int (base : Nat)
  | nonWsString
  | line
  | quoted
  | optionalWs
  | position
  | endOfMsg
  | lws
  | ws
  | char (c : UInt8)
  | setCase (sensitive : Bool)
  deriving DecidableEq, Repr

/-- The directive behind a `%`. No format of the library uses `%U`. -/
def percentDirective (c : Char) : Option Directive :=
  match c with
  | 'R' => some .rawValue
  | 's' => some .identifier
  | 'c' => some .crlf
  | 'd' => some (.int 10)
  | 'x' => some (.int 16)
  | 'S' => some .nonWsString
  | 'L' => some .line
  | ' ' => some (.char 32)
  | '%' => some (.char 37)
  | 'n' => some (.setCase true)
  | 'i' => some (.setCase false)
  | 'q' => some .quoted
  | 'w' => some .optionalWs
  | 'P' => some .position
  | '0' => some .endOfMsg
  | _ => none

def formatOf : List Char → List Directive
  | '%' :: c :: rest => (percentDirective c).toList ++ formatOf rest
  | ' ' :: rest => .lws :: formatOf rest
  | '\t' :: rest => .ws :: formatOf rest
  | c :: rest => .char (UInt8.ofNat c.toNat) :: formatOf rest
  | [] => []

def format (fmt : String) : List Directive := formatOf fmt.toList

inductive MatchArg where
  | str (value : Memptr)
  | int (value : Int)
  deriving DecidableEq, Repr

abbrev MatchResult := ParseStatus × Scanner × List MatchArg

def matchToken (sc : Scanner) (type : TokenType) (store : Bool) : MatchResult :=
  match scannerGetToken sc with
  | .error status => (status, sc, [])
  | .ok (token, next) =>
      (if token.type = type then .ok else .noMatch, next, if store then [.str token.str] else [])

def matchOptionalWs (sc : Scanner) : MatchResult :=
  match scannerGetToken sc with
  | .error status => (status, sc, [])
  | .ok (token, next) => (.ok, if token.type = .whitespace then next else sc, [])

def matchDirective (caseSensitive : Bool) (sc : Scanner) : Directive → MatchResult
  | .rawValue => let r := matchRawValue sc; (r.1, r.2.1, [.str r.2.2])
  | .identifier => matchToken sc .identifier true
  | .crlf => matchToken sc .crlf false
  | .int base => let r := matchInt sc base; (r.1, r.2.1, r.2.2.toList.map .int)
  | .nonWsString => let r := matchNonWsString sc; (r.1, r.2.1, [.str r.2.2])
  | .line => let r := readUntilCrlf sc; (r.1, r.2.1, [.str r.2.2])
  | .quoted => matchToken sc .quotedString true
  | .optionalWs => matchOptionalWs sc
  | .position => (.ok, sc, [.int (toInt32 sc.cursor)])
  -- the byte at `msg.length` is the terminator
  | .endOfMsg => (if sc.cursor = sc.msg.length then .ok else .noMatch, sc, [])
  | .lws => let r := skipLws sc; (r.1, r.2, [])
  | .ws => matchToken sc .whitespace false
  | .char c => let r := matchChar sc c caseSensitive; (r.1, r.2, [])
  | .setCase _ => (.ok, sc, [])

def Directive.nextCase (caseSensitive : Bool) : Directive → Bool
  | .setCase sensitive => sensitive
  | _ => caseSensitive

def vfmatchLoop (caseSensitive : Bool) (sc : Scanner) : List Directive → MatchResult
  | [] => (.ok, sc, [])
  | d :: rest =>
      let r := matchDirective caseSensitive sc d
      if r.1 = .ok then
        let later := vfmatchLoop (d.nextCase caseSensitive) r.2.1 rest
        (later.1, later.2.1, r.2.2 ++ later.2.2)
      else r

def vfmatch (sc : Scanner) (fmt : List Directive) : MatchResult :=
  let r := vfmatchLoop true sc fmt
  (r.1, if r.1 = .ok then r.2.1 else sc, r.2.2)

/-- `match` of the source: `vfmatch` on a format string. -/
def matchFormat (sc : Scanner) (fmt : String) : MatchResult := vfmatch sc (format fmt)

end Pupnp.Http
