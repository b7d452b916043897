import Pupnp.Ssdp.Advertise
import Pupnp.Http.HeaderLine

/-! `CreateServicePacket`: the text of a notification or reply, as a start line and header lines. -/

namespace Pupnp.Ssdp
open Pupnp.CString Pupnp.Uri Pupnp.Http

instance sevenDays : NeZero 7 := ⟨by decide⟩
instance twelveMonths : NeZero 12 := ⟨by decide⟩

structure Tm where
  wday : Fin 7
  mday : Nat
  mon : Fin 12
  year : Nat
  hour : Nat
  min : Nat
  sec : Nat
  deriving DecidableEq, Repr

/-- What a packet takes from its surroundings. -/
structure Env where
  /-- `http_gmtime_r` of the current time. -/
  date : Tm
  /-- `uname` -/
  sysname : List UInt8
  release : List UInt8
  /-- `gUpnpSdkNLSuuid`, where `UPNP_HAVE_OPTSSDP` is set. -/
  nls : Option (List UInt8)
  /-- `isUrlV6UlaGua` -/
  isUrlV6UlaGua : List UInt8 → Bool

def weekdayStr : List (List UInt8) :=
  [bytes "Sun", bytes "Mon", bytes "Tue", bytes "Wed", bytes "Thu", bytes "Fri", bytes "Sat"]

def monthStr : List (List UInt8) :=
  [bytes "Jan", bytes "Feb", bytes "Mar", bytes "Apr", bytes "May", bytes "Jun", bytes "Jul",
    bytes "Aug", bytes "Sep", bytes "Oct", bytes "Nov", bytes "Dec"]

def twoDigits (n : Nat) : List UInt8 := if n < 10 then 48 :: decimalDigits n else decimalDigits n

def Tm.text (tm : Tm) : List UInt8 :=
  weekdayStr.getD tm.wday [] ++ bytes ", " ++ twoDigits tm.mday ++ bytes " " ++
    monthStr.getD tm.mon [] ++ bytes " " ++ decimalDigits tm.year ++ bytes " " ++ twoDigits tm.hour ++
    bytes ":" ++ twoDigits tm.min ++ bytes ":" ++ twoDigits tm.sec ++ bytes " GMT"

/-- The text of `get_sdk_info` in front of its line end. -/
def Env.sdkInfo (env : Env) : List UInt8 :=
  env.sysname ++ bytes "/" ++ env.release ++
    bytes ", UPnP/1.0, Portable SDK for UPnP devices/1.14.19"

/-- The directives of `http_MakeMessage` that packets use, with their arguments. -/
inductive Part where
  | s (str : List UInt8)
  | c
  | d (num : Int)
  | D
  | S
  | X (str : List UInt8)
  /-- A response line with `HTTP_OK`. -/
  | R
  /-- A request line with `HTTPMETHOD_NOTIFY`. -/
  | Q (url : List UInt8)

def Part.text (env : Env) : Part → List UInt8
  | .s str => str
  | .c => [CR, LF]
  -- an `int` is printed as a `size_t`
  | .d num => decimalDigits (num % 2 ^ 64).toNat
  | .D => (bytes "DATE: " ++ env.date.text ++ [CR, LF]).take 199
  | .S => bytes "SERVER: " ++ (env.sdkInfo ++ [CR, LF]).take 199
  | .X str => bytes "X-User-Agent: " ++ str
  | .R => bytes "HTTP/1.1 200 OK" ++ [CR, LF]
  | .Q url => bytes "NOTIFY " ++ url ++ bytes " HTTP/1.1" ++ [CR, LF]

def httpMakeMessage (env : Env) (parts : List Part) : List UInt8 := parts.flatMap (Part.text env)

def optParts (env : Env) : List Part :=
  match env.nls with
  | some nls =>
      [.s (bytes "OPT: "), .s (bytes "\"http://schemas.upnp.org/upnp/1/0/\"; ns=01"), .c,
        .s (bytes "01-NLS: "), .s nls, .c]
  | none => []

def agentParts (env : Env) : List Part :=
  match env.nls with
  | some _ => [.X (bytes "redsonic"), .c]
  | none => []

def powerParts (p : ServicePacket) : List Part :=
  if 0 < p.powerState then
    [.s (bytes "Powerstate: "), .d p.powerState, .c, .s (bytes "SleepPeriod: "), .d p.sleepPeriod, .c,
      .s (bytes "RegistrationState: "), .d p.registrationState, .c]
  else []

def hostOf (env : Env) (p : ServicePacket) : List UInt8 :=
  match p.addressFamily with
  | .inet => bytes "239.255.255.250"
  | .inet6 => if env.isUrlV6UlaGua p.location then bytes "[FF05::C]" else bytes "[FF02::C]"

def replyParts (env : Env) (p : ServicePacket) : List Part :=
  [.R, .s (bytes "CACHE-CONTROL: max-age="), .d p.duration, .c, .D, .s (bytes "EXT:"), .c,
    .s (bytes "LOCATION: "), .s p.location, .c] ++ optParts env ++ [.S] ++ agentParts env ++
    [.s (bytes "ST: "), .s p.nt, .c, .s (bytes "USN: "), .s p.usn, .c] ++ powerParts p ++ [.c]

def notifyParts (env : Env) (nts : List UInt8) (p : ServicePacket) : List Part :=
  [.Q (bytes "*"), .s (bytes "HOST: "), .s (hostOf env p), .s (bytes ":"), .d 1900, .c,
    .s (bytes "CACHE-CONTROL: max-age="), .d p.duration, .c, .s (bytes "LOCATION: "), .s p.location, .c] ++
    optParts env ++ [.s (bytes "NT: "), .s p.nt, .c, .s (bytes "NTS: "), .s nts, .c, .S] ++
    agentParts env ++ [.s (bytes "USN: "), .s p.usn, .c] ++ powerParts p ++ [.c]

def createServicePacket (env : Env) (p : ServicePacket) : List UInt8 :=
  match p.msgType with
  | .reply => httpMakeMessage env (replyParts env p)
  | .advertisement => httpMakeMessage env (notifyParts env (bytes "ssdp:alive") p)
  | .shutdown => httpMakeMessage env (notifyParts env (bytes "ssdp:byebye") p)

/-! ### Lines -/

def lineOf (name : String) (value : List UInt8) : HeaderLine := ⟨bytes name, [SP], value⟩

def number (num : Int) : List UInt8 := decimalDigits (num % 2 ^ 64).toNat

def optLines (env : Env) : List HeaderLine :=
  match env.nls with
  | some nls =>
      [lineOf "OPT" (bytes "\"http://schemas.upnp.org/upnp/1/0/\"; ns=01"), lineOf "01-NLS" nls]
  | none => []

def agentLines (env : Env) : List HeaderLine :=
  match env.nls with
  | some _ => [lineOf "X-User-Agent" (bytes "redsonic")]
  | none => []

def powerLines (p : ServicePacket) : List HeaderLine :=
  if 0 < p.powerState then
    [lineOf "Powerstate" (number p.powerState), lineOf "SleepPeriod" (number p.sleepPeriod),
      lineOf "RegistrationState" (number p.registrationState)]
  else []

def maxAge (p : ServicePacket) : List UInt8 := bytes "max-age=" ++ number p.duration

def replyLines (env : Env) (p : ServicePacket) : List HeaderLine :=
  [lineOf "CACHE-CONTROL" (maxAge p), lineOf "DATE" env.date.text, ⟨bytes "EXT", [], []⟩,
    lineOf "LOCATION" p.location] ++ optLines env ++ [lineOf "SERVER" env.sdkInfo] ++ agentLines env ++
    [lineOf "ST" p.nt, lineOf "USN" p.usn] ++ powerLines p

def notifyLines (env : Env) (nts : List UInt8) (p : ServicePacket) : List HeaderLine :=
  [lineOf "HOST" (hostOf env p ++ bytes ":1900"), lineOf "CACHE-CONTROL" (maxAge p),
    lineOf "LOCATION" p.location] ++ optLines env ++ [lineOf "NT" p.nt, lineOf "NTS" nts,
    lineOf "SERVER" env.sdkInfo] ++ agentLines env ++ [lineOf "USN" p.usn] ++ powerLines p

/-- Dates and names short enough for the buffer of `http_MakeMessage`. -/
structure Env.Fits (env : Env) : Prop where
  date : env.date.text.length ≤ 190
  sdkInfo : env.sdkInfo.length ≤ 190

theorem httpMakeMessage_append (env : Env) (a b : List Part) :
    httpMakeMessage env (a ++ b) = httpMakeMessage env a ++ httpMakeMessage env b := List.flatMap_append

section
variable {env : Env} (p : ServicePacket)

theorem optParts_text : httpMakeMessage env (optParts env) = (optLines env).flatMap HeaderLine.text := by
  rw [optParts, optLines]
  cases env.nls with
  | none => rfl
  | some nls => simp [httpMakeMessage, Part.text, HeaderLine.text, lineOf, bytes, SP]

theorem agentParts_text :
    httpMakeMessage env (agentParts env) = (agentLines env).flatMap HeaderLine.text := by
  rw [agentParts, agentLines]
  cases env.nls with
  | none => rfl
  | some nls => simp [httpMakeMessage, Part.text, HeaderLine.text, lineOf, bytes, SP]

theorem powerParts_text :
    httpMakeMessage env (powerParts p) = (powerLines p).flatMap HeaderLine.text := by
  rw [powerParts, powerLines]
  split
  · simp [httpMakeMessage, Part.text, HeaderLine.text, lineOf, bytes, SP, number]
  · rfl

theorem date_text (fits : env.Fits) :
    Part.text env .D = bytes "DATE: " ++ env.date.text ++ [CR, LF] := by
  apply List.take_of_length_le
  have short := fits.date
  have name : (bytes "DATE: ").length = 6 := by decide
  simp only [List.length_append, name, List.length_cons, List.length_nil]
  omega

theorem server_text (fits : env.Fits) :
    Part.text env .S = bytes "SERVER: " ++ (env.sdkInfo ++ [CR, LF]) := by
  apply congrArg (bytes "SERVER: " ++ ·)
  apply List.take_of_length_le
  have short := fits.sdkInfo
  simp only [List.length_append, List.length_cons, List.length_nil]
  omega

theorem port_text : Part.text env (.d 1900) = bytes "1900" := by
  change number 1900 = bytes "1900"
  with_unfolding_all decide

theorem replyParts_text (fits : env.Fits) : httpMakeMessage env (replyParts env p) =
    bytes "HTTP/1.1 200 OK\r\n" ++ headerBlock (replyLines env p) := by
  have date := date_text fits
  have server := server_text fits
  simp only [replyParts, httpMakeMessage_append, optParts_text, agentParts_text, powerParts_text,
    headerBlock, replyLines, List.flatMap_append]
  simp only [httpMakeMessage, List.flatMap_cons, List.flatMap_nil, date, server]
  simp [Part.text, HeaderLine.text, lineOf, bytes, SP, maxAge, number, CR, LF]

theorem notifyParts_text (nts : List UInt8) (fits : env.Fits) :
    httpMakeMessage env (notifyParts env nts p) =
      bytes "NOTIFY * HTTP/1.1\r\n" ++ headerBlock (notifyLines env nts p) := by
  have server := server_text fits
  simp only [notifyParts, httpMakeMessage_append, optParts_text, agentParts_text, powerParts_text,
    headerBlock, notifyLines, List.flatMap_append]
  simp only [httpMakeMessage, List.flatMap_cons, List.flatMap_nil, server, port_text]
  simp [Part.text, HeaderLine.text, lineOf, bytes, SP, maxAge, number, CR, LF]

end

end Pupnp.Ssdp
