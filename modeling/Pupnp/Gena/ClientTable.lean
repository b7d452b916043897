import Mathlib.Data.List.GetD
import Mathlib.Data.List.Infix
import Pupnp.Library.CString

/-! The list of subscriptions that a control point keeps, `ClientSubList`. -/

namespace Pupnp.Gena
open Pupnp.CString

/-- `GenlibClientSubscription`. The SID is the one that the application knows, the actual SID the one
that the device has sent. -/
structure ClientSubscription where
  renewEventId : Int
  sid : List UInt8
  actualSID : List UInt8
  eventURL : List UInt8
  deriving DecidableEq, Repr

def getClientSubClientSID (head : List ClientSubscription) (sid : List UInt8) : Option ClientSubscription :=
  head.find? (·.sid = sid)

/-- `RemoveClientSubClientSID`, without the removal of the timer event: the subscription that it frees
and the list. -/
def removeClientSubClientSID (head : List ClientSubscription) (sid : List UInt8) :
    Option ClientSubscription × List ClientSubscription :=
  (head.find? (·.sid = sid), head.eraseP (·.sid = sid))

/-- The memory from the first byte of a C string on; `behind` is what lies behind its terminator. -/
def memoryOf (text : List UInt8) (behind : Nat → UInt8) (i : Nat) : UInt8 :=
  if i < text.length then text.getD i 0 else if i = text.length then 0 else behind (i - text.length - 1)

def startsMemory (text : List UInt8) (behind : Nat → UInt8) (s : List UInt8) : Bool :=
  s == (List.range s.length).map (memoryOf text behind)

def getClientSubActualSID (behind : ClientSubscription → Nat → UInt8) (head : List ClientSubscription)
    (sid : List UInt8) : Option ClientSubscription :=
  head.find? fun sub => startsMemory sub.actualSID (behind sub) sid

end Pupnp.Gena
