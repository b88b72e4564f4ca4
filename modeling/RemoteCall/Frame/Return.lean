import RemoteCall.Frame.Flags
import RemoteCall.Frame.RemoteFailure
import RemoteCall.Frame.Value

/-!
Return frames: the answer to one call.
-/

namespace RemoteCall

inductive Outcome where
  | value (v : Value)
  | failure (f : RemoteFailure)
  deriving DecidableEq, Repr, Inhabited

/-- Equality with floating-point numbers compared as numbers. -/
def Outcome.agrees : Outcome → Outcome → Bool
  | value v, value w => v.agrees w
  | failure f, failure g => f == g
  | _, _ => false

/-- The answer to a call.  Its one flag with a meaning says whether the connection
outlives this round trip. -/
structure ReturnFrame where
  result : Outcome
  flags : Flags
  userData : Option Bytes
  deriving DecidableEq, Repr, Inhabited

namespace ReturnFrame

def new (result : Outcome) : ReturnFrame := ⟨result, 0, none⟩

def success (v : Value) : ReturnFrame := new (.value v)

def failure (f : RemoteFailure) : ReturnFrame := new (.failure f)

def isFailure (r : ReturnFrame) : Bool :=
  match r.result with
  | .value _ => false
  | .failure _ => true

def isKeepAlive (r : ReturnFrame) : Bool := r.flags.isKeepAlive

def setKeepAlive (r : ReturnFrame) (keep : Bool) : ReturnFrame :=
  { r with flags := r.flags.withKeepAlive keep }

/-- Equality with floating-point numbers compared as numbers. -/
def agrees (r s : ReturnFrame) : Bool :=
  r.result.agrees s.result && r.flags == s.flags && r.userData == s.userData

end ReturnFrame

end RemoteCall
