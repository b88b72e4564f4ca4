import RemoteCall.Frame.Return
import RemoteCall.Session.Client

/-!
Call errors: what a caller learns when a call brings no result.

A failure that the method declares comes back as it was raised; everything else went
wrong around the call and is a transport error.
-/

namespace RemoteCall

inductive TransportError where
  | fault (cause : Fault)
  | codec (cause : CodecError)
  | noResponse
  /-- A failure that the method does not declare. -/
  | undeclaredFailure (failure : RemoteFailure)
  | configuration (cause : ConfigurationError)
  /-- The result is no value of the type that the method promises. -/
  | resultType (cause : Fault)
  deriving DecidableEq, Repr, Inhabited

namespace TransportError

def message : TransportError → String
  | fault cause => "transport I/O failed: " ++ cause.message
  | codec cause => cause.message
  | noResponse => "the server closed the connection without a response"
  | undeclaredFailure failure => "undeclared remote failure: " ++ failure.describe
  | configuration cause => cause.message
  | resultType cause => "the result has an unexpected type: " ++ cause.message

def label : TransportError → String
  | fault cause => "Transport." ++ cause.label
  | codec cause => "Transport." ++ cause.label
  | noResponse => "Transport.NoResponse"
  | undeclaredFailure _ => "Transport.UndeclaredFailure"
  | configuration cause => "Transport." ++ cause.label
  | resultType cause => "Transport.ResultType." ++ cause.label

/-- A session error, seen from a call.  A fault is a fault, wherever it arose. -/
def ofSession : SessionError → TransportError
  | .fault cause => fault cause
  | .codec (.fault cause) => fault cause
  | .codec cause => codec cause
  | .noResponse => noResponse

end TransportError

inductive CallError where
  /-- A failure that the method declares, as it was raised. -/
  | remote (failure : RemoteFailure)
  | transport (cause : TransportError)
  deriving DecidableEq, Repr, Inhabited

namespace CallError

def message : CallError → String
  | remote failure => failure.describe
  | transport cause => cause.message

def label : CallError → String
  | remote _ => "Remote"
  | transport cause => cause.label

def remoteFailure : CallError → Option RemoteFailure
  | remote failure => some failure
  | transport (.undeclaredFailure failure) => some failure
  | transport _ => none

def isTransport : CallError → Bool
  | remote _ => false
  | transport _ => true

def ofSession (e : SessionError) : CallError := transport (.ofSession e)

def ofConfiguration (e : ConfigurationError) : CallError := transport (.configuration e)

end CallError

/-- What an outcome means to a caller who declares some kinds of failures.  A failure of
the framework is never a declared one. -/
def Outcome.resolve (declared : List String) : Outcome → Except CallError Value
  | .value v => .ok v
  | .failure f =>
    if !f.isFramework && declared.any f.isKindOf then .error (.remote f)
    else .error (.transport (.undeclaredFailure f))

end RemoteCall
