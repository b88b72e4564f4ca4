/-!
Remote failures: what went wrong on the far side, as it travels back to the caller.
-/

namespace RemoteCall

/-- Who raised a failure: the implementation of the method, or the machinery around
it. -/
inductive Origin where
  | endpoint
  | framework
  deriving DecidableEq, Repr, Inhabited

/-- A failure of a call.  `supertypes` are broader kinds it also counts as, the most
specific first. -/
structure RemoteFailure where
  kind : String
  supertypes : List String
  message : String
  trace : List String
  origin : Origin
  deriving DecidableEq, Repr, Inhabited

namespace RemoteFailure

def raised (kind message : String) : RemoteFailure := ⟨kind, [], message, [], .endpoint⟩

def framework (kind message : String) : RemoteFailure := ⟨kind, [], message, [], .framework⟩

def noInterface : String := "NoInterface"

def noSuchMethod : String := "NoSuchMethod"

/-- The arguments, or the result, could not be converted. -/
def invalidArguments : String := "InvalidArguments"

def panic : String := "Panic"

def withSupertype (f : RemoteFailure) (kind : String) : RemoteFailure :=
  { f with supertypes := f.supertypes ++ [kind] }

def withTraceLine (f : RemoteFailure) (line : String) : RemoteFailure :=
  { f with trace := f.trace ++ [line] }

/-- Is this failure of the given kind, or of a narrower one? -/
def isKindOf (f : RemoteFailure) (kind : String) : Bool :=
  f.kind == kind || f.supertypes.contains kind

def isFramework (f : RemoteFailure) : Bool := f.origin == .framework

def describe (f : RemoteFailure) : String := f.kind ++ ": " ++ f.message

end RemoteFailure

end RemoteCall
