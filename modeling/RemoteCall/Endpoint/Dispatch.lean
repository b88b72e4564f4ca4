import RemoteCall.Endpoint.Registry

/-!
Endpoints: every call is answered, whatever it asks for.

An unknown interface, an unknown method, arguments that do not convert, a failure of the
implementation and a breakdown of it all become failures in the reply.  A policy says how an
endpoint treats cookies, and which failures it reports.
-/

namespace RemoteCall

/-! ## Policies -/

structure EndpointPolicy where
  /-- The user data of a call becomes the cookie of its thread. -/
  acceptCookies : Bool := false
  /-- The cookie of the thread becomes the user data of a successful reply. -/
  sendCookies : Bool := false
  logInOnlyFailures : Bool := true
  logInOutFailures : Bool := true
  deriving DecidableEq, Repr, Inhabited

namespace EndpointPolicy

/-- Whether a failure of a call with this pattern is reported.  A call without a pattern
fails silently. -/
def logsFailuresOf (p : EndpointPolicy) : Option Pattern → Bool
  | some .inOnly => p.logInOnlyFailures
  | some .inOut => p.logInOutFailures
  | none => false

def handlesCookies (p : EndpointPolicy) : Bool := p.acceptCookies || p.sendCookies

/-- A policy as diagnostics show it. -/
def describe (p : EndpointPolicy) : String :=
  "EndpointPolicy \x7b accept_cookies: " ++ toString p.acceptCookies
    ++ ", send_cookies: " ++ toString p.sendCookies
    ++ ", log_in_only_failures: " ++ toString p.logInOnlyFailures
    ++ ", log_in_out_failures: " ++ toString p.logInOutFailures ++ " \x7d"

end EndpointPolicy

/-! ## Endpoints -/

structure Endpoint (σ : Type) where
  registry : Registry σ
  policy : EndpointPolicy := {}

namespace Endpoint

variable {σ : Type}

def interfaceMissing (c : CallFrame) : RemoteFailure :=
  .framework RemoteFailure.noInterface
    (c.interface ++ " is not a registered service endpoint interface.")

def methodMissing (c : CallFrame) : RemoteFailure :=
  .framework RemoteFailure.noSuchMethod
    (c.qualifiedName ++ "(" ++ ValueType.showList c.types ++ ")")

def breakdown (message : Option String) : RemoteFailure :=
  .framework RemoteFailure.panic (message.getD "endpoint panicked")

/-- What a caller learns of how an implementation ended. -/
def outcome : Ending Value → Outcome
  | .returned v => .value v
  | .raised f => .failure f
  | .panicked message => .failure (breakdown message)

/-- Runs the method that a call asks for. -/
def dispatch (e : Endpoint σ) (c : CallFrame) (t : Thread σ) : Ending Value × Thread σ :=
  match e.registry.lookup? c.interface with
  | none => (.raised (interfaceMissing c), t)
  | some table =>
    match table.find? c.method c.types with
    | none => (.raised (methodMissing c), t)
    | some m => m.invoke c.arguments t

/-- The thread on which a call is dispatched. -/
def accept (e : Endpoint σ) (c : CallFrame) (t : Thread σ) : Thread σ :=
  if e.policy.acceptCookies then t.setCookie c.userData else t

/-- The reply once an implementation has ended; only a success carries the cookie. -/
def reply (e : Endpoint σ) (ending : Ending Value) (cookie : Cookie) : ReturnFrame :=
  match outcome ending with
  | .value v =>
    { ReturnFrame.success v with userData := if e.policy.sendCookies then cookie else none }
  | .failure f => .failure f

/-- The thread once the reply is made. -/
def dismiss (e : Endpoint σ) (t : Thread σ) : Thread σ :=
  if e.policy.handlesCookies then t.setCookie none else t

def process (e : Endpoint σ) : Processor σ := fun c t =>
  let (ending, u) := e.dispatch c (e.accept c t)
  (e.reply ending u.cookie, e.dismiss u)

end Endpoint

end RemoteCall
