import RemoteCall.Endpoint.Dispatch
import RemoteCall.Example.Methods

/-!
The example services: an implementation for each example interface, and a registry of
all four.  They remember nothing from one call to the next.
-/

namespace RemoteCall
namespace Example

variable {σ : Type}

/-- An implementation that answers from its input alone. -/
def answering {α β : Type} (f : α → Except RemoteFailure β) : Implementation σ α β := fun a t =>
  match f a with
  | .ok b => (.returned b, t)
  | .error e => (.raised e, t)

/-- The sum, unless it leaves the range of its type. -/
def checkedAdd (a b : Int32) : Except RemoteFailure Int32 :=
  let sum := a.toInt + b.toInt
  if Int32.minValue.toInt ≤ sum ∧ sum ≤ Int32.maxValue.toInt then .ok (Int32.ofInt sum)
  else .error (.raised "ArithmeticException" "integer overflow")

/-- Refuses a negative time.  The time itself is no part of the answer. -/
def checkedSleep (millis : Int64) : Except RemoteFailure Unit :=
  if millis < 0 then .error (.raised "IllegalArgumentException" "negative sleep time") else .ok ()

def greetingTable : InterfaceTable σ :=
  (InterfaceTable.marker greeting).method greet (answering fun _ => .ok "Hello world!")

def echoTable : InterfaceTable σ :=
  ((InterfaceTable.marker echo).method echoText (answering .ok)).method echoBytes (answering .ok)

def someTestMethodsTable : InterfaceTable σ :=
  ((((InterfaceTable.marker someTestMethods).method
    add (answering fun p => checkedAdd p.1 p.2)).method
    log (answering fun _ => .ok ())).method
    sleep (answering checkedSleep)).method
    throwUndeclared (answering fun _ =>
      .error (.raised "IllegalStateException" testExceptionMessage))

def throwExceptionTable : InterfaceTable σ :=
  (InterfaceTable.marker throwException).method
    throwDeclared (answering fun _ => .error (.raised ioException testExceptionMessage))

def registry : Except ConfigurationError (Registry σ) := do
  let r ← Registry.empty.registerImplementation "GreetingService" [greetingTable]
  let r ← r.registerImplementation "EchoService" [echoTable]
  let r ← r.registerImplementation "SomeTestMethodsService" [someTestMethodsTable]
  r.registerImplementation "ThrowExceptionService" [throwExceptionTable]

end Example
end RemoteCall
