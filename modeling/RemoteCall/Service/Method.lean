import RemoteCall.Frame.Call
import RemoteCall.Hash.Xxh3
import RemoteCall.Service.CallError

/-!
Methods: what a caller and an implementation agree on.

A method has a typed input and a typed output, and says how both travel as values.  Each of
its overloads has a number: a hash of the name, a terminator that occurs in no name, and the
tag of each parameter type.
-/

namespace RemoteCall

namespace Signature
/-- Ends the name: no byte of a UTF-8 string is `0xFF`. -/
def nameTerminator : UInt8 := 0xFF

def preimage (name : String) (types : List ValueType) : Bytes :=
  Bytes.ofString name ++ nameTerminator :: types.map fun t => UInt8.ofNat t.tag

/-- The id of an overload.  It does not depend on the interface. -/
def id (name : String) (types : List ValueType) : UInt64 := Hash.xxh3 (preimage name types)

end Signature

namespace Arguments

def wrongCount (expected found : Nat) : Fault :=
  .invalidData ("expected " ++ toString expected ++ " arguments, got " ++ toString found)

def expect (n : Nat) (vs : List Value) : Except Fault { vs : List Value // vs.length = n } :=
  if h : vs.length = n then .ok ⟨vs, h⟩ else .error (wrongCount n vs.length)

/-- Converts a value; a mismatch is invalid data. -/
def decode {α : Type} [Valued α] (v : Value) : Except Fault α :=
  match Valued.ofValue v with
  | .ok a => .ok a
  | .error m => .error (.invalidData m.message)

def decode0 (vs : List Value) : Except Fault Unit := do
  let _ ← expect 0 vs

def decode1 {α : Type} [Valued α] (vs : List Value) : Except Fault α := do
  let ⟨[v], _⟩ ← expect 1 vs
  decode v

/-- Two arguments, converted from left to right. -/
def decode2 {α β : Type} [Valued α] [Valued β] (vs : List Value) : Except Fault (α × β) := do
  let ⟨[v, w], _⟩ ← expect 2 vs
  let a ← decode v
  let b ← decode w
  pure (a, b)

end Arguments

/-- A method of an interface, with an input of type `α` and an output of type `β`. -/
structure Method (α β : Type) where
  interface : String
  name : String
  types : List ValueType
  /-- The kinds of failures that callers get as they were raised. -/
  declared : List String
  encodeArguments : α → Except Fault (List Value)
  decodeArguments : List Value → Except Fault α
  encodeResult : β → Except Fault Value
  decodeResult : Value → Except Fault β

namespace Method

variable {α β : Type}

def nullary [Valued β] (interface name : String) (declared : List String) : Method Unit β where
  interface := interface
  name := name
  types := []
  declared := declared
  encodeArguments _ := .ok []
  decodeArguments := Arguments.decode0
  encodeResult b := .ok (Valued.toValue b)
  decodeResult := Arguments.decode

def unary [Valued α] [Valued β] (interface name : String) (type : ValueType)
    (declared : List String) : Method α β where
  interface := interface
  name := name
  types := [type]
  declared := declared
  encodeArguments a := .ok [Valued.toValue a]
  decodeArguments := Arguments.decode1
  encodeResult b := .ok (Valued.toValue b)
  decodeResult := Arguments.decode

def binary {γ : Type} [Valued α] [Valued γ] [Valued β] (interface name : String)
    (first second : ValueType) (declared : List String) : Method (α × γ) β where
  interface := interface
  name := name
  types := [first, second]
  declared := declared
  encodeArguments a := .ok [Valued.toValue a.1, Valued.toValue a.2]
  decodeArguments := Arguments.decode2
  encodeResult b := .ok (Valued.toValue b)
  decodeResult := Arguments.decode

def signatureId (m : Method α β) : UInt64 := Signature.id m.name m.types

/-- The call for an input, with no flags. -/
def callFrame (m : Method α β) (a : α) : Except TransportError CallFrame :=
  match m.encodeArguments a with
  | .error e => .error (.fault e)
  | .ok vs =>
    match CallFrame.new m.interface m.name m.types vs with
    | .error e => .error (.configuration e)
    | .ok c => .ok c

/-- Makes the call for an input through a carrier of calls, and reads its result. -/
def callThrough {σ : Type} (m : Method α β)
    (invoke : CallFrame → List String → σ → Except CallError Value × σ) (a : α) (s : σ) :
    Except CallError β × σ :=
  match m.callFrame a with
  | .error e => (.error (.transport e), s)
  | .ok c =>
    match invoke c m.declared s with
    | (.error e, t) => (.error e, t)
    | (.ok v, t) =>
      match m.decodeResult v with
      | .error e => (.error (.transport (.resultType e)), t)
      | .ok b => (.ok b, t)

/-- Sends the call for an input through a carrier of calls; nothing is read back. -/
def sendThrough {σ : Type} (m : Method α β)
    (invoke : CallFrame → σ → Except CallError Unit × σ) (a : α) (s : σ) :
    Except CallError Unit × σ :=
  match m.callFrame a with
  | .error e => (.error (.transport e), s)
  | .ok c => invoke c s

end Method

end RemoteCall
