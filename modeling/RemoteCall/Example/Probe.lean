import RemoteCall.Endpoint.Table

/-!
A probe: an interface whose methods end in every way that a method can, and look at the
cookie of their thread or change it.
-/

namespace RemoteCall
namespace Example
namespace Probe

variable {σ : Type}

/-- A method of a probe, which no caller has types for. -/
def entry {α : Type} (name : String) (types : List ValueType)
    (decode : List Value → Except Fault α) (run : Implementation σ α Value) : MethodEntry σ :=
  .ofMethod ⟨"", name, types, [], fun _ => .ok [], decode, .ok, .ok⟩ run

/-- Breaks down with a message that depends on the input, or without one. -/
def panics {α : Type} (message : α → Option String) : Implementation σ α Value :=
  fun a t => (.panicked (message a), t)

def cookieOf (t : Thread σ) : Value := (t.cookie.map Value.bytes).getD .null

structure Parts where
  kind : String
  supertypes : List String
  message : String
  trace : List String

def Parts.types : List ValueType := [.str, .strList, .str, .strList]

def Parts.decode (vs : List Value) : Except Fault Parts := do
  let ⟨[a, b, c, d], _⟩ ← Arguments.expect 4 vs
  return ⟨← Arguments.decode a, ← Arguments.decode b, ← Arguments.decode c, ← Arguments.decode d⟩

/-- Fails with the failure that its input is made of. -/
def fails (make : String → String → RemoteFailure) : Implementation σ Parts Value := fun p t =>
  (.raised { make p.kind p.message with supertypes := p.supertypes, trace := p.trace }, t)

/-- Answers a value of type `α` with itself. -/
def identity (α : Type) [Valued α] (name : String) (type : ValueType) : MethodEntry σ :=
  entry name [type] (Arguments.decode1 (α := α)) fun a t => (.returned (Valued.toValue a), t)

/-- Ends well, with a result that cannot be encoded. -/
def badResult : MethodEntry σ :=
  .ofMethod { (Method.unary "" "bad_result" .str [] : Method String String) with
      encodeResult := fun s => .error (.other s) }
    fun s t => (.returned s, t)

def methods : List (MethodEntry σ) :=
  [entry "panic" [] Arguments.decode0 (panics fun _ => some "static boom"),
   entry "panic" [.str] Arguments.decode1 (panics fun s => some ("boom: " ++ s)),
   entry "panic" [.int] Arguments.decode1 (panics fun (_ : Int64) => none),
   entry "set_cookie" [.bytes] Arguments.decode1 fun bs t =>
     (.returned (cookieOf t), t.setCookie (some bs)),
   entry "get_cookie" [] Arguments.decode0 fun _ t => (.returned (cookieOf t), t),
   entry "cookie_fail" [.bytes] Arguments.decode1 fun bs t =>
     (.raised (.raised "CookieFail" "after setting the cookie"), t.setCookie (some bs)),
   entry "fail" Parts.types Parts.decode (fails .raised),
   entry "fail_framework" Parts.types Parts.decode (fails .framework),
   badResult, identity Int32 "narrow" .int, identity Unit "id" .null, identity Bool "id" .bool,
   identity Int64 "id" .int, identity Binary64 "id" .float, identity String "id" .str,
   identity Bytes "id" .bytes, identity (List Binary64) "id" .floatList,
   identity (List String) "id" .strList]

def table (interface : String) : InterfaceTable σ :=
  methods.foldl InterfaceTable.insert (.marker interface)

end Probe
end Example
end RemoteCall
