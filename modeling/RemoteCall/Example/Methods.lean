import RemoteCall.Service.Method

/-!
The methods of the example services.

Only `throwDeclared` declares a failure; what any other method raises reaches its caller
as a transport error.
-/

namespace RemoteCall
namespace Example

/-! ### Interfaces -/

def greeting : String := "example.Greeting"

def echo : String := "example.Echo"

def someTestMethods : String := "example.SomeTestMethods"

def throwException : String := "example.ThrowException"

/-! ### Methods -/

def greet : Method Unit String := .nullary greeting "greet" []

/-- Answers a text with itself. -/
def echoText : Method String String := .unary echo "echo" .str []

/-- Answers bytes with themselves: the same name, for another type. -/
def echoBytes : Method Bytes Bytes := .unary echo "echo" .bytes []

def add : Method (Int32 × Int32) Int32 := .binary someTestMethods "add" .int .int []

/-- Takes a message; meant for calls without a reply. -/
def log : Method String Unit := .unary someTestMethods "log" .str []

/-- Holds its thread for some milliseconds. -/
def sleep : Method Int64 Unit := .unary someTestMethods "sleep" .int []

def throwUndeclared : Method Unit Unit := .nullary someTestMethods "throw_exception" []

/-- The failure that `throwDeclared` declares. -/
def ioException : String := "IOException"

/-- The message that both throwing methods fail with. -/
def testExceptionMessage : String := "A test exception."

/-- Fails with a failure that it declares. -/
def throwDeclared : Method String Unit :=
  .unary throwException "throw_exception" .str [ioException]

end Example
end RemoteCall
