import RemoteCall.Configuration
import RemoteCall.Frame.Flags
import RemoteCall.Frame.Value

/-!
Call frames: one request for one method.

Names are fixed at construction and never empty.  A new frame has as many arguments as
parameter types; a dispatcher that takes the arguments away leaves the types.
-/

namespace RemoteCall

structure CallFrame where
  interface : String
  method : String
  types : List ValueType
  arguments : List Value
  flags : Flags
  userData : Option Bytes
  interface_ne : interface ≠ ""
  method_ne : method ≠ ""
  deriving DecidableEq

namespace CallFrame

/-- A frame with no flags and no user data. -/
def new (interface method : String) (types : List ValueType) (arguments : List Value) :
    Except ConfigurationError CallFrame :=
  if hi : interface = "" then .error .missingInterface
  else if hm : method = "" then .error .missingMethodName
  else if types.length ≠ arguments.length then
    .error (.arityMismatch types.length arguments.length)
  else .ok ⟨interface, method, types, arguments, 0, none, hi, hm⟩

def isKeepAlive (c : CallFrame) : Bool := c.flags.isKeepAlive

def setKeepAlive (c : CallFrame) (keep : Bool) : CallFrame :=
  { c with flags := c.flags.withKeepAlive keep }

def pattern? (c : CallFrame) : Option Pattern := c.flags.pattern?

def setPattern (c : CallFrame) (p : Pattern) : CallFrame :=
  { c with flags := c.flags.withPattern p }

/-- Does the caller wait for a reply? -/
def isInOut (c : CallFrame) : Bool := c.pattern? == some .inOut

/-- Does the caller wait for no reply? -/
def isInOnly (c : CallFrame) : Bool := c.pattern? == some .inOnly

def withoutArguments (c : CallFrame) : CallFrame := { c with arguments := [] }

/-- The method with its interface, for messages. -/
def qualifiedName (c : CallFrame) : String := c.interface ++ "#" ++ c.method

/-- Equality with floating-point numbers compared as numbers. -/
def agrees (c d : CallFrame) : Bool :=
  c.interface == d.interface && c.method == d.method && c.types == d.types
    && c.arguments.length == d.arguments.length
    && (c.arguments.zip d.arguments).all (fun p => p.1.agrees p.2)
    && c.flags == d.flags && c.userData == d.userData

end CallFrame

end RemoteCall
