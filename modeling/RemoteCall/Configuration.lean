import RemoteCall.Stream.Fault

/-!
Setting up: timeouts, and what a component refuses while it is being set up, with the text
each cause is reported by.
-/

namespace RemoteCall

/-- A span of time, to the nanosecond. -/
structure Duration where
  seconds : UInt64
  nanoseconds : Fin 1000000000
  deriving DecidableEq, Repr

namespace Duration

instance : Zero Duration := ⟨0, 0⟩

def ofMillis (n : UInt64) : Duration := ⟨n / 1000, n.toNat % 1000 * 1000000, by omega⟩

end Duration

/-- Why a component, or a frame, cannot be set up as asked. -/
inductive ConfigurationError where
  | invalidPoolSize (name : String) (value : Nat)
  | invalidTimeout (name : String)
  | alreadyRunning
  | notRunning
  | missingHandler
  | missingBindAddress
  | missingServiceAddress
  | missingPort
  | unresolvableAddress (host : String)
  | missingInterface
  | missingMethodName
  | arityMismatch (types arguments : Nat)
  | alreadyRegistered (interface : String)
  | noInterface (endpoint : String)
  | multipleInterfaces (endpoint : String)
  | unknownTlsProtocol (name : String)
  | tlsMaterial (reason : String)
  | tlsMaterialFile (path : String) (cause : Fault)
  deriving DecidableEq, Repr, Inhabited

namespace ConfigurationError

def message : ConfigurationError → String
  | invalidPoolSize name value => name ++ " must be at least 1, got " ++ toString value
  | invalidTimeout name => name ++ " must be greater than zero"
  | alreadyRunning => "the component is already running"
  | notRunning => "the component is not running"
  | missingHandler => "no session handler is attached"
  | missingBindAddress => "no binding address is configured"
  | missingServiceAddress => "no service address is configured"
  | missingPort => "no port is configured"
  | unresolvableAddress host => "cannot resolve address \x60" ++ host ++ "\x60"
  | missingInterface => "no interface name"
  | missingMethodName => "no method name"
  | arityMismatch types arguments =>
    "the number of parameter types (" ++ toString types
      ++ ") does not match the number of arguments (" ++ toString arguments ++ ")"
  | alreadyRegistered interface => interface ++ " is already registered as an interface"
  | noInterface endpoint => endpoint ++ " does not implement an interface"
  | multipleInterfaces endpoint => endpoint ++ " implements multiple interfaces"
  | unknownTlsProtocol name => "unknown TLS protocol name \x60" ++ name ++ "\x60"
  | tlsMaterial reason => "invalid TLS material: " ++ reason
  | tlsMaterialFile path cause => "cannot read TLS material from " ++ path ++ ": " ++ cause.message

def shortName : ConfigurationError → String
  | invalidPoolSize _ _ => "InvalidPoolSize"
  | invalidTimeout _ => "InvalidTimeout"
  | alreadyRunning => "AlreadyRunning"
  | notRunning => "NotRunning"
  | missingHandler => "MissingHandler"
  | missingBindAddress => "MissingBindAddress"
  | missingServiceAddress => "MissingServiceAddress"
  | missingPort => "MissingPort"
  | unresolvableAddress _ => "UnresolvableAddress"
  | missingInterface => "MissingInterface"
  | missingMethodName => "MissingMethodName"
  | arityMismatch _ _ => "ArityMismatch"
  | alreadyRegistered _ => "AlreadyRegistered"
  | noInterface _ => "NoInterface"
  | multipleInterfaces _ => "MultipleInterfaces"
  | unknownTlsProtocol _ => "UnknownTlsProtocol"
  | tlsMaterial _ => "TlsMaterial"
  | tlsMaterialFile _ _ => "TlsMaterialIo"

def label (e : ConfigurationError) : String := "Configuration." ++ e.shortName

end ConfigurationError

end RemoteCall
