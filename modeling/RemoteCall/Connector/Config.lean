import RemoteCall.Configuration
import RemoteCall.Connector.Address

/-!
Connector configuration: where a connector listens, and with how many workers.
-/

namespace RemoteCall

structure ConnectorConfig where
  bindAddress : Option IpAddress := none
  port : Option UInt16 := none
  /-- The workers that are started with the connector. -/
  coreThreads : Nat := 4
  /-- The most workers there may be. -/
  maxThreads : Nat := 10
  /-- How long to wait for the workers when the connector stops. -/
  stopTimeout : Duration := .ofMillis 1000
  bufferSize : Nat := 8192
  /-- Closes a connection that is silent for so long. -/
  idleTimeout : Option Duration := none
  deriving DecidableEq, Repr

namespace ConnectorConfig

def checkSize (name : String) (n : Nat) : Except ConfigurationError Unit :=
  if n < 1 then .error (.invalidPoolSize name n) else .ok ()

def checkIdleTimeout (timeout : Option Duration) : Except ConfigurationError Unit :=
  if timeout = some 0 then .error (.invalidTimeout "idle_timeout") else .ok ()

def validate (c : ConnectorConfig) : Except ConfigurationError Unit := do
  checkSize "core_threads" c.coreThreads
  checkSize "max_threads" c.maxThreads
  checkSize "buffer_size" c.bufferSize
  checkIdleTimeout c.idleTimeout

/-- Where to listen.  The address is looked for first. -/
def socketAddress (c : ConnectorConfig) : Except ConfigurationError SocketAddress :=
  match c.bindAddress, c.port with
  | none, _ => .error .missingBindAddress
  | some _, none => .error .missingPort
  | some ip, some port => .ok ⟨ip, port⟩

end ConnectorConfig

/-- The address of a host: the one that its text is the form of, or else the first that a
resolver finds for it. -/
def resolveHost (resolver : String → Except Fault (List IpAddress)) (host : String) :
    Except ConfigurationError IpAddress :=
  match IpAddress.ofText? host with
  | some ip => .ok ip
  | none =>
    match resolver host with
    | .ok (ip :: _) => .ok ip
    | _ => .error (.unresolvableAddress host)

end RemoteCall
