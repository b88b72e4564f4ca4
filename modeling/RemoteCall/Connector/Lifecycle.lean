import RemoteCall.Connector.Config

/-!
Connectors: set up while they are stopped, then started.

A change that is refused leaves the connector as it was.
-/

namespace RemoteCall

inductive ConnectionSecurity where
  | plain
  | tls
  deriving DecidableEq, Repr, Inhabited

def ConnectionSecurity.name : ConnectionSecurity → String
  | plain => "Plain"
  | tls => "Tls"

structure WorkerPool where
  address : SocketAddress
  running : Nat
  engaged : Nat
  deriving DecidableEq, Repr

/-- The network as a connector finds it. -/
structure Network where
  /-- The addresses of a host name. -/
  resolver : String → Except Fault (List IpAddress)
  /-- Binds an address and starts workers there. -/
  bind : SocketAddress → Except Fault WorkerPool

/-- A connector with a handler of type `η` and codecs of type `κ`. -/
structure Connector (η κ : Type) where
  config : ConnectorConfig := {}
  security : ConnectionSecurity := .plain
  codecs : κ
  handler : Option η := none
  pool : Option WorkerPool := none

inductive ConnectorError where
  | configuration (cause : ConfigurationError)
  | fault (cause : Fault)
  deriving DecidableEq, Repr

def ConnectorError.message : ConnectorError → String
  | configuration cause => cause.message
  | fault cause => "connector I/O failed: " ++ cause.message

namespace Connector

variable {η κ : Type}

def isRunning (c : Connector η κ) : Bool := c.pool.isSome

def localAddress (c : Connector η κ) : Option SocketAddress := c.pool.map WorkerPool.address

def threads (c : Connector η κ) : Nat := (c.pool.map WorkerPool.running).getD 0

/-- How many workers hold a connection. -/
def engaged (c : Connector η κ) : Nat := (c.pool.map WorkerPool.engaged).getD 0

def withConfig (c : Connector η κ) (config : ConnectorConfig) :
    Except ConfigurationError (Connector η κ) := do
  config.validate
  return { c with config := config }

def ensureStopped (c : Connector η κ) : Except ConfigurationError Unit :=
  if c.isRunning then .error .alreadyRunning else .ok ()

/-- Replaces one setting of a stopped connector, once it has been checked. -/
def change (c : Connector η κ) (check : Except ConfigurationError Unit)
    (config : ConnectorConfig) : Except ConfigurationError (Connector η κ) := do
  c.ensureStopped
  check
  return { c with config := config }

def setHandler (c : Connector η κ) (handler : η) : Except ConfigurationError (Connector η κ) := do
  c.ensureStopped
  return { c with handler := some handler }

def setCodecs (c : Connector η κ) (codecs : κ) : Except ConfigurationError (Connector η κ) := do
  c.ensureStopped
  return { c with codecs := codecs }

def setCoreThreads (c : Connector η κ) (n : Nat) : Except ConfigurationError (Connector η κ) :=
  c.change (ConnectorConfig.checkSize "core_threads" n) { c.config with coreThreads := n }

def setMaxThreads (c : Connector η κ) (n : Nat) : Except ConfigurationError (Connector η κ) :=
  c.change (ConnectorConfig.checkSize "max_threads" n) { c.config with maxThreads := n }

def setBufferSize (c : Connector η κ) (n : Nat) : Except ConfigurationError (Connector η κ) :=
  c.change (ConnectorConfig.checkSize "buffer_size" n) { c.config with bufferSize := n }

def setIdleTimeout (c : Connector η κ) (timeout : Option Duration) :
    Except ConfigurationError (Connector η κ) :=
  c.change (ConnectorConfig.checkIdleTimeout timeout) { c.config with idleTimeout := timeout }

def setBindAddress (c : Connector η κ) (ip : IpAddress) :
    Except ConfigurationError (Connector η κ) :=
  c.change (.ok ()) { c.config with bindAddress := some ip }

/-- Binds to the address of a host.  The host is resolved first. -/
def setBindingAddress (c : Connector η κ) (net : Network) (host : String) :
    Except ConfigurationError (Connector η κ) := do
  c.setBindAddress (← resolveHost net.resolver host)

def setPort (c : Connector η κ) (port : UInt16) : Except ConfigurationError (Connector η κ) :=
  c.change (.ok ()) { c.config with port := some port }

/-- Takes effect when the connector stops, so a running one may be changed too. -/
def setStopTimeout (c : Connector η κ) (timeout : Duration) : Connector η κ :=
  { c with config := { c.config with stopTimeout := timeout } }

/-- What a connector needs to start: its handler and where to listen. -/
def launch (c : Connector η κ) : Except ConfigurationError (η × SocketAddress) := do
  c.ensureStopped
  match c.handler with
  | none => .error .missingHandler
  | some handler => return (handler, ← c.config.socketAddress)

def start (net : Network) (c : Connector η κ) : Except ConnectorError (Connector η κ) :=
  match c.launch with
  | .error e => .error (.configuration e)
  | .ok (_, address) =>
    match net.bind address with
    | .error e => .error (.fault e)
    | .ok pool => .ok { c with pool := some pool }

def stop (c : Connector η κ) : Except ConfigurationError (Connector η κ) :=
  match c.pool with
  | none => .error .notRunning
  | some _ => .ok { c with pool := none }

end Connector

end RemoteCall
