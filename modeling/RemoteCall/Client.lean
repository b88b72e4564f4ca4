import RemoteCall.Service.CallError
import RemoteCall.Thread

/-!
Clients: how calls are marked and cookies handed over, and what carries the calls.

A local client has its calls processed on the thread of their caller.  It opens and closes a
session by the rule that a remote client has for its connection.  A remote client exists only
with a valid configuration; that it has no address shows with its first call.
-/

namespace RemoteCall

/-! ### Settings -/

structure ClientSettings where
  /-- Asks to keep the connection for the next call. -/
  keepAlive : Bool := true
  /-- The cookie of the caller goes along with each call. -/
  sendCookies : Bool := false
  /-- The user data of each reply becomes the cookie of the caller. -/
  acceptCookies : Bool := false
  deriving DecidableEq, Repr, Inhabited

namespace ClientSettings

def mark (s : ClientSettings) (pattern : Pattern) (cookie : Cookie) (c : CallFrame) : CallFrame :=
  let c := (c.setPattern pattern).setKeepAlive s.keepAlive
  if s.sendCookies then { c with userData := cookie } else c

/-- The thread of the caller once a reply has come. -/
def adopt {σ : Type} (s : ClientSettings) (userData : Cookie) (t : Thread σ) : Thread σ :=
  if s.acceptCookies then t.setCookie userData else t

end ClientSettings

/-! ### Local clients -/

structure LocalClient extends ClientSettings where
  connected : Bool := false
  /-- How many sessions have been opened. -/
  sessions : Nat := 0
  deriving DecidableEq, Repr, Inhabited

namespace LocalClient

variable {σ : Type}

def dispose (k : LocalClient) : LocalClient := { k with connected := false }

def openSession (k : LocalClient) : LocalClient :=
  { k with connected := true, sessions := if k.connected then k.sessions else k.sessions + 1 }

/-- The client after a call: its session lives on only if it keeps connections. -/
def afterCall (k : LocalClient) : LocalClient :=
  if k.keepAlive then k.openSession else k.openSession.dispose

/-- Has a call processed.  The caller keeps its cookie, whatever the processor leaves. -/
def dispatch (process : Processor σ) (c : CallFrame) (pattern : Pattern) (k : LocalClient)
    (t : Thread σ) : ReturnFrame × Thread σ :=
  let (r, u) := process (k.mark pattern t.cookie c) t
  (r.setKeepAlive k.keepAlive, u.setCookie t.cookie)

def invoke (process : Processor σ) (c : CallFrame) (declared : List String)
    (s : LocalClient × Thread σ) : Except CallError Value × LocalClient × Thread σ :=
  let (r, t) := dispatch process c .inOut s.1 s.2
  (r.result.resolve declared, s.1.afterCall, s.1.adopt r.userData t)

def invokeInOnly (process : Processor σ) (c : CallFrame) (s : LocalClient × Thread σ) :
    Except CallError Unit × LocalClient × Thread σ :=
  let (_, t) := dispatch process c .inOnly s.1 s.2
  (.ok (), s.1.afterCall, t)

end LocalClient

/-! ### Remote clients -/

structure ClientConfig extends ClientSettings where
  host : Option String := none
  port : Option UInt16 := none
  /-- Bounds each round trip. -/
  callTimeout : Option Duration := none
  bufferSize : Nat := 8192
  deriving DecidableEq, Repr, Inhabited

namespace ClientConfig

def validate (c : ClientConfig) : Except ConfigurationError Unit :=
  if c.bufferSize < 1 then .error (.invalidPoolSize "buffer_size" c.bufferSize)
  else if c.callTimeout = some 0 then .error (.invalidTimeout "call_timeout")
  else .ok ()

/-- Where to connect.  The host is looked for first. -/
def address (c : ClientConfig) : Except ConfigurationError (String × UInt16) :=
  match c.host, c.port with
  | none, _ => .error .missingServiceAddress
  | some _, none => .error .missingPort
  | some host, some port => .ok (host, port)

end ClientConfig

structure RemoteClient where
  config : ClientConfig
  valid : config.validate = .ok ()
  connected : Bool := false
  /-- How many connections have been opened. -/
  connections : Nat := 0

namespace RemoteClient

def new (config : ClientConfig) : Except ConfigurationError RemoteClient :=
  match h : config.validate with
  | .error e => .error e
  | .ok () => .ok { config := config, valid := h }

def dispose (k : RemoteClient) : RemoteClient := { k with connected := false }

/-- Makes a call over what carries calls to an address.  Without an address nothing is
sent. -/
def carry {β : Type} (k : RemoteClient)
    (deliver : String → UInt16 → CallFrame → Except CallError β) (pattern : Pattern)
    (cookie : Cookie) (c : CallFrame) : Except CallError β :=
  match k.config.address with
  | .error e => .error (.ofConfiguration e)
  | .ok (host, port) => deliver host port (k.config.mark pattern cookie c)

/-- Makes a call over an open connection and resolves its reply.  Without a reply the
cookie of the caller stays as it is; the connection is held open if both ends keep it. -/
def invokeOver {ι ω δ σ : Type} (k : RemoteClient) (ch : Channel ι ω δ) (c : CallFrame)
    (declared : List String) (t : Thread σ) (s : Channel.State ι ω δ) :
    (Except CallError Value × RemoteClient × Thread σ) × Channel.State ι ω δ :=
  match ch.exchange (k.config.mark .inOut t.cookie c) k.config.callTimeout.isSome s with
  | (.error e, u) => ((.error (.ofSession e), k.dispose, t), u)
  | (.ok x, u) =>
    ((x.reply.result.resolve declared, { k with connected := x.keepAlive },
      k.config.adopt x.reply.userData t), u)

end RemoteClient

end RemoteCall
