import RemoteCall.Tls.Protocol

/-!
TLS settings: what each side of a connection is set up from.

Keys of type `κ` and trusted certificates of type `τ` are handed on as they are.
-/

namespace RemoteCall

structure TlsSettings (κ τ : Type) where
  /-- The name of a protocol. -/
  protocolName : String
  key : Option κ
  trust : Option τ
  /-- A server refuses clients without a trusted certificate. -/
  requireClientCertificate : Bool := false
  /-- The name a client verifies the server by. -/
  serverName : Option String := none
  deriving DecidableEq, Repr

/-- What a server negotiates with. -/
structure ServerTls (κ τ : Type) where
  key : κ
  versions : List TlsVersion
  /-- Whom clients are verified by, if they are. -/
  clients : Option τ

/-- What a client negotiates with. -/
structure ClientTls (κ τ : Type) where
  trust : τ
  versions : List TlsVersion
  key : Option κ

namespace TlsSettings

variable {κ τ : Type}

def defaultClientProtocol : String := "TLS"

def defaultServerProtocol : String := "TLSv1.2"

def client (trust : τ) : TlsSettings κ τ := ⟨defaultClientProtocol, none, some trust, false, none⟩

def server (key : κ) : TlsSettings κ τ := ⟨defaultServerProtocol, some key, none, false, none⟩

def protocol (s : TlsSettings κ τ) : Except ConfigurationError TlsProtocol :=
  TlsProtocol.ofName s.protocolName

def requireTrust (s : TlsSettings κ τ) : Except ConfigurationError τ :=
  match s.trust with
  | none => .error (.tlsMaterial "no trust material configured")
  | some trust => .ok trust

/-- Sets up a server.  A missing key is noticed before an unknown protocol. -/
def forServer (s : TlsSettings κ τ) : Except ConfigurationError (ServerTls κ τ) :=
  match s.key with
  | none => .error (.tlsMaterial "a server needs key material")
  | some key => do
    let p ← s.protocol
    if s.requireClientCertificate then return ⟨key, p.versions, some (← s.requireTrust)⟩
    else return ⟨key, p.versions, none⟩

/-- Sets up a client.  Missing trust is noticed before an unknown protocol. -/
def forClient (s : TlsSettings κ τ) : Except ConfigurationError (ClientTls κ τ) := do
  let trust ← s.requireTrust
  let p ← s.protocol
  return ⟨trust, p.versions, s.key⟩

end TlsSettings

end RemoteCall
