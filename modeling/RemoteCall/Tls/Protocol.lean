import RemoteCall.Configuration

/-!
TLS protocols: the versions that a side is willing to negotiate.
-/

namespace RemoteCall

inductive TlsVersion where
  | tls12
  | tls13
  deriving DecidableEq, Repr, Inhabited

def TlsVersion.name : TlsVersion → String
  | tls12 => "TLSv1_2"
  | tls13 => "TLSv1_3"

inductive TlsProtocol where
  /-- Any version. -/
  | any
  | tls12
  | tls13
  deriving DecidableEq, Repr, Inhabited

namespace TlsProtocol

def name : TlsProtocol → String
  | any => "Any"
  | tls12 => "Tls12"
  | tls13 => "Tls13"

/-- The versions of a protocol, the newest first. -/
def versions : TlsProtocol → List TlsVersion
  | any => [.tls13, .tls12]
  | tls12 => [.tls12]
  | tls13 => [.tls13]

/-- The protocol with a given name.  ASCII letters may have either case. -/
def ofName (name : String) : Except ConfigurationError TlsProtocol :=
  let upper := name.toList.map Char.toUpper
  if upper = "TLS".toList then .ok any
  else if upper = "TLSV1.2".toList then .ok tls12
  else if upper = "TLSV1.3".toList then .ok tls13
  else .error (.unknownTlsProtocol name)

end TlsProtocol

end RemoteCall
