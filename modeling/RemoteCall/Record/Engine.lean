import RemoteCall.Stream.Fault
import RemoteCall.Stream.Window

/-!
Record engines: state machines that turn plaintext into records and back.

An engine moves bytes between windows and never touches a socket.  It says what it
needs next to get a handshake done, and it reports what each step consumed and
produced.
-/

namespace RemoteCall
namespace Record

/-- What an engine needs next for its handshake. -/
inductive HandshakeStatus where
  | notHandshaking
  | finished
  | needTask
  | needWrap
  | needUnwrap
  deriving DecidableEq, Repr, Inhabited

namespace HandshakeStatus

def all : List HandshakeStatus := [notHandshaking, finished, needTask, needWrap, needUnwrap]

def name : HandshakeStatus → String
  | notHandshaking => "NotHandshaking"
  | finished => "Finished"
  | needTask => "NeedTask"
  | needWrap => "NeedWrap"
  | needUnwrap => "NeedUnwrap"

end HandshakeStatus

/-- What a wrap or an unwrap came to. -/
inductive Status where
  | ok
  /-- Not enough ciphertext for a step. -/
  | bufferUnderflow
  /-- No room for what would be produced. -/
  | bufferOverflow
  | closed
  deriving DecidableEq, Repr, Inhabited

namespace Status

def all : List Status := [ok, bufferUnderflow, bufferOverflow, closed]

def name : Status → String
  | ok => "Ok"
  | bufferUnderflow => "BufferUnderflow"
  | bufferOverflow => "BufferOverflow"
  | closed => "Closed"

end Status

structure Report where
  status : Status
  handshake : HandshakeStatus
  consumed : Nat
  produced : Nat
  deriving DecidableEq, Repr, Inhabited

structure Moved (ε : Type) where
  report : Except Fault Report
  src : Window
  dst : Window
  engine : ε

/-- What was put into the destination `dst`, behind what that held before. -/
def Moved.made {ε : Type} (m : Moved ε) (dst : Window) : Bytes := m.dst.before.drop dst.position

structure Engine (ε : Type) where
  beginHandshake : ε → Except Fault Unit × ε
  handshake : ε → HandshakeStatus
  /-- Turns plaintext in the first window into records in the second. -/
  wrap : Window → Window → ε → Moved ε
  /-- Turns records in the first window into plaintext in the second. -/
  unwrap : Window → Window → ε → Moved ε
  runTask : ε → Except Fault Unit × ε
  /-- Queues the close notification. -/
  closeOutbound : ε → ε
  /-- Closes the inbound side; what still arrives is ignored. -/
  closeInbound : ε → ε
  outboundDone : ε → Bool
  inboundDone : ε → Bool
  /-- Room that is enough for the plaintext of any record. -/
  plaintextSize : ε → Nat
  /-- Room that is enough for any record. -/
  recordSize : ε → Nat

/-- A call of an engine: for a wrap or an unwrap, with what was offered and how much
room there was. -/
inductive Engine.Call where
  | beginHandshake
  | wrap (offered : Bytes) (room : Nat)
  | unwrap (offered : Bytes) (room : Nat)
  | runTask
  | closeOutbound
  | closeInbound
  deriving DecidableEq, Repr, Inhabited

/-- An engine that keeps a list of the calls it gets. -/
def Engine.traced {ε : Type} (e : Engine ε) : Engine (ε × List Engine.Call) where
  beginHandshake s := ((e.beginHandshake s.1).1, (e.beginHandshake s.1).2, s.2 ++ [.beginHandshake])
  handshake s := e.handshake s.1
  wrap src dst s :=
    let m := e.wrap src dst s.1
    ⟨m.report, m.src, m.dst, m.engine, s.2 ++ [.wrap src.span dst.remaining]⟩
  unwrap src dst s :=
    let m := e.unwrap src dst s.1
    ⟨m.report, m.src, m.dst, m.engine, s.2 ++ [.unwrap src.span dst.remaining]⟩
  runTask s := ((e.runTask s.1).1, (e.runTask s.1).2, s.2 ++ [.runTask])
  closeOutbound s := (e.closeOutbound s.1, s.2 ++ [.closeOutbound])
  closeInbound s := (e.closeInbound s.1, s.2 ++ [.closeInbound])
  outboundDone s := e.outboundDone s.1
  inboundDone s := e.inboundDone s.1
  plaintextSize s := e.plaintextSize s.1
  recordSize s := e.recordSize s.1

end Record
end RemoteCall
