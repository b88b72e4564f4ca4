import RemoteCall.Record.Engine

/-!
A scripted record engine: what each of its steps does is written down beforehand.
-/

namespace RemoteCall
namespace Record

/-- One step of a scripted engine.  It may change what the handshake needs and whether
a side is done.  Unless it fails, it takes bytes from one window and puts bytes into
the other, and reports the true counts or the ones given. -/
structure Action where
  handshake : Option HandshakeStatus
  outboundDone : Bool
  inboundDone : Bool
  fault : Option Fault
  take : Nat
  put : Bytes
  status : Status
  consumed : Option Nat
  produced : Option Nat
  deriving Inhabited

/-- The state of a scripted engine: the steps still to come, by kind. -/
structure Scripted where
  handshake : HandshakeStatus
  begins : List Action
  wraps : List Action
  unwraps : List Action
  tasks : List Action
  outboundDone : Bool
  inboundDone : Bool
  plaintextSize : Nat
  recordSize : Nat
  deriving Inhabited

namespace Scripted

def apply (a : Action) (e : Scripted) : Scripted :=
  { e with
    handshake := a.handshake.getD e.handshake
    outboundDone := e.outboundDone || a.outboundDone
    inboundDone := e.inboundDone || a.inboundDone }

def exhausted (kind : String) : Fault := .other (kind ++ " script exhausted")

def move (a : Action) (src dst : Window) (e : Scripted) : Moved Scripted :=
  match a.fault with
  | some f => ⟨.error f, src, dst, e⟩
  | none =>
    ⟨.ok ⟨a.status, e.handshake, a.consumed.getD (min a.take src.remaining),
        a.produced.getD (dst.putCount a.put)⟩,
      src.skip a.take, dst.put a.put, e⟩

def answer (a : Action) : Except Fault Unit :=
  match a.fault with
  | some f => .error f
  | none => .ok ()

def engine : Engine Scripted where
  beginHandshake e :=
    match e.begins with
    | [] => (.ok (), e)
    | a :: rest => (answer a, { e with begins := rest }.apply a)
  handshake := handshake
  wrap src dst e :=
    match e.wraps with
    | [] => ⟨.error (exhausted "wrap"), src, dst, e⟩
    | a :: rest => move a src dst ({ e with wraps := rest }.apply a)
  unwrap src dst e :=
    match e.unwraps with
    | [] => ⟨.error (exhausted "unwrap"), src, dst, e⟩
    | a :: rest => move a src dst ({ e with unwraps := rest }.apply a)
  runTask e :=
    match e.tasks with
    | [] => (.error (exhausted "task"), e)
    | a :: rest => (answer a, { e with tasks := rest }.apply a)
  closeOutbound e := e
  closeInbound e := e
  outboundDone := outboundDone
  inboundDone := inboundDone
  plaintextSize := plaintextSize
  recordSize := recordSize

end Scripted
end Record
end RemoteCall
