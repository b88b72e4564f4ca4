import RemoteCall.Record.Engine

/-!
Length records: the smallest record layer with all the parts of a large one.

A record is a length byte and that many bytes of plaintext; a length of zero closes.
The handshake is a list of statuses to go through: a greeting is sent where the list
says `needWrap` and taken where it says `needUnwrap`.
-/

namespace RemoteCall
namespace Record

structure LengthRecords where
  script : List HandshakeStatus
  plaintextSize : Nat
  recordSize : Nat
  begun : Bool
  closing : Bool
  closeSent : Bool
  inboundDone : Bool
  deriving Repr, Inhabited

namespace LengthRecords

/-- What both sides send in a handshake. -/
def greeting : Bytes := [0x68, 0x69]

/-- The most plaintext that one record carries. -/
def maxPlaintext : Nat := 255

def new (script : List HandshakeStatus) (plaintextSize recordSize : Nat) : LengthRecords :=
  ⟨script, plaintextSize, recordSize, false, false, false, false⟩

/-- What the handshake needs; nothing before it begins or after its list. -/
def handshake (e : LengthRecords) : HandshakeStatus :=
  if e.begun then e.script.headD .notHandshaking else .notHandshaking

def step (e : LengthRecords) : LengthRecords := { e with script := e.script.tail }

def moved (status : Status) (consumed produced : Nat) (src dst : Window) (e : LengthRecords) :
    Moved LengthRecords :=
  ⟨.ok ⟨status, e.handshake, consumed, produced⟩, src, dst, e⟩

def wrap (src dst : Window) (e : LengthRecords) : Moved LengthRecords :=
  if e.handshake = .needWrap then
    moved .ok 0 greeting.length src (dst.put greeting) e.step
  else if e.closing then
    if e.closeSent then moved .closed 0 0 src dst e
    else moved .closed 0 1 src (dst.put [0]) { e with closeSent := true }
  else
    let n := min (min src.remaining maxPlaintext) (dst.remaining - 1)
    if n = 0 then moved .bufferOverflow 0 0 src dst e
    else moved .ok n (n + 1) (src.skip n) (dst.put (UInt8.ofNat n :: src.peek n)) e

def unwrap (src dst : Window) (e : LengthRecords) : Moved LengthRecords :=
  if e.handshake = .needUnwrap then
    if src.remaining < 2 then moved .bufferUnderflow 0 0 src dst e
    else if src.peek 2 ≠ greeting then ⟨.error (.invalidData "bad greeting"), src, dst, e⟩
    else moved .ok 2 0 (src.skip 2) dst e.step
  else if e.inboundDone then moved .closed 0 0 src dst e
  else
    match src.span with
    | [] => moved .bufferUnderflow 0 0 src dst e
    | len :: rest =>
      if len = 0 then moved .closed 1 0 (src.skip 1) dst { e with inboundDone := true }
      else if rest.length < len.toNat then moved .bufferUnderflow 0 0 src dst e
      else if dst.remaining < len.toNat then moved .bufferOverflow 0 0 src dst e
      else
        moved .ok (len.toNat + 1) len.toNat (src.skip (len.toNat + 1))
          (dst.put (rest.take len.toNat)) e

def engine : Engine LengthRecords where
  beginHandshake e := (.ok (), { e with begun := true })
  handshake := handshake
  wrap := wrap
  unwrap := unwrap
  runTask e := (.ok (), if e.handshake = .needTask then e.step else e)
  closeOutbound e := { e with closing := true }
  closeInbound e := { e with inboundDone := true }
  outboundDone := closeSent
  inboundDone := inboundDone
  plaintextSize := plaintextSize
  recordSize := recordSize

theorem runTask_of_needTask {e : LengthRecords} (h : e.handshake = .needTask) :
    engine.runTask e = (.ok (), e.step) := congrArg (Prod.mk _) (if_pos h)

end LengthRecords
end Record
end RemoteCall
