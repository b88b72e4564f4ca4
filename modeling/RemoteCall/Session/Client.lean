import RemoteCall.Frame.Codec

/-!
The client side of a session: a call is sent, and the reply to an in-out call is read.  A
session error says why a round trip did not come about, on either side.
-/

namespace RemoteCall

inductive SessionError where
  | fault (cause : Fault)
  | codec (cause : CodecError)
  /-- The peer closed the connection and had not answered. -/
  | noResponse
  deriving DecidableEq, Repr, Inhabited

namespace SessionError

def message : SessionError → String
  | fault cause => "session I/O failed: " ++ cause.message
  | codec cause => cause.message
  | noResponse => "no return frame was received"

def label : SessionError → String
  | fault cause => "Session." ++ cause.label
  | codec cause => "Session." ++ cause.label
  | noResponse => "Session.NoResponse"

end SessionError

/-- One end of a connection: where it reads, where it writes, and how reads and writes
are bounded in time. -/
structure Channel (ι ω δ : Type) where
  source : Source ι
  sink : Sink ω
  /-- Sets a deadline, or lifts it. -/
  setDeadline : Bool → δ → Except Fault Unit × δ

namespace Channel

structure State (ι ω δ : Type) where
  input : ι
  output : ω
  timer : δ

/-- What a round trip brought, and whether the connection may carry the next one. -/
structure Exchange where
  reply : ReturnFrame
  keepAlive : Bool
  deriving DecidableEq, Repr

variable {ι ω δ : Type}

def send (ch : Channel ι ω δ) (c : CallFrame) (deadline : Bool) (s : State ι ω δ) :
    Except SessionError Unit × State ι ω δ :=
  match ch.setDeadline deadline s.timer with
  | (.error e, d) => (.error (.fault e), { s with timer := d })
  | (.ok (), d) =>
    match Frame.writeCall ch.sink c s.output with
    | (.error e, o) => (.error (.codec e), { s with timer := d, output := o })
    | (.ok (), o) =>
      match ch.sink.flush o with
      | (.error e, p) => (.error (.fault e), { s with timer := d, output := p })
      | (.ok (), p) => (.ok (), { s with timer := d, output := p })

def awaitReply (ch : Channel ι ω δ) (c : CallFrame) (s : State ι ω δ) :
    Except SessionError Exchange × State ι ω δ :=
  match Frame.readReturn ch.source s.input with
  | (.error e, i) => (.error (.codec e), { s with input := i })
  | (.ok none, i) => (.error .noResponse, { s with input := i })
  | (.ok (some r), i) => (.ok ⟨r, Flags.bothKeepAlive c.flags r.flags⟩, { s with input := i })

def exchange (ch : Channel ι ω δ) (c : CallFrame) (deadline : Bool) (s : State ι ω δ) :
    Except SessionError Exchange × State ι ω δ :=
  match ch.send c deadline s with
  | (.error e, t) => (.error e, t)
  | (.ok (), t) => ch.awaitReply c t

end Channel

end RemoteCall
