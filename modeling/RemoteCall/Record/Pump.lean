import RemoteCall.Record.Engine
import RemoteCall.Stream.Source
import RemoteCall.Stream.Sink

/-!
The record pump: moves records between an engine and a socket.

The pump owns the two ciphertext windows.  `netIn` is kept ready to be written, with
the records not yet unwrapped at its front; `netOut` is cleared before every wrap.
Plaintext windows belong to the caller.

An engine may ask for steps without end, so each operation is given a limit on its
steps and answers `none` where the limit cuts it short.
-/

namespace RemoteCall
namespace Record

/-- Whether a loop takes another step or stops with a result. -/
inductive Turn (α : Type) where
  | again
  | stop (result : Except Fault α)

def repeatStep {σ α : Type} (step : σ → Turn α × σ) : Nat → σ → Option (Except Fault α) × σ
  | 0, s => (none, s)
  | limit + 1, s =>
    match step s with
    | (.again, t) => repeatStep step limit t
    | (.stop r, t) => (some r, t)

structure Pump (ι ω ε : Type) where
  input : ι
  output : ω
  engine : ε
  netIn : Window
  netOut : Window

structure Ends (ι ω ε : Type) where
  source : Source ι
  sink : Sink ω
  engine : Engine ε

namespace Pump

variable {ι ω ε : Type}

def new (d : Ends ι ω ε) (input : ι) (output : ω) (engine : ε) : Pump ι ω ε :=
  ⟨input, output, engine, Window.new (d.engine.recordSize engine),
    Window.new (d.engine.recordSize engine)⟩

def bufferedCiphertext (p : Pump ι ω ε) : Nat := p.netIn.position

/-- A step that an engine must not take here. -/
def unexpected (status : Status) (activity : String) : Fault :=
  .invalidData ("unexpected " ++ status.name ++ " while " ++ activity)

def recordTooLarge : Fault := .invalidData "TLS record does not fit the ciphertext buffer"

def handshakeCutShort : Fault :=
  ⟨.unexpectedEof, "the TLS handshake did not complete: the peer closed the connection"⟩

/-- Reads more ciphertext; `false` at the end of the stream. -/
def fill (d : Ends ι ω ε) (p : Pump ι ω ε) : Except Fault Bool × Pump ι ω ε :=
  if p.netIn.remaining = 0 then (.error recordTooLarge, p)
  else
    match d.source.readSome p.netIn.remaining p.input with
    | (.error e, i) => (.error e, { p with input := i })
    | (.ok [], i) => (.ok false, { p with input := i })
    | (.ok (b :: bs), i) => (.ok true, { p with input := i, netIn := p.netIn.put (b :: bs) })

def send (d : Ends ι ω ε) (p : Pump ι ω ε) : Except Fault Unit × Pump ι ω ε :=
  let w := p.netOut.flip
  match d.sink.writeAll w.span p.output with
  | (.error e, o) => (.error e, { p with output := o, netOut := w })
  | (.ok (), o) =>
    match d.sink.flush o with
    | (.error e, q) => (.error e, { p with output := q, netOut := w })
    | (.ok (), q) => (.ok (), { p with output := q, netOut := w.clear })

/-- Clears `netOut` and wraps into it; also the plaintext window afterwards. -/
def wrap (d : Ends ι ω ε) (app : Window) (p : Pump ι ω ε) :
    Except Fault Report × Window × Pump ι ω ε :=
  let m := d.engine.wrap app p.netOut.clear p.engine
  (m.report, m.src, { p with engine := m.engine, netOut := m.dst })

/-- Offers the engine all the ciphertext that came in; what it leaves moves to the front
of `netIn`, whether or not the unwrap went well. -/
def unwrap (d : Ends ι ω ε) (app : Window) (p : Pump ι ω ε) :
    Except Fault Report × Window × Pump ι ω ε :=
  let m := d.engine.unwrap p.netIn.flip app p.engine
  (m.report, m.dst, { p with engine := m.engine, netIn := m.src.compact })

def noPlaintext : Window := Window.new 0

def sendOn {α : Type} (d : Ends ι ω ε) (p : Pump ι ω ε) : Turn α × Pump ι ω ε :=
  match p.send d with
  | (.error e, q) => (.stop (.error e), q)
  | (.ok (), q) => (.again, q)

def fillOn {α : Type} (d : Ends ι ω ε) (atEnd : Except Fault α) (p : Pump ι ω ε) :
    Turn α × Pump ι ω ε :=
  match p.fill d with
  | (.error e, q) => (.stop (.error e), q)
  | (.ok false, q) => (.stop atEnd, q)
  | (.ok true, q) => (.again, q)

/-- One step of a handshake.  Application data may arrive right behind the last record
of the handshake: an engine with no room for it is then fine. -/
def handshakeStep (d : Ends ι ω ε) (p : Pump ι ω ε) : Turn Unit × Pump ι ω ε :=
  match d.engine.handshake p.engine with
  | .needWrap =>
    match p.wrap d noPlaintext with
    | (.error e, _, q) => (.stop (.error e), q)
    | (.ok r, _, q) =>
      if r.status = .ok then q.sendOn d
      else (.stop (.error (unexpected r.status "wrapping handshake records")), q)
  | .needUnwrap =>
    if p.netIn.position = 0 then p.fillOn d (.error handshakeCutShort)
    else
      match p.unwrap d noPlaintext with
      | (.error e, _, q) => (.stop (.error e), q)
      | (.ok r, _, q) =>
        match r.status with
        | .ok => (.again, q)
        | .bufferUnderflow => q.fillOn d (.error handshakeCutShort)
        | .bufferOverflow =>
          if r.handshake ≠ .needUnwrap then (.again, q)
          else (.stop (.error (unexpected r.status "unwrapping handshake records")), q)
        | .closed => (.stop (.error (unexpected r.status "unwrapping handshake records")), q)
  | .needTask =>
    match d.engine.runTask p.engine with
    | (.error e, en) => (.stop (.error e), { p with engine := en })
    | (.ok (), en) => (.again, { p with engine := en })
  | .finished => (.stop (.ok ()), p)
  | .notHandshaking => (.stop (.ok ()), p)

/-- `netOut` is cleared when an operation ends well. -/
def tidy {α : Type} (r : Option (Except Fault α) × Pump ι ω ε) :
    Option (Except Fault α) × Pump ι ω ε :=
  match r with
  | (some (.ok a), p) => (some (.ok a), { p with netOut := p.netOut.clear })
  | r => r

def handshake (d : Ends ι ω ε) (limit : Nat) (p : Pump ι ω ε) :
    Option (Except Fault Unit) × Pump ι ω ε :=
  if p.netIn.position ≠ 0 ∨ p.netOut.position ≠ 0 then
    (some (.error (.other "TLS buffers must be empty before a handshake")), p)
  else
    match d.engine.beginHandshake p.engine with
    | (.error e, en) => (some (.error e), { p with engine := en })
    | (.ok (), en) => tidy (repeatStep (handshakeStep d) limit { p with engine := en })

def readStep (d : Ends ι ω ε) (s : Pump ι ω ε × Window) :
    Turn (Option Nat) × Pump ι ω ε × Window :=
  match s.1.unwrap d s.2 with
  | (.error e, app, p) => (.stop (.error e), p, app)
  | (.ok r, app, p) =>
    match r.status with
    | .ok =>
      if 0 < r.produced then (.stop (.ok (some r.produced)), p, app.flip) else (.again, p, app)
    | .bufferUnderflow =>
      match p.fillOn d (.ok none) with
      | (t, q) => (t, q, app)
    | .closed => (.stop (.ok none), p, app)
    | .bufferOverflow =>
      (.stop (.error (.other "plaintext buffer has no room for decrypted data")), p, app)

/-- Reads and unwraps into a plaintext window that is ready to be written.  On success
the window is turned for reading and the answer counts the new bytes; `none` is the end
of the stream. -/
def read (d : Ends ι ω ε) (limit : Nat) (app : Window) (p : Pump ι ω ε) :
    Option (Except Fault (Option Nat)) × Pump ι ω ε × Window :=
  repeatStep (readStep d) limit (p, app)

def writeStep (d : Ends ι ω ε) (s : Pump ι ω ε × Window) : Turn Unit × Pump ι ω ε × Window :=
  if s.2.remaining = 0 ∧ d.engine.handshake s.1.engine ≠ .needWrap then (.stop (.ok ()), s)
  else
    match s.1.wrap d s.2 with
    | (.error e, app, p) => (.stop (.error e), p, app)
    | (.ok r, app, p) =>
      if r.status = .closed then
        (.stop (.error ⟨.brokenPipe, "TLS engine is closed for writing"⟩), p, app)
      else if r.status = .bufferUnderflow then
        (.stop (.error (unexpected r.status "wrapping")), p, app)
      else if r.consumed = 0 ∧ r.produced = 0 then
        (.stop (.error ⟨.writeZero, "TLS engine made no progress while wrapping"⟩), p, app)
      else
        match p.sendOn d with
        | (t, q) => (t, q, app)

def write (d : Ends ι ω ε) (limit : Nat) (app : Window) (p : Pump ι ω ε) :
    Option (Except Fault Unit) × Pump ι ω ε × Window :=
  match repeatStep (writeStep d) limit (p, app) with
  | (r, q, w) => ((tidy (r, q)).1, (tidy (r, q)).2, w)

def writeClosingStep (d : Ends ι ω ε) (p : Pump ι ω ε) : Turn Unit × Pump ι ω ε :=
  if d.engine.outboundDone p.engine then (.stop (.ok ()), p)
  else
    match p.wrap d noPlaintext with
    | (.error e, _, q) => (.stop (.error e), q)
    | (.ok r, _, q) =>
      if r.produced = 0 ∧ ¬ d.engine.outboundDone q.engine then
        (.stop (.error (unexpected r.status "wrapping the close notification")), q)
      else q.sendOn d

def writeClosing (d : Ends ι ω ε) (limit : Nat) (p : Pump ι ω ε) :
    Option (Except Fault Unit) × Pump ι ω ε :=
  tidy (repeatStep (writeClosingStep d) limit
    { p with engine := d.engine.closeOutbound p.engine })

/-- One step of waiting for the close notification of the peer; the second window takes
what is dropped. -/
def readClosingStep (d : Ends ι ω ε) (s : Pump ι ω ε × Window) :
    Turn Unit × Pump ι ω ε × Window :=
  if d.engine.inboundDone s.1.engine then (.stop (.ok ()), s)
  else
    match s.1.unwrap d s.2.clear with
    | (.error e, drop, p) => (.stop (.error e), p, drop)
    | (.ok r, drop, p) =>
      match r.status with
      | .closed => (.stop (.ok ()), p, drop)
      | .ok => (.again, p, drop)
      | .bufferOverflow => (.again, p, drop)
      | .bufferUnderflow =>
        match p.fillOn d (.ok ()) with
        | (t, q) => (t, q, drop)

/-- Drops what still arrives until the close notification of the peer or the end of the
stream. -/
def readClosing (d : Ends ι ω ε) (limit : Nat) (p : Pump ι ω ε) :
    Option (Except Fault Unit) × Pump ι ω ε :=
  match repeatStep (readClosingStep d) limit
      (p, Window.new (d.engine.plaintextSize p.engine)) with
  | (some (.ok ()), q, _) =>
    (some (.ok ()),
      { q with engine := d.engine.closeInbound q.engine, netIn := q.netIn.clear })
  | (r, q, _) => (r, q)

end Pump
end Record
end RemoteCall
