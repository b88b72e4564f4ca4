import RemoteCall.Session.Client

/-!
The server side of a session: calls are read, processed and answered in turn until the
peer closes the connection or a round trip ends without keep-alive.

A reply carries `KEEP_ALIVE` only if its call asked for it and the service is running
when the reply is made, and the server goes on under the same condition; so both ends
of the connection come to the same decision.
-/

namespace RemoteCall

/-- What a session serves, over states `η`: whether the service is running, asked anew
each time, and what it answers to a call. -/
structure Service (η : Type) where
  running : η → Bool × η
  process : CallFrame → η → ReturnFrame × η

def Service.steady {η : Type} (running : Bool) (process : CallFrame → η → ReturnFrame × η) :
    Service η :=
  ⟨fun s => (running, s), process⟩

structure Serving (ι ω η : Type) where
  input : ι
  output : ω
  service : η
  served : Nat

namespace Serving

variable {ι ω η : Type}

inductive Round (ι ω η : Type) where
  | next (s : Serving ι ω η)
  | stop (result : Except SessionError Nat) (s : Serving ι ω η)

def reply (snk : Sink ω) (r : ReturnFrame) (s : Serving ι ω η) :
    Except SessionError Unit × Serving ι ω η :=
  match Frame.writeReturn snk r s.output with
  | (.error e, o) => (.error (.codec e), { s with output := o })
  | (.ok (), o) =>
    match snk.flush o with
    | (.error e, p) => (.error (.fault e), { s with output := p })
    | (.ok (), p) => (.ok (), { s with output := p })

def conclude (keep : Bool) (s : Serving ι ω η) : Round ι ω η :=
  if keep then .next s else .stop (.ok s.served) s

/-- Processes a call that was read.  Only a call that asks for keep-alive looks at the
run flag. -/
def handle (svc : Service η) (snk : Sink ω) (c : CallFrame) (s : Serving ι ω η) :
    Round ι ω η :=
  let (r, h) := svc.process c s.service
  let (keep, h) := if c.isKeepAlive then svc.running h else (false, h)
  let s := { s with service := h, served := s.served + 1 }
  if c.isInOut then
    match s.reply snk (r.setKeepAlive keep) with
    | (.error e, t) => .stop (.error e) t
    | (.ok (), t) => t.conclude keep
  else s.conclude keep

def receive (svc : Service η) (src : Source ι) (snk : Sink ω) (s : Serving ι ω η) :
    Round ι ω η :=
  match Frame.readCall src s.input with
  | (.error e, i) => .stop (.error (.codec e)) { s with input := i }
  | (.ok none, i) => .stop (.ok s.served) { s with input := i }
  | (.ok (some c), i) => { s with input := i }.handle svc snk c

/-- One round.  Every call but the first is read only if the service is running. -/
def round (svc : Service η) (src : Source ι) (snk : Sink ω) (s : Serving ι ω η) :
    Round ι ω η :=
  if s.served = 0 then s.receive svc src snk
  else
    match svc.running s.service with
    | (false, h) => .stop (.ok s.served) { s with service := h }
    | (true, h) => { s with service := h }.receive svc src snk

@[simp] theorem input_reply (snk : Sink ω) (r : ReturnFrame) (s : Serving ι ω η) :
    (s.reply snk r).2.input = s.input := by
  unfold reply
  split
  · rfl
  · split <;> rfl

theorem eq_of_conclude {keep : Bool} {s t : Serving ι ω η} (h : s.conclude keep = .next t) :
    t = s := by
  unfold conclude at h
  split at h
  · simp only [Round.next.injEq] at h
    exact h.symm
  · simp at h

theorem input_of_handle {svc : Service η} {snk : Sink ω} {c : CallFrame} {s t : Serving ι ω η}
    (h : s.handle svc snk c = .next t) : t.input = s.input := by
  unfold handle at h
  split at h
  split at h
  simp only at h
  split at h
  · split at h
    · simp at h
    · next hr =>
      rw [eq_of_conclude h]
      exact (congrArg (fun p => p.2.input) hr).symm.trans (input_reply ..)
  · rw [eq_of_conclude h]

theorem supply_receive {svc : Service η} {src : Source ι} {snk : Sink ω} {s t : Serving ι ω η}
    (h : s.receive svc src snk = .next t) : src.supply t.input < src.supply s.input := by
  unfold receive at h
  split at h
  · simp at h
  · simp at h
  · next hr =>
    rw [input_of_handle h]
    exact Frame.supply_readWith src hr

/-- A round after which the session goes on has read a frame. -/
theorem supply_round {svc : Service η} {src : Source ι} {snk : Sink ω} {s t : Serving ι ω η}
    (h : s.round svc src snk = .next t) : src.supply t.input < src.supply s.input := by
  unfold round at h
  split at h
  · exact supply_receive h
  · split at h
    · simp at h
    · next h' _ => exact supply_receive (s := { s with service := h' }) h

def run (svc : Service η) (src : Source ι) (snk : Sink ω) (s : Serving ι ω η) :
    Except SessionError Nat × Serving ι ω η :=
  match h : s.round svc src snk with
  | .stop r t => (r, t)
  | .next t =>
    have := supply_round h
    t.run svc src snk
termination_by src.supply s.input

end Serving

def serve {ι ω η : Type} (svc : Service η) (src : Source ι) (snk : Sink ω) (input : ι)
    (output : ω) (service : η) : Except SessionError Nat × Serving ι ω η :=
  Serving.run svc src snk ⟨input, output, service, 0⟩

end RemoteCall
