import RemoteCall.Proofs.Frame.Flags
import RemoteCall.Proofs.Session.Server
import RemoteCall.Session.Client

/-!
The client side on a stream of replies.

What a client writes for one call does not depend on what it reads
(`perform_accepts`); what a call comes to is decided by the reply that stands next on its
stream (`perform_delivers`).  `converse` makes calls one after the other while the
connection lives, and `converse_answered` says what it comes to on a stream of just the
replies that a steady service sends.
-/

namespace RemoteCall
namespace Channel

variable {ι ω δ η : Type}

/-- Makes a call: one that is in-out waits for its reply, any other is only sent. -/
def perform (ch : Channel ι ω δ) (deadline : Bool) (c : CallFrame) (s : State ι ω δ) :
    Except SessionError (Option Exchange) × State ι ω δ :=
  if c.isInOut then
    match ch.exchange c deadline s with
    | (r, t) => (some <$> r, t)
  else
    match ch.send c deadline s with
    | (r, t) => ((fun _ => none) <$> r, t)

/-- Whether the client takes the connection to live on after a call. -/
def goesOn (c : CallFrame) : Except SessionError (Option Exchange) → Bool
  | .error _ => false
  | .ok none => c.isKeepAlive
  | .ok (some x) => x.keepAlive

def converse (ch : Channel ι ω δ) (deadline : Bool) : List CallFrame → State ι ω δ →
    List (Except SessionError (Option Exchange)) × State ι ω δ
  | [], s => ([], s)
  | c :: cs, s =>
    match ch.perform deadline c s with
    | (r, t) =>
      if goesOn c r then
        match ch.converse deadline cs t with
        | (rs, u) => (r :: rs, u)
      else ([r], t)

/-- What a call comes to that was answered with `r` by a service that is running or not. -/
def outcome (running : Bool) (c : CallFrame) (r : ReturnFrame) : Option Exchange :=
  if c.isInOut then
    some ⟨r.setKeepAlive (c.isKeepAlive && running), c.isKeepAlive && running⟩
  else none

def outcomes (running : Bool) (process : CallFrame → η → ReturnFrame × η)
    (calls : List CallFrame) (h : η) : List (Except SessionError (Option Exchange)) :=
  List.zipWith (fun c r => .ok (outcome running c r)) calls (Service.answers process calls h)

theorem length_outcomes (running : Bool) (process : CallFrame → η → ReturnFrame × η)
    (calls : List CallFrame) (h : η) :
    (outcomes running process calls h).length = calls.length := by
  rw [outcomes, List.length_zipWith, Service.length_answers, Nat.min_self]

/-- A channel whose deadlines can be set. -/
def Patient (ch : Channel ι ω δ) : Prop := ∀ b d, (ch.setDeadline b d).1 = .ok ()

variable {ch : Channel ι ω δ} {taken : ω → Bytes} (deadline : Bool) {c : CallFrame}
  {s : State ι ω δ}

/-! ## One call -/

theorem send_accepts (hp : ch.Patient) (ho : ch.sink.Accepts taken s.output)
    (hs : (Body.writeCall c).length ≤ Frame.maxBody) :
    ∃ t, ch.send c deadline s = (.ok (), t) ∧ t.input = s.input ∧
      ch.sink.Accepts taken t.output ∧ taken t.output = taken s.output ++ Frame.callWire c := by
  obtain ⟨o, hw, ho', htaken⟩ := Frame.writeBody_accepts ho hs
  obtain ⟨p, hf, hacc, htaken'⟩ := Sink.flush_accepts ho'
  have hd := hp deadline s.timer
  rw [send]
  generalize ch.setDeadline deadline s.timer = w at hd ⊢
  obtain ⟨a, d⟩ := w
  subst hd
  refine ⟨⟨s.input, p, d⟩, ?_, rfl, hacc, htaken'.trans htaken⟩
  dsimp only
  rw [Frame.writeCall, hw]
  dsimp only
  rw [hf]

theorem output_awaitReply (ch : Channel ι ω δ) (c : CallFrame) (s : State ι ω δ) :
    (ch.awaitReply c s).2.output = s.output := by
  unfold awaitReply
  split <;> rfl

theorem perform_accepts (hp : ch.Patient) (ho : ch.sink.Accepts taken s.output)
    (hs : (Body.writeCall c).length ≤ Frame.maxBody) :
    ch.sink.Accepts taken (ch.perform deadline c s).2.output ∧
      taken (ch.perform deadline c s).2.output = taken s.output ++ Frame.callWire c := by
  obtain ⟨t, hsend, -, hacc, htaken⟩ := send_accepts deadline hp ho hs
  unfold perform
  by_cases hc : c.isInOut = true
  · rw [if_pos hc, exchange, hsend]
    dsimp only
    rw [output_awaitReply]
    exact ⟨hacc, htaken⟩
  · rw [if_neg hc, hsend]
    exact ⟨hacc, htaken⟩

theorem perform_delivers {running : Bool} {process : CallFrame → η → ReturnFrame × η} {h : η}
    {cs : List CallFrame} {rest : Bytes} (hp : ch.Patient) (ho : ch.sink.Accepts taken s.output)
    (hs : Service.Sendable running process (c :: cs) h)
    (hi : ch.source.Delivers s.input
      (((Service.steady running process).replyTo c h).flatMap Frame.returnWire ++ rest)) :
    ∃ t, ch.perform deadline c s = (.ok (outcome running c (process c h).1), t) ∧
      ch.source.Delivers t.input rest := by
  obtain ⟨t, hsend, hin, -, -⟩ := send_accepts deadline hp ho
    (hs.call c List.mem_cons_self)
  have hr := hs.replyTo
  rw [← hin] at hi
  unfold Service.replyTo at hi hr
  unfold perform outcome
  by_cases hc : c.isInOut = true
  · rw [if_pos hc, Service.answer_steady] at hi hr
    rw [List.flatMap_singleton] at hi
    obtain ⟨i, hread, hi'⟩ := Frame.readReturn_returnWire hi (hr _ List.mem_cons_self)
    refine ⟨{ t with input := i }, ?_, hi'⟩
    -- The reply grants no more than the call asked for, so the verdict is in its flag.
    have hkeep : ∀ r : ReturnFrame, Flags.bothKeepAlive c.flags
        (r.setKeepAlive (c.isKeepAlive && running)).flags = (c.isKeepAlive && running) := by
      intro r
      show (c.isKeepAlive && (r.setKeepAlive _).isKeepAlive) = _
      rw [ReturnFrame.isKeepAlive_setKeepAlive, ← Bool.and_assoc, Bool.and_self]
    rw [if_pos hc, if_pos hc, exchange, hsend]
    dsimp only
    rw [awaitReply, hread]
    dsimp only
    rw [hkeep]
    rfl
  · rw [if_neg hc, List.flatMap_nil, List.nil_append] at hi
    refine ⟨t, ?_, hi⟩
    rw [if_neg hc, if_neg hc, hsend]
    rfl

/-- The client goes on just if the server does, unless the service is not running and
the client never learns of it. -/
theorem goesOn_outcome {running : Bool} (r : ReturnFrame)
    (h : running = true ∨ c.isInOut = true) :
    goesOn c (.ok (outcome running c r)) = (c.isKeepAlive && running) := by
  unfold outcome
  by_cases hc : c.isInOut = true
  · rw [if_pos hc]
    rfl
  · rw [if_neg hc, h.resolve_right hc, Bool.and_true]
    rfl

/-! ## A conversation -/

theorem converse_of_stop {cs : List CallFrame} {r : Except SessionError (Option Exchange)}
    {t : State ι ω δ} (h : ch.perform deadline c s = (r, t)) (hg : goesOn c r = false) :
    ch.converse deadline (c :: cs) s = ([r], t) := by
  rw [converse, h]
  dsimp only
  rw [hg, if_neg (by simp)]

theorem converse_of_next {cs : List CallFrame} {r : Except SessionError (Option Exchange)}
    {t : State ι ω δ} (h : ch.perform deadline c s = (r, t)) (hg : goesOn c r = true) :
    ch.converse deadline (c :: cs) s
      = (r :: (ch.converse deadline cs t).1, (ch.converse deadline cs t).2) := by
  rw [converse, h]
  dsimp only
  rw [hg, if_pos rfl]

theorem converse_cons_state (ch : Channel ι ω δ) (deadline : Bool) (c : CallFrame)
    (cs : List CallFrame) (s : State ι ω δ) :
    (ch.converse deadline (c :: cs) s).2 =
      if goesOn c (ch.perform deadline c s).1
      then (ch.converse deadline cs (ch.perform deadline c s).2).2
      else (ch.perform deadline c s).2 := by
  rw [converse]
  dsimp only
  split <;> rfl

theorem converse_inOut (hc : c.isInOut = true) : ch.converse deadline [c] s
    = ([some <$> (ch.exchange c deadline s).1], (ch.exchange c deadline s).2) := by
  rw [converse, perform, if_pos hc]
  dsimp only
  split <;> rfl

theorem converse_grows {calls : List CallFrame} (hp : ch.Patient)
    (ho : ch.sink.Accepts taken s.output)
    (hs : ∀ c ∈ calls, (Body.writeCall c).length ≤ Frame.maxBody) :
    ch.sink.Grows taken s.output (ch.converse deadline calls s).2.output := by
  induction calls generalizing s with
  | nil => exact .refl ho
  | cons c cs ih =>
    obtain ⟨hacc, htaken⟩ := perform_accepts deadline hp ho
      (hs c List.mem_cons_self)
    have hfirst : ch.sink.Grows taken s.output (ch.perform deadline c s).2.output :=
      ⟨hacc, _, htaken.symm⟩
    rw [converse_cons_state]
    split
    · exact hfirst.trans (ih hacc fun d hd => hs d (List.mem_cons_of_mem c hd))
    · exact hfirst

theorem converse_cons_grows {cs : List CallFrame} (hp : ch.Patient)
    (ho : ch.sink.Accepts taken (ch.perform deadline c s).2.output)
    (hs : ∀ c ∈ cs, (Body.writeCall c).length ≤ Frame.maxBody) :
    ch.sink.Grows taken (ch.perform deadline c s).2.output
      (ch.converse deadline (c :: cs) s).2.output := by
  rw [converse_cons_state]
  split
  · exact converse_grows deadline hp ho hs
  · exact .refl ho

theorem converse_answered {running : Bool} {process : CallFrame → η → ReturnFrame × η} {h : η}
    {calls : List CallFrame} (hp : ch.Patient) (ho : ch.sink.Accepts taken s.output)
    (hs : Service.Sendable running process calls h)
    (hrule : running = true ∨ ∀ c ∈ calls, c.isInOut = true)
    (hi : ch.source.Delivers s.input (((Service.steady running process).replies
      (Service.answered running calls) h).flatMap Frame.returnWire)) :
    (ch.converse deadline calls s).1
        = outcomes running process (Service.answered running calls) h ∧
      taken (ch.converse deadline calls s).2.output
        = taken s.output ++ (Service.answered running calls).flatMap Frame.callWire := by
  induction calls generalizing s h with
  | nil => exact ⟨rfl, (List.append_nil _).symm⟩
  | cons c cs ih =>
    have hgo := goesOn_outcome (process c h).1 (hrule.imp_right fun ha => ha c List.mem_cons_self)
    obtain ⟨hacc, htaken⟩ := perform_accepts deadline hp ho (hs.call c List.mem_cons_self)
    rw [Service.answered] at hi ⊢
    by_cases hk : (c.isKeepAlive && running) = true
    · rw [if_pos hk, Service.replies_steady, List.flatMap_append] at hi
      obtain ⟨t, hperf, hit⟩ := perform_delivers deadline hp ho hs hi
      rw [hperf] at hacc htaken
      obtain ⟨hres, hout⟩ := ih hacc (hs.tail hk)
        (hrule.imp_right fun ha => (List.forall_mem_cons.mp ha).2) hit
      rw [converse_of_next deadline hperf (hgo.trans hk), if_pos hk]
      constructor
      · rw [hres]
        rfl
      · rw [hout, htaken, List.flatMap_cons, List.append_assoc]
    · rw [if_neg hk, Service.replies_steady, List.flatMap_append] at hi
      obtain ⟨t, hperf, -⟩ := perform_delivers deadline hp ho hs hi
      rw [hperf] at htaken
      rw [converse_of_stop deadline hperf (hgo.trans (Bool.eq_false_iff.mpr hk)), if_neg hk]
      constructor
      · rfl
      · rw [htaken, List.flatMap_cons, List.flatMap_nil, List.append_nil]

end Channel
end RemoteCall
