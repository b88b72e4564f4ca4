import RemoteCall.Proofs.Frame.Framing
import RemoteCall.Session.Server

/-!
The server loop on a stream of calls.

One round is described once: the call is read off to its last byte
(`receive_delivers`), processed, answered if it waits for a reply, and the session goes
on just if the verdict of the service says so (`handle_accepts`).  `run_calls` puts the
rounds together for a service whose run flag never changes: it answers the calls up to
the first that ends the session, and reads no further.
-/

namespace RemoteCall
namespace Service

variable {η : Type}

/-- Whether the session outlives a call, and the service once that is settled. -/
def verdict (svc : Service η) (c : CallFrame) (h : η) : Bool × η :=
  if c.isKeepAlive then svc.running (svc.process c h).2 else (false, (svc.process c h).2)

/-- The reply to a call, with the verdict in its flags. -/
def answer (svc : Service η) (c : CallFrame) (h : η) : ReturnFrame :=
  (svc.process c h).1.setKeepAlive (svc.verdict c h).1

def replyTo (svc : Service η) (c : CallFrame) (h : η) : List ReturnFrame :=
  if c.isInOut then [svc.answer c h] else []

/-- The calls up to the first that ends the session. -/
def answered (running : Bool) : List CallFrame → List CallFrame
  | [] => []
  | c :: cs => if c.isKeepAlive && running then c :: answered running cs else [c]

/-- What is answered to calls that are processed one after the other. -/
def answers (process : CallFrame → η → ReturnFrame × η) : List CallFrame → η → List ReturnFrame
  | [], _ => []
  | c :: cs, h => (process c h).1 :: answers process cs (process c h).2

def after (process : CallFrame → η → ReturnFrame × η) : List CallFrame → η → η
  | [], h => h
  | c :: cs, h => after process cs (process c h).2

def replies (svc : Service η) : List CallFrame → η → List ReturnFrame
  | [], _ => []
  | c :: cs, h => svc.replyTo c h ++ replies svc cs (svc.verdict c h).2

theorem answered_prefix (running : Bool) (calls : List CallFrame) :
    answered running calls <+: calls := by
  induction calls with
  | nil => exact List.prefix_rfl
  | cons c cs ih =>
    rw [answered]
    split
    · exact (List.prefix_cons_inj c).mpr ih
    · exact ⟨cs, rfl⟩

theorem length_answers (process : CallFrame → η → ReturnFrame × η) (calls : List CallFrame)
    (h : η) : (answers process calls h).length = calls.length := by
  induction calls generalizing h with
  | nil => rfl
  | cons c cs ih => rw [answers, List.length_cons, List.length_cons, ih]

theorem verdict_steady (running : Bool) (process : CallFrame → η → ReturnFrame × η) (c : CallFrame)
    (h : η) :
    (steady running process).verdict c h = (c.isKeepAlive && running, (process c h).2) := by
  unfold verdict
  cases c.isKeepAlive <;> rfl

theorem answer_steady (running : Bool) (process : CallFrame → η → ReturnFrame × η) (c : CallFrame)
    (h : η) : (steady running process).answer c h
      = (process c h).1.setKeepAlive (c.isKeepAlive && running) := by
  rw [answer, verdict_steady]
  rfl

theorem replies_steady (running : Bool) (process : CallFrame → η → ReturnFrame × η)
    (c : CallFrame) (cs : List CallFrame) (h : η) :
    (steady running process).replies (c :: cs) h = (steady running process).replyTo c h
      ++ (steady running process).replies cs (process c h).2 := by
  rw [replies, verdict_steady]

theorem answered_singleton (running : Bool) (c : CallFrame) : answered running [c] = [c] := by
  rw [answered]
  split <;> rfl

theorem replies_inOut (running : Bool) (process : CallFrame → η → ReturnFrame × η)
    {c : CallFrame} (hc : c.isInOut = true) (h : η) : (steady running process).replies [c] h
      = [(process c h).1.setKeepAlive (c.isKeepAlive && running)] := by
  rw [replies_steady, replies, replyTo, if_pos hc, answer_steady, List.append_nil]

/-- Calls that can be decoded and are within the limit, as are the replies that are sent
for them. -/
structure Sendable (running : Bool) (process : CallFrame → η → ReturnFrame × η)
    (calls : List CallFrame) (h : η) : Prop where
  arity : ∀ c ∈ calls, c.types.length = c.arguments.length
  call : ∀ c ∈ calls, (Body.writeCall c).length ≤ Frame.maxBody
  reply : ∀ r ∈ (steady running process).replies (answered running calls) h,
    (Body.writeReturn r).length ≤ Frame.maxBody

namespace Sendable

variable {running : Bool} {process : CallFrame → η → ReturnFrame × η} {c : CallFrame}
  {cs : List CallFrame} {h : η}

theorem replyTo (hs : Sendable running process (c :: cs) h) :
    ∀ r ∈ (steady running process).replyTo c h, (Body.writeReturn r).length ≤ Frame.maxBody := by
  intro r hr
  apply hs.reply
  rw [answered]
  split <;> exact List.mem_append_left _ hr

theorem tail (hs : Sendable running process (c :: cs) h)
    (hk : (c.isKeepAlive && running) = true) : Sendable running process cs (process c h).2 where
  arity := (List.forall_mem_cons.mp hs.arity).2
  call := (List.forall_mem_cons.mp hs.call).2
  reply r hr := by
    apply hs.reply
    rw [answered, if_pos hk, replies_steady]
    exact List.mem_append_right _ hr

theorem inOut (hc : c.isInOut = true) (ha : c.types.length = c.arguments.length)
    (hs : (Body.writeCall c).length ≤ Frame.maxBody)
    (hr : (Body.writeReturn ((process c h).1.setKeepAlive (c.isKeepAlive && running))).length
      ≤ Frame.maxBody) : Sendable running process [c] h where
  arity := List.forall_mem_singleton.mpr ha
  call := List.forall_mem_singleton.mpr hs
  reply := by
    rw [answered_singleton, replies_inOut running process hc]
    exact List.forall_mem_singleton.mpr hr

end Sendable
end Service

namespace Serving

variable {ι ω η : Type} {svc : Service η} {src : Source ι} {snk : Sink ω} {taken : ω → Bytes}

/-! ## One round -/

def Round.state : Round ι ω η → Serving ι ω η
  | .next s => s
  | .stop _ s => s

theorem reply_accepts {s : Serving ι ω η} {r : ReturnFrame} (h : snk.Accepts taken s.output)
    (hr : (Body.writeReturn r).length ≤ Frame.maxBody) :
    ∃ p, s.reply snk r = (.ok (), { s with output := p }) ∧ snk.Accepts taken p ∧
      taken p = taken s.output ++ Frame.returnWire r := by
  obtain ⟨o, hw, ho, htaken⟩ := Frame.writeBody_accepts h hr
  obtain ⟨p, hf, hp, htaken'⟩ := Sink.flush_accepts ho
  refine ⟨p, ?_, hp, htaken'.trans htaken⟩
  rw [reply, Frame.writeReturn, hw]
  dsimp only
  rw [hf]

theorem reply_grows {s : Serving ι ω η} (h : snk.Accepts taken s.output) (r : ReturnFrame) :
    snk.Grows taken s.output (s.reply snk r).2.output := by
  have hw := Frame.writeBody_grows h (Body.writeReturn r)
  unfold reply Frame.writeReturn
  generalize Frame.writeBody snk (Body.writeReturn r) s.output = w at hw ⊢
  match w with
  | (.error e, o) => exact hw
  | (.ok (), o) =>
    have hf := Sink.flush_grows hw.accepts
    dsimp only at hw hf ⊢
    generalize snk.flush o = f at hf ⊢
    match f with
    | (.error e, p) => exact hw.trans hf
    | (.ok (), p) => exact hw.trans hf

theorem handle_eq (svc : Service η) (snk : Sink ω) (c : CallFrame) (s : Serving ι ω η) :
    s.handle svc snk c =
      let t := { s with service := (svc.verdict c s.service).2, served := s.served + 1 }
      if c.isInOut then
        match t.reply snk (svc.answer c s.service) with
        | (.error e, u) => .stop (.error e) u
        | (.ok (), u) => u.conclude (svc.verdict c s.service).1
      else t.conclude (svc.verdict c s.service).1 := rfl

theorem state_conclude (keep : Bool) (s : Serving ι ω η) : (s.conclude keep).state = s := by
  unfold conclude
  cases keep <;> rfl

/-- A call is processed once, answered if it waits for a reply, and the verdict decides
how the session goes on. -/
theorem handle_accepts (svc : Service η) {s : Serving ι ω η} {c : CallFrame}
    (h : snk.Accepts taken s.output)
    (hr : ∀ r ∈ svc.replyTo c s.service, (Body.writeReturn r).length ≤ Frame.maxBody) :
    ∃ p, s.handle svc snk c = conclude (svc.verdict c s.service).1
        { s with output := p, service := (svc.verdict c s.service).2, served := s.served + 1 } ∧
      snk.Accepts taken p ∧
      taken p = taken s.output ++ (svc.replyTo c s.service).flatMap Frame.returnWire := by
  rw [handle_eq]
  unfold Service.replyTo at hr ⊢
  dsimp only
  by_cases hc : c.isInOut = true
  · rw [if_pos hc] at hr
    obtain ⟨p, hp, hacc, htaken⟩ := reply_accepts
      (s := { s with service := (svc.verdict c s.service).2, served := s.served + 1 }) h
      (hr _ List.mem_cons_self)
    refine ⟨p, ?_, hacc, ?_⟩
    · rw [if_pos hc, hp]
    · rw [if_pos hc, List.flatMap_singleton]
      exact htaken
  · refine ⟨s.output, ?_, h, ?_⟩
    · rw [if_neg hc]
    · rw [if_neg hc, List.flatMap_nil, List.append_nil]

theorem handle_grows {s : Serving ι ω η} (h : snk.Accepts taken s.output) (c : CallFrame) :
    snk.Grows taken s.output (s.handle svc snk c).state.output := by
  rw [handle_eq]
  dsimp only
  by_cases hc : c.isInOut = true
  · rw [if_pos hc]
    have hr := reply_grows
      (s := { s with service := (svc.verdict c s.service).2, served := s.served + 1 }) h
      (svc.answer c s.service)
    dsimp only at hr
    generalize reply snk _ _ = w at hr ⊢
    match w with
    | (.error e, t) => exact hr
    | (.ok (), t) =>
      dsimp only
      rw [state_conclude]
      exact hr
  · rw [if_neg hc, state_conclude]
    exact .refl h

theorem receive_delivers (svc : Service η) (snk : Sink ω) {s : Serving ι ω η} {c : CallFrame}
    {rest : Bytes}
    (h : src.Delivers s.input (Frame.callWire c ++ rest))
    (hs : (Body.writeCall c).length ≤ Frame.maxBody) (ha : c.types.length = c.arguments.length) :
    ∃ i, s.receive svc src snk = handle svc snk c { s with input := i } ∧ src.Delivers i rest := by
  obtain ⟨i, hr, hi⟩ := Frame.readCall_callWire h hs ha
  exact ⟨i, by rw [receive, hr], hi⟩

theorem receive_end (svc : Service η) (snk : Sink ω) {s : Serving ι ω η}
    (h : src.Delivers s.input []) :
    ∃ i, s.receive svc src snk = .stop (.ok s.served) { s with input := i } := by
  obtain ⟨i, hr, -⟩ := Frame.readWith_end Frame.decodeCall h
  exact ⟨i, by rw [receive, Frame.readCall, hr]⟩

theorem receive_grows {s : Serving ι ω η} (h : snk.Accepts taken s.output) :
    snk.Grows taken s.output (s.receive svc src snk).state.output := by
  unfold receive
  match Frame.readCall src s.input with
  | (.error e, i) => exact .refl h
  | (.ok none, i) => exact .refl h
  | (.ok (some c), i) => exact handle_grows (s := { s with input := i }) h c

theorem round_grows (svc : Service η) (src : Source ι) {s : Serving ι ω η}
    (h : snk.Accepts taken s.output) :
    snk.Grows taken s.output (s.round svc src snk).state.output := by
  unfold round
  by_cases h0 : s.served = 0
  · rw [if_pos h0]
    exact receive_grows h
  · rw [if_neg h0]
    match svc.running s.service with
    | (false, h') => exact .refl h
    | (true, h') => exact receive_grows (s := { s with service := h' }) h

/-! ## The whole session -/

theorem run_of_stop {s t : Serving ι ω η} {r : Except SessionError Nat}
    (h : s.round svc src snk = .stop r t) : s.run svc src snk = (r, t) := by
  rw [run]
  split
  · next r' t' h' =>
    rw [h] at h'
    simp only [Round.stop.injEq] at h'
    rw [h'.1, h'.2]
  · next t' h' =>
    rw [h] at h'
    simp at h'

theorem run_of_next {s t : Serving ι ω η} (h : s.round svc src snk = .next t) :
    s.run svc src snk = t.run svc src snk := by
  rw [run]
  split
  · next r' t' h' =>
    rw [h] at h'
    simp at h'
  · next t' h' =>
    rw [h] at h'
    simp only [Round.next.injEq] at h'
    rw [h']

theorem run_grows {s : Serving ι ω η} (h : snk.Accepts taken s.output) :
    snk.Grows taken s.output (s.run svc src snk).2.output := by
  fun_induction run svc src snk s with
  | case1 s r t hr =>
    have := round_grows svc src h
    rw [hr] at this
    exact this
  | case2 s t hr _ ih =>
    have := round_grows svc src h
    rw [hr] at this
    exact this.trans (ih this.accepts)

theorem run_grows_of_round {s t : Serving ι ω η} {keep : Bool}
    (h : s.round svc src snk = t.conclude keep) (ho : snk.Accepts taken t.output) :
    snk.Grows taken t.output (s.run svc src snk).2.output := by
  unfold conclude at h
  split at h
  · rw [run_of_next h]
    exact run_grows ho
  · rw [run_of_stop h]
    exact .refl ho

/-! ## A service whose run flag never changes -/

variable {running : Bool} {process : CallFrame → η → ReturnFrame × η}

theorem round_steady {s : Serving ι ω η} (h : s.served = 0 ∨ running = true) :
    s.round (.steady running process) src snk = s.receive (.steady running process) src snk := by
  unfold round
  by_cases h0 : s.served = 0
  · rw [if_pos h0]
  · rw [if_neg h0]
    obtain rfl := h.resolve_left h0
    rfl

theorem round_call {s : Serving ι ω η} {c : CallFrame} {cs : List CallFrame} {rest : Bytes}
    (hstart : s.served = 0 ∨ running = true)
    (hs : Service.Sendable running process (c :: cs) s.service)
    (hi : src.Delivers s.input (Frame.callWire c ++ rest)) (ho : snk.Accepts taken s.output) :
    ∃ t : Serving ι ω η, s.round (.steady running process) src snk
        = t.conclude (c.isKeepAlive && running) ∧
      src.Delivers t.input rest ∧ snk.Accepts taken t.output ∧
      taken t.output = taken s.output
        ++ ((Service.steady running process).replyTo c s.service).flatMap Frame.returnWire ∧
      t.service = (process c s.service).2 ∧ t.served = s.served + 1 := by
  obtain ⟨i, hrec, hi'⟩ := receive_delivers (.steady running process) snk hi
    (hs.call c List.mem_cons_self) (hs.arity c List.mem_cons_self)
  obtain ⟨p, hh, hp, htaken⟩ := handle_accepts (.steady running process)
    (s := { s with input := i }) (c := c) ho hs.replyTo
  rw [Service.verdict_steady] at hh
  refine ⟨⟨i, p, (process c s.service).2, s.served + 1⟩, ?_, hi', hp, htaken, rfl, rfl⟩
  rw [round_steady hstart, hrec, hh]

/-- A session on a stream that begins with the calls that it answers.  It stops behind the
last of them if that one ends the session, and goes on with the rest of the stream
otherwise. -/
theorem run_calls {calls : List CallFrame} {rest : Bytes} {s : Serving ι ω η}
    (hstart : s.served = 0 ∨ running = true)
    (hs : Service.Sendable running process calls s.service)
    (hi : src.Delivers s.input ((Service.answered running calls).flatMap Frame.callWire ++ rest))
    (ho : snk.Accepts taken s.output) :
    ∃ t : Serving ι ω η,
      (if calls.all (fun c => c.isKeepAlive && running) then
        (t.served = 0 ∨ running = true) ∧
          s.run (.steady running process) src snk = t.run (.steady running process) src snk
        else s.run (.steady running process) src snk = (.ok t.served, t)) ∧
      t.served = s.served + (Service.answered running calls).length ∧
      src.Delivers t.input rest ∧ snk.Accepts taken t.output ∧
      taken t.output = taken s.output
        ++ ((Service.steady running process).replies (Service.answered running calls)
          s.service).flatMap Frame.returnWire ∧
      t.service = Service.after process (Service.answered running calls) s.service := by
  induction calls generalizing s with
  | nil => exact ⟨s, ⟨hstart, rfl⟩, rfl, hi, ho, (List.append_nil _).symm, rfl⟩
  | cons c cs ih =>
    rw [Service.answered] at hi ⊢
    rw [List.all_cons]
    by_cases hk : (c.isKeepAlive && running) = true
    · -- The rest of the session is one on the calls behind this one.
      rw [if_pos hk, List.flatMap_cons, List.append_assoc] at hi
      rw [if_pos hk, hk, Bool.true_and]
      obtain ⟨t, hround, hit, hot, htaken, hsvc, hserved⟩ := round_call hstart hs hi ho
      rw [hk, conclude, if_pos rfl] at hround
      obtain ⟨u, hu, hcount, hiu, hou, htaken', hafter⟩ := ih (s := t)
        (Or.inr (Bool.and_eq_true_iff.mp hk).2) (hsvc ▸ hs.tail hk) hit hot
      refine ⟨u, ?_, ?_, hiu, hou, ?_, ?_⟩
      · rw [run_of_next hround]
        exact hu
      · rw [hcount, hserved, List.length_cons]
        omega
      · rw [htaken', htaken, hsvc, Service.replies_steady, List.flatMap_append, List.append_assoc]
      · rw [hafter, hsvc]
        rfl
    · rw [if_neg hk, List.flatMap_singleton] at hi
      rw [if_neg hk, Bool.eq_false_iff.mpr hk, Bool.false_and]
      obtain ⟨t, hround, hit, hot, htaken, hsvc, hserved⟩ := round_call hstart hs hi ho
      rw [Bool.eq_false_iff.mpr hk, conclude, if_neg (by simp)] at hround
      refine ⟨t, run_of_stop hround, hserved, hit, hot, ?_, hsvc⟩
      rw [htaken, Service.replies, Service.replies, List.append_nil]

theorem run_answered {calls : List CallFrame} {s : Serving ι ω η}
    (hstart : s.served = 0 ∨ running = true)
    (hs : Service.Sendable running process calls s.service)
    (hi : src.Delivers s.input ((Service.answered running calls).flatMap Frame.callWire))
    (ho : snk.Accepts taken s.output) :
    ∃ t : Serving ι ω η, s.run (.steady running process) src snk
        = (.ok (s.served + (Service.answered running calls).length), t) ∧
      snk.Accepts taken t.output ∧
      taken t.output = taken s.output
        ++ ((Service.steady running process).replies (Service.answered running calls)
          s.service).flatMap Frame.returnWire ∧
      t.service = Service.after process (Service.answered running calls) s.service := by
  rw [← List.append_nil (List.flatMap _ _)] at hi
  obtain ⟨t, hrun, hcount, hit, hot, htaken, hafter⟩ := run_calls hstart hs hi ho
  rw [← hcount]
  by_cases hall : calls.all (fun c => c.isKeepAlive && running) = true
  · rw [if_pos hall] at hrun
    obtain ⟨i, hrec⟩ := receive_end (.steady running process) snk hit
    rw [← round_steady hrun.1] at hrec
    exact ⟨{ t with input := i }, hrun.2.trans (run_of_stop hrec), hot, htaken, hafter⟩
  · rw [if_neg hall] at hrun
    exact ⟨t, hrun, hot, htaken, hafter⟩

end Serving
end RemoteCall
