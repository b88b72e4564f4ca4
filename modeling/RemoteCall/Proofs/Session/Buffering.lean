import RemoteCall.Proofs.Frame.Alike
import RemoteCall.Proofs.Session.Agreement

/-!
Sessions over buffered channels.

Two sessions are twins if their sources play the same events, their sinks are calm with
even books, and everything else about them is the same.  One step of a session keeps
twins twins and comes to the same on both sides, whether it goes well or fails; so whole
sessions do, for the server as for a client that goes on after errors.  A buffered channel
is the twin of the direct one, hence `Socket.buffering_unseen`.
-/

namespace RemoteCall

/-! ## The server -/

namespace Serving

variable {ι κ ω ψ η : Type} {src : Source ι} {src' : Source κ} {snk : Sink ω} {snk' : Sink ψ}
  {L : snk.Ledger} {L' : snk'.Ledger} {s : Serving ι ω η} {t : Serving κ ψ η}

/-- Two sessions that differ only in how they reach their sockets. -/
structure Twins (src : Source ι) (src' : Source κ) (L : snk.Ledger) (L' : snk'.Ledger)
    (s : Serving ι ω η) (t : Serving κ ψ η) : Prop where
  input : src.Alike s.input src' t.input
  output : L.Even L' s.output t.output
  service : t.service = s.service
  served : t.served = s.served

inductive Round.Twins (src : Source ι) (src' : Source κ) (L : snk.Ledger) (L' : snk'.Ledger) :
    Round ι ω η → Round κ ψ η → Prop where
  | next {u : Serving ι ω η} {v : Serving κ ψ η} (h : Serving.Twins src src' L L' u v) :
      Round.Twins src src' L L' (.next u) (.next v)
  | stop {u : Serving ι ω η} {v : Serving κ ψ η} (r : Except SessionError Nat)
      (h : Serving.Twins src src' L L' u v) : Round.Twins src src' L L' (.stop r u) (.stop r v)

namespace Twins

theorem reply (h : Twins src src' L L' s t) (r : ReturnFrame) :
    ∃ answer s' t', s.reply snk r = (answer, s') ∧ t.reply snk' r = (answer, t') ∧
      Twins src src' L L' s' t' := by
  rw [Serving.reply, Serving.reply, Frame.writeReturn, Frame.writeReturn]
  rcases h.output.post (Body.writeReturn r) with
    ⟨e, hw, hw'⟩ | ⟨s₁, s₂, t₁, t₂, ⟨hw, hf⟩, ⟨hw', hf'⟩, heven⟩
  · rw [hw, hw']
    exact ⟨_, s, t, rfl, rfl, h⟩
  · refine ⟨.ok (), { s with output := s₂ }, { t with output := t₂ }, ?_, ?_,
      ⟨h.input, heven, h.service, h.served⟩⟩
    · rw [hw]
      dsimp only
      rw [hf]
    · rw [hw']
      dsimp only
      rw [hf']

theorem conclude (h : Twins src src' L L' s t) (keep : Bool) :
    Round.Twins src src' L L' (s.conclude keep) (t.conclude keep) := by
  rw [Serving.conclude, Serving.conclude, h.served]
  cases keep with
  | false => exact .stop _ h
  | true => exact .next h

theorem handle (h : Twins src src' L L' s t) (svc : Service η) (c : CallFrame) :
    Round.Twins src src' L L' (s.handle svc snk c) (t.handle svc snk' c) := by
  rw [handle_eq, handle_eq, h.service, h.served]
  have hcall : Twins src src' L L'
      { s with service := (svc.verdict c s.service).2, served := s.served + 1 }
      { t with service := (svc.verdict c s.service).2, served := s.served + 1 } :=
    ⟨h.input, h.output, rfl, rfl⟩
  dsimp only
  by_cases hc : c.isInOut = true
  · rw [if_pos hc, if_pos hc]
    obtain ⟨answer, s', t', hr, hr', ht⟩ := hcall.reply (svc.answer c s.service)
    rw [hr, hr']
    match answer with
    | .error e => exact .stop _ ht
    | .ok () => exact ht.conclude _
  · rw [if_neg hc, if_neg hc]
    exact hcall.conclude _

theorem receive (h : Twins src src' L L' s t) (svc : Service η) :
    Round.Twins src src' L L' (s.receive svc src snk) (t.receive svc src' snk') := by
  obtain ⟨came, i, j, hr, hr', ha⟩ := Frame.readWith_alike Frame.decodeCall h.input
  have hread : Twins src src' L L' { s with input := i } { t with input := j } :=
    ⟨ha, h.output, h.service, h.served⟩
  rw [Serving.receive, Serving.receive, Frame.readCall, Frame.readCall, hr, hr']
  rcases came with e | _ | c
  · exact .stop _ hread
  · dsimp only
    rw [h.served]
    exact .stop _ ⟨ha, h.output, h.service, rfl⟩
  · exact hread.handle svc c

theorem round (h : Twins src src' L L' s t) (svc : Service η) :
    Round.Twins src src' L L' (s.round svc src snk) (t.round svc src' snk') := by
  rw [Serving.round, Serving.round, h.served, h.service]
  by_cases h0 : s.served = 0
  · rw [if_pos h0, if_pos h0]
    exact h.receive svc
  · rw [if_neg h0, if_neg h0]
    match svc.running s.service with
    | (false, e) => exact .stop _ ⟨h.input, h.output, rfl, rfl⟩
    | (true, e) =>
      have hchecked : Twins src src' L L' { s with service := e }
          { t with service := e, served := s.served } := ⟨h.input, h.output, rfl, rfl⟩
      exact hchecked.receive svc

theorem run (h : Twins src src' L L' s t) (svc : Service η) :
    ∃ r s' t', s.run svc src snk = (r, s') ∧ t.run svc src' snk' = (r, t') ∧
      Twins src src' L L' s' t' := by
  fun_induction Serving.run svc src snk s generalizing t with
  | case1 s r s' hs =>
    have hround := h.round svc
    rw [hs] at hround
    generalize ht : t.round svc src' snk' = x at hround
    cases hround with
    | stop _ ht' => exact ⟨r, s', _, rfl, run_of_stop ht, ht'⟩
  | case2 s s' hs _ ih =>
    have hround := h.round svc
    rw [hs] at hround
    generalize ht : t.round svc src' snk' = x at hround
    cases hround with
    | next ht' =>
      obtain ⟨r, u, v, hu, hv, huv⟩ := ih ht'
      exact ⟨r, u, v, hu, (run_of_next ht).trans hv, huv⟩

end Twins
end Serving

/-! ## The client -/

namespace Channel

/-- What a client does on a channel: it makes a call and waits for the reply, or it only
sends one. -/
inductive Errand where
  | exchange (c : CallFrame) (deadline : Bool)
  | send (c : CallFrame) (deadline : Bool)

variable {ι κ ω ψ δ : Type}

def runErrand (ch : Channel ι ω δ) (s : State ι ω δ) :
    Errand → Except SessionError (Option Exchange) × State ι ω δ
  | .exchange c deadline =>
    match ch.exchange c deadline s with
    | (r, t) => (some <$> r, t)
  | .send c deadline =>
    match ch.send c deadline s with
    | (r, t) => ((fun _ => none) <$> r, t)

def runErrands (ch : Channel ι ω δ) : List Errand → State ι ω δ →
    List (Except SessionError (Option Exchange)) × State ι ω δ
  | [], s => ([], s)
  | e :: es, s =>
    match ch.runErrand s e with
    | (r, t) =>
      match ch.runErrands es t with
      | (rs, u) => (r :: rs, u)

/-- Two clients that differ only in how they reach their sockets. -/
structure State.Twins (ch : Channel ι ω δ) (ch' : Channel κ ψ δ) (L : ch.sink.Ledger)
    (L' : ch'.sink.Ledger) (s : State ι ω δ) (t : State κ ψ δ) : Prop where
  input : ch.source.Alike s.input ch'.source t.input
  output : L.Even L' s.output t.output
  timer : t.timer = s.timer

namespace State.Twins

variable {ch : Channel ι ω δ} {ch' : Channel κ ψ δ} {L : ch.sink.Ledger} {L' : ch'.sink.Ledger}
  {s : State ι ω δ} {t : State κ ψ δ}

theorem send (h : State.Twins ch ch' L L' s t) (hd : ch'.setDeadline = ch.setDeadline)
    (c : CallFrame) (deadline : Bool) :
    ∃ answer s' t', ch.send c deadline s = (answer, s') ∧ ch'.send c deadline t = (answer, t') ∧
      State.Twins ch ch' L L' s' t' := by
  rw [Channel.send, Channel.send, hd, h.timer]
  rcases ch.setDeadline deadline s.timer with ⟨e | _, d⟩
  · exact ⟨_, _, _, rfl, rfl, h.input, h.output, rfl⟩
  · dsimp only
    rw [Frame.writeCall, Frame.writeCall]
    rcases h.output.post (Body.writeCall c) with
      ⟨e, hw, hw'⟩ | ⟨s₁, s₂, t₁, t₂, ⟨hw, hf⟩, ⟨hw', hf'⟩, heven⟩
    · rw [hw, hw']
      exact ⟨_, { s with timer := d }, { t with timer := d }, rfl, rfl, h.input, h.output, rfl⟩
    · refine ⟨.ok (), { s with timer := d, output := s₂ }, { t with timer := d, output := t₂ },
        ?_, ?_, h.input, heven, rfl⟩
      · rw [hw]
        dsimp only
        rw [hf]
      · rw [hw']
        dsimp only
        rw [hf']

theorem awaitReply (h : State.Twins ch ch' L L' s t) (c : CallFrame) :
    ∃ answer s' t', ch.awaitReply c s = (answer, s') ∧ ch'.awaitReply c t = (answer, t') ∧
      State.Twins ch ch' L L' s' t' := by
  obtain ⟨came, i, j, hr, hr', ha⟩ := Frame.readWith_alike Frame.decodeReturn h.input
  rw [Channel.awaitReply, Channel.awaitReply, Frame.readReturn, Frame.readReturn, hr, hr']
  rcases came with e | _ | r
  · exact ⟨_, _, _, rfl, rfl, ha, h.output, h.timer⟩
  · exact ⟨_, _, _, rfl, rfl, ha, h.output, h.timer⟩
  · exact ⟨_, _, _, rfl, rfl, ha, h.output, h.timer⟩

theorem exchange (h : State.Twins ch ch' L L' s t) (hd : ch'.setDeadline = ch.setDeadline)
    (c : CallFrame) (deadline : Bool) :
    ∃ answer s' t', ch.exchange c deadline s = (answer, s') ∧
      ch'.exchange c deadline t = (answer, t') ∧ State.Twins ch ch' L L' s' t' := by
  obtain ⟨sent, s₁, t₁, hs, ht, h₁⟩ := h.send hd c deadline
  rw [Channel.exchange, Channel.exchange, hs, ht]
  cases sent with
  | error e => exact ⟨_, s₁, t₁, rfl, rfl, h₁⟩
  | ok _ => exact h₁.awaitReply c

theorem runErrand (h : State.Twins ch ch' L L' s t) (hd : ch'.setDeadline = ch.setDeadline)
    (e : Errand) :
    ∃ answer s' t', ch.runErrand s e = (answer, s') ∧ ch'.runErrand t e = (answer, t') ∧
      State.Twins ch ch' L L' s' t' := by
  cases e with
  | exchange c deadline =>
    obtain ⟨answer, s', t', hs, ht, h'⟩ := h.exchange hd c deadline
    exact ⟨_, s', t', by rw [Channel.runErrand, hs], by rw [Channel.runErrand, ht], h'⟩
  | send c deadline =>
    obtain ⟨answer, s', t', hs, ht, h'⟩ := h.send hd c deadline
    exact ⟨_, s', t', by rw [Channel.runErrand, hs], by rw [Channel.runErrand, ht], h'⟩

theorem runErrands (h : State.Twins ch ch' L L' s t) (hd : ch'.setDeadline = ch.setDeadline)
    (es : List Errand) :
    ∃ answers s' t', ch.runErrands es s = (answers, s') ∧ ch'.runErrands es t = (answers, t') ∧
      State.Twins ch ch' L L' s' t' := by
  induction es generalizing s t with
  | nil => exact ⟨[], s, t, rfl, rfl, h⟩
  | cons e es ih =>
    obtain ⟨answer, s₁, t₁, hs, ht, h₁⟩ := h.runErrand hd e
    obtain ⟨answers, s₂, t₂, hs', ht', h₂⟩ := ih h₁
    refine ⟨answer :: answers, s₂, t₂, ?_, ?_, h₂⟩
    · rw [Channel.runErrands, hs]
      dsimp only
      rw [hs']
    · rw [Channel.runErrands, ht]
      dsimp only
      rw [ht']

end State.Twins
end Channel

/-! ## Direct and buffered channels -/

namespace Socket

variable {ω : Type} {snk : Sink ω}

theorem exists_buffers (L : snk.Ledger) {n : Nat} (hn : 0 < n) (as : List Script.Arrival) {u : ω}
    (hu : L.Calm u) :
    ∃ b o, BufferedInput.new n as = .ok b ∧ BufferedOutput.new n u = .ok o ∧
      Script.source.Alike as (bufferedSource Script.source) b ∧ L.Even (ledger L) u o := by
  have hne : n ≠ 0 := Nat.ne_of_gt hn
  have hcap : 0 < (Window.new n).flip.capacity := by simpa using hn
  refine ⟨⟨(Window.new n).flip, as⟩, ⟨n, [], hn, false, u⟩, if_neg hne, dif_neg hne, ?_, ?_⟩
  · exact ⟨_, Script.source_plays as, bufferedSource_plays (Script.source_plays as) hcap⟩
  · exact ⟨hu, ⟨⟨hu.ready, rfl⟩, hu.sent.trans (List.append_nil _).symm⟩, rfl, rfl⟩

/-- Nothing shows whether a channel is buffered.  Over any script of reads, and any sink
that takes something of what it is offered and does not fail, a session and the errands of a
client come to the same, well or badly, whether they use the socket or go through buffers
of `n` bytes: the same answers and errors, the same calls for the service, which may keep a
record of them, the same bytes on the wire and as many flushes of the socket. -/
theorem buffering_unseen (L : snk.Ledger) (n : Nat) (hn : 0 < n) (as : List Script.Arrival)
    (u : ω) (hu : L.Calm u) :
    ∃ b o, BufferedInput.new n as = .ok b ∧ BufferedOutput.new n u = .ok o ∧
      (∀ {η : Type} (svc : Service η) (h : η), ∃ result s t,
        serve svc Script.source snk as u h = (result, s) ∧
        serve svc (bufferedSource Script.source) (bufferedSink snk) b o h = (result, t) ∧
        t.service = s.service ∧ L.sent t.output.drains = L.sent s.output ∧
        L.flushes t.output.drains = L.flushes s.output) ∧
      (∀ {δ : Type} (setDeadline : Bool → δ → Except Fault Unit × δ) (timer : δ)
        (errands : List Channel.Errand), ∃ results s t,
        (Channel.mk Script.source snk setDeadline).runErrands errands ⟨as, u, timer⟩
          = (results, s) ∧
        (Channel.mk (bufferedSource Script.source) (bufferedSink snk)
          setDeadline).runErrands errands ⟨b, o, timer⟩ = (results, t) ∧
        t.timer = s.timer ∧ L.sent t.output.drains = L.sent s.output ∧
        L.flushes t.output.drains = L.flushes s.output) := by
  obtain ⟨b, o, hb, ho, halike, heven⟩ := exists_buffers L hn as hu
  refine ⟨b, o, hb, ho, ?_, ?_⟩
  · intro η svc h
    have htwins : Serving.Twins Script.source (bufferedSource Script.source) L (ledger L)
        ⟨as, u, h, 0⟩ ⟨b, o, h, 0⟩ := ⟨halike, heven, rfl, rfl⟩
    obtain ⟨result, s, t, hs, ht, hst⟩ := htwins.run svc
    exact ⟨result, s, t, hs, ht, hst.service, hst.output.sent.symm, hst.output.flushes.symm⟩
  · intro δ setDeadline timer errands
    have htwins : Channel.State.Twins (Channel.mk Script.source snk setDeadline)
        (Channel.mk (bufferedSource Script.source) (bufferedSink snk) setDeadline) L (ledger L)
        ⟨as, u, timer⟩ ⟨b, o, timer⟩ := ⟨halike, heven, rfl⟩
    obtain ⟨results, s, t, hs, ht, hst⟩ := htwins.runErrands rfl errands
    exact ⟨results, s, t, hs, ht, hst.timer, hst.output.sent.symm, hst.output.flushes.symm⟩

/-- A greeting that comes in two chunks with an interruption between them is answered
through buffers of three bytes, over a sink that takes little at first. -/
theorem buffering_unseen_greeting :
    let wire := Frame.callWire (Link.greeting 0x100)
    let arrivals : List Script.Arrival :=
      [.chunk (wire.take 4), .fault ⟨.interrupted, ""⟩, .chunk (wire.drop 4)]
    let u : Script.Uptake := ⟨[.ok 1, .error ⟨.interrupted, ""⟩], [], [], 0⟩
    0 < 3 ∧ Script.ledger.Calm u ∧ ∃ b o t, BufferedInput.new 3 arrivals = .ok b ∧
      BufferedOutput.new 3 u = .ok o ∧
      serve (.steady true Link.count) (bufferedSource Script.source) (bufferedSink Script.sink)
        b o 0 = (.ok 1, t) ∧
      t.output.drains.taken = Frame.returnWire ⟨.value .null, 0, some [0]⟩ := by
  intro wire arrivals u
  have hu : u.Willing := ⟨by simp [u], by simp [u]⟩
  have hclean : Script.Clean arrivals := by
    have htake : wire.take 4 ≠ [] := by decide +kernel
    have hdrop : wire.drop 4 ≠ [] := by decide +kernel
    simp [Script.Clean, arrivals, htake, hdrop]
  have hstream : Script.source.Delivers arrivals
      ((Service.answered true [Link.greeting 0x100]).flatMap Frame.callWire) := by
    rw [Service.answered_singleton, List.flatMap_singleton]
    have hwire : Script.bytes arrivals = wire := by
      show wire.take 4 ++ (wire.drop 4 ++ []) = wire
      rw [List.append_nil, List.take_append_drop]
    rw [← show Script.bytes arrivals = Frame.callWire (Link.greeting 0x100) from hwire]
    exact Script.source_delivers hclean
  have hsend : Service.Sendable true Link.count [Link.greeting 0x100] 0 :=
    .inOut rfl rfl (by decide +kernel) (by decide +kernel)
  obtain ⟨s, hrun, -, htaken, -⟩ := Serving.run_answered (s := ⟨arrivals, u, 0, 0⟩) (Or.inl rfl)
    hsend hstream (Script.sink_accepts hu)
  rw [Service.answered_singleton, Service.replies_inOut true Link.count rfl,
    List.flatMap_singleton] at htaken
  have hreply : (Link.count (Link.greeting 0x100) 0).1.setKeepAlive
      ((Link.greeting 0x100).isKeepAlive && true) = ⟨.value .null, 0, some [0]⟩ := by decide
  rw [hreply] at htaken
  have hcalm : Script.ledger.Calm u := ⟨hu, rfl⟩
  obtain ⟨b, o, hb, ho, hserve, -⟩ :=
    buffering_unseen Script.ledger 3 (by decide) arrivals u hcalm
  obtain ⟨result, s', t, hs, ht, -, htaken', -⟩ := hserve (.steady true Link.count) 0
  obtain ⟨rfl, rfl⟩ := Prod.mk.inj (hs.symm.trans hrun)
  exact ⟨by decide, hcalm, b, o, t, hb, ho, ht, htaken'.trans htaken⟩

end Socket
end RemoteCall
