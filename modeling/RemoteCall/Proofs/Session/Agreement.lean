import RemoteCall.Proofs.Session.Client

/-!
Both ends of a connection.

A client and a server share nothing but the bytes that they write to each other.  Each
goes its own way through what it reads, so how the two are scheduled, and how the bytes
are cut and held up on their way, can only decide when a byte arrives.  `Link.AtRest`
speaks of the time when nothing moves any more: each end has been handed what the other
end wrote, and nothing else.  An end that would wait for ever finds its stream ended
there; so two ends that wait for each other would be at rest too, with a reply that
never came.
-/

namespace RemoteCall

/-- A client and a server at the ends of a connection, before either has done anything. -/
structure Link (ι ω δ κ ψ : Type) where
  channel : Channel ι ω δ
  client : Channel.State ι ω δ
  source : Source κ
  sink : Sink ψ
  input : κ
  output : ψ
  /-- What the client has written. -/
  asked : ω → Bytes
  /-- What the server has written. -/
  replied : ψ → Bytes

namespace Link

variable {ι ω δ κ ψ η : Type}

/-- The link when all is done, the client having left its sink in `o` and the server in
`p`. -/
structure AtRest (l : Link ι ω δ κ ψ) (o : ω) (p : ψ) : Prop where
  patient : l.channel.Patient
  clientSink : l.channel.sink.Accepts l.asked l.client.output
  serverSink : l.sink.Accepts l.replied l.output
  forth : ∃ bs, l.asked o = l.asked l.client.output ++ bs ∧ l.source.Delivers l.input bs
  back : ∃ bs, l.replied p = l.replied l.output ++ bs ∧
    l.channel.source.Delivers l.client.input bs

def converse (l : Link ι ω δ κ ψ) (deadline : Bool) (calls : List CallFrame) :
    List (Except SessionError (Option Channel.Exchange)) × Channel.State ι ω δ :=
  l.channel.converse deadline calls l.client

def serve (l : Link ι ω δ κ ψ) (running : Bool) (process : CallFrame → η → ReturnFrame × η)
    (h : η) : Except SessionError Nat × Serving κ ψ η :=
  RemoteCall.serve (.steady running process) l.source l.sink l.input l.output h

/-! ## What is carried -/

variable {ch : Channel ι ω δ} {src : Source κ} {snk : Sink ψ} {asked : ω → Bytes}
  {replied : ψ → Bytes} {deadline running : Bool} {process : CallFrame → η → ReturnFrame × η}

theorem exists_rest {front bs cs : Bytes} (h : front ++ bs <+: front ++ cs) :
    ∃ rest, cs = bs ++ rest := by
  obtain ⟨rest, hrest⟩ := (List.prefix_append_right_inj front).mp h
  exact ⟨rest, hrest.symm⟩

/-- The first call is carried over and its reply is carried back, whatever comes behind
them.  The client writes the call whatever it reads, so the server reads it; then the
server writes the reply whatever it reads next, so the client reads that. -/
theorem carried_first {c : CallFrame} {cs : List CallFrame} {s : Channel.State ι ω δ}
    {t : Serving κ ψ η} {p q : Bytes} (hp : ch.Patient) (hco : ch.sink.Accepts asked s.output)
    (hso : snk.Accepts replied t.output) (hstart : t.served = 0 ∨ running = true)
    (hs : Service.Sendable running process (c :: cs) t.service)
    (hforth : asked (ch.converse deadline (c :: cs) s).2.output = asked s.output ++ p)
    (hi : src.Delivers t.input p)
    (hback : replied (t.run (.steady running process) src snk).2.output = replied t.output ++ q)
    (hj : ch.source.Delivers s.input q) :
    ∃ (x y : Bytes) (u : Serving κ ψ η) (v : Channel.State ι ω δ), p = Frame.callWire c ++ x ∧
      q = ((Service.steady running process).replyTo c t.service).flatMap Frame.returnWire ++ y ∧
      (ch.perform deadline c s = (.ok (Channel.outcome running c (process c t.service).1), v) ∧
        ch.sink.Accepts asked v.output ∧ asked v.output = asked s.output ++ Frame.callWire c ∧
        ch.source.Delivers v.input y) ∧
      (t.round (.steady running process) src snk = u.conclude (c.isKeepAlive && running) ∧
        snk.Accepts replied u.output ∧ replied u.output = replied t.output
          ++ ((Service.steady running process).replyTo c t.service).flatMap Frame.returnWire ∧
        src.Delivers u.input x ∧ u.service = (process c t.service).2) := by
  obtain ⟨hsc, hscs⟩ := List.forall_mem_cons.mp hs.call
  obtain ⟨hacc, htaken⟩ := Channel.perform_accepts deadline hp hco hsc
  obtain ⟨x, rfl⟩ : ∃ x, p = Frame.callWire c ++ x := by
    have hfront := (Channel.converse_cons_grows deadline hp hacc hscs).front
    rw [hforth, htaken] at hfront
    exact exists_rest hfront
  obtain ⟨u, hround, hiu, hsou, hgiven, hsvc, -⟩ := Serving.round_call hstart hs hi hso
  obtain ⟨y, rfl⟩ : ∃ y, q = ((Service.steady running process).replyTo c
      t.service).flatMap Frame.returnWire ++ y := by
    have hfront := (Serving.run_grows_of_round hround hsou).front
    rw [hback, hgiven] at hfront
    exact exists_rest hfront
  obtain ⟨v, hperf, hjv⟩ := Channel.perform_delivers deadline hp hco hs hj
  rw [hperf] at hacc htaken
  exact ⟨x, y, u, v, rfl, rfl, ⟨hperf, hacc, htaken, hjv⟩, hround, hsou, hgiven, hiu, hsvc⟩

/-- The bytes on the two streams at rest.  Neither is known in advance, since each end
writes in answer to the other; they are found call by call. -/
theorem carried {calls : List CallFrame} {s : Channel.State ι ω δ} {t : Serving κ ψ η}
    {p q : Bytes} (hp : ch.Patient) (hco : ch.sink.Accepts asked s.output)
    (hso : snk.Accepts replied t.output) (hstart : t.served = 0 ∨ running = true)
    (hs : Service.Sendable running process calls t.service)
    (hrule : running = true ∨ ∀ c ∈ calls, c.isInOut = true)
    (hforth : asked (ch.converse deadline calls s).2.output = asked s.output ++ p)
    (hi : src.Delivers t.input p)
    (hback : replied (t.run (.steady running process) src snk).2.output = replied t.output ++ q)
    (hj : ch.source.Delivers s.input q) :
    p = (Service.answered running calls).flatMap Frame.callWire ∧
      q = ((Service.steady running process).replies (Service.answered running calls)
        t.service).flatMap Frame.returnWire := by
  induction calls generalizing s t p q with
  | nil =>
    obtain rfl : p = [] := List.append_right_eq_self.mp hforth.symm
    obtain ⟨i, hrec⟩ := Serving.receive_end (.steady running process) snk hi
    rw [← Serving.round_steady hstart] at hrec
    rw [Serving.run_of_stop hrec] at hback
    exact ⟨rfl, List.append_right_eq_self.mp hback.symm⟩
  | cons c cs ih =>
    obtain ⟨x, y, u, v, rfl, rfl, ⟨hperf, hcov, hasked, hjv⟩, hround, hsou, hgiven, hiu, hsvc⟩ :=
      carried_first hp hco hso hstart hs hforth hi hback hj
    have hgo := Channel.goesOn_outcome (process c t.service).1
      (hrule.imp_right fun h => h c List.mem_cons_self)
    rw [Channel.converse_cons_state, hperf, hgo, ← List.append_assoc, ← hasked] at hforth
    rw [← List.append_assoc, ← hgiven] at hback
    rw [Service.answered]
    by_cases hk : (c.isKeepAlive && running) = true
    · -- Both ends go on.
      rw [hk, Serving.conclude, if_pos rfl] at hround
      rw [if_pos hk] at hforth ⊢
      rw [Serving.run_of_next hround] at hback
      obtain ⟨rfl, rfl⟩ := ih (s := v) (t := u) hcov hsou (Or.inr (Bool.and_eq_true_iff.mp hk).2)
        (hsvc ▸ hs.tail hk) (hrule.imp_right fun h => (List.forall_mem_cons.mp h).2)
        hforth hiu hback hjv
      rw [Service.replies_steady, List.flatMap_cons, List.flatMap_append, hsvc]
      exact ⟨rfl, rfl⟩
    · -- Both ends stop.
      rw [Bool.eq_false_iff.mpr hk, Serving.conclude, if_neg (by simp)] at hround
      rw [if_neg hk] at hforth ⊢
      rw [Serving.run_of_stop hround] at hback
      obtain rfl : x = [] := List.append_right_eq_self.mp hforth.symm
      obtain rfl : y = [] := List.append_right_eq_self.mp hback.symm
      rw [Service.replies_steady, Service.replies, List.flatMap_singleton, List.append_nil,
        List.append_nil, List.append_nil]
      exact ⟨rfl, rfl⟩

/-! ## Agreement -/

variable {calls : List CallFrame} {h : η}

theorem AtRest.agree {l : Link ι ω δ κ ψ}
    (hrest : l.AtRest (l.converse deadline calls).2.output (l.serve running process h).2.output)
    (hs : Service.Sendable running process calls h)
    (hrule : running = true ∨ ∀ c ∈ calls, c.isInOut = true) :
    (l.converse deadline calls).1
        = Channel.outcomes running process (Service.answered running calls) h ∧
      (l.serve running process h).1 = .ok (Service.answered running calls).length ∧
      (l.serve running process h).2.service
        = Service.after process (Service.answered running calls) h := by
  obtain ⟨p, hforth, hi⟩ := hrest.forth
  obtain ⟨q, hback, hj⟩ := hrest.back
  obtain ⟨rfl, rfl⟩ := carried (t := ⟨l.input, l.output, h, 0⟩) hrest.patient hrest.clientSink
    hrest.serverSink (Or.inl rfl) hs hrule hforth hi hback hj
  obtain ⟨t, hrun, -, -, hafter⟩ := Serving.run_answered (s := ⟨l.input, l.output, h, 0⟩)
    (Or.inl rfl) hs hi hrest.serverSink
  refine ⟨(Channel.converse_answered deadline hrest.patient hrest.clientSink hs hrule hj).1, ?_⟩
  unfold serve RemoteCall.serve
  rw [hrun, Nat.zero_add]
  exact ⟨rfl, hafter⟩

theorem exists_atRest (running : Bool) (process : CallFrame → η → ReturnFrame × η) (h : η)
    (calls : List CallFrame) (deadline : Bool)
    (hs : Service.Sendable running process calls h)
    (hrule : running = true ∨ ∀ c ∈ calls, c.isInOut = true) :
    ∃ l : Link (List Script.Arrival) Script.Uptake Unit (List Script.Arrival) Script.Uptake,
      l.AtRest (l.converse deadline calls).2.output (l.serve running process h).2.output := by
  obtain ⟨i, hi⟩ := Script.exists_source_delivers
    ((Service.answered running calls).flatMap Frame.callWire)
  obtain ⟨j, hj⟩ := Script.exists_source_delivers (((Service.steady running process).replies
    (Service.answered running calls) h).flatMap Frame.returnWire)
  let l : Link (List Script.Arrival) Script.Uptake Unit (List Script.Arrival) Script.Uptake :=
    ⟨⟨Script.source, Script.sink, fun _ _ => (.ok (), ())⟩, ⟨j, .empty, ()⟩, Script.source,
      Script.sink, i, .empty, Script.Uptake.taken, Script.Uptake.taken⟩
  have hp : l.channel.Patient := fun _ _ => rfl
  have hout := (Channel.converse_answered deadline (s := l.client) hp
    Script.sink_accepts_empty hs hrule hj).2
  obtain ⟨t, hrun, -, htaken, -⟩ := Serving.run_answered
    (s := ⟨i, Script.Uptake.empty, h, 0⟩) (Or.inl rfl) hs hi Script.sink_accepts_empty
  refine ⟨l, hp, Script.sink_accepts_empty, Script.sink_accepts_empty, ⟨_, hout, hi⟩, _, ?_, hj⟩
  show (Serving.run _ Script.source Script.sink ⟨i, .empty, h, 0⟩).2.output.taken = _
  rw [hrun]
  exact htaken

theorem AtRest.agree_inOut {l : Link ι ω δ κ ψ} {c : CallFrame}
    (hrest : l.AtRest (l.converse deadline [c]).2.output (l.serve running process h).2.output)
    (hs : Service.Sendable running process [c] h) (hc : c.isInOut = true) :
    (l.channel.exchange c deadline l.client).1 = .ok
        ⟨(process c h).1.setKeepAlive (c.isKeepAlive && running), c.isKeepAlive && running⟩ ∧
      (l.serve running process h).2.service = (process c h).2 := by
  obtain ⟨hres, -, hafter⟩ := hrest.agree hs (Or.inr (List.forall_mem_singleton.mpr hc))
  rw [Service.answered_singleton] at hres hafter
  refine ⟨?_, hafter⟩
  rw [converse, Channel.converse_inOut deadline hc] at hres
  have hout : Channel.outcomes running process [c] h
      = [.ok (some ⟨(process c h).1.setKeepAlive (c.isKeepAlive && running),
          c.isKeepAlive && running⟩)] := by
    show [Except.ok (Channel.outcome running c (process c h).1)] = _
    rw [Channel.outcome, if_pos hc]
  rw [hout] at hres
  generalize l.channel.exchange c deadline l.client = w at hres ⊢
  match w with
  | (.error e, t) => simp [Functor.map, Except.map] at hres
  | (.ok x, t) =>
    simp only [Functor.map, Except.map, List.cons.injEq, Except.ok.injEq, Option.some.injEq,
      and_true] at hres
    rw [hres]

/-- The two ends agree.  Every call that the client sends, and no other, is processed, once
and in order; each in-out call comes back with what it was answered and with the decision
that the server took; and the server ends well, with the count of the calls.  The client
sends just the calls up to the first that does not keep the connection. -/
theorem sessions_agree (process : CallFrame → η → ReturnFrame × η) (h : η) (running : Bool)
    (calls : List CallFrame) (deadline : Bool)
    (ha : ∀ c ∈ calls, c.types.length = c.arguments.length)
    (hs : ∀ c ∈ calls, (Body.writeCall c).length ≤ Frame.maxBody)
    (hr : ∀ r ∈ (Service.steady running process).replies (Service.answered running calls) h,
      (Body.writeReturn r).length ≤ Frame.maxBody)
    (hrule : running = true ∨ ∀ c ∈ calls, c.isInOut = true) :
    (∃ l : Link (List Script.Arrival) Script.Uptake Unit (List Script.Arrival) Script.Uptake,
      l.AtRest (l.converse deadline calls).2.output (l.serve running process h).2.output) ∧
    ∀ {ι ω δ κ ψ : Type} (l : Link ι ω δ κ ψ),
      l.AtRest (l.converse deadline calls).2.output (l.serve running process h).2.output →
      ∃ sent, sent = calls.take (l.converse deadline calls).1.length ∧
        sent = Service.answered running calls ∧
        (l.converse deadline calls).1 = Channel.outcomes running process sent h ∧
        (l.serve running process h).1 = .ok sent.length ∧
        (l.serve running process h).2.service = Service.after process sent h := by
  have hsend : Service.Sendable running process calls h := ⟨ha, hs, hr⟩
  refine ⟨exists_atRest running process h calls deadline hsend hrule, ?_⟩
  intro ι ω δ κ ψ l hrest
  obtain ⟨hres, hserved, hafter⟩ := hrest.agree hsend hrule
  refine ⟨_, ?_, rfl, hres, hserved, hafter⟩
  rw [hres, Channel.length_outcomes]
  exact List.prefix_iff_eq_take.mp (Service.answered_prefix running calls)

def greeting (flags : Flags) : CallFrame :=
  ⟨"example.Greeter", "greet", [.str], [.str "there"], flags, none, by decide, by decide⟩

def count (_ : CallFrame) (n : Nat) : ReturnFrame × Nat :=
  (⟨.value .null, 0, some [n.toUInt8]⟩, n + 1)

/-- Two greetings that keep the connection, of which only the second is answered, one
that does not keep it, and one that is never sent. -/
def greetings : List CallFrame := [greeting 0x201, greeting 0x101, greeting 0x100, greeting 0x101]

theorem sessions_agree_greetings :
    (∀ c ∈ greetings, c.types.length = c.arguments.length) ∧
    (∀ c ∈ greetings, (Body.writeCall c).length ≤ Frame.maxBody) ∧
    (∀ r ∈ (Service.steady true count).replies (Service.answered true greetings) 0,
      (Body.writeReturn r).length ≤ Frame.maxBody) ∧
    ∀ {ι ω δ κ ψ : Type} (l : Link ι ω δ κ ψ),
      l.AtRest (l.converse true greetings).2.output (l.serve true count 0).2.output →
      (l.converse true greetings).1 = [.ok none,
        .ok (some ⟨⟨.value .null, 1, some [1]⟩, true⟩),
        .ok (some ⟨⟨.value .null, 0, some [2]⟩, false⟩)] ∧
      (l.serve true count 0).1 = .ok 3 := by
  have ha : ∀ c ∈ greetings, c.types.length = c.arguments.length := by decide
  have hs : ∀ c ∈ greetings, (Body.writeCall c).length ≤ Frame.maxBody := by decide +kernel
  have hr : ∀ r ∈ (Service.steady true count).replies (Service.answered true greetings) 0,
      (Body.writeReturn r).length ≤ Frame.maxBody := by decide +kernel
  refine ⟨ha, hs, hr, fun l hrest => ?_⟩
  obtain ⟨sent, -, rfl, hres, hserved, -⟩ :=
    (sessions_agree count 0 true greetings true ha hs hr (Or.inl rfl)).2 l hrest
  exact ⟨hres.trans rfl, hserved.trans rfl⟩

end Link
end RemoteCall
