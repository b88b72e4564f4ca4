import RemoteCall.Proofs.Record.Loops
import RemoteCall.Proofs.Record.Outbound
import RemoteCall.Proofs.Record.Reassembly

/-!
The handshake takes greetings and nothing else.

`Pump.Greets` says what is left of the script of a handshake and what is still to come in.
A status that wraps or runs a task takes one round.  One that unwraps takes three at most:
a greeting has two bytes, and each round before the one that takes it brings another byte.
So by induction on the script the handshake ends behind the last greeting that it awaits,
or where the stream ends before that.
-/

namespace RemoteCall
namespace Record
namespace LengthRecords

/-- The part of a script that a handshake goes through. -/
def due (script : List HandshakeStatus) : List HandshakeStatus :=
  script.takeWhile fun s => s ≠ .finished ∧ s ≠ .notHandshaking

def greetings (n : Nat) : Bytes := (List.replicate n greeting).flatten

theorem greetings_succ (n : Nat) : greetings (n + 1) = greeting ++ greetings n := by
  rw [greetings, List.replicate_succ, List.flatten_cons, greetings]

end LengthRecords

namespace Pump

open LengthRecords

/-- A pump of length records that is watched at both ends: its sink keeps a log, and its
engine a list of its calls. -/
abbrev Observed (ι ω : Type) := Pump ι (ω × List Sink.Event) (LengthRecords × List Engine.Call)

abbrev observedEnds {ι ω : Type} (source : Source ι) (sink : Sink ω) :
    Ends ι (ω × List Sink.Event) (LengthRecords × List Engine.Call) :=
  (ends source sink).watched.logged

variable {ι ω : Type}

/-- In a handshake that has `script` to go through while `bytes` come in. -/
structure Greets (source : Source ι) (sink : Sink ω) (taken : ω → Bytes) (size : Nat)
    (script : List HandshakeStatus) (bytes : Bytes) (p : Observed ι ω) : Prop where
  begun : p.engine.1.begun = true
  script_eq : p.engine.1.script = script
  notDone : p.engine.1.inboundDone = false
  accepts : sink.traced.Accepts (fun o => taken o.1) p.output
  outRoom : p.netOut.capacity = size
  writable : p.netIn.after = []
  room : p.netIn.capacity = size
  comes : ∃ rest, p.netIn.before ++ rest = bytes ∧ source.Delivers p.input rest

/-- From `p` to `q` so many greetings were sent, and so many tasks were run. -/
structure Serves (p q : Observed ι ω) (sent ran : Nat) : Prop where
  sendings : ∃ sendings : List (List Sink.Event), sendings.length = sent ∧
    (∀ events ∈ sendings, Sink.Sending greeting (.ok ()) events) ∧
    q.output.2 = p.output.2 ++ sendings.flatten
  tasks : q.engine.2.count .runTask = p.engine.2.count .runTask + ran

variable {source : Source ι} {sink : Sink ω} {taken : ω → Bytes} {size : Nat}
  {script : List HandshakeStatus} {bytes : Bytes} {p q r : Observed ι ω}

theorem Serves.refl (p : Observed ι ω) : Serves p p 0 0 :=
  ⟨⟨[], rfl, nofun, (List.append_nil _).symm⟩, rfl⟩

theorem Serves.trans {sent ran sent' ran' : Nat} (h : Serves p q sent ran)
    (h' : Serves q r sent' ran') : Serves p r (sent + sent') (ran + ran') := by
  obtain ⟨⟨xs, hxs, hall, hlog⟩, htasks⟩ := h
  obtain ⟨⟨ys, hys, hall', hlog'⟩, htasks'⟩ := h'
  refine ⟨⟨xs ++ ys, ?_, List.forall_mem_append.mpr ⟨hall, hall'⟩, ?_⟩, ?_⟩
  · rw [List.length_append, hxs, hys]
  · rw [hlog', hlog, List.flatten_append, List.append_assoc]
  · rw [htasks', htasks, Nat.add_assoc]

theorem Serves.aside {calls : List Engine.Call} (hlog : q.output = p.output)
    (hcalls : q.engine.2 = p.engine.2 ++ calls) (h : .runTask ∉ calls) : Serves p q 0 0 := by
  refine ⟨⟨[], rfl, nofun, ?_⟩, ?_⟩
  · rw [hlog, List.flatten_nil, List.append_nil]
  · rw [hcalls, List.count_append, List.count_eq_zero.mpr h]

/-! ## One round -/

theorem Greets.handshake_eq {status : HandshakeStatus}
    (hp : p.Greets source sink taken size (status :: script) bytes) :
    p.engine.1.handshake = status := by
  rw [LengthRecords.handshake, if_pos hp.begun, hp.script_eq]
  rfl

theorem sendOn_sending {ε α : Type} {d : Ends ι ω ε} {p : Logged ι ω ε}
    (h : d.sink.traced.Accepts (fun o => taken o.1) p.output) :
    ∃ o w events, (p.sendOn d.logged : Turn α × Logged ι ω ε) =
        (.again, { p with output := o, netOut := w }) ∧
      d.sink.traced.Accepts (fun o => taken o.1) o ∧ w.capacity = p.netOut.capacity ∧
      o.2 = p.output.2 ++ events ∧ Sink.Sending p.netOut.before (.ok ()) events := by
  obtain ⟨o, w, hsend, ho, -, hw⟩ := sendOn_accepts (α := α) (d := d.logged) (p := p) h
  obtain ⟨events, hlog, hsending⟩ := exists_sending d p
  rw [sendOn] at hsend
  rcases hdone : p.send d.logged with ⟨e | ⟨⟩, q⟩
  · rw [hdone] at hsend
    cases hsend
  · rw [hdone] at hsend hlog hsending
    obtain ⟨-, rfl⟩ := Prod.mk.inj hsend
    refine ⟨o, w, events, ?_, ho, hw, hlog, hsending⟩
    rw [sendOn, hdone]

theorem wrap_observed {app src dst : Window} {status : Status} {consumed produced : Nat}
    {e : LengthRecords} (h : LengthRecords.wrap app p.netOut.clear p.engine.1 =
      moved status consumed produced src dst e) :
    p.wrap (observedEnds source sink) app =
      (.ok ⟨status, e.handshake, consumed, produced⟩, src,
        { p with engine := (e, p.engine.2 ++ [.wrap app.span p.netOut.clear.remaining]),
                 netOut := dst }) := by
  have hm : LengthRecords.engine.wrap app p.netOut.clear p.engine.1 = _ := h
  simp only [wrap, Ends.watched, Ends.logged, ends, Engine.traced, hm, moved]

theorem unwrap_observed {app src dst : Window} {status : Status} {consumed produced : Nat}
    {e : LengthRecords} (h : LengthRecords.unwrap p.netIn.flip app p.engine.1 =
      moved status consumed produced src dst e) :
    p.unwrap (observedEnds source sink) app =
      (.ok ⟨status, e.handshake, consumed, produced⟩, dst,
        { p with engine := (e, p.engine.2 ++ [.unwrap p.netIn.flip.span app.remaining]),
                 netIn := src.compact }) := by
  have hm : LengthRecords.engine.unwrap p.netIn.flip app p.engine.1 = _ := h
  simp only [unwrap, Ends.watched, Ends.logged, ends, Engine.traced, hm, moved]

theorem Greets.step_needWrap (hsize : 2 ≤ size)
    (hp : p.Greets source sink taken size (.needWrap :: script) bytes) :
    ∃ q, p.handshakeStep (observedEnds source sink) = (.again, q) ∧
      q.Greets source sink taken size script bytes ∧ Serves p q 1 0 := by
  have hdue : (observedEnds source sink).engine.handshake p.engine = .needWrap := hp.handshake_eq
  have hwrap : LengthRecords.wrap noPlaintext p.netOut.clear p.engine.1 =
      moved .ok 0 greeting.length noPlaintext (p.netOut.clear.put greeting) p.engine.1.step :=
    if_pos hp.handshake_eq
  let wrapped : Observed ι ω :=
    { p with
      engine := (p.engine.1.step,
        p.engine.2 ++ [.wrap noPlaintext.span p.netOut.clear.remaining])
      netOut := p.netOut.clear.put greeting }
  have hpump : p.wrap (observedEnds source sink) noPlaintext = (.ok ⟨.ok,
      p.engine.1.step.handshake, 0, greeting.length⟩, noPlaintext, wrapped) :=
    wrap_observed hwrap
  have hgreeting : wrapped.netOut.before = greeting := Window.span_refilled (hp.outRoom ▸ hsize)
  have haccepts : (ends source sink).watched.sink.traced.Accepts (fun o => taken o.1)
      wrapped.output := hp.accepts
  obtain ⟨o, w, events, hsend, ho, hw, hlog, hsending⟩ := sendOn_sending (α := Unit) haccepts
  refine ⟨{ wrapped with output := o, netOut := w }, ?_,
    ⟨hp.begun, ?_, hp.notDone, ho, ?_, hp.writable, hp.room, hp.comes⟩,
    ⟨[events], rfl, ?_, ?_⟩, ?_⟩
  · rw [handshakeStep, hdue]
    simp only [hpump, if_true, hsend]
  · show p.engine.1.script.tail = script
    rw [hp.script_eq]
    rfl
  · rw [hw, Window.capacity_put, Window.capacity_clear, hp.outRoom]
  · rw [hgreeting] at hsending
    exact List.forall_mem_singleton.mpr hsending
  · rw [List.flatten_singleton]
    exact hlog
  · rw [List.count_append]
    rfl

theorem Greets.step_needTask
    (hp : p.Greets source sink taken size (.needTask :: script) bytes) :
    ∃ q, p.handshakeStep (observedEnds source sink) = (.again, q) ∧
      q.Greets source sink taken size script bytes ∧ Serves p q 0 1 := by
  refine ⟨{ p with engine := (p.engine.1.step, p.engine.2 ++ [.runTask]) }, ?_,
    ⟨hp.begun, ?_, hp.notDone, hp.accepts, hp.outRoom, hp.writable, hp.room, hp.comes⟩, ?_⟩
  · have hdue : (observedEnds source sink).engine.handshake p.engine = .needTask :=
      hp.handshake_eq
    have htask : (observedEnds source sink).engine.runTask p.engine =
        (.ok (), p.engine.1.step, p.engine.2 ++ [.runTask]) :=
      congrArg (fun ran => (ran.1, ran.2, p.engine.2 ++ [Engine.Call.runTask]))
        (runTask_of_needTask hp.handshake_eq)
    rw [handshakeStep, hdue]
    simp only [htask]
  · show p.engine.1.script.tail = script
    rw [hp.script_eq]
    rfl
  · refine ⟨⟨[], rfl, nofun, (List.append_nil _).symm⟩, ?_⟩
    rw [List.count_append]
    rfl

/-! ## Awaiting a greeting -/

theorem Greets.asks (hp : p.Greets source sink taken size (.needUnwrap :: script) bytes)
    (hshort : p.netIn.before.length < 2) :
    ∃ q, p.handshakeStep (observedEnds source sink) =
        q.fillOn (observedEnds source sink) (.error handshakeCutShort) ∧
      q.Greets source sink taken size (.needUnwrap :: script) bytes ∧ q.netIn = p.netIn ∧
      Serves p q 0 0 := by
  have hdue : (observedEnds source sink).engine.handshake p.engine = .needUnwrap :=
    hp.handshake_eq
  rw [handshakeStep, hdue]
  by_cases hempty : p.netIn.position = 0
  · exact ⟨p, if_pos hempty, hp, rfl, .refl p⟩
  · have hunwrap : LengthRecords.unwrap p.netIn.flip noPlaintext p.engine.1 =
        moved .bufferUnderflow 0 0 p.netIn.flip noPlaintext p.engine.1 := by
      rw [LengthRecords.unwrap, if_pos hp.handshake_eq]
      exact if_pos hshort
    have hpump : p.unwrap (observedEnds source sink) noPlaintext = _ := unwrap_observed hunwrap
    rw [Window.compact_flip hp.writable] at hpump
    refine ⟨{ p with engine := (p.engine.1,
        p.engine.2 ++ [.unwrap p.netIn.flip.span noPlaintext.remaining]) }, ?_,
      ⟨hp.begun, hp.script_eq, hp.notDone, hp.accepts, hp.outRoom, hp.writable, hp.room, hp.comes⟩,
      rfl, .aside rfl rfl (by simp)⟩
    refine (if_neg hempty).trans ?_
    rw [hpump]

theorem Greets.step_short (hsize : 2 ≤ size)
    (hp : p.Greets source sink taken size (.needUnwrap :: script) bytes)
    (hshort : p.netIn.before.length < 2) :
    (∃ q, p.handshakeStep (observedEnds source sink) = (.again, q) ∧
      q.Greets source sink taken size (.needUnwrap :: script) bytes ∧
      p.netIn.before.length < q.netIn.before.length ∧ Serves p q 0 0) ∨
    (p.netIn.before = bytes ∧
      ∃ q, p.handshakeStep (observedEnds source sink) = (.stop (.error handshakeCutShort), q)) := by
  obtain ⟨q, hstep, hq, hsame, hserves⟩ := hp.asks hshort
  rw [hstep, ← hsame]
  rw [← hsame] at hshort
  have hroom : 0 < q.netIn.remaining := by
    have hcapacity := hq.room
    rw [Window.capacity, hq.writable, List.length_nil] at hcapacity
    rw [Window.remaining]
    omega
  obtain ⟨rest, hrest, hdelivers⟩ := hq.comes
  rcases fillOn_delivers (α := Unit) (d := observedEnds source sink) (.error handshakeCutShort)
    hroom hdelivers with ⟨rfl, i, -, -, hfill⟩ | ⟨came, more, i, hsome, rfl, hmore, hread, hfill⟩
  · rw [List.append_nil] at hrest
    exact .inr ⟨hrest, _, hfill⟩
  · have hfits := source.length_readSome_le hread
    refine .inl ⟨_, hfill, ⟨hq.begun, hq.script_eq, hq.notDone, hq.accepts, hq.outRoom,
      hq.writable, (Window.capacity_put _ _).trans hq.room, more, ?_, hmore⟩, ?_,
      ⟨hserves.sendings, hserves.tasks⟩⟩
    · rw [Window.before_put hfits, List.append_assoc, hrest]
    · have hpos := List.length_pos_iff.mpr hsome
      rw [Window.before_put hfits, List.length_append]
      omega

theorem Greets.gathers (hsize : 2 ≤ size) {k : Nat} (hk : k ≤ 2) (hbytes : k ≤ bytes.length)
    (hp : p.Greets source sink taken size (.needUnwrap :: script) bytes) :
    ∃ n q, n ≤ k - p.netIn.before.length ∧
      Rounds (handshakeStep (observedEnds source sink)) p n q ∧
      q.Greets source sink taken size (.needUnwrap :: script) bytes ∧
      k ≤ q.netIn.before.length ∧ Serves p q 0 0 := by
  generalize hm : k - p.netIn.before.length = m
  induction m using Nat.strongRecOn generalizing p with
  | ind m ih =>
    by_cases hlong : k ≤ p.netIn.before.length
    · exact ⟨0, p, Nat.zero_le m, .refl p, hp, hlong, .refl p⟩
    · rcases hp.step_short hsize (by omega) with ⟨q, hstep, hq, hmore, hserves⟩ | ⟨hall, -⟩
      · obtain ⟨n, r, hn, hrounds, hr, hlong, hserves'⟩ :=
          ih (k - q.netIn.before.length) (by omega) hq rfl
        exact ⟨n + 1, r, by omega, .again hstep hrounds, hr, hlong, hserves.trans hserves'⟩
      · rw [hall] at hlong
        exact absurd hbytes hlong

theorem Greets.step_greeting
    (hp : p.Greets source sink taken size (.needUnwrap :: script) (greeting ++ bytes))
    (hlong : 2 ≤ p.netIn.before.length) :
    ∃ q, p.handshakeStep (observedEnds source sink) = (.again, q) ∧
      q.Greets source sink taken size script bytes ∧ Serves p q 0 0 := by
  have hdue : (observedEnds source sink).engine.handshake p.engine = .needUnwrap :=
    hp.handshake_eq
  obtain ⟨rest, hrest, hdelivers⟩ := hp.comes
  obtain ⟨tail, htail⟩ : greeting <+: p.netIn.before :=
    List.prefix_of_prefix_length_le (List.prefix_append greeting bytes) ⟨rest, hrest⟩ hlong
  have hpeek : p.netIn.flip.peek 2 = greeting := by
    show p.netIn.before.take greeting.length = greeting
    rw [← htail, List.take_left]
  have hunwrap : LengthRecords.unwrap p.netIn.flip noPlaintext p.engine.1 =
      moved .ok 2 0 (p.netIn.flip.skip 2) noPlaintext p.engine.1.step := by
    have henough : ¬ p.netIn.flip.remaining < 2 := Nat.not_lt.mpr hlong
    rw [LengthRecords.unwrap, if_pos hp.handshake_eq, if_neg henough]
    exact if_neg fun hne => hne hpeek
  have hpump : p.unwrap (observedEnds source sink) noPlaintext = _ := unwrap_observed hunwrap
  refine ⟨{ p with
      engine := (p.engine.1.step,
        p.engine.2 ++ [.unwrap p.netIn.flip.span noPlaintext.remaining])
      netIn := (p.netIn.flip.skip 2).compact }, ?_,
    ⟨hp.begun, ?_, hp.notDone, hp.accepts, hp.outRoom, rfl, ?_, rest, ?_, hdelivers⟩,
    .aside rfl rfl (by simp)⟩
  · have hsome : ¬ p.netIn.position = 0 := by
      rw [Window.position]
      omega
    rw [handshakeStep, hdue]
    refine (if_neg hsome).trans ?_
    rw [hpump]
  · show p.engine.1.script.tail = script
    rw [hp.script_eq]
    rfl
  · rw [Window.capacity_compact, Window.capacity_skip, Window.capacity_flip, hp.room]
  · show p.netIn.before.drop greeting.length ++ rest = bytes
    rw [← htail, List.append_assoc] at hrest
    rw [← htail, List.drop_left]
    exact List.append_cancel_left hrest

theorem Greets.takes_greeting (hsize : 2 ≤ size)
    (hp : p.Greets source sink taken size (.needUnwrap :: script) (greeting ++ bytes)) :
    ∃ n q, n ≤ 3 ∧ Rounds (handshakeStep (observedEnds source sink)) p n q ∧
      q.Greets source sink taken size script bytes ∧ Serves p q 0 0 := by
  have htwo : 2 ≤ (greeting ++ bytes).length := by simp [greeting]
  obtain ⟨n, q, hn, hrounds, hq, hlong, hserves⟩ := hp.gathers hsize (Nat.le_refl 2) htwo
  obtain ⟨r, hstep, hr, hserves'⟩ := hq.step_greeting hlong
  refine ⟨n + 1, r, by omega, hrounds.trans (.again hstep (.refl r)), hr, hserves.trans hserves'⟩

theorem Greets.cut_short (hsize : 2 ≤ size) (hshort : bytes.length < 2)
    (hp : p.Greets source sink taken size (.needUnwrap :: script) bytes) :
    ∃ n q, n ≤ 2 ∧
      Loops (handshakeStep (observedEnds source sink)) p n (.error handshakeCutShort) q := by
  obtain ⟨n, q, hn, hrounds, hq, hlong, -⟩ :=
    hp.gathers hsize (Nat.le_of_lt hshort) (Nat.le_refl _)
  obtain ⟨rest, hrest, -⟩ := hq.comes
  have hlength := congrArg List.length hrest
  rw [List.length_append] at hlength
  rcases hq.step_short hsize (by omega) with ⟨r, hstep, hr, hmore, -⟩ | ⟨-, r, hstep⟩
  · obtain ⟨rest', hrest', -⟩ := hr.comes
    have hlength' := congrArg List.length hrest'
    rw [List.length_append] at hlength'
    omega
  · exact ⟨n + 0, r, by omega, hrounds.loops (.stop hstep)⟩

/-! ## The whole script -/

theorem step_settled
    (h : p.engine.1.handshake = .finished ∨ p.engine.1.handshake = .notHandshaking) :
    p.handshakeStep (observedEnds source sink) = (.stop (.ok ()), p) := by
  have hstatus : (observedEnds source sink).engine.handshake p.engine = p.engine.1.handshake := rfl
  rcases h with h | h
  · rw [handshakeStep, hstatus, h]
  · rw [handshakeStep, hstatus, h]

/-- The handshake ends well: all that is due has been done, and `rest` is still to come. -/
def Completes (source : Source ι) (sink : Sink ω) (taken : ω → Bytes) (size : Nat)
    (script : List HandshakeStatus) (rest : Bytes) (p : Observed ι ω) : Prop :=
  ∃ n q left, n ≤ 3 * (due script).length ∧
    Loops (handshakeStep (observedEnds source sink)) p n (.ok ()) q ∧
    q.Greets source sink taken size left rest ∧ q.engine.1.handshake ≠ .needUnwrap ∧
    Serves p q ((due script).count .needWrap) ((due script).count .needTask)

def CutsShort (source : Source ι) (sink : Sink ω) (script : List HandshakeStatus)
    (p : Observed ι ω) : Prop :=
  ∃ n q, n ≤ 3 * (due script).length ∧
    Loops (handshakeStep (observedEnds source sink)) p n (.error handshakeCutShort) q

theorem Completes.settled {rest : Bytes} (hp : p.Greets source sink taken size script rest)
    (hdue : due script = [])
    (h : p.engine.1.handshake = .finished ∨ p.engine.1.handshake = .notHandshaking) :
    p.Completes source sink taken size script rest := by
  refine ⟨0, p, script, Nat.zero_le _, .stop (step_settled h), hp, ?_, ?_⟩
  · rcases h with h | h <;> rw [h] <;> decide
  · rw [hdue]
    exact .refl p

theorem Completes.after {status : HandshakeStatus} {rest : Bytes} {k : Nat}
    (h : q.Completes source sink taken size script rest)
    (hdue : due (status :: script) = [status] ++ due script) (hk : k ≤ 3)
    (hrounds : Rounds (handshakeStep (observedEnds source sink)) p k q)
    (hserves : Serves p q ([status].count .needWrap) ([status].count .needTask)) :
    p.Completes source sink taken size (status :: script) rest := by
  obtain ⟨n, r, left, hn, hloops, hr, hsettled, hserves'⟩ := h
  refine ⟨k + n, r, left, ?_, hrounds.loops hloops, hr, hsettled, ?_⟩
  · rw [hdue, List.length_append, List.length_singleton]
    omega
  · rw [hdue, List.count_append, List.count_append]
    exact hserves.trans hserves'

theorem CutsShort.after {status : HandshakeStatus} {k : Nat} (h : q.CutsShort source sink script)
    (hdue : due (status :: script) = [status] ++ due script) (hk : k ≤ 3)
    (hrounds : Rounds (handshakeStep (observedEnds source sink)) p k q) :
    p.CutsShort source sink (status :: script) := by
  obtain ⟨n, r, hn, hloops⟩ := h
  refine ⟨k + n, r, ?_, hrounds.loops hloops⟩
  rw [hdue, List.length_append, List.length_singleton]
  omega

/-- With all the greetings that are awaited, by induction on the script. -/
theorem Greets.completes (hsize : 2 ≤ size) {rest : Bytes} (hp : p.Greets source sink taken size
      script (greetings ((due script).count .needUnwrap) ++ rest)) :
    p.Completes source sink taken size script rest := by
  induction script generalizing p with
  | nil =>
    refine .settled hp rfl (.inr ?_)
    rw [LengthRecords.handshake, if_pos hp.begun, hp.script_eq]
    rfl
  | cons status script ih =>
    cases status with
    | finished => exact .settled hp rfl (.inl hp.handshake_eq)
    | notHandshaking => exact .settled hp rfl (.inr hp.handshake_eq)
    | needTask =>
      obtain ⟨q, hstep, hq, hserves⟩ := hp.step_needTask
      exact (ih hq).after rfl (by omega) (.again hstep (.refl q)) hserves
    | needWrap =>
      obtain ⟨q, hstep, hq, hserves⟩ := hp.step_needWrap hsize
      exact (ih hq).after rfl (by omega) (.again hstep (.refl q)) hserves
    | needUnwrap =>
      have hcount : (due (.needUnwrap :: script)).count .needUnwrap =
          (due script).count .needUnwrap + 1 := List.count_cons_self
      rw [hcount, greetings_succ, List.append_assoc] at hp
      obtain ⟨n, q, hn, hrounds, hq, hserves⟩ := hp.takes_greeting hsize
      exact (ih hq).after rfl hn hrounds hserves

/-- With a front of them that is not all, by induction on the script. -/
theorem Greets.cutsShort (hsize : 2 ≤ size) (hp : p.Greets source sink taken size script bytes)
    (hfront : bytes <+: greetings ((due script).count .needUnwrap))
    (hne : bytes ≠ greetings ((due script).count .needUnwrap)) :
    p.CutsShort source sink script := by
  induction script generalizing p bytes with
  | nil => exact absurd (List.prefix_nil.mp hfront) hne
  | cons status script ih =>
    cases status with
    | finished => exact absurd (List.prefix_nil.mp hfront) hne
    | notHandshaking => exact absurd (List.prefix_nil.mp hfront) hne
    | needTask =>
      obtain ⟨q, hstep, hq, -⟩ := hp.step_needTask
      exact (ih hq hfront hne).after rfl (by omega) (.again hstep (.refl q))
    | needWrap =>
      obtain ⟨q, hstep, hq, -⟩ := hp.step_needWrap hsize
      exact (ih hq hfront hne).after rfl (by omega) (.again hstep (.refl q))
    | needUnwrap =>
      have hcount : (due (.needUnwrap :: script)).count .needUnwrap =
          (due script).count .needUnwrap + 1 := List.count_cons_self
      rw [hcount, greetings_succ] at hfront hne
      rcases Nat.lt_or_ge bytes.length 2 with hshort | hlong
      · obtain ⟨n, q, hn, hloops⟩ := hp.cut_short hsize hshort
        refine ⟨n, q, ?_, hloops⟩
        have hlength : (due (.needUnwrap :: script)).length = (due script).length + 1 := rfl
        omega
      · obtain ⟨bytes, rfl⟩ : greeting <+: bytes :=
          List.prefix_of_prefix_length_le (List.prefix_append greeting _) hfront hlong
        obtain ⟨n, q, hn, hrounds, hq, -⟩ := hp.takes_greeting hsize
        have hfront' := (List.prefix_append_right_inj greeting).mp hfront
        exact (ih hq hfront' fun he => hne (he ▸ rfl)).after rfl hn hrounds

theorem accepted_sendings {sendings : List (List Sink.Event)}
    (h : ∀ events ∈ sendings, Sink.Sending greeting (.ok ()) events) :
    Sink.accepted sendings.flatten = greetings sendings.length ∧
      Sink.flushes sendings.flatten = sendings.length := by
  induction sendings with
  | nil => exact ⟨rfl, rfl⟩
  | cons events sendings ih =>
    obtain ⟨hfirst, hrest⟩ := List.forall_mem_cons.mp h
    obtain ⟨haccepted, hflushes⟩ := ih hrest
    rw [List.flatten_cons, Sink.accepted_append, Sink.flushes_append, haccepted, hflushes,
      hfirst.whole.1, hfirst.flushes_eq, List.length_cons, greetings_succ]
    exact ⟨rfl, Nat.add_comm _ _⟩

theorem Greets.read_record {rest f more : Bytes}
    (hq : q.Greets source sink taken size script rest)
    (hsettled : q.engine.1.handshake ≠ .needUnwrap) (hrest : rest = record f ++ more)
    (hpos : 0 < f.length) (hle : f.length ≤ maxPlaintext) (hsize : f.length + 1 ≤ size)
    {app : Window} (happ : f.length ≤ app.remaining) {limit : Nat} (hlimit : rest.length < limit) :
    ∃ r, q.read (observedEnds source sink) limit app =
      (some (.ok (some f.length)), r, (app.put f).flip) := by
  have hreceives : q.unwatched.Receives source size (record f ++ more) :=
    ⟨⟨hsettled, hq.notDone⟩, hq.writable, hq.room, hrest ▸ hq.comes⟩
  obtain ⟨r, hr⟩ :=
    Pump.read_record sink.traced hpos hle hsize hreceives (hrest ▸ hlimit) app
  rw [if_neg (Nat.not_lt.mpr happ)] at hr
  have hsame :=
    (read_unwatched (Engine.traced_unwraps LengthRecords.engine) limit app q).symm.trans hr.1
  have hanswer : (q.read (observedEnds source sink) limit app).1 = some (.ok (some f.length)) :=
    congrArg Prod.fst hsame
  have hleft : (q.read (observedEnds source sink) limit app).2.2 = (app.put f).flip :=
    congrArg (fun s => s.2.2) hsame
  exact ⟨_, Prod.ext hanswer (Prod.ext rfl hleft)⟩

/-- A handshake takes the greetings that its script awaits and not a byte more.  Whatever
comes behind them stays for the reads, in `netIn` or on its way; the greetings of the script
have been sent by then, and its tasks have been run.  If the stream ends before the last
greeting is there, so does the handshake.  Each status takes three rounds at most. -/
theorem handshake_takes_greetings (plaintextSize : Nat) (script : List HandshakeStatus)
    {input : ι} {output : ω} (hsize : 2 ≤ size) (haccepts : sink.Accepts taken output)
    (hdelivers : source.Delivers input bytes) :
    let d := observedEnds source sink
    let start := new d input (output, []) (.new script plaintextSize size, [])
    let awaited := greetings ((due script).count .needUnwrap)
    (∀ rest, bytes = awaited ++ rest → ∃ q,
      (∀ limit, 3 * (due script).length < limit →
        start.handshake d limit = (some (.ok ()), q)) ∧
      (∃ sendings : List (List Sink.Event), q.output.2 = sendings.flatten ∧
        sendings.length = (due script).count .needWrap ∧
        ∀ events ∈ sendings, Sink.Sending greeting (.ok ()) events) ∧
      Sink.accepted q.output.2 = greetings ((due script).count .needWrap) ∧
      Sink.flushes q.output.2 = (due script).count .needWrap ∧
      q.engine.2.count .runTask = (due script).count .needTask ∧
      (∃ left, q.netIn.before ++ left = rest ∧ source.Delivers q.input left) ∧
      ∀ f more, rest = record f ++ more → 0 < f.length → f.length ≤ maxPlaintext →
        f.length + 1 ≤ size → ∀ (app : Window) (limit : Nat), f.length ≤ app.remaining →
        rest.length < limit → ∃ r,
          q.read d limit app = (some (.ok (some f.length)), r, (app.put f).flip)) ∧
    (bytes <+: awaited → bytes ≠ awaited → ∃ q, ∀ limit, 3 * (due script).length < limit →
      start.handshake d limit = (some (.error handshakeCutShort), q)) := by
  intro d start awaited
  let begun : Observed ι ω :=
    { start with engine := ({ start.engine.1 with begun := true }, [.beginHandshake]) }
  have hbegun : begun.Greets source sink taken size script bytes :=
    ⟨rfl, rfl, rfl, haccepts.traced [], Window.capacity_new size, rfl, Window.capacity_new size,
      bytes, rfl, hdelivers⟩
  have hstart : ∀ limit, start.handshake d limit =
      tidy (repeatStep (handshakeStep d) limit begun) := by
    intro limit
    rw [handshake, if_neg (by simp [start, new, Window.new, Window.position])]
    rfl
  constructor
  · rintro rest rfl
    obtain ⟨n, q, left, hn, hloops, hq, hsettled, ⟨sendings, hlength, hsendings, hlog⟩, htasks⟩ :=
      hbegun.completes hsize
    have hlog : q.output.2 = sendings.flatten := hlog
    obtain ⟨haccepted, hflushes⟩ := accepted_sendings hsendings
    refine ⟨{ q with netOut := q.netOut.clear }, ?_, ⟨sendings, hlog, hlength, hsendings⟩, ?_, ?_,
      ?_, hq.comes, ?_⟩
    · intro limit hlimit
      rw [hstart, hloops.repeatStep_eq (by omega)]
      rfl
    · rw [← hlength, ← haccepted, ← hlog]
    · rw [← hlength, ← hflushes, ← hlog]
    · rw [htasks]
      exact Nat.zero_add _
    · intro f more hrest hpos hle hfits app limit happ hlimit
      have htidied : Greets source sink taken size left rest { q with netOut := q.netOut.clear } :=
        ⟨hq.begun, hq.script_eq, hq.notDone, hq.accepts,
          (Window.capacity_clear _).trans hq.outRoom, hq.writable, hq.room, hq.comes⟩
      exact htidied.read_record hsettled hrest hpos hle hfits happ hlimit
  · intro hfront hne
    obtain ⟨n, q, hn, hloops⟩ := hbegun.cutsShort hsize hfront hne
    refine ⟨q, fun limit hlimit => ?_⟩
    rw [hstart, hloops.repeatStep_eq (by omega)]
    rfl

/-- Two greetings come in three pieces, the last one together with a record; the next read
hands it out.  Without its last byte the same handshake is cut short. -/
theorem handshake_takes_greetings_in_pieces :
    let d := observedEnds Script.source Script.sink
    let script := [.needTask, .needWrap, .needUnwrap, .needUnwrap, .finished]
    let start (arrivals : List Script.Arrival) : Observed (List Script.Arrival) Script.Uptake :=
      new d arrivals (.empty, []) (.new script 4 4, [])
    (∃ q r, (start [.chunk [0x68], .fault ⟨.interrupted, "again"⟩, .chunk [0x69, 0x68],
          .chunk [0x69, 2, 7, 8]]).handshake d 13 = (some (.ok ()), q) ∧
        Sink.accepted q.output.2 = greeting ∧ q.engine.2.count .runTask = 1 ∧
        q.read d 4 (.new 4) = (some (.ok (some 2)), r, (Window.put (.new 4) [7, 8]).flip)) ∧
    ∃ q, (start [.chunk [0x68], .chunk [0x69, 0x68]]).handshake d 13 =
      (some (.error handshakeCutShort), q) := by
  intro d script start
  have hwhole : Script.source.Delivers [.chunk [0x68], .fault ⟨.interrupted, "again"⟩,
      .chunk [0x69, 0x68], .chunk [0x69, 2, 7, 8]] (greetings 2 ++ record [7, 8]) :=
    Script.source_delivers (by simp [Script.Clean])
  have hcut : Script.source.Delivers [.chunk [0x68], .chunk [0x69, 0x68]] [0x68, 0x69, 0x68] :=
    Script.source_delivers (by simp [Script.Clean])
  obtain ⟨hcomplete, -⟩ := handshake_takes_greetings 4 script (show 2 ≤ 4 by decide)
    Script.sink_accepts_empty hwhole
  obtain ⟨q, hdone, -, hsent, -, hran, -, hreads⟩ := hcomplete (record [7, 8]) rfl
  obtain ⟨r, hread⟩ := hreads [7, 8] [] rfl (by decide) (by decide) (by decide) (.new 4) 4
    (by decide) (by decide)
  obtain ⟨-, hshort⟩ := handshake_takes_greetings 4 script (show 2 ≤ 4 by decide)
    Script.sink_accepts_empty hcut
  obtain ⟨q', hfailed⟩ := hshort ⟨[0x69], rfl⟩ (by decide)
  exact ⟨⟨q, r, hdone 13 (by decide), hsent, hran, hread⟩, q', hfailed 13 (by decide)⟩

end Pump
end Record
end RemoteCall
