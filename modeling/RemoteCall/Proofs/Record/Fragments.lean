import RemoteCall.Proofs.Stream.Acceptance
import RemoteCall.Record.LengthRecords
import RemoteCall.Record.Pump

/-!
Plaintext on its way out, over length records.

Each wrap takes as much plaintext as one record holds, and the pump sends the record
before it wraps the next one.  So a write cuts its plaintext into fragments
(`LengthRecords.Cut`) and puts the records of these fragments on the wire, in order.
-/

namespace RemoteCall

namespace Record

/-! ## Records and fragments -/

namespace LengthRecords

def record (fragment : Bytes) : Bytes := UInt8.ofNat fragment.length :: fragment

/-- The most plaintext that is put into one record where `size` bytes have room. -/
def fragmentLimit (size : Nat) : Nat := min maxPlaintext (size - 1)

/-- A plaintext cut into fragments for records of at most `size` bytes. -/
structure Cut (size : Nat) (plain : Bytes) (fragments : List Bytes) : Prop where
  flatten : fragments.flatten = plain
  length_pos : ∀ f ∈ fragments, 0 < f.length
  length_le : ∀ f ∈ fragments, f.length ≤ fragmentLimit size

namespace Cut

variable {size : Nat} {plain more f : Bytes} {fragments others : List Bytes}

theorem nil (size : Nat) : Cut size [] [] := ⟨rfl, nofun, nofun⟩

theorem append (h : Cut size plain fragments) (h' : Cut size more others) :
    Cut size (plain ++ more) (fragments ++ others) where
  flatten := by rw [List.flatten_append, h.flatten, h'.flatten]
  length_pos g hg := (List.mem_append.mp hg).elim (h.length_pos g) (h'.length_pos g)
  length_le g hg := (List.mem_append.mp hg).elim (h.length_le g) (h'.length_le g)

theorem single (hpos : 0 < f.length) (hle : f.length ≤ fragmentLimit size) : Cut size f [f] where
  flatten := by rw [List.flatten_singleton]
  length_pos g hg := by rwa [List.mem_singleton.mp hg]
  length_le g hg := by rwa [List.mem_singleton.mp hg]

end Cut

/-- Ready to wrap plaintext: no greeting is due, and the outbound side is not closed. -/
structure OutboundOpen (e : LengthRecords) : Prop where
  settled : e.handshake ≠ .needWrap
  notClosing : e.closing = false
  closeUnsent : e.closeSent = false

variable {e : LengthRecords} {src dst : Window}

theorem wrap_fragment (he : e.OutboundOpen) (hsrc : 0 < src.remaining)
    (hdst : 2 ≤ dst.remaining) :
    ∃ n, 0 < n ∧ n ≤ fragmentLimit dst.remaining ∧ n ≤ src.remaining ∧
      e.wrap src dst = moved .ok n (n + 1) (src.skip n) (dst.put (record (src.peek n))) e := by
  let n := min (min src.remaining maxPlaintext) (dst.remaining - 1)
  have hpos : 0 < n := by
    simp only [n, maxPlaintext]
    omega
  have hsrc : n ≤ src.remaining := by
    simp only [n]
    omega
  refine ⟨n, hpos, ?_, hsrc, ?_⟩
  · simp only [n, fragmentLimit]
    omega
  · rw [wrap, if_neg he.settled, he.notClosing, if_neg Bool.false_ne_true, record,
      Window.length_peek, Nat.min_eq_left hsrc]
    exact if_neg (Nat.ne_of_gt hpos)

theorem wrap_close (hsettled : e.handshake ≠ .needWrap) (hclosing : e.closing = true)
    (hunsent : e.closeSent = false) :
    e.wrap src dst = moved .closed 0 1 src (dst.put [0]) { e with closeSent := true } := by
  rw [wrap, if_neg hsettled, if_pos hclosing, hunsent, if_neg Bool.false_ne_true]

def ends {ι ω : Type} (source : Source ι) (sink : Sink ω) : Ends ι ω LengthRecords :=
  ⟨source, sink, engine⟩

end LengthRecords

namespace Pump

open LengthRecords

variable {ι ω ε : Type} {taken : ω → Bytes}

theorem sendOn_accepts {α : Type} {d : Ends ι ω ε} {p : Pump ι ω ε}
    (h : d.sink.Accepts taken p.output) :
    ∃ o w, (p.sendOn d : Turn α × Pump ι ω ε) = (.again, { p with output := o, netOut := w }) ∧
      d.sink.Accepts taken o ∧ taken o = taken p.output ++ p.netOut.before ∧
      w.capacity = p.netOut.capacity := by
  obtain ⟨o, hwrite, ho, htaken⟩ := Sink.writeAll_accepts p.netOut.flip.span h
  obtain ⟨o', hflush, ho', htaken'⟩ := Sink.flush_accepts ho
  have hsend : p.send d =
      (.ok (), { p with output := o', netOut := p.netOut.flip.clear }) := by
    simp only [send, hwrite, hflush]
  refine ⟨o', p.netOut.flip.clear, ?_, ho', ?_, ?_⟩
  · rw [sendOn, hsend]
  · rw [htaken', htaken]
    rfl
  · rw [Window.capacity_clear, Window.capacity_flip]

/-! ## Writing -/

/-- A pump that is past its handshake and can send: its sink takes everything, and it has
`size` bytes of room for a record. -/
structure Sends (sink : Sink ω) (taken : ω → Bytes) (size : Nat) (p : Pump ι ω LengthRecords) :
    Prop where
  opened : p.engine.OutboundOpen
  room : p.netOut.capacity = size
  accepts : sink.Accepts taken p.output

/-- From `p` to `q` a plaintext has been sent, a record for each of the fragments. -/
structure Sent (sink : Sink ω) (taken : ω → Bytes) (size : Nat) (plain : Bytes)
    (fragments : List Bytes) (p q : Pump ι ω LengthRecords) : Prop where
  cut : Cut size plain fragments
  sends : q.Sends sink taken size
  wire : taken q.output = taken p.output ++ fragments.flatMap record

variable {source : Source ι} {sink : Sink ω} {size : Nat} {p q r : Pump ι ω LengthRecords}

theorem wrap_moved {app src dst : Window} {status : Status} {consumed produced : Nat}
    {e : LengthRecords} (h : LengthRecords.wrap app p.netOut.clear p.engine =
      moved status consumed produced src dst e) :
    p.wrap (ends source sink) app =
      (.ok ⟨status, e.handshake, consumed, produced⟩, src,
        { p with engine := e, netOut := dst }) := by
  show (_, _, _) = _
  rw [show (ends source sink).engine.wrap app p.netOut.clear p.engine = _ from h]
  rfl

theorem Sent.refl (h : p.Sends sink taken size) : Sent sink taken size [] [] p p :=
  ⟨.nil size, h, (List.append_nil _).symm⟩

theorem Sent.trans {plain more : Bytes} {fragments others : List Bytes}
    (h : Sent sink taken size plain fragments p q) (h' : Sent sink taken size more others q r) :
    Sent sink taken size (plain ++ more) (fragments ++ others) p r where
  cut := h.cut.append h'.cut
  sends := h'.sends
  wire := by rw [h'.wire, h.wire, List.flatMap_append, List.append_assoc]

theorem writeStep_sends (source : Source ι) (hp : p.Sends sink taken size) (hsize : 2 ≤ size)
    {app : Window} (happ : 0 < app.remaining) :
    ∃ n q, 0 < n ∧ writeStep (ends source sink) (p, app) = (.again, q, app.skip n) ∧
      Sent sink taken size (app.peek n) [app.peek n] p q := by
  have hroom : p.netOut.clear.remaining = size := by
    rw [← hp.room, ← Window.length_storage]
    rfl
  obtain ⟨n, hpos, hle, hn, hwrap⟩ := wrap_fragment hp.opened happ (hroom ▸ hsize)
  rw [hroom] at hle
  have hpeek : (app.peek n).length = n := by
    rw [Window.length_peek, Nat.min_eq_left hn]
  let wrapped : Pump ι ω LengthRecords :=
    { p with netOut := p.netOut.clear.put (record (app.peek n)) }
  have hpump : p.wrap (ends source sink) app =
      (.ok ⟨.ok, p.engine.handshake, n, n + 1⟩, app.skip n, wrapped) := wrap_moved hwrap
  have hrecord : wrapped.netOut.before = record (app.peek n) := by
    refine Window.span_refilled (w := p.netOut) ?_
    rw [record, List.length_cons, hpeek, hp.room]
    rw [fragmentLimit] at hle
    omega
  obtain ⟨o, w, hsend, ho, htaken, hw⟩ :=
    sendOn_accepts (α := Unit) (d := ends source sink) (p := wrapped) hp.accepts
  refine ⟨n, { wrapped with output := o, netOut := w }, hpos, ?_,
    .single (hpeek.symm ▸ hpos) (hpeek.symm ▸ hle), ⟨hp.opened, ?_, ho⟩, ?_⟩
  · have hleft : ¬ (app.remaining = 0 ∧ p.engine.handshake ≠ .needWrap) := by omega
    rw [writeStep]
    refine (if_neg hleft).trans ?_
    simp only [hpump, reduceCtorEq, if_false, and_false, hsend]
  · rw [hw, Window.capacity_put, Window.capacity_clear, hp.room]
  · rw [htaken, hrecord, List.flatMap_singleton]

/-- The loop of a write, by induction on its limit: each step leaves less plaintext. -/
theorem repeat_writeStep_sends (source : Source ι) (hsize : 2 ≤ size) {limit : Nat}
    (hp : p.Sends sink taken size) {app : Window} (hlimit : app.remaining < limit) :
    ∃ fragments q app', repeatStep (writeStep (ends source sink)) limit (p, app) =
        (some (.ok ()), q, app') ∧ app'.remaining = 0 ∧
      Sent sink taken size app.span fragments p q := by
  induction limit generalizing p app with
  | zero => omega
  | succ limit ih =>
    rw [repeatStep]
    by_cases happ : app.remaining = 0
    · have hspan : app.span = [] := List.length_eq_zero_iff.mp happ
      refine ⟨[], p, app, ?_, happ, hspan ▸ .refl hp⟩
      rw [writeStep, if_pos ⟨happ, hp.opened.settled⟩]
    · obtain ⟨n, q, hn, hstep, hsent⟩ := writeStep_sends source hp hsize
        (Nat.pos_of_ne_zero happ)
      have hless : (app.skip n).remaining < limit := by
        rw [Window.remaining_skip]
        omega
      obtain ⟨fragments, r, app', hloop, happ', hrest⟩ := ih hsent.sends hless
      refine ⟨[app.peek n] ++ fragments, r, app', ?_, happ', ?_⟩
      · rw [hstep]
        exact hloop
      · have hall := hsent.trans hrest
        rwa [Window.peek, Window.skip, List.take_append_drop] at hall

theorem write_sends (source : Source ι) (hsize : 2 ≤ size) (hp : p.Sends sink taken size)
    {limit : Nat} {app : Window} (hlimit : app.remaining < limit) :
    ∃ fragments q app', p.write (ends source sink) limit app = (some (.ok ()), q, app') ∧
      app'.remaining = 0 ∧ Sent sink taken size app.span fragments p q := by
  obtain ⟨fragments, q, app', hloop, happ, hsent⟩ := repeat_writeStep_sends source hsize hp hlimit
  refine ⟨fragments, { q with netOut := q.netOut.clear }, app', ?_, happ, hsent.cut, ?_, hsent.wire⟩
  · rw [write, hloop]
    rfl
  · exact ⟨hsent.sends.opened, (Window.capacity_clear _).trans hsent.sends.room,
      hsent.sends.accepts⟩

/-- Writes one plaintext window after the other; each answer stands with its window. -/
def writeEach (d : Ends ι ω ε) (limit : Nat) :
    List Window → Pump ι ω ε → List (Option (Except Fault Unit) × Window) × Pump ι ω ε
  | [], p => ([], p)
  | app :: apps, p =>
    match p.write d limit app with
    | (r, q, app') => ((r, app') :: (writeEach d limit apps q).1, (writeEach d limit apps q).2)

theorem writeEach_sends (source : Source ι) (hsize : 2 ≤ size) (hp : p.Sends sink taken size)
    {limit : Nat} {apps : List Window} (hlimit : ∀ app ∈ apps, app.remaining < limit) :
    (writeEach (ends source sink) limit apps p).1.length = apps.length ∧
    (∀ a ∈ (writeEach (ends source sink) limit apps p).1,
      a.1 = some (.ok ()) ∧ a.2.remaining = 0) ∧
    ∃ fragments, Sent sink taken size (apps.flatMap Window.span) fragments p
      (writeEach (ends source sink) limit apps p).2 := by
  induction apps generalizing p with
  | nil => exact ⟨rfl, nofun, [], .refl hp⟩
  | cons app apps ih =>
    obtain ⟨fragments, q, app', hwrite, happ, hsent⟩ := write_sends source hsize hp
      (hlimit app List.mem_cons_self)
    obtain ⟨hlength, hanswers, others, hrest⟩ := ih hsent.sends
      fun w hw => hlimit w (List.mem_cons_of_mem _ hw)
    rw [writeEach, hwrite]
    refine ⟨congrArg (· + 1) hlength, fun a ha => ?_, _, hsent.trans hrest⟩
    rcases List.mem_cons.mp ha with rfl | ha
    · exact ⟨rfl, happ⟩
    · exact hanswers a ha

theorem writeClosing_once (source : Source ι) (hsettled : p.engine.handshake ≠ .needWrap)
    (hroom : 0 < p.netOut.capacity) (haccepts : sink.Accepts taken p.output) :
    ∃ o w, w.clear = w ∧ w.capacity = p.netOut.capacity ∧ sink.Accepts taken o ∧
      taken o = taken p.output ++ (if p.engine.closeSent then [] else [0]) ∧
      ∀ limit, 2 ≤ limit → p.writeClosing (ends source sink) limit = (some (.ok ()),
        { p with
          engine := { p.engine with closing := true, closeSent := true }
          output := o
          netOut := w }) := by
  let closing : LengthRecords := { p.engine with closing := true }
  let closed : LengthRecords := { closing with closeSent := true }
  have hclear : ∀ w : Window, w.clear.clear = w.clear := fun w => by simp [Window.clear,
    Window.storage]
  by_cases hsent : p.engine.closeSent = true
  · have hclosed : closed = closing := by
      show { closing with closeSent := true } = { closing with closeSent := p.engine.closeSent }
      rw [hsent]
    have hfirst : writeClosingStep (ends source sink) { p with engine := closing } =
        (.stop (.ok ()), { p with engine := closing }) := if_pos hsent
    refine ⟨p.output, p.netOut.clear, hclear _, Window.capacity_clear _, haccepts, ?_, ?_⟩
    · rw [if_pos hsent, List.append_nil]
    · intro limit hlimit
      obtain ⟨limit, rfl⟩ := Nat.exists_eq_add_of_le' hlimit
      show tidy (repeatStep _ (limit + 2) { p with engine := closing }) =
        (_, { p with engine := closed, netOut := p.netOut.clear })
      rw [repeatStep, hfirst, hclosed]
      rfl
  · have hunsent : p.engine.closeSent = false := Bool.eq_false_iff.mpr hsent
    let wrapped : Pump ι ω LengthRecords :=
      { p with engine := closed, netOut := p.netOut.clear.put [0] }
    have hwrap : closing.wrap noPlaintext p.netOut.clear = moved .closed 0 1 noPlaintext
        (p.netOut.clear.put [0]) closed := wrap_close hsettled rfl hunsent
    have hpump : wrap (ends source sink) noPlaintext { p with engine := closing } =
        (.ok ⟨.closed, closed.handshake, 0, 1⟩, noPlaintext, wrapped) := wrap_moved hwrap
    obtain ⟨o, w, hsend, ho, htaken, hw⟩ :=
      sendOn_accepts (α := Unit) (d := ends source sink) (p := wrapped) haccepts
    -- The first step sends the record, and the second finds it sent.
    have hfirst : writeClosingStep (ends source sink) { p with engine := closing } =
        (.again, { wrapped with output := o, netOut := w }) := by
      rw [writeClosingStep]
      refine (if_neg hsent).trans ?_
      simp only [hpump, Nat.one_ne_zero, false_and, if_false, hsend]
    refine ⟨o, w.clear, hclear w, ?_, ho, ?_, ?_⟩
    · rw [Window.capacity_clear, hw, Window.capacity_put, Window.capacity_clear]
    · rw [htaken, if_neg hsent]
      exact congrArg _ (Window.span_refilled hroom)
    · intro limit hlimit
      obtain ⟨limit, rfl⟩ := Nat.exists_eq_add_of_le' hlimit
      show tidy (repeatStep _ (limit + 2) { p with engine := closing }) = _
      rw [repeatStep, hfirst]
      rfl

theorem writeClosing_sends (source : Source ι) (hsize : 2 ≤ size)
    (hp : p.Sends sink taken size) {limit : Nat} (hlimit : 2 ≤ limit) :
    ∃ q, p.writeClosing (ends source sink) limit = (some (.ok ()), q) ∧
      taken q.output = taken p.output ++ [0] := by
  have hroom : 0 < p.netOut.capacity := by
    rw [hp.room]
    omega
  obtain ⟨o, w, -, -, -, htaken, hclosing⟩ :=
    writeClosing_once source hp.opened.settled hroom hp.accepts
  rw [hp.opened.closeUnsent, if_neg Bool.false_ne_true] at htaken
  exact ⟨_, hclosing limit hlimit, htaken⟩

end Pump
end Record
end RemoteCall
