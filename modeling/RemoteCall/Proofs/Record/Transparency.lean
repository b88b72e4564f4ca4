import RemoteCall.Proofs.Record.Inbound
import RemoteCall.Proofs.Record.Reassembly

/-!
What a pump of length records writes, another one reads.

A handshake leaves both sides of the engine open and the windows ready
(`Pump.Greeted.sends`, `Pump.Greeted.receives`).  From there the fragments are all that
links the two pumps: the writes put the records of fragments on the wire whose bytes are
the plaintext, and the reads hand these fragments out, however the wire was cut.
-/

namespace RemoteCall
namespace Record

namespace LengthRecords

/-- Neither side is closed, and none has been asked to close. -/
structure Unclosed (e : LengthRecords) : Prop where
  closing : e.closing = false
  closeSent : e.closeSent = false
  inboundDone : e.inboundDone = false

theorem Unclosed.step {e : LengthRecords} (h : e.Unclosed) : e.step.Unclosed :=
  ⟨h.closing, h.closeSent, h.inboundDone⟩

theorem unwrap_greeting {e : LengthRecords} (he : e.Unclosed) (hdue : e.handshake = .needUnwrap)
    (src dst : Window) : (e.unwrap src dst).engine.Unclosed := by
  rw [unwrap, if_pos hdue]
  split
  · exact he
  · split
    · exact he
    · exact he.step

end LengthRecords

namespace Pump

open LengthRecords

variable {ι ω : Type} {source : Source ι} {sink : Sink ω} {size : Nat}
  {p q : Pump ι ω LengthRecords}

/-! ## The handshake -/

structure Settling (size : Nat) (p : Pump ι ω LengthRecords) : Prop where
  unclosed : p.engine.Unclosed
  room : p.netOut.capacity = size

/-- The outcome of a step of the handshake: it goes on, it fails, or it is done because
nothing is due any more. -/
structure Settles (size : Nat) (r : Turn Unit × Pump ι ω LengthRecords) : Prop where
  settling : r.2.Settling size
  done : r.1 = .stop (.ok ()) →
    r.2.engine.handshake ≠ .needWrap ∧ r.2.engine.handshake ≠ .needUnwrap

theorem Settling.sendOn (h : p.Settling size) (d : Ends ι ω LengthRecords) :
    Settles size (p.sendOn d) := by
  have hflip : p.netOut.flip.capacity = size := (Window.capacity_flip _).trans h.room
  have hsend : (p.send d).2.Settling size := by
    rw [send]
    split
    · exact ⟨h.unclosed, hflip⟩
    · split
      · exact ⟨h.unclosed, hflip⟩
      · exact ⟨h.unclosed, (Window.capacity_clear _).trans hflip⟩
  unfold Pump.sendOn
  rcases hw : p.send d with ⟨e | ⟨⟩, q⟩
  · rw [hw] at hsend
    exact ⟨hsend, fun h => by cases h⟩
  · rw [hw] at hsend
    exact ⟨hsend, fun h => by cases h⟩

theorem Settling.fillOn (h : p.Settling size) (d : Ends ι ω LengthRecords) (e : Fault) :
    Settles size (p.fillOn d (.error e)) := by
  have hfill : (p.fill d).2.Settling size := by
    rw [fill]
    split
    · exact h
    · split <;> exact ⟨h.unclosed, h.room⟩
  unfold Pump.fillOn
  generalize p.fill d = w at hfill ⊢
  match w with
  | (.error e, q) => exact ⟨hfill, nofun⟩
  | (.ok false, q) => exact ⟨hfill, nofun⟩
  | (.ok true, q) => exact ⟨hfill, nofun⟩

theorem Settling.handshakeStep (h : p.Settling size) :
    Settles size (p.handshakeStep (ends source sink)) := by
  unfold Pump.handshakeStep
  have hstatus : (ends source sink).engine.handshake p.engine = p.engine.handshake := rfl
  rw [hstatus]
  match hdue : p.engine.handshake with
  | .needWrap =>
    have hwrap : p.engine.wrap noPlaintext p.netOut.clear = moved .ok 0
        greeting.length noPlaintext (p.netOut.clear.put greeting) p.engine.step := if_pos hdue
    simp only [wrap_moved hwrap, if_true]
    refine Settling.sendOn ⟨h.unclosed.step, ?_⟩ _
    rw [Window.capacity_put, Window.capacity_clear, h.room]
  | .needUnwrap =>
    dsimp only
    split
    · exact h.fillOn _ _
    · have hunwrap : (p.unwrap (ends source sink) noPlaintext).2.2.Settling size :=
        ⟨unwrap_greeting h.unclosed hdue _ _, h.room⟩
      generalize p.unwrap (ends source sink) noPlaintext = w at hunwrap ⊢
      match w with
      | (.error e, app, q) => exact ⟨hunwrap, nofun⟩
      | (.ok r, app, q) =>
        dsimp only at hunwrap ⊢
        cases r.status with
        | ok => exact ⟨hunwrap, nofun⟩
        | bufferUnderflow => exact hunwrap.fillOn _ _
        | bufferOverflow =>
          dsimp only
          split
          · exact ⟨hunwrap, nofun⟩
          · exact ⟨hunwrap, nofun⟩
        | closed => exact ⟨hunwrap, nofun⟩
  | .needTask =>
    have htask : (ends source sink).engine.runTask p.engine = (.ok (), p.engine.step) :=
      runTask_of_needTask hdue
    dsimp only
    rw [htask]
    exact ⟨⟨h.unclosed.step, h.room⟩, nofun⟩
  | .finished => exact ⟨h, fun _ => by simp [hdue]⟩
  | .notHandshaking => exact ⟨h, fun _ => by simp [hdue]⟩

/-- A pump that has come through its handshake, with `size` bytes of room for a record. -/
def Greeted (source : Source ι) (sink : Sink ω) (size : Nat) (p : Pump ι ω LengthRecords) :
    Prop :=
  ∃ script plaintextSize input output limit,
    ((new (ends source sink) input output (.new script plaintextSize size)).handshake
      (ends source sink) limit).1 = some (.ok ()) ∧
    ((new (ends source sink) input output (.new script plaintextSize size)).handshake
      (ends source sink) limit).2 = p

theorem tidy_ok {ε α : Type} {r : Option (Except Fault α) × Pump ι ω ε} {a : α}
    (h : (tidy r).1 = some (.ok a)) :
    ∃ q, r = (some (.ok a), q) ∧ (tidy r).2 = { q with netOut := q.netOut.clear } := by
  match r, h with
  | (some (.ok _), q), rfl => exact ⟨q, rfl, rfl⟩

theorem Settling.handshake (h : p.Settling size) {limit : Nat}
    (hdone : (tidy (repeatStep (Pump.handshakeStep (ends source sink)) limit p)).1 =
      some (.ok ())) :
    Settles size (.stop (.ok ()),
      (tidy (repeatStep (Pump.handshakeStep (ends source sink)) limit p)).2) := by
  have hkeep : ∀ s : Pump ι ω LengthRecords, s.Settling size →
      (s.handshakeStep (ends source sink)).2.Settling size :=
    fun s hs => hs.handshakeStep.settling
  obtain ⟨q, hloop, hq⟩ := tidy_ok hdone
  obtain ⟨u, hu, hstep⟩ := repeatStep_stops hkeep h hloop
  have hsettles : Settles size (u.handshakeStep (ends source sink)) := hu.handshakeStep
  rw [hstep] at hsettles
  rw [hq]
  exact ⟨⟨hsettles.settling.unclosed, (Window.capacity_clear _).trans hsettles.settling.room⟩,
    fun _ => hsettles.done rfl⟩

/-- A handshake that succeeds leaves the engine open and both windows as large as they were,
and the buffered ciphertext where more can be put behind it. -/
theorem Greeted.settled (h : Greeted source sink size p) :
    p.engine.OutboundOpen ∧ p.engine.InboundOpen ∧ p.netOut.capacity = size ∧
      p.netIn.after = [] ∧ p.netIn.capacity = size := by
  obtain ⟨script, plaintextSize, input, output, limit, hdone, rfl⟩ := h
  let fresh := new (ends source sink) input output (.new script plaintextSize size)
  obtain ⟨acts, hacts⟩ := reaches_handshake (ends source sink) limit fresh
  have haccounted := (accounted_new (ends source sink) input output
    (.new script plaintextSize size)).steps keepsRecords hacts
  have hbegun : Settling size { fresh with engine := { fresh.engine with begun := true } } :=
    ⟨⟨rfl, rfl, rfl⟩, Window.capacity_new size⟩
  have hend : Settles size (.stop (.ok ()), (fresh.handshake (ends source sink) limit).2) :=
    hbegun.handshake hdone
  obtain ⟨hwrap, hunwrap⟩ := hend.done rfl
  obtain ⟨⟨hclosing, hunsent, hopen⟩, hroom⟩ := hend.settling
  exact ⟨⟨hwrap, hclosing, hunsent⟩, ⟨hunwrap, hopen⟩, hroom, haccounted.writable,
    haccounted.capacity⟩

theorem Greeted.sends {taken : ω → Bytes} (h : Greeted source sink size p)
    (haccepts : sink.Accepts taken p.output) : p.Sends sink taken size := by
  obtain ⟨hopen, -, hroom, -⟩ := h.settled
  exact ⟨hopen, hroom, haccepts⟩

theorem Greeted.receives {rest : Bytes} (h : Greeted source sink size p)
    (hrest : source.Delivers p.input rest) :
    p.Receives source size (p.netIn.before ++ rest) := by
  obtain ⟨-, hopen, -, hwritable, hroom⟩ := h.settled
  exact ⟨hopen, hwritable, hroom, rest, rfl, hrest⟩

/-! ## From one pump to the other -/

/-- Plaintext survives the way through two pumps.  After both handshakes one pump writes
plaintext windows, each to its end, and it may then write the close notification.  The other
pump gets this ciphertext: some of it may have come in behind the last record of the
handshake, and the socket delivers the rest in any pieces.  Then the reads hand out
fragments that together are the plaintext, each as soon as a window has room for it, and
after the last one the end of the stream.  Room for `fragmentLimit` bytes is always enough,
and nothing is lost on a read into a smaller window. -/
theorem reads_hand_out_plaintext {ι' ω' : Type} {source' : Source ι'} {sink' : Sink ω'}
    {taken : ω → Bytes} {p sent closed after : Pump ι ω LengthRecords}
    {apps windows : List Window} {writes : List (Option (Except Fault Unit) × Window)}
    {reads : List (Option (Except Fault (Option Nat)) × Window)}
    {closing : Option (Except Fault Unit)} {q read : Pump ι' ω' LengthRecords}
    {size' limit limit' : Nat} {rest : Bytes}
    (hp : Greeted source sink size p) (haccepts : sink.Accepts taken p.output)
    (hsize : 2 ≤ size) (hlimit : 2 ≤ limit) (happs : ∀ app ∈ apps, app.remaining < limit)
    (hwrite : writeEach (ends source sink) limit apps p = (writes, sent))
    (hclose : sent.writeClosing (ends source sink) limit = (closing, closed))
    (hafter : after = sent ∨ after = closed)
    (hq : Greeted source' sink' size' q) (hrest : source'.Delivers q.input rest)
    (hsize' : fragmentLimit size + 1 ≤ size')
    (hwire : taken after.output = taken p.output ++ (q.netIn.before ++ rest))
    (hlimit' : (q.netIn.before ++ rest).length < limit')
    (hread : readEach (ends source' sink') limit' windows q = (reads, read)) :
    writes.length = apps.length ∧
    (∀ w ∈ writes, w.1 = some (.ok ()) ∧ w.2.remaining = 0) ∧
    closing = some (.ok ()) ∧
    ∃ fragments, Cut size (apps.flatMap Window.span) fragments ∧
      taken sent.output = taken p.output ++ fragments.flatMap record ∧
      taken closed.output = taken sent.output ++ [0] ∧
      reads = handedOut fragments windows ∧
      ((∀ w ∈ windows, fragmentLimit size ≤ w.capacity) → ∀ k < windows.length, ∃ w,
        reads[k]? = some (some (.ok (fragments[k]?.map List.length)), w) ∧
        ∀ f, fragments[k]? = some f → w.span = f) := by
  obtain ⟨hlength, hwrites, fragments, hsent⟩ :=
    writeEach_sends source hsize (hp.sends haccepts) happs
  rw [hwrite] at hlength hwrites hsent
  obtain ⟨closed', hclosing, hclosed⟩ := writeClosing_sends source hsize hsent.sends hlimit
  obtain ⟨rfl, rfl⟩ := Prod.mk.inj (hclose.symm.trans hclosing)
  -- What comes to the other pump are the records of the fragments and one of two endings.
  obtain ⟨ending, hending, hbytes⟩ : ∃ ending : Bytes, (ending = [] ∨ ending = [0]) ∧
      q.netIn.before ++ rest = fragments.flatMap record ++ ending := by
    rcases hafter with rfl | rfl
    · refine ⟨[], .inl rfl, ?_⟩
      rw [hsent.wire] at hwire
      rw [List.append_nil]
      exact (List.append_cancel_left hwire).symm
    · refine ⟨[0], .inr rfl, ?_⟩
      rw [hclosed, hsent.wire, List.append_assoc] at hwire
      exact (List.append_cancel_left hwire).symm
  have hreceives := hq.receives hrest
  rw [hbytes] at hreceives hlimit'
  have hle := hsent.cut.length_le
  have hreads : (readEach (ends source' sink') limit' windows q).1 = handedOut fragments windows :=
    readEach_eq hsent.cut.length_pos
      (fun f hf => Nat.le_trans (hle f hf) (Nat.min_le_left _ _))
      (fun f hf => Nat.le_trans (Nat.succ_le_succ (hle f hf)) hsize') (Nat.zero_lt_of_lt hsize')
      hending hreceives hlimit' windows
  rw [hread] at hreads
  refine ⟨hlength, hwrites, rfl, fragments, hsent.cut, hsent.wire, hclosed, hreads, ?_⟩
  intro hroom k hk
  obtain rfl : reads = handedOut fragments windows := hreads
  exact getElem?_handedOut (fun f hf w hw => Nat.le_trans (hle f hf) (hroom w hw)) k hk

def sampleHandshake (script : List HandshakeStatus) (arrivals : List Script.Arrival) :
    Option (Except Fault Unit) × Pump (List Script.Arrival) Script.Uptake LengthRecords :=
  (new (ends Script.source Script.sink) arrivals .empty (.new script 4 4)).handshake
    (ends Script.source Script.sink) 8

theorem greeted_sampleHandshake {script : List HandshakeStatus} {arrivals : List Script.Arrival}
    (h : (sampleHandshake script arrivals).1.map Except.isOk = some true) :
    Greeted Script.source Script.sink 4 (sampleHandshake script arrivals).2 := by
  refine ⟨script, 4, arrivals, .empty, 8, ?_, rfl⟩
  change (sampleHandshake script arrivals).1 = some (.ok ())
  rcases hr : (sampleHandshake script arrivals).1 with _ | e | ⟨⟩
  · rw [hr] at h
    cases h
  · rw [hr] at h
    cases h
  · rfl

/-- Six bytes in two writes, through records of at most three bytes.  The records come in
pieces, with an interruption between them; the first window is too small for the first of
them, and the close notification is the end. -/
theorem reads_hand_out_plaintext_in_pieces :
    let d := ends Script.source Script.sink
    let p := (sampleHandshake [.needTask, .needWrap, .needUnwrap] [.chunk greeting]).2
    let q := (sampleHandshake [.needWrap, .needUnwrap] [.chunk [0x68], .chunk [0x69, 3],
      .chunk [1, 2], .fault ⟨.interrupted, "again"⟩, .chunk [3, 2, 4, 5], .chunk [1, 6, 0]]).2
    let apps : List Window := [⟨[], [1, 2, 3, 4, 5], []⟩, ⟨[], [6], []⟩]
    let windows := [2, 3, 3, 3, 3].map Window.new
    let sent := (writeEach d 6 apps p).2
    (sent.writeClosing d 6).2.output.taken = p.output.taken ++ [3, 1, 2, 3, 2, 4, 5, 1, 6, 0] ∧
    ∃ fragments, Cut 4 [1, 2, 3, 4, 5, 6] fragments ∧
      (readEach d 16 windows q).1 = handedOut fragments windows := by
  intro d p q apps windows sent
  have hp : Greeted Script.source Script.sink 4 p := greeted_sampleHandshake (by decide +kernel)
  have hq : Greeted Script.source Script.sink 4 q := greeted_sampleHandshake (by decide +kernel)
  have haccepts : Script.sink.Accepts Script.Uptake.taken p.output := by
    have hanswers : p.output.answers.length = 0 ∧ p.output.flushAnswers.length = 0 := by
      simp only [p]
      decide +kernel
    rw [List.length_eq_zero_iff, List.length_eq_zero_iff] at hanswers
    refine Script.sink_accepts ⟨?_, ?_⟩
    · rw [hanswers.1]
      exact fun _ ha => absurd ha List.not_mem_nil
    · rw [hanswers.2]
      exact fun _ ha => absurd ha List.not_mem_nil
  have hdelivers : Script.source.Delivers q.input [1, 2, 3, 2, 4, 5, 1, 6, 0] := by
    have hinput : q.input = [.chunk [1, 2], .fault ⟨.interrupted, "again"⟩,
        .chunk [3, 2, 4, 5], .chunk [1, 6, 0]] := by
      simp only [q]
      decide +kernel
    rw [hinput]
    exact Script.source_delivers (by simp [Script.Clean])
  have hbefore : q.netIn.before = [3] := by
    simp only [q]
    decide +kernel
  have hwire : (sent.writeClosing d 6).2.output.taken =
      p.output.taken ++ (q.netIn.before ++ [1, 2, 3, 2, 4, 5, 1, 6, 0]) := by
    rw [hbefore]
    simp only [sent, apps, p, d]
    decide +kernel
  have hlimit : (q.netIn.before ++ [1, 2, 3, 2, 4, 5, 1, 6, 0]).length < 16 := by
    rw [hbefore]
    decide
  have happs : ∀ app ∈ apps, app.remaining < 6 := by
    simp only [apps]
    decide
  obtain ⟨-, -, -, fragments, hcut, -, -, hreads, -⟩ :=
    reads_hand_out_plaintext hp haccepts (by decide) (by decide) happs (Prod.eta _).symm
      (Prod.eta _).symm (.inr rfl) hq hdelivers (by decide) hwire hlimit (Prod.eta _).symm
  rw [hbefore] at hwire
  exact ⟨hwire, fragments, hcut, hreads⟩

end Pump
end Record
end RemoteCall
