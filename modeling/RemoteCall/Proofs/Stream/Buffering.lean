import RemoteCall.Proofs.Stream.Acceptance
import RemoteCall.Proofs.Stream.Events
import RemoteCall.Stream.Socket

/-!
Buffers in front of a socket.

A buffered source asks its socket for other amounts at other times, and drops its window
at every end and every fault; yet it plays what is in the window and then what the socket
plays (`Socket.bufferedSource_plays`), so nothing that reads through it can tell.  A
buffered sink holds bytes back until a block is full or a flush comes; `Sink.Ledger` keeps
the books on such a sink, and `Socket.ledger` says that the buffered one writes the same
bytes and flushes the socket as often as it is flushed itself.
-/

namespace RemoteCall

/-! ## Books on a sink -/

/-- The books on a sink that takes everything: what was written to it, what of that has
gone out, and how often the socket behind it was flushed.  A flush holds nothing back. -/
structure Sink.Ledger {σ : Type} (snk : Sink σ) where
  written : σ → Bytes
  sent : σ → Bytes
  flushes : σ → Nat
  ready : σ → Prop
  acceptance : snk.Acceptance written ready
  flushes_write : ∀ bs s, flushes (snk.write bs s).2 = flushes s
  sent_flush : ∀ {s}, ready s → sent (snk.flush s).2 = written s
  flushes_flush : ∀ {s}, ready s → flushes (snk.flush s).2 = flushes s + 1

namespace Sink

variable {σ α : Type} {snk : Sink σ}

theorem writeSome_keeps {f : σ → α} (h : ∀ bs s, f (snk.write bs s).2 = f s) (bs : Bytes)
    (s : σ) : f (snk.writeSome bs s).2 = f s := by
  fun_induction writeSome snk bs s with
  | case1 s n t hw =>
    have := h bs s
    rwa [hw] at this
  | case2 s e t hw hk _ ih =>
    have := h bs s
    rw [hw] at this
    exact ih.trans this
  | case3 s e t hw hk =>
    have := h bs s
    rwa [hw] at this

theorem writeAll_keeps {f : σ → α} (h : ∀ bs s, f (snk.write bs s).2 = f s) (bs : Bytes)
    (s : σ) : f (snk.writeAll bs s).2 = f s := by
  fun_induction writeAll snk bs s with
  | case1 s => rfl
  | case2 bs s hb e t hw =>
    have := writeSome_keeps h bs s
    rwa [hw] at this
  | case3 bs s hb t hw =>
    have := writeSome_keeps h bs s
    rwa [hw] at this
  | case4 bs s hb n t hw _ ih =>
    have := writeSome_keeps h bs s
    rw [hw] at this
    exact ih.trans this

namespace Ledger

variable (L : snk.Ledger) {s : σ}

theorem writeAll (bs : Bytes) (hs : L.ready s) :
    ∃ t, snk.writeAll bs s = (.ok (), t) ∧ L.ready t ∧ L.written t = L.written s ++ bs ∧
      L.flushes t = L.flushes s := by
  obtain ⟨t, hw, ht, hwritten⟩ := L.acceptance.writeAll bs hs
  have hkeep := writeAll_keeps L.flushes_write bs s
  rw [hw] at hkeep
  exact ⟨t, hw, ht, hwritten, hkeep⟩

theorem flush (hs : L.ready s) :
    ∃ t, snk.flush s = (.ok (), t) ∧ L.ready t ∧ L.written t = L.written s ∧
      L.sent t = L.written s ∧ L.flushes t = L.flushes s + 1 := by
  obtain ⟨t, hf, ht, hwritten⟩ := L.acceptance.flush hs
  have hsent := L.sent_flush hs
  have hcount := L.flushes_flush hs
  rw [hf] at hsent hcount
  exact ⟨t, hf, ht, hwritten, hsent, hcount⟩

end Ledger
end Sink

/-- The books of a scripted sink: what is written goes out at once. -/
def Script.ledger : Script.sink.Ledger where
  written := Uptake.taken
  sent := Uptake.taken
  flushes := Uptake.flushes
  ready := Uptake.Willing
  acceptance := sink_acceptance
  flushes_write bs u := by
    show (Uptake.write bs u).2.flushes = u.flushes
    unfold Uptake.write
    split <;> rfl
  sent_flush {u} _ := by
    show (Uptake.flush u).2.taken = u.taken
    unfold Uptake.flush
    split <;> rfl
  flushes_flush {u} _ := by
    show (Uptake.flush u).2.flushes = u.flushes + 1
    unfold Uptake.flush
    split <;> rfl

namespace Socket

variable {σ : Type} {src : Source σ}

/-! ## Reading -/

theorem read_held {n : Nat} (hn : 0 < n) {b : BufferedInput σ} (hb : b.window.span ≠ []) :
    b.read (refill src) n = (.ok (b.window.span.take n), { b with window := b.window.skip n }) := by
  have hpos : b.window.remaining > 0 := List.length_pos_iff.mpr hb
  rw [BufferedInput.read, if_neg (by omega), BufferedInput.fill, if_pos hpos]
  rfl

theorem read_dry {n : Nat} (hn : 0 < n) {b : BufferedInput σ} (hb : b.window.span = [])
    (hw : 0 < b.window.capacity) {evs : List Event} (h : src.Plays b.refills evs) :
    ∃ answer c left, b.read (refill src) n = (answer, c) ∧ c.window.capacity = b.window.capacity ∧
      Event.Yields evs answer (c.window.span.map .byte ++ left) ∧ src.Plays c.refills left := by
  have hdry : ¬ b.window.remaining > 0 := by
    rw [Window.remaining, hb]
    exact Nat.lt_irrefl 0
  have hroom := Window.remaining_clear b.window
  obtain ⟨answer, t, rest, hr, hy, ht⟩ := Source.readSome_plays (hroom ▸ hw) h
  rw [BufferedInput.read, if_neg (by omega), BufferedInput.fill, if_neg hdry, refill, hr]
  cases hy with
  | bytes c cs rest =>
    have hlen := src.length_readSome_le hr
    rw [hroom] at hlen
    have hspan := Window.span_refilled hlen
    have hfull : cs.length + 1 > 0 ∧ (b.window.clear.put (c :: cs)).flip.remaining > 0 := by
      rw [Window.remaining, hspan]
      exact ⟨Nat.succ_pos _, Nat.succ_pos _⟩
    dsimp only
    rw [if_pos hfull]
    refine ⟨_, _, rest, rfl, by simp, ?_, ht⟩
    rw [Window.peek, Window.skip, hspan]
    exact Event.yields_take hn (List.cons_ne_nil c cs) rest
  | pause rest =>
    exact ⟨_, _, rest, rfl, by simp, .pause rest, ht⟩
  | fault e rest hk => exact ⟨_, _, rest, rfl, by simp, .fault e rest hk, ht⟩
  | ended => exact ⟨_, _, [], rfl, by simp, .ended, ht⟩

/-- What is in the window comes first, then what the socket plays. -/
theorem bufferedSource_plays {s : σ} {evs : List Event} (h : src.Plays s evs) {w : Window}
    (hw : 0 < w.capacity) :
    (bufferedSource src).Plays ⟨w, s⟩ (w.span.map .byte ++ evs) := by
  refine ⟨fun b all => 0 < b.window.capacity ∧ ∃ left, src.Plays b.refills left ∧
    all = b.window.span.map .byte ++ left, ⟨?_⟩, hw, evs, h, rfl⟩
  rintro n b all hn ⟨hcap, left, hleft, rfl⟩
  by_cases hb : b.window.span = []
  · obtain ⟨answer, c, more, hr, hcap', hy, hc⟩ := read_dry hn hb hcap hleft
    refine Or.inr ⟨answer, c, _, hr, ?_, hcap' ▸ hcap, more, hc, rfl⟩
    rw [hb]
    exact hy
  · exact Or.inr ⟨_, _, _, read_held hn hb, Event.yields_take hn hb left, by simpa using hcap,
      left, hleft, rfl⟩

/-! ## Writing -/

variable {snk : Sink σ} (L : snk.Ledger)

theorem drain_write {bs : Bytes} {s t : σ} (h : snk.writeAll bs s = (.ok (), t)) :
    drain snk .write bs s = (.ok (), bs.length, t) := by
  rw [drain, h]
  rfl

theorem drain_flush {bs : Bytes} {s t u : σ} (h : snk.writeAll bs s = (.ok (), t))
    (hf : snk.flush t = (.ok (), u)) : drain snk .flush bs s = (.ok (), bs.length, u) := by
  rw [drain, h]
  show ((snk.flush t).1, bs.length, (snk.flush t).2) = _
  rw [hf]

theorem handOn_of_drain {d : Drain σ} {mode : DrainMode} {block : Bytes} {o : BufferedOutput σ}
    {t : σ} (h : d mode block o.drains = (.ok (), block.length, t)) :
    o.handOn d mode block = (.ok (), { o.discard with drains := t }) := by
  rw [BufferedOutput.handOn, h]
  dsimp only
  rw [if_neg (Nat.lt_irrefl _)]

theorem handOn_write (block : Bytes) {o : BufferedOutput σ} (ho : L.ready o.drains) :
    ∃ t, o.handOn (drain snk) .write block = (.ok (), { o.discard with drains := t }) ∧
      L.ready t ∧ L.written t = L.written o.drains ++ block := by
  obtain ⟨t, hw, ht, hwritten, -⟩ := L.writeAll block ho
  exact ⟨t, handOn_of_drain (drain_write hw), ht, hwritten⟩

theorem flush_open {o : BufferedOutput σ} (ho : L.ready o.drains) (hopen : o.closed = false) :
    ∃ t, o.flush (drain snk) = (.ok (), { o.discard with drains := t }) ∧ L.ready t ∧
      L.written t = L.written o.drains ++ o.pending ∧
      L.sent t = L.written o.drains ++ o.pending ∧ L.flushes t = L.flushes o.drains + 1 := by
  obtain ⟨t, hw, ht, hwritten, hcount⟩ := L.writeAll o.pending ho
  obtain ⟨u, hf, hu, hwritten', hsent, hcount'⟩ := L.flush ht
  refine ⟨u, ?_, hu, hwritten'.trans hwritten, hsent.trans hwritten,
    hcount'.trans (congrArg (· + 1) hcount)⟩
  rw [BufferedOutput.flush, hopen, if_neg (by simp)]
  exact handOn_of_drain (drain_flush hw hf)

theorem push_ready (bs : Bytes) {o : BufferedOutput σ} (ho : L.ready o.drains) :
    ∃ p, o.push (drain snk) bs = (.ok (), p) ∧ p.closed = o.closed ∧ L.ready p.drains ∧
      L.written p.drains ++ p.pending = L.written o.drains ++ o.pending ++ bs := by
  fun_induction BufferedOutput.push (drain snk) bs o with
  | case1 bs o free hb => exact ⟨_, rfl, rfl, ho, (List.append_assoc ..).symm⟩
  | case2 bs o free hb e p hh =>
    obtain ⟨t, ht, -⟩ := handOn_write L (o.pending ++ bs.take free) ho
    rw [hh] at ht
    simp at ht
  | case3 bs o free hb p hh ih =>
    obtain ⟨t, ht, hready, hwritten⟩ := handOn_write L (o.pending ++ bs.take free) ho
    rw [hh] at ht
    simp only [Prod.mk.injEq, true_and] at ht
    subst ht
    obtain ⟨p, hp, hclosed, hready', hwritten'⟩ := ih hready
    refine ⟨p, hp, hclosed, hready', ?_⟩
    show _ = L.written o.drains ++ o.pending ++ bs
    rw [hwritten', hwritten, BufferedOutput.discard, List.append_nil, List.append_assoc,
      List.append_assoc, List.append_assoc, List.take_append_drop]

theorem flushes_handOn (block : Bytes) (o : BufferedOutput σ) :
    L.flushes (o.handOn (drain snk) .write block).2.drains = L.flushes o.drains := by
  have hkeep := Sink.writeAll_keeps L.flushes_write block o.drains
  rw [BufferedOutput.handOn, drain]
  match snk.writeAll block o.drains, hkeep with
  | (.error e, t), hkeep => exact hkeep
  | (.ok (), t), hkeep => exact hkeep

theorem flushes_push (bs : Bytes) (o : BufferedOutput σ) :
    L.flushes (o.push (drain snk) bs).2.drains = L.flushes o.drains := by
  fun_induction BufferedOutput.push (drain snk) bs o with
  | case1 bs o free hb => rfl
  | case2 bs o free hb e p hh =>
    have hkeep := flushes_handOn L (o.pending ++ bs.take free) o
    rwa [hh] at hkeep
  | case3 bs o free hb p hh ih =>
    have hkeep := flushes_handOn L (o.pending ++ bs.take free) o
    rw [hh] at hkeep
    exact ih.trans hkeep

theorem flushes_write (bs : Bytes) (o : BufferedOutput σ) :
    L.flushes (o.write (drain snk) bs).2.drains = L.flushes o.drains := by
  have hkeep := flushes_push L bs o
  unfold BufferedOutput.write
  split
  · rfl
  · match o.push (drain snk) bs, hkeep with
    | (.error e, p), hkeep => exact hkeep
    | (.ok (), p), hkeep => exact hkeep

theorem write_open (bs : Bytes) {o : BufferedOutput σ} (ho : L.ready o.drains)
    (hopen : o.closed = false) :
    ∃ p, o.write (drain snk) bs = (.ok bs.length, p) ∧ p.closed = false ∧ L.ready p.drains ∧
      L.written p.drains ++ p.pending = L.written o.drains ++ o.pending ++ bs := by
  obtain ⟨p, hp, hclosed, hready, hwritten⟩ := push_ready L bs ho
  refine ⟨p, ?_, hclosed.trans hopen, hready, hwritten⟩
  rw [BufferedOutput.write, hopen, if_neg (by simp), hp]

theorem bufferedSink_acceptance :
    (bufferedSink snk).Acceptance (fun o => L.written o.drains ++ o.pending)
      (fun o => L.ready o.drains ∧ o.closed = false) where
  write := by
    rintro bs o hb ⟨ho, hopen⟩
    have hlen : 0 < bs.length := List.length_pos_iff.mpr hb
    obtain ⟨p, hp, hclosed, hready, hwritten⟩ := write_open L bs ho hopen
    refine Or.inr ⟨bs.length - 1, p, ?_, by omega, ⟨hready, hclosed⟩, ?_⟩
    · rw [Nat.sub_add_cancel hlen]
      exact hp
    · rw [Nat.sub_add_cancel hlen, List.take_length]
      exact hwritten
  flush := by
    rintro o ⟨ho, hopen⟩
    obtain ⟨t, hf, ht, hwritten, -, -⟩ := flush_open L ho hopen
    refine ⟨_, hf, ⟨ht, hopen⟩, ?_⟩
    show L.written t ++ [] = _
    rw [List.append_nil, hwritten]

/-- The books of a buffered sink: what is pending is written and has not gone out. -/
def ledger : (bufferedSink snk).Ledger where
  written o := L.written o.drains ++ o.pending
  sent o := L.sent o.drains
  flushes o := L.flushes o.drains
  ready o := L.ready o.drains ∧ o.closed = false
  acceptance := bufferedSink_acceptance L
  flushes_write := flushes_write L
  sent_flush := by
    rintro o ⟨ho, hopen⟩
    obtain ⟨t, hf, -, -, hsent, -⟩ := flush_open L ho hopen
    show L.sent (o.flush (drain snk)).2.drains = _
    rw [hf]
    exact hsent
  flushes_flush := by
    rintro o ⟨ho, hopen⟩
    obtain ⟨t, hf, -, -, -, hcount⟩ := flush_open L ho hopen
    show L.flushes (o.flush (drain snk)).2.drains = _
    rw [hf]
    exact hcount

end Socket
end RemoteCall
