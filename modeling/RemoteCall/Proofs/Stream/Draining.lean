import Mathlib.Control.Monad.Basic
import RemoteCall.Proofs.Frame.Framing
import RemoteCall.Proofs.Stream.Traced
import RemoteCall.Stream.Script
import RemoteCall.Stream.Socket

/-!
Frames written through a buffer, whatever the drain does.

A write that is interrupted must have taken nothing, or a caller that tries again repeats
or loses bytes.  Sinks that keep to this hold every frame exactly (`Sink.Exact`).  A
buffered output keeps to it as long as no full block is interrupted: the buffer is empty
behind a failed handover, so what was in it is gone, and what the same write had handed on
before is handed on again.  `Drain.Account` is a record of what a drain takes, right for as
long as this does not happen.  Over a socket it never does.
-/

namespace RemoteCall

/-! ## Sinks that hold what they say -/

/-- A sink with a record of what it holds.  If the sink is calm at the end, it was before,
what a write answers for is on the record, and an interrupted write left it as it was. -/
structure Sink.Exact {σ : Type} (snk : Sink σ) (held : σ → Bytes) (calm : σ → Prop) : Prop where
  write : ∀ {bs s n t}, snk.write bs s = (.ok n, t) → calm t →
    calm s ∧ held t = held s ++ bs.take n
  interrupted : ∀ {bs s e t}, snk.write bs s = (.error e, t) → e.kind = .interrupted →
    calm t → calm s ∧ held t = held s

namespace Sink.Exact

variable {σ : Type} {snk : Sink σ} {held : σ → Bytes} {calm : σ → Prop} {s t : σ} {bs : Bytes}

theorem writeSome (hx : snk.Exact held calm) {n : Nat} (h : snk.writeSome bs s = (.ok n, t))
    (hcalm : calm t) : calm s ∧ held t = held s ++ bs.take n := by
  fun_induction Sink.writeSome snk bs s with
  | case1 s m u hw =>
    cases h
    exact hx.write hw hcalm
  | case2 s e u hw hk _ ih =>
    obtain ⟨hu, hheld⟩ := ih h
    obtain ⟨hs, hsame⟩ := hx.interrupted hw hk hu
    exact ⟨hs, hsame ▸ hheld⟩
  | case3 s e u hw hk => cases h

theorem writeAll (hx : snk.Exact held calm) (h : snk.writeAll bs s = (.ok (), t))
    (hcalm : calm t) : calm s ∧ held t = held s ++ bs := by
  fun_induction Sink.writeAll snk bs s with
  | case1 s =>
    cases h
    exact ⟨hcalm, (List.append_nil _).symm⟩
  | case2 bs s hb e u hw => cases h
  | case3 bs s hb u hw => cases h
  | case4 bs s hb n u hw _ ih =>
    obtain ⟨hu, hrest⟩ := ih h
    obtain ⟨hs, hfirst⟩ := hx.writeSome hw hu
    refine ⟨hs, ?_⟩
    rw [hrest, hfirst, List.append_assoc, List.take_append_drop]

end Sink.Exact

namespace Frame

/-! ## Lists of frames -/

variable {σ : Type}

/-- A frame of either kind on the wire. -/
def wireOf : CallFrame ⊕ ReturnFrame → Bytes := Sum.elim callWire returnWire

def writeEither (snk : Sink σ) : CallFrame ⊕ ReturnFrame → σ → Except CodecError Unit × σ
  | .inl c => writeCall snk c
  | .inr r => writeReturn snk r

def writeEach (snk : Sink σ) : List (CallFrame ⊕ ReturnFrame) → σ → Except CodecError Unit × σ
  | [], s => (.ok (), s)
  | f :: fs, s =>
    match writeEither snk f s with
    | (.error e, t) => (.error e, t)
    | (.ok (), t) => writeEach snk fs t

def sendEach (snk : Sink σ) (fs : List (CallFrame ⊕ ReturnFrame)) (s : σ) :
    Except CodecError Unit × σ :=
  match writeEach snk fs s with
  | (.error e, t) => (.error e, t)
  | (.ok (), t) =>
    match snk.flush t with
    | (.error e, u) => (.error (.fault e), u)
    | (.ok (), u) => (.ok (), u)

variable {snk : Sink σ} {held : σ → Bytes} {calm : σ → Prop} {s t : σ}

theorem writeBody_exact (hx : snk.Exact held calm) {body : Bytes}
    (h : writeBody snk body s = (.ok (), t)) (hcalm : calm t) :
    calm s ∧ held t = held s ++ framed body := by
  rw [writeBody] at h
  split at h
  · cases h
  · split at h
    · cases h
    · next u hw =>
      split at h
      · cases h
      · next v hw' =>
        cases h
        obtain ⟨hu, hbody⟩ := hx.writeAll hw' hcalm
        obtain ⟨hs, hheader⟩ := hx.writeAll hw hu
        refine ⟨hs, ?_⟩
        rw [hbody, hheader, List.append_assoc]
        rfl

theorem writeEach_exact (hx : snk.Exact held calm) {fs : List (CallFrame ⊕ ReturnFrame)}
    (h : writeEach snk fs s = (.ok (), t)) (hcalm : calm t) :
    calm s ∧ held t = held s ++ fs.flatMap wireOf := by
  induction fs generalizing s with
  | nil =>
    cases h
    exact ⟨hcalm, (List.append_nil _).symm⟩
  | cons f fs ih =>
    rw [writeEach] at h
    split at h
    · cases h
    · next u hw =>
      obtain ⟨hu, hrest⟩ := ih h
      have hfirst : calm s ∧ held u = held s ++ wireOf f := by
        cases f with
        | inl c => exact writeBody_exact hx hw hu
        | inr r => exact writeBody_exact hx hw hu
      refine ⟨hfirst.1, ?_⟩
      rw [hrest, hfirst.2, List.append_assoc, List.flatMap_cons]

end Frame

/-! ## Drains with a record -/

/-- One call of a drain. -/
structure Handover where
  mode : DrainMode
  offered : Bytes
  taken : Nat
  answer : Except Fault Unit

namespace Handover

def consumed (h : Handover) : Bytes := h.offered.take h.taken

def interrupted (h : Handover) : Bool :=
  match h.answer with
  | .error e => decide (e.kind = .interrupted)
  | .ok () => false

end Handover

namespace Drain

variable {δ : Type} {d : Drain δ}

def traced (d : Drain δ) : Drain (δ × List Handover) := fun mode block s =>
  ((d mode block s.1).1, (d mode block s.1).2.1, (d mode block s.1).2.2,
    s.2 ++ [⟨mode, block, (d mode block s.1).2.1, (d mode block s.1).1⟩])

def Finite.traced (fin : d.Finite) : d.traced.Finite where
  patience s := fin.patience s.1
  patience_le bs s := fin.patience_le bs s.1
  patience_interrupted bs s _ h hk := fin.patience_interrupted bs s.1 _ h hk

def outOfPatience : Fault := ⟨.timedOut, "interrupted too often"⟩

/-- The same drain for a limited number of interruptions; one more is a fault that is not
tried again.  A drain that interrupts fewer times is as it was. -/
def limited (d : Drain δ) : Drain (δ × Nat)
  | mode, block, (s, k) =>
    match d mode block s with
    | (.ok (), taken, t) => (.ok (), taken, t, k)
    | (.error e, taken, t) =>
      if e.kind ≠ .interrupted then (.error e, taken, t, k)
      else if k = 0 then (.error outOfPatience, taken, t, 0)
      else (.error e, taken, t, k - 1)

def limitedFinite (d : Drain δ) : d.limited.Finite where
  patience := Prod.snd
  patience_le bs s := by
    obtain ⟨s, k⟩ := s
    rw [limited]
    split
    · exact Nat.le_refl k
    · split
      · exact Nat.le_refl k
      · split
        · exact Nat.zero_le k
        · exact Nat.sub_le k 1
  patience_interrupted bs s e h hk := by
    obtain ⟨s, k⟩ := s
    rw [limited] at h ⊢
    split at h
    · cases h
    · next e' taken t hd =>
      dsimp only
      by_cases hother : e'.kind ≠ .interrupted
      · rw [if_pos hother] at h
        cases h
        exact absurd hk hother
      · rw [if_neg hother] at h ⊢
        by_cases hnone : k = 0
        · rw [if_pos hnone] at h
          cases h
          exact absurd hk (by decide)
        · rw [if_neg hnone]
          exact Nat.sub_lt (Nat.pos_of_ne_zero hnone) Nat.one_pos

/-- A record of what a drain takes.  If the drain is calm after a handover that went well,
it was before, and the block is on the record; and no full block was interrupted. -/
structure Account (d : Drain δ) (record : δ → Bytes) (calm : δ → Prop) : Prop where
  taken : ∀ {mode block s n t}, d mode block s = (.ok (), n, t) → block.length ≤ n → calm t →
    calm s ∧ record t = record s ++ block
  not_interrupted : ∀ {block s e n t}, d .write block s = (.error e, n, t) → calm t →
    e.kind ≠ .interrupted

/-- The log of a drain is a record of what it takes, as long as it shows no interruption. -/
theorem traced_account (d : Drain δ) :
    d.traced.Account (fun s => s.2.flatMap Handover.consumed)
      (fun s => ∀ h ∈ s.2, h.interrupted = false) where
  taken {mode block s n t} h hn hcalm := by
    obtain ⟨-, hrest⟩ := Prod.mk.inj h
    obtain ⟨rfl, rfl⟩ := Prod.mk.inj hrest
    refine ⟨(List.forall_mem_append.mp hcalm).1, ?_⟩
    rw [List.flatMap_append, List.flatMap_singleton, Handover.consumed, List.take_of_length_le hn]
  not_interrupted {block s e n t} h hcalm hk := by
    obtain ⟨hanswer, hrest⟩ := Prod.mk.inj h
    obtain ⟨-, rfl⟩ := Prod.mk.inj hrest
    have hlast := hcalm _ (List.mem_append_right _ List.mem_cons_self)
    rw [Handover.interrupted, hanswer] at hlast
    exact of_decide_eq_false hlast hk

end Drain

namespace BufferedOutput

/-! ## Buffers in front of a drain -/

variable {δ : Type} {d : Drain δ} {record : δ → Bytes} {calm : δ → Prop}
  {o p : BufferedOutput δ} {bs : Bytes}

/-- What a buffered output holds: what is on the record of its drain, and what is buffered. -/
def held (record : δ → Bytes) (o : BufferedOutput δ) : Bytes := record o.drains ++ o.pending

theorem handOn_ok (ha : d.Account record calm) {mode : DrainMode} {block : Bytes}
    (h : o.handOn d mode block = (.ok (), p)) (hcalm : calm p.drains) :
    calm o.drains ∧ record p.drains = record o.drains ++ block ∧ p.pending = [] := by
  rw [handOn] at h
  split at h
  · cases h
  · next n s hd =>
    split at h
    · cases h
    · next hn =>
      cases h
      obtain ⟨hs, hrecord⟩ := ha.taken hd (Nat.le_of_not_lt hn) hcalm
      exact ⟨hs, hrecord, rfl⟩

theorem handOn_not_interrupted (ha : d.Account record calm) {block : Bytes} {e : Fault}
    (h : o.handOn d .write block = (.error e, p)) (hcalm : calm p.drains) :
    e.kind ≠ .interrupted := by
  rw [handOn] at h
  split at h
  · next hd =>
    cases h
    exact ha.not_interrupted hd hcalm
  · split at h
    · cases h
      exact (by decide)
    · cases h

theorem push_ok (ha : d.Account record calm) (h : o.push d bs = (.ok (), p))
    (hcalm : calm p.drains) : calm o.drains ∧ held record p = held record o ++ bs := by
  fun_induction push d bs o with
  | case1 bs o free hb =>
    cases h
    exact ⟨hcalm, (List.append_assoc ..).symm⟩
  | case2 bs o free hb e q hh => cases h
  | case3 bs o free hb q hh ih =>
    obtain ⟨hq, hrest⟩ := ih h
    obtain ⟨ho, hrecord, hnone⟩ := handOn_ok ha hh hq
    refine ⟨ho, ?_⟩
    rw [hrest, held, hnone, hrecord, List.append_nil, held]
    simp only [List.append_assoc, List.take_append_drop]

theorem push_not_interrupted (ha : d.Account record calm) {e : Fault}
    (h : o.push d bs = (.error e, p)) (hcalm : calm p.drains) : e.kind ≠ .interrupted := by
  fun_induction push d bs o with
  | case1 bs o free hb => cases h
  | case2 bs o free hb e q hh =>
    cases h
    exact handOn_not_interrupted ha hh hcalm
  | case3 bs o free hb q hh ih => exact ih h

/-- As long as its drain is calm, a buffered output holds what it says. -/
theorem sink_exact (fin : d.Finite) (ha : d.Account record calm) :
    (sink fin).Exact (held record) (fun o => calm o.drains) where
  write {bs o n p} h hcalm := by
    have hwrite : o.write d bs = (.ok n, p) := h
    rw [write] at hwrite
    split at hwrite
    · cases hwrite
    · split at hwrite
      · cases hwrite
      · next hp =>
        cases hwrite
        rw [List.take_length]
        exact push_ok ha hp hcalm
  interrupted {bs o e p} h hk hcalm := by
    have hwrite : o.write d bs = (.error e, p) := h
    rw [write] at hwrite
    split at hwrite
    · cases hwrite
      exact absurd hk (by decide)
    · split at hwrite
      · next hp =>
        cases hwrite
        exact absurd hk (push_not_interrupted ha hp hcalm)
      · cases hwrite

theorem flush_ok (ha : d.Account record calm) (h : o.flush d = (.ok (), p))
    (hcalm : calm p.drains) : calm o.drains ∧ record p.drains = held record o := by
  rw [flush] at h
  split at h
  · cases h
  · obtain ⟨ho, hrecord, -⟩ := handOn_ok ha h hcalm
    exact ⟨ho, hrecord⟩

/-- If all goes well and the drain stayed calm, it has taken the frames, and nothing else. -/
theorem sendEach_exact (fin : d.Finite) (ha : d.Account record calm)
    {fs : List (CallFrame ⊕ ReturnFrame)} (h : Frame.sendEach (sink fin) fs o = (.ok (), p))
    (hcalm : calm p.drains) : record p.drains = held record o ++ fs.flatMap Frame.wireOf := by
  rw [Frame.sendEach] at h
  split at h
  · cases h
  · next q hw =>
    split at h
    · cases h
    · next u hf =>
      cases h
      obtain ⟨hq, hrecord⟩ := flush_ok ha hf hcalm
      rw [hrecord]
      exact (Frame.writeEach_exact (sink_exact fin ha) hw hq).2

end BufferedOutput

/-- What a socket takes is the record of the drain in front of it, and it is always calm:
an interruption never gets through. -/
theorem Socket.drain_account {σ : Type} (snk : Sink σ) :
    (drain snk.traced).Account (fun s => Sink.accepted s.2) (fun _ => True) where
  taken {mode block s n t} h _ _ := by
    refine ⟨trivial, ?_⟩
    rw [drain] at h
    split at h
    · cases h
    · next u hw =>
      have hblock := Sink.accepted_writeAll hw
      by_cases hmode : mode = .write
      · rw [if_pos hmode] at h
        cases h
        exact hblock
      · rw [if_neg hmode] at h
        obtain ⟨-, hrest⟩ := Prod.mk.inj h
        obtain ⟨-, rfl⟩ := Prod.mk.inj hrest
        show Sink.accepted (u.2 ++ [.flush _]) = _
        rw [Sink.accepted_append, hblock]
        exact List.append_nil _
  not_interrupted {block s e n t} h _ :=
    not_interrupted_drain snk.traced block s e (congrArg Prod.fst h)

namespace BufferedOutput

/-- Frames written through a buffer, and flushed.  If all of it goes well and no handover
was interrupted, the drain has consumed the frames on the wire, no byte missing and none
repeated.  Straight into a socket it is so whatever the sink does. -/
theorem frames_handed_on {n : Nat} (hn : 0 < n) (fs : List (CallFrame ⊕ ReturnFrame)) :
    (∀ (δ : Type) (d : Drain δ) (s : δ) (patience : Nat),
      ∃ start, new n ((s, patience), []) = .ok start ∧
        ∀ p, Frame.sendEach (sink d.limitedFinite.traced) fs start = (.ok (), p) →
          (∀ h ∈ p.drains.2, h.interrupted = false) →
          p.drains.2.flatMap Handover.consumed = fs.flatMap Frame.wireOf) ∧
    (∀ (σ : Type) (snk : Sink σ) (s : σ),
      ∃ start, new n (s, []) = .ok start ∧
        ∀ p, Frame.sendEach (Socket.bufferedSink snk.traced) fs start = (.ok (), p) →
          Sink.accepted p.drains.2 = fs.flatMap Frame.wireOf) := by
  have hroom : n ≠ 0 := Nat.ne_of_gt hn
  constructor
  · intro δ d s patience
    refine ⟨_, dif_neg hroom, ?_⟩
    intro p hsent hcalm
    exact sendEach_exact _ d.limited.traced_account hsent hcalm
  · intro σ snk s
    refine ⟨_, dif_neg hroom, ?_⟩
    intro p hsent
    exact sendEach_exact _ (Socket.drain_account snk) hsent trivial

/-- Two replies through six bytes of room: to a drain that takes every block, and to a
socket that takes a little at a time and is interrupted. -/
theorem frames_handed_on_two_replies :
    let fs : List (CallFrame ⊕ ReturnFrame) :=
      [.inr ⟨.value .null, 0, none⟩, .inr ⟨.value (.int 7), 0x100, some [1]⟩]
    (∃ start p, new 6 ((⟨[], []⟩, 0), []) = .ok start ∧
      Frame.sendEach (sink (Drain.limitedFinite Script.drain).traced) fs start = (.ok (), p) ∧
      p.drains.2.flatMap Handover.consumed = fs.flatMap Frame.wireOf) ∧
    (∃ start p, new 6 (⟨[.ok 1, .error ⟨.interrupted, "again"⟩, .ok 2], [], [], 0⟩, [])
        = .ok start ∧
      Frame.sendEach (Socket.bufferedSink Script.sink.traced) fs start = (.ok (), p) ∧
      Sink.accepted p.drains.2 = fs.flatMap Frame.wireOf) := by
  intro fs
  obtain ⟨hdrain, hsocket⟩ := frames_handed_on (n := 6) (by decide) fs
  constructor
  · obtain ⟨start, hnew, hsent⟩ := hdrain _ Script.drain ⟨[], []⟩ 0
    obtain rfl := Except.ok.inj hnew
    refine ⟨_, _, hnew, Prod.ext ?_ rfl, hsent _ (Prod.ext ?_ rfl) ?_⟩
    · decide +kernel
    · decide +kernel
    · decide +kernel
  · obtain ⟨start, hnew, hsent⟩ :=
      hsocket _ Script.sink ⟨[.ok 1, .error ⟨.interrupted, "again"⟩, .ok 2], [], [], 0⟩
    obtain rfl := Except.ok.inj hnew
    refine ⟨_, _, hnew, Prod.ext ?_ rfl, hsent _ (Prod.ext ?_ rfl)⟩
    · decide +kernel
    · decide +kernel

/-- The first block is interrupted, and the header of the frame is in it.  The body is
written again, so all goes well, and the header is gone. -/
theorem header_lost_by_interruption :
    let fs : List (CallFrame ⊕ ReturnFrame) := [.inr ⟨.value .null, 0, none⟩]
    ∃ start p,
      new 6 ((⟨[(some 0, some ⟨.interrupted, "again"⟩)], []⟩, 1), []) = .ok start ∧
      Frame.sendEach (sink (Drain.limitedFinite Script.drain).traced) fs start = (.ok (), p) ∧
      p.drains.2.flatMap Handover.consumed = Body.writeReturn ⟨.value .null, 0, none⟩ ∧
      p.drains.2.flatMap Handover.consumed ≠ fs.flatMap Frame.wireOf := by
  intro fs
  refine ⟨⟨6, [], by decide, false, _⟩, _, rfl, Prod.ext ?_ rfl, ?_, ?_⟩
  · decide +kernel
  · decide +kernel
  · decide +kernel

end BufferedOutput
end RemoteCall
