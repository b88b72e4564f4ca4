import RemoteCall.Bytes
import RemoteCall.Stream.Fault

/-!
Sinks: where bytes are written to.

A sink may take only some of the bytes it is offered, take none, fail, or be
interrupted; `patience` bounds the interruptions in a row, so that `writeAll` ends.
-/

namespace RemoteCall

/-- A sink of bytes over states `σ`.  `write bs s` offers `bs` and answers how many
of them were taken. -/
structure Sink (σ : Type) where
  write : Bytes → σ → Except Fault Nat × σ
  flush : σ → Except Fault Unit × σ
  /-- Bounds the interruptions in a row. -/
  patience : σ → Nat
  patience_interrupted : ∀ {bs s e t}, write bs s = (.error e, t) → e.kind = .interrupted →
    patience t < patience s

namespace Sink

variable {σ : Type}

/-- Offers `bs` once, trying again after every interruption. -/
def writeSome (snk : Sink σ) (bs : Bytes) (s : σ) : Except Fault Nat × σ :=
  match h : snk.write bs s with
  | (.ok n, t) => (.ok n, t)
  | (.error e, t) =>
    if hk : e.kind = .interrupted then
      have := snk.patience_interrupted h hk
      snk.writeSome bs t
    else (.error e, t)
termination_by snk.patience s

/-- Writes all of `bs`, offering again what was not taken.  A sink that takes
nothing is a fault. -/
def writeAll (snk : Sink σ) (bs : Bytes) (s : σ) : Except Fault Unit × σ :=
  if hb : bs = [] then (.ok (), s)
  else
    match snk.writeSome bs s with
    | (.error e, t) => (.error e, t)
    | (.ok 0, t) => (.error .wroteNothing, t)
    | (.ok (n + 1), t) =>
      have := List.length_pos_iff.mpr hb
      snk.writeAll (bs.drop (n + 1)) t
termination_by bs.length
decreasing_by simp only [List.length_drop]; omega

theorem not_interrupted_writeSome (snk : Sink σ) {bs : Bytes} {s t : σ} {e : Fault}
    (h : snk.writeSome bs s = (.error e, t)) : e.kind ≠ .interrupted := by
  fun_induction writeSome snk bs s with
  | case1 s n t' hr => simp at h
  | case2 s e' t' hr hk _ ih => exact ih h
  | case3 s e' t' hr hk =>
    simp only [Prod.mk.injEq, Except.error.injEq] at h
    exact h.1 ▸ hk

theorem not_interrupted_writeAll (snk : Sink σ) {bs : Bytes} {s t : σ} {e : Fault}
    (h : snk.writeAll bs s = (.error e, t)) : e.kind ≠ .interrupted := by
  fun_induction writeAll snk bs s with
  | case1 s => simp at h
  | case2 bs s hb e' t' hr =>
    simp only [Prod.mk.injEq, Except.error.injEq] at h
    exact h.1 ▸ snk.not_interrupted_writeSome hr
  | case3 bs s hb t' hr =>
    simp only [Prod.mk.injEq, Except.error.injEq] at h
    exact h.1 ▸ (by decide)
  | case4 bs s hb n t' hr _ ih => exact ih h

end Sink

end RemoteCall
