import RemoteCall.Stream.Input
import RemoteCall.Stream.Output

/-!
Sockets behind buffers: refills straight from a source, drains straight into a sink.
-/

namespace RemoteCall
namespace Socket

variable {σ : Type}

def refill (src : Source σ) : Refill σ := fun w s =>
  match src.readSome w.remaining s with
  | (.error e, t) => (.error e, w, t)
  | (.ok [], t) => (.ok none, w, t)
  | (.ok (b :: bs), t) => (.ok (some (bs.length + 1)), (w.put (b :: bs)).flip, t)

/-- Drains a block by writing all of it.  Only a block that is not just full is
flushed as well.  A block that could not be written counts as left behind. -/
def drain (snk : Sink σ) : Drain σ := fun mode bs s =>
  match snk.writeAll bs s with
  | (.error e, t) => (.error e, 0, t)
  | (.ok (), t) =>
    if mode = .write then (.ok (), bs.length, t)
    else
      match snk.flush t with
      | (answer, u) => (answer, bs.length, u)

theorem capacity_refill (src : Source σ) (w : Window) (s : σ) :
    (refill src w s).2.1.capacity = w.capacity := by
  unfold refill
  split
  · rfl
  · rfl
  · rw [Window.capacity_flip, Window.capacity_put]

theorem supply_refill_le (src : Source σ) (w : Window) (s : σ)
    (h : (refill src w s).1 = .ok none) : src.supply (refill src w s).2.2 ≤ src.supply s := by
  unfold refill at h ⊢
  split at h
  · simp at h
  · next t hr => simpa [hr] using src.supply_readSome hr
  · simp at h

theorem supply_refill_lt (src : Source σ) (w : Window) (s : σ) (n : Nat)
    (h : (refill src w s).1 = .ok (some n)) :
    src.supply (refill src w s).2.2 < src.supply s := by
  unfold refill at h ⊢
  split at h
  · simp at h
  · simp at h
  · next b bs t hr =>
    have := src.supply_readSome hr
    simp only [hr, List.length_cons] at *
    omega

/-- An interruption never leaves a refill. -/
theorem not_interrupted_refill (src : Source σ) (w : Window) (s : σ) (e : Fault)
    (h : (refill src w s).1 = .error e) : e.kind ≠ .interrupted := by
  unfold refill at h
  split at h
  · next e' t hr =>
    simp only [Except.error.injEq] at h
    exact h ▸ src.not_interrupted_readSome hr
  · simp at h
  · simp at h

def refillFinite (src : Source σ) : (refill src).Finite where
  supply := src.supply
  capacity_eq := capacity_refill src
  supply_le := supply_refill_le src
  supply_lt := supply_refill_lt src
  supply_interrupted w s e h hk := absurd hk (not_interrupted_refill src w s e h)

/-- An interruption never leaves the draining of a full block: writing all of it tries
again. -/
theorem not_interrupted_drain (snk : Sink σ) (bs : Bytes) (s : σ) (e : Fault)
    (h : (drain snk .write bs s).1 = .error e) : e.kind ≠ .interrupted := by
  unfold drain at h
  split at h
  · next e' t hr =>
    simp only [Except.error.injEq] at h
    exact h ▸ snk.not_interrupted_writeAll hr
  · simp at h

def drainFinite (snk : Sink σ) : (drain snk).Finite where
  patience _ := 0
  patience_le _ _ := Nat.le_refl 0
  patience_interrupted bs s e h hk := absurd hk (not_interrupted_drain snk bs s e h)

def bufferedSource (src : Source σ) : Source (BufferedInput σ) :=
  BufferedInput.source (refillFinite src)

def bufferedSink (snk : Sink σ) : Sink (BufferedOutput σ) :=
  BufferedOutput.sink (drainFinite snk)

end Socket
end RemoteCall
