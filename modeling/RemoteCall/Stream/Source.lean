import RemoteCall.Bytes
import RemoteCall.Stream.Fault

/-!
Sources: where bytes are read from.

A source is a state machine.  It may deliver fewer bytes than asked for, report an
end that is only momentary, fail, or be interrupted.  The one thing it may not do
is interrupt for ever: `supply` bounds the bytes and the interruptions still to
come, and so every reading loop ends.
-/

namespace RemoteCall

/-- A source of bytes over states `σ`.  `read n s` asks for at most `n` bytes; no
bytes means that the source is at its end for now. -/
structure Source (σ : Type) where
  read : Nat → σ → Except Fault Bytes × σ
  /-- Bounds the bytes and the interruptions still to come. -/
  supply : σ → Nat
  length_le : ∀ {n s bs t}, read n s = (.ok bs, t) → bs.length ≤ n
  supply_read : ∀ {n s bs t}, read n s = (.ok bs, t) → supply t + bs.length ≤ supply s
  supply_interrupted : ∀ {n s e t}, read n s = (.error e, t) → e.kind = .interrupted →
    supply t < supply s

namespace Source

variable {σ : Type}

/-- Reads at most `n` bytes, trying again after every interruption. -/
def readSome (src : Source σ) (n : Nat) (s : σ) : Except Fault Bytes × σ :=
  match h : src.read n s with
  | (.ok bs, t) => (.ok bs, t)
  | (.error e, t) =>
    if hk : e.kind = .interrupted then
      have := src.supply_interrupted h hk
      src.readSome n t
    else (.error e, t)
termination_by src.supply s

/-- Reads exactly `n` bytes.  An end before the last of them is a fault; the bytes
read until then are gone. -/
def readExact (src : Source σ) (n : Nat) (s : σ) : Except Fault Bytes × σ :=
  if n = 0 then (.ok [], s)
  else
    match src.readSome n s with
    | (.error e, t) => (.error e, t)
    | (.ok [], t) => (.error .endedEarly, t)
    | (.ok (b :: bs), t) =>
      match src.readExact (n - (bs.length + 1)) t with
      | (.error e, u) => (.error e, u)
      | (.ok rest, u) => (.ok (b :: bs ++ rest), u)
termination_by n
decreasing_by omega

theorem supply_readSome (src : Source σ) {n : Nat} {s t : σ} {bs : Bytes}
    (h : src.readSome n s = (.ok bs, t)) : src.supply t + bs.length ≤ src.supply s := by
  fun_induction readSome src n s with
  | case1 s bs' t' hr =>
    simp only [Prod.mk.injEq, Except.ok.injEq] at h
    obtain ⟨rfl, rfl⟩ := h
    exact src.supply_read hr
  | case2 s e t' hr hk _ ih =>
    have := src.supply_interrupted hr hk
    have := ih h
    omega
  | case3 s e t' hr hk => simp at h

theorem length_readSome_le (src : Source σ) {n : Nat} {s t : σ} {bs : Bytes}
    (h : src.readSome n s = (.ok bs, t)) : bs.length ≤ n := by
  fun_induction readSome src n s with
  | case1 s bs' t' hr =>
    simp only [Prod.mk.injEq, Except.ok.injEq] at h
    obtain ⟨rfl, rfl⟩ := h
    exact src.length_le hr
  | case2 s e t' hr hk _ ih => exact ih h
  | case3 s e t' hr hk => simp at h

theorem not_interrupted_readSome (src : Source σ) {n : Nat} {s t : σ} {e : Fault}
    (h : src.readSome n s = (.error e, t)) : e.kind ≠ .interrupted := by
  fun_induction readSome src n s with
  | case1 s bs' t' hr => simp at h
  | case2 s e' t' hr hk _ ih => exact ih h
  | case3 s e' t' hr hk =>
    simp only [Prod.mk.injEq, Except.error.injEq] at h
    exact h.1 ▸ hk

theorem supply_readExact (src : Source σ) {n : Nat} {s t : σ} {bs : Bytes}
    (h : src.readExact n s = (.ok bs, t)) : src.supply t + bs.length ≤ src.supply s := by
  fun_induction readExact src n s generalizing bs t with
  | case1 s =>
    simp only [Prod.mk.injEq, Except.ok.injEq] at h
    obtain ⟨rfl, rfl⟩ := h
    simp
  | case2 n s hn e u hr => simp at h
  | case3 n s hn u hr => simp at h
  | case4 n s hn b bs' u hr e v hrest ih => simp at h
  | case5 n s hn b bs' u hr rest v hrest ih =>
    simp only [Prod.mk.injEq, Except.ok.injEq] at h
    obtain ⟨rfl, rfl⟩ := h
    have h1 := src.supply_readSome hr
    have h2 := ih hrest
    simp only [List.length_cons, List.length_append, List.cons_append] at *
    omega

end Source

end RemoteCall
