import RemoteCall.Stream.Source
import RemoteCall.Stream.Window

/-!
Buffered input: reading from a window that is refilled whenever it runs dry.

The refill gets the window empty and ready to be written.  It either fills it, turns
it for reading and answers how many bytes it put there, or answers that the input is
at its end, or fails.  `BufferedInput.source` reads through the window as a source of
its own, for a refill that does not go on for ever.
-/

namespace RemoteCall

/-- Fills a window from states `ρ`.  A count says that bytes were put there, `none`
that the input is at its end. -/
abbrev Refill (ρ : Type) := Window → ρ → Except Fault (Option Nat) × Window × ρ

/-- A refill that puts bytes, or is interrupted, only finitely often and leaves the
storage of the window as large as it was. -/
structure Refill.Finite {ρ : Type} (r : Refill ρ) where
  supply : ρ → Nat
  capacity_eq : ∀ w s, (r w s).2.1.capacity = w.capacity
  supply_le : ∀ w s, (r w s).1 = .ok none → supply (r w s).2.2 ≤ supply s
  supply_lt : ∀ w s n, (r w s).1 = .ok (some n) → supply (r w s).2.2 < supply s
  supply_interrupted : ∀ w s e, (r w s).1 = .error e → e.kind = .interrupted →
    supply (r w s).2.2 < supply s

structure BufferedInput (ρ : Type) where
  window : Window
  refills : ρ
  deriving Inhabited

namespace BufferedInput

variable {ρ : Type}

def noCapacity : Fault := ⟨.invalidInput, "buffer capacity must be greater than zero"⟩

/-- The refill promised bytes and put none. -/
def emptyRefill : Fault :=
  .other "No bytes were read even though the end of input has not been reached."

def new (capacity : Nat) (refills : ρ) : Except Fault (BufferedInput ρ) :=
  if capacity = 0 then .error noCapacity
  else .ok ⟨(Window.new capacity).flip, refills⟩

def available (b : BufferedInput ρ) : Nat := b.window.remaining

def discard (b : BufferedInput ρ) : BufferedInput ρ := { b with window := b.window.clear.flip }

/-- Makes sure that a byte is buffered, by one refill if the window is empty; `false`
at the end of input.  Whatever a failed refill left in the window is dropped. -/
def fill (r : Refill ρ) (b : BufferedInput ρ) : Except Fault Bool × BufferedInput ρ :=
  if b.window.remaining > 0 then (.ok true, b)
  else
    match r b.window.clear b.refills with
    | (.ok (some count), w, s) =>
      if count > 0 ∧ w.remaining > 0 then (.ok true, ⟨w, s⟩)
      else (.error emptyRefill, discard ⟨w, s⟩)
    | (.ok none, w, s) => (.ok false, discard ⟨w, s⟩)
    | (.error e, w, s) => (.error e, discard ⟨w, s⟩)

/-- Reads at most `n` bytes: none if `n` is zero or the input is at its end. -/
def read (r : Refill ρ) (n : Nat) (b : BufferedInput ρ) : Except Fault Bytes × BufferedInput ρ :=
  if n = 0 then (.ok [], b)
  else
    match b.fill r with
    | (.error e, c) => (.error e, c)
    | (.ok false, c) => (.ok [], c)
    | (.ok true, c) => (.ok (c.window.peek n), { c with window := c.window.skip n })

def readByte (r : Refill ρ) (b : BufferedInput ρ) :
    Except Fault (Option UInt8) × BufferedInput ρ :=
  match b.fill r with
  | (.error e, c) => (.error e, c)
  | (.ok false, c) => (.ok none, c)
  | (.ok true, c) => (.ok (c.window.peek 1).head?, { c with window := c.window.skip 1 })

/-- Skips `count` bytes, refilling as needed, and answers how many were skipped:
fewer only at the end of input. -/
def skip (r : Refill ρ) (count : Nat) (b : BufferedInput ρ) :
    Except Fault Nat × BufferedInput ρ :=
  go count 0 b
where
  /-- Skips `left` more bytes, having skipped `skipped` of them. -/
  go (left skipped : Nat) (b : BufferedInput ρ) : Except Fault Nat × BufferedInput ρ :=
    if left = 0 then (.ok skipped, b)
    else
      match b.fill r with
      | (.error e, c) => (.error e, c)
      | (.ok false, c) => (.ok skipped, c)
      | (.ok true, c) =>
        let step := min left c.window.remaining
        -- A filled window holds at least one byte.
        if step = 0 then (.ok skipped, c)
        else go (left - step) (skipped + step) { c with window := c.window.skip step }
  termination_by left
  decreasing_by omega

/-- Shows what is buffered, after a refill if that is nothing; no bytes at the end of
input. -/
def peek (r : Refill ρ) (b : BufferedInput ρ) : Except Fault Bytes × BufferedInput ρ :=
  match b.fill r with
  | (.error e, c) => (.error e, c)
  | (.ok _, c) => (.ok c.window.span, c)

def consume (count : UInt64) (b : BufferedInput ρ) : BufferedInput ρ :=
  { b with window := b.window.advance count }

@[simp] theorem refills_discard (b : BufferedInput ρ) : b.discard.refills = b.refills := rfl

@[simp] theorem capacity_discard (b : BufferedInput ρ) :
    b.discard.window.capacity = b.window.capacity := by
  simp [discard]

@[simp] theorem remaining_discard (b : BufferedInput ρ) : b.discard.window.remaining = 0 := by
  simp [discard, Window.remaining, Window.flip, Window.clear]

/-- What a finite refill can still bring, counted in windows, and what is buffered. -/
def supply {r : Refill ρ} (fin : r.Finite) (b : BufferedInput ρ) : Nat :=
  fin.supply b.refills * (b.window.capacity + 1) + b.window.remaining

theorem supply_fill {r : Refill ρ} (fin : r.Finite) {b c : BufferedInput ρ} {x : Bool}
    (h : b.fill r = (.ok x, c)) : supply fin c ≤ supply fin b := by
  unfold fill at h
  split at h
  · simp only [Prod.mk.injEq] at h
    obtain ⟨-, rfl⟩ := h
    exact Nat.le_refl _
  · have hcap := fin.capacity_eq b.window.clear b.refills
    rw [Window.capacity_clear] at hcap
    split at h
    · next count w s hr =>
      have hlt := fin.supply_lt _ _ _ (congrArg Prod.fst hr)
      rw [hr] at hcap hlt
      split at h
      · simp only [Prod.mk.injEq] at h
        obtain ⟨-, rfl⟩ := h
        have := w.remaining_le_capacity
        simp only [supply, hcap] at *
        have := Nat.mul_le_mul_right (b.window.capacity + 1) (Nat.succ_le_of_lt hlt)
        rw [Nat.succ_mul] at this
        omega
      · simp at h
    · next w s hr =>
      have hle := fin.supply_le _ _ (congrArg Prod.fst hr)
      rw [hr] at hcap hle
      simp only [Prod.mk.injEq] at h
      obtain ⟨-, rfl⟩ := h
      simp only [supply, refills_discard, capacity_discard, remaining_discard, hcap] at *
      have := Nat.mul_le_mul_right (b.window.capacity + 1) hle
      omega
    · simp at h

theorem supply_fill_interrupted {r : Refill ρ} (fin : r.Finite) {b c : BufferedInput ρ}
    {e : Fault} (h : b.fill r = (.error e, c)) (hk : e.kind = .interrupted) :
    supply fin c < supply fin b := by
  unfold fill at h
  split at h
  · simp at h
  · have hcap := fin.capacity_eq b.window.clear b.refills
    rw [Window.capacity_clear] at hcap
    split at h
    · split at h
      · simp at h
      · simp only [Prod.mk.injEq, Except.error.injEq] at h
        rw [← h.1] at hk
        exact absurd hk (by decide)
    · simp at h
    · next e' w s hr =>
      simp only [Prod.mk.injEq, Except.error.injEq] at h
      obtain ⟨rfl, rfl⟩ := h
      have hlt := fin.supply_interrupted _ _ _ (congrArg Prod.fst hr) hk
      rw [hr] at hcap hlt
      simp only [supply, refills_discard, capacity_discard, remaining_discard, hcap] at *
      have := Nat.mul_le_mul_right (b.window.capacity + 1) (Nat.succ_le_of_lt hlt)
      rw [Nat.succ_mul] at this
      omega

theorem length_read_le {r : Refill ρ} {n : Nat} {b c : BufferedInput ρ} {bs : Bytes}
    (h : b.read r n = (.ok bs, c)) : bs.length ≤ n := by
  unfold read at h
  split at h
  · simp only [Prod.mk.injEq, Except.ok.injEq] at h
    rw [← h.1]
    exact Nat.zero_le n
  · split at h
    · simp at h
    · simp only [Prod.mk.injEq, Except.ok.injEq] at h
      rw [← h.1]
      exact Nat.zero_le n
    · simp only [Prod.mk.injEq, Except.ok.injEq] at h
      rw [← h.1, Window.length_peek]
      omega

theorem supply_read {r : Refill ρ} (fin : r.Finite) {n : Nat} {b c : BufferedInput ρ} {bs : Bytes}
    (h : b.read r n = (.ok bs, c)) : supply fin c + bs.length ≤ supply fin b := by
  unfold read at h
  split at h
  · simp only [Prod.mk.injEq, Except.ok.injEq] at h
    obtain ⟨rfl, rfl⟩ := h
    simp
  · split at h
    · simp at h
    · next c' hf =>
      simp only [Prod.mk.injEq, Except.ok.injEq] at h
      obtain ⟨rfl, rfl⟩ := h
      simpa using supply_fill fin hf
    · next c' hf =>
      simp only [Prod.mk.injEq, Except.ok.injEq] at h
      obtain ⟨rfl, rfl⟩ := h
      have := supply_fill fin hf
      simp only [supply, Window.capacity_skip, Window.remaining_skip, Window.length_peek] at *
      omega

theorem supply_read_interrupted {r : Refill ρ} (fin : r.Finite) {n : Nat} {b c : BufferedInput ρ}
    {e : Fault} (h : b.read r n = (.error e, c)) (hk : e.kind = .interrupted) :
    supply fin c < supply fin b := by
  unfold read at h
  split at h
  · simp at h
  · split at h
    · next e' c' hf =>
      simp only [Prod.mk.injEq, Except.error.injEq] at h
      obtain ⟨rfl, rfl⟩ := h
      exact supply_fill_interrupted fin hf hk
    · simp at h
    · simp at h

def source {r : Refill ρ} (fin : r.Finite) : Source (BufferedInput ρ) where
  read := read r
  supply := supply fin
  length_le := length_read_le
  supply_read := supply_read fin
  supply_interrupted := supply_read_interrupted fin

end BufferedInput

end RemoteCall
