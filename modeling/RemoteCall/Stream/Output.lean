import RemoteCall.Stream.Sink

/-!
Buffered output: bytes are collected and handed on in blocks.

A block is handed on when it is full, on a flush and on closing.  Whatever becomes of
it, the buffer is empty afterwards, so that a failure never sends the same bytes
twice of its own accord.
-/

namespace RemoteCall

inductive DrainMode where
  | write
  | flush
  | close
  deriving DecidableEq, Repr, Inhabited

/-- Takes bytes over from a buffer.  It answers how many of the bytes it was offered
it consumed, and whether that went well. -/
abbrev Drain (δ : Type) := DrainMode → Bytes → δ → Except Fault Unit × Nat × δ

/-- A drain whose blocks are interrupted only finitely often. -/
structure Drain.Finite {δ : Type} (d : Drain δ) where
  /-- Bounds the interruptions of full blocks. -/
  patience : δ → Nat
  patience_le : ∀ bs s, patience (d .write bs s).2.2 ≤ patience s
  patience_interrupted : ∀ bs s e, (d .write bs s).1 = .error e → e.kind = .interrupted →
    patience (d .write bs s).2.2 < patience s

/-- A buffer with room for at least one more byte, and the state of the drain behind
it. -/
structure BufferedOutput (δ : Type) where
  capacity : Nat
  pending : Bytes
  room : pending.length < capacity
  closed : Bool
  drains : δ

namespace BufferedOutput

variable {δ : Type}

def closedFault : Fault := ⟨.brokenPipe, "output stream is closed"⟩

def leftOver : Fault := ⟨.writeZero, "Output data could not be written."⟩

def new (capacity : Nat) (drains : δ) : Except Fault (BufferedOutput δ) :=
  if h : capacity = 0 then
    .error ⟨.invalidInput, "buffer capacity must be greater than zero"⟩
  else .ok ⟨capacity, [], by simpa using Nat.pos_of_ne_zero h, false, drains⟩

def buffered (o : BufferedOutput δ) : Nat := o.pending.length

def discard (o : BufferedOutput δ) : BufferedOutput δ :=
  { o with pending := [], room := Nat.lt_of_le_of_lt (Nat.zero_le _) o.room }

/-- Hands `block` to the drain; the buffer is empty afterwards. -/
def handOn (d : Drain δ) (mode : DrainMode) (block : Bytes) (o : BufferedOutput δ) :
    Except Fault Unit × BufferedOutput δ :=
  match d mode block o.drains with
  | (.error e, _, s) => (.error e, { o.discard with drains := s })
  | (.ok (), taken, s) =>
    (if taken < block.length then .error leftOver else .ok (), { o.discard with drains := s })

/-- Buffers `bs`, handing on every block that becomes full. -/
def push (d : Drain δ) (bs : Bytes) (o : BufferedOutput δ) :
    Except Fault Unit × BufferedOutput δ :=
  let free := o.capacity - o.pending.length
  if h : bs.length < free then
    (.ok (), { o with
      pending := o.pending ++ bs
      room := by
        have := o.room
        simp only [List.length_append]
        omega })
  else
    match o.handOn d .write (o.pending ++ bs.take free) with
    | (.error e, p) => (.error e, p)
    | (.ok (), p) => p.push d (bs.drop free)
termination_by bs.length
decreasing_by
  have := o.room
  simp only [List.length_drop]
  omega

/-- Writes all of `bs` and answers how many bytes that were. -/
def write (d : Drain δ) (bs : Bytes) (o : BufferedOutput δ) :
    Except Fault Nat × BufferedOutput δ :=
  if o.closed then (.error closedFault, o)
  else
    match o.push d bs with
    | (.error e, p) => (.error e, p)
    | (.ok (), p) => (.ok bs.length, p)

def writeByte (d : Drain δ) (b : UInt8) (o : BufferedOutput δ) :
    Except Fault Unit × BufferedOutput δ :=
  if o.closed then (.error closedFault, o) else o.push d [b]

def flush (d : Drain δ) (o : BufferedOutput δ) : Except Fault Unit × BufferedOutput δ :=
  if o.closed then (.error closedFault, o) else o.handOn d .flush o.pending

/-- Hands on what is buffered and takes no more.  Closing again does nothing. -/
def close (d : Drain δ) (o : BufferedOutput δ) : Except Fault Unit × BufferedOutput δ :=
  if o.closed then (.ok (), o)
  else { o with closed := true }.handOn d .close o.pending

theorem patience_handOn {d : Drain δ} (fin : d.Finite) (block : Bytes) (o : BufferedOutput δ) :
    fin.patience (o.handOn d .write block).2.drains ≤ fin.patience o.drains := by
  have h := fin.patience_le block o.drains
  unfold handOn
  split
  · next hd => rw [hd] at h; exact h
  · next hd => rw [hd] at h; exact h

theorem patience_push {d : Drain δ} (fin : d.Finite) {bs : Bytes} {o p : BufferedOutput δ}
    {e : Fault} (h : o.push d bs = (.error e, p)) (hk : e.kind = .interrupted) :
    fin.patience p.drains < fin.patience o.drains := by
  fun_induction push d bs o with
  | case1 bs o free hb => simp at h
  | case2 bs o free hb e' p' hh =>
    simp only [Prod.mk.injEq, Except.error.injEq] at h
    obtain ⟨rfl, rfl⟩ := h
    unfold handOn at hh
    split at hh
    · next e'' n s hd =>
      simp only [Prod.mk.injEq, Except.error.injEq] at hh
      obtain ⟨rfl, rfl⟩ := hh
      have := fin.patience_interrupted _ _ _ (congrArg Prod.fst hd) hk
      rw [hd] at this
      exact this
    · split at hh
      · simp only [Prod.mk.injEq, Except.error.injEq] at hh
        rw [← hh.1] at hk
        exact absurd hk (by decide)
      · simp at hh
  | case3 bs o free hb p' hh ih =>
    have h1 := patience_handOn fin (o.pending ++ bs.take free) o
    rw [hh] at h1
    exact Nat.lt_of_lt_of_le (ih h) h1

def sink {d : Drain δ} (fin : d.Finite) : Sink (BufferedOutput δ) where
  write := write d
  flush := flush d
  patience o := fin.patience o.drains
  patience_interrupted {bs o e p} h hk := by
    unfold write at h
    split at h
    · simp only [Prod.mk.injEq, Except.error.injEq] at h
      rw [← h.1] at hk
      exact absurd hk (by decide)
    · split at h
      · next hp =>
        simp only [Prod.mk.injEq, Except.error.injEq] at h
        obtain ⟨rfl, rfl⟩ := h
        exact patience_push fin hp hk
      · simp at h

end BufferedOutput

end RemoteCall
