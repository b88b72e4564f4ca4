import RemoteCall.Stream.Input
import RemoteCall.Stream.Output

/-!
Scripts: sources and sinks whose behaviour is written down beforehand.

A script says what each call will meet: a chunk of bytes, an end that is only
momentary, a fault; a count of bytes taken, a refusal, a fault.  Every finite run of
a socket is one, so what holds over all scripts holds over all such runs.
-/

namespace RemoteCall
namespace Script

/-- What a reader meets next: a chunk, of which it may take a part (an empty one is
an end for this once), or a fault. -/
inductive Arrival where
  | chunk (bytes : Bytes)
  | fault (cause : Fault)
  deriving DecidableEq, Repr, Inhabited

/-- Takes at most `n` bytes of the first chunk and leaves its rest in front.  After
the last arrival the stream is at its end. -/
def read (n : Nat) : List Arrival → Except Fault Bytes × List Arrival
  | [] => (.ok [], [])
  | .fault e :: rest => (.error e, rest)
  | .chunk bs :: rest =>
    (.ok (bs.take n),
      match bs.drop n with
      | [] => rest
      | left => .chunk left :: rest)

def bytes : List Arrival → Bytes
  | [] => []
  | .fault _ :: rest => bytes rest
  | .chunk bs :: rest => bs ++ bytes rest

def supply : List Arrival → Nat
  | [] => 0
  | .fault _ :: rest => supply rest + 1
  | .chunk bs :: rest => supply rest + bs.length

theorem read_chunk (n : Nat) (bs : Bytes) (rest : List Arrival) :
    read n (.chunk bs :: rest) =
      (.ok (bs.take n), if bs.drop n = [] then rest else .chunk (bs.drop n) :: rest) := by
  rw [read]
  split
  · next h => rw [if_pos h]
  · next h => rw [if_neg h]

theorem supply_read {n : Nat} {s t : List Arrival} {bs : Bytes} (h : read n s = (.ok bs, t)) :
    supply t + bs.length ≤ supply s := by
  match s with
  | [] =>
    simp only [read, Prod.mk.injEq, Except.ok.injEq] at h
    obtain ⟨rfl, rfl⟩ := h
    simp
  | .fault e :: rest => simp [read] at h
  | .chunk cs :: rest =>
    simp only [read_chunk, Prod.mk.injEq, Except.ok.injEq] at h
    obtain ⟨rfl, rfl⟩ := h
    split <;> simp only [supply, List.length_take, List.length_drop] <;> omega

def source : Source (List Arrival) where
  read := read
  supply := supply
  length_le {n s bs t} h := by
    match s with
    | [] =>
      simp only [read, Prod.mk.injEq, Except.ok.injEq] at h
      simp [← h.1]
    | .fault e :: rest => simp [read] at h
    | .chunk cs :: rest =>
      simp only [read, Prod.mk.injEq, Except.ok.injEq] at h
      simp only [← h.1, List.length_take]
      omega
  supply_read := supply_read
  supply_interrupted {n s e t} h _ := by
    match s with
    | [] => simp [read] at h
    | .fault e :: rest =>
      simp only [read, Prod.mk.injEq] at h
      simp [← h.2, supply]
    | .chunk cs :: rest => simp [read] at h

/-- What a scripted sink will answer, and what it has seen so far.  Once its answers
are used up it takes everything, and its flushes succeed. -/
structure Uptake where
  answers : List (Except Fault Nat)
  flushAnswers : List (Except Fault Unit)
  taken : Bytes
  flushes : Nat
  deriving Inhabited

namespace Uptake

def empty : Uptake := ⟨[], [], [], 0⟩

/-- Answers a write: a count takes that many bytes, at most all of them. -/
def write (bs : Bytes) (u : Uptake) : Except Fault Nat × Uptake :=
  match u.answers with
  | [] => (.ok bs.length, { u with taken := u.taken ++ bs })
  | .error e :: rest => (.error e, { u with answers := rest })
  | .ok n :: rest =>
    (.ok (min n bs.length), { u with answers := rest, taken := u.taken ++ bs.take n })

def flush (u : Uptake) : Except Fault Unit × Uptake :=
  match u.flushAnswers with
  | [] => (.ok (), { u with flushes := u.flushes + 1 })
  | a :: rest => (a, { u with flushAnswers := rest, flushes := u.flushes + 1 })

end Uptake

def sink : Sink Uptake where
  write := Uptake.write
  flush := Uptake.flush
  patience u := u.answers.length
  patience_interrupted {bs u e t} h _ := by
    unfold Uptake.write at h
    split at h
    · simp at h
    · next hu =>
      simp only [Prod.mk.injEq] at h
      simp [← h.2, hu]
    · simp at h

/-- What one scripted refill does: it puts `data` into the window, turns the window
for reading if `turn` says so, and then fails or answers with a count, which is the
true one unless `claim` says otherwise. -/
structure RefillEntry where
  data : Bytes
  turn : Bool
  claim : Option Nat
  fault : Option Fault
  deriving Inhabited

/-- Scripted refills still to come, `none` for an end of input, and how many there
were. -/
structure Refills where
  entries : List (Option RefillEntry)
  calls : Nat
  deriving Inhabited

def RefillEntry.fill (e : RefillEntry) (w : Window) : Window :=
  if e.turn then (w.put e.data).flip else w.put e.data

def RefillEntry.answer (e : RefillEntry) (w : Window) : Except Fault (Option Nat) :=
  match e.fault with
  | some f => .error f
  | none => .ok (some (e.claim.getD (w.putCount e.data)))

def refill : Refill Refills := fun w s =>
  match s.entries with
  | [] => (.ok none, w, ⟨[], s.calls + 1⟩)
  | none :: rest => (.ok none, w, ⟨rest, s.calls + 1⟩)
  | some e :: rest => (e.answer w, e.fill w, ⟨rest, s.calls + 1⟩)

def refillFinite : refill.Finite where
  supply s := s.entries.length
  capacity_eq w s := by
    unfold refill
    split
    · rfl
    · rfl
    · simp only [RefillEntry.fill]
      split <;> simp
  supply_le w s _ := by
    unfold refill
    split <;> simp_all
  supply_lt w s n h := by
    unfold refill at h ⊢
    split at h <;> simp_all
  supply_interrupted w s e h _ := by
    unfold refill at h ⊢
    split at h <;> simp_all

/-- What scripted drains will do (how much they take, all by default, and whether they
fail), and what they were offered so far. -/
structure Drains where
  entries : List (Option Nat × Option Fault)
  offered : List (DrainMode × Bytes)
  deriving Inhabited

def drain : Drain Drains := fun mode bs s =>
  let offered := s.offered ++ [(mode, bs)]
  match s.entries with
  | [] => (.ok (), bs.length, ⟨[], offered⟩)
  | (take, fault) :: rest =>
    (match fault with
      | none => .ok ()
      | some e => .error e,
      min (take.getD bs.length) bs.length, ⟨rest, offered⟩)

def counted {σ : Type} (src : Source σ) : Source (σ × Nat) where
  read n s := ((src.read n s.1).1, (src.read n s.1).2, s.2 + 1)
  supply s := src.supply s.1
  length_le {n s bs t} h := by
    simp only [Prod.mk.injEq] at h
    exact src.length_le (s := s.1) (t := (src.read n s.1).2) (Prod.ext h.1 rfl)
  supply_read {n s bs t} h := by
    simp only [Prod.mk.injEq] at h
    obtain ⟨h, rfl⟩ := h
    exact src.supply_read (Prod.ext h rfl)
  supply_interrupted {n s e t} h hk := by
    simp only [Prod.mk.injEq] at h
    obtain ⟨h, rfl⟩ := h
    exact src.supply_interrupted (Prod.ext h rfl) hk

end Script
end RemoteCall
