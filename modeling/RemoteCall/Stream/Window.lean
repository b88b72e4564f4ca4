import RemoteCall.Bytes

/-!
Windows: a fixed stretch of storage with a cursor and a limit.

The storage is cut into three pieces.  `before` lies in front of the cursor, `span`
between the cursor and the limit, `after` behind the limit.  While a window is being
written, `before` holds what was written and `span` is the free room; while it is
being read, `span` holds what is still unread.  Cut this way, the cursor cannot pass
the limit nor the limit the end, and no operation can reach outside the storage.
-/

namespace RemoteCall

structure Window where
  before : Bytes
  span : Bytes
  after : Bytes
  deriving DecidableEq, Repr, Inhabited

namespace Window

def new (capacity : Nat) : Window := ⟨[], List.replicate capacity 0, []⟩

def storage (w : Window) : Bytes := w.before ++ w.span ++ w.after

def capacity (w : Window) : Nat := w.before.length + w.span.length + w.after.length

def position (w : Window) : Nat := w.before.length

def limit (w : Window) : Nat := w.before.length + w.span.length

def remaining (w : Window) : Nat := w.span.length

/-- Moves the cursor to `p`, or to the limit if `p` lies behind it. -/
def seek (w : Window) (p : Nat) : Window :=
  ⟨(w.before ++ w.span).take p, (w.before ++ w.span).drop p, w.after⟩

/-- Moves the limit to `l`, or to the end of the storage if `l` lies behind it, and
pulls the cursor back to the limit if it would end up behind it. -/
def setLimit (w : Window) (l : Nat) : Window :=
  ⟨(w.storage.take l).take w.position, (w.storage.take l).drop w.position, w.storage.drop l⟩

/-- Moves the cursor forward by a machine word.  The sum is taken in words, and the
cursor stops at the limit. -/
def advance (w : Window) (count : UInt64) : Window :=
  w.seek (UInt64.ofNat w.position + count).toNat

/-- Forgets the contents: all of the storage is free room again. -/
def clear (w : Window) : Window := ⟨[], w.storage, []⟩

/-- Turns from writing to reading: what was written is now unread. -/
def flip (w : Window) : Window := ⟨[], w.before, w.span ++ w.after⟩

/-- Turns from reading to writing: unread bytes move to the front, and the rest of
the storage is free room behind them. -/
def compact (w : Window) : Window := ⟨w.span, w.storage.drop w.span.length, []⟩

/-- Writes as much of `bs` as there is room for. -/
def put (w : Window) (bs : Bytes) : Window :=
  ⟨w.before ++ bs.take w.span.length, w.span.drop bs.length, w.after⟩

def putCount (w : Window) (bs : Bytes) : Nat := min bs.length w.remaining

/-- The next `n` bytes between the cursor and the limit, or all if there are fewer. -/
def peek (w : Window) (n : Nat) : Bytes := w.span.take n

/-- Moves the cursor over the next `n` bytes, or to the limit if there are fewer. -/
def skip (w : Window) (n : Nat) : Window :=
  ⟨w.before ++ w.span.take n, w.span.drop n, w.after⟩

/-- Overwrites every byte between the cursor and the limit. -/
def fill (w : Window) (b : UInt8) : Window :=
  { w with span := List.replicate w.span.length b }

def describe (w : Window) : String :=
  "CursorBuffer \x7b position: " ++ toString w.position ++ ", limit: " ++ toString w.limit
    ++ ", capacity: " ++ toString w.capacity ++ " \x7d"

@[simp] theorem capacity_new (n : Nat) : (new n).capacity = n := by simp [new, capacity]

@[simp] theorem capacity_flip (w : Window) : w.flip.capacity = w.capacity := by
  simp [flip, capacity]; omega

@[simp] theorem capacity_clear (w : Window) : w.clear.capacity = w.capacity := by
  simp [clear, capacity, storage]; omega

@[simp] theorem capacity_compact (w : Window) : w.compact.capacity = w.capacity := by
  simp [compact, capacity, storage]; omega

@[simp] theorem capacity_put (w : Window) (bs : Bytes) : (w.put bs).capacity = w.capacity := by
  simp [put, capacity]; omega

@[simp] theorem capacity_skip (w : Window) (n : Nat) : (w.skip n).capacity = w.capacity := by
  simp [skip, capacity]; omega

@[simp] theorem capacity_seek (w : Window) (p : Nat) : (w.seek p).capacity = w.capacity := by
  simp [seek, capacity]; omega

@[simp] theorem capacity_setLimit (w : Window) (l : Nat) :
    (w.setLimit l).capacity = w.capacity := by
  simp [setLimit, capacity, storage, position]; omega

@[simp] theorem remaining_skip (w : Window) (n : Nat) :
    (w.skip n).remaining = w.remaining - n := by
  simp [skip, remaining]

@[simp] theorem length_peek (w : Window) (n : Nat) : (w.peek n).length = min n w.remaining := by
  simp [peek, remaining]

theorem skip_zero (w : Window) : w.skip 0 = w := by simp [skip]

@[simp] theorem storage_skip (w : Window) (n : Nat) : (w.skip n).storage = w.storage := by
  rw [storage, skip, List.append_assoc w.before, List.take_append_drop, storage]

@[simp] theorem limit_skip (w : Window) (n : Nat) : (w.skip n).limit = w.limit := by
  simp [skip, limit]; omega

theorem length_storage (w : Window) : w.storage.length = w.capacity := by
  rw [storage, List.length_append, List.length_append, capacity]

theorem remaining_le_capacity (w : Window) : w.remaining ≤ w.capacity := by
  simp only [remaining, capacity]; omega

theorem remaining_clear (w : Window) : w.clear.remaining = w.capacity := length_storage w

theorem put_nil (w : Window) : w.put [] = w := by simp [put]

theorem before_put {w : Window} {bs : Bytes} (h : bs.length ≤ w.remaining) :
    (w.put bs).before = w.before ++ bs :=
  congrArg (w.before ++ ·) (List.take_of_length_le h)

/-- What is put into a cleared window is what can be read once it is turned. -/
theorem span_refilled {w : Window} {bs : Bytes} (h : bs.length ≤ w.capacity) :
    (w.clear.put bs).flip.span = bs := by
  show [] ++ bs.take w.storage.length = bs
  rw [List.nil_append, length_storage, List.take_of_length_le h]

/-- Turned for reading and back at once, a window is as it was. -/
theorem compact_flip {w : Window} (h : w.after = []) : w.flip.compact = w := by
  obtain ⟨before, span, after⟩ := w
  obtain rfl : after = [] := h
  simp [flip, compact, storage]

end Window

end RemoteCall
