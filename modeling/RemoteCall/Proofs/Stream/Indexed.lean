import RemoteCall.Proofs.Steps
import RemoteCall.Proofs.Stream.Refilling

/-!
Windows that index their storage.

A machine holds a window as its storage and two numbers, and reaches into the storage by
index.  Nothing in such a window keeps the cursor in front of the limit or the limit within
the storage.  Here every access is checked: an operation is `none` where an index lies outside
the storage, where a slice ends before it starts, where bytes are copied over more or fewer
bytes, and where a sum does not fit a word.

`Window.indexed` is the indexed form of a window that is cut in three pieces.  Each operation
on the indexed form succeeds and is the operation on the pieces (`Operation.run?_indexed`), as
long as the storage is no longer than a word can count and the cursor is only advanced as far
as the limit.
-/

namespace RemoteCall

structure IndexedWindow where
  storage : Bytes
  position : Nat
  limit : Nat
  deriving DecidableEq, Repr

namespace IndexedWindow

/-! ## Checked access -/

/-- A sum that has to fit a word. -/
def sum? (i j : Nat) : Option Nat := if i + j < 2 ^ 64 then some (i + j) else none

def difference? (i j : Nat) : Option Nat := if j ≤ i then some (i - j) else none

/-- The bytes from one index up to another. -/
def slice? (bs : Bytes) (i j : Nat) : Option Bytes :=
  if i ≤ j ∧ j ≤ bs.length then some ((bs.take j).drop i) else none

/-- Replaces the bytes from one index up to another by as many others. -/
def overwrite? (bs : Bytes) (i j : Nat) (src : Bytes) : Option Bytes :=
  if i ≤ j ∧ j ≤ bs.length ∧ src.length = j - i then some (bs.take i ++ src ++ bs.drop j)
  else none

def store? (bs : Bytes) (i : Nat) (b : UInt8) : Option Bytes :=
  if i < bs.length then some (bs.set i b) else none

/-- Copies bytes to another place in the same storage, which may overlap the first. -/
def move? (bs : Bytes) (i j k : Nat) : Option Bytes := do
  let src ← slice? bs i j
  overwrite? bs k (k + src.length) src

variable {front bs rest src : Bytes} {i j : Nat}

theorem sum?_of_lt (h : i + j < 2 ^ 64) : sum? i j = some (i + j) := if_pos h

theorem difference?_of_le (h : j ≤ i) : difference? i j = some (i - j) := if_pos h

theorem slice?_append (hi : i = front.length) (hj : j = front.length + bs.length) :
    slice? (front ++ bs ++ rest) i j = some bs := by
  subst hi hj
  have hbounds : front.length ≤ front.length + bs.length ∧
      front.length + bs.length ≤ (front ++ bs ++ rest).length := by
    rw [List.length_append, List.length_append]
    omega
  rw [slice?, if_pos hbounds, List.take_left' (List.length_append), List.drop_left]

theorem overwrite?_append (hi : i = front.length) (hj : j = front.length + bs.length)
    (hsrc : src.length = bs.length) :
    overwrite? (front ++ bs ++ rest) i j src = some (front ++ src ++ rest) := by
  subst hi hj
  have hbounds : front.length ≤ front.length + bs.length ∧
      front.length + bs.length ≤ (front ++ bs ++ rest).length ∧
      src.length = front.length + bs.length - front.length := by
    rw [List.length_append, List.length_append]
    omega
  rw [overwrite?, if_pos hbounds, List.drop_left' (List.length_append), List.append_assoc front bs,
    List.take_left]

theorem store?_append {a b : UInt8} (hi : i = front.length) :
    store? (front ++ a :: rest) i b = some (front ++ b :: rest) := by
  subst hi
  rw [store?, if_pos (by simp), List.set_append_right _ _ (Nat.le_refl _), Nat.sub_self,
    List.set_cons_zero]

/-- What is moved to the front may overlap the place it comes from. -/
theorem move?_append (hi : i = front.length) (hj : j = front.length + bs.length) :
    move? (front ++ bs ++ rest) i j 0 = some (bs ++ (front ++ bs ++ rest).drop bs.length) := by
  have hbounds : 0 ≤ bs.length ∧ bs.length ≤ (front ++ bs ++ rest).length ∧
      bs.length = bs.length - 0 := by
    rw [List.length_append, List.length_append]
    omega
  rw [move?, slice?_append hi hj]
  show overwrite? _ 0 (0 + bs.length) bs = _
  rw [Nat.zero_add, overwrite?, if_pos hbounds, List.take_zero, List.nil_append]

/-! ## Operations -/

variable (v : IndexedWindow)

def new (capacity : Nat) : IndexedWindow := ⟨List.replicate capacity 0, 0, capacity⟩

def capacity : Nat := v.storage.length

def remaining? : Option Nat := difference? v.limit v.position

def chunk? : Option Bytes := slice? v.storage v.position v.limit

def setPosition (p : Nat) : IndexedWindow := { v with position := min p v.limit }

def setLimit (l : Nat) : IndexedWindow :=
  let limit := min l v.capacity
  { v with limit, position := min v.position limit }

def clear : IndexedWindow := { v with position := 0, limit := v.capacity }

def flip : IndexedWindow := { v with position := 0, limit := v.position }

/-- The storage with the bytes between the cursor and the limit at its front. -/
def gather? : Option Bytes :=
  if 0 < v.position then move? v.storage v.position v.limit 0 else some v.storage

def compact? : Option IndexedWindow := do
  let remaining ← v.remaining?
  let storage ← v.gather?
  return { storage, position := remaining, limit := storage.length }

def advance? (count : Nat) : Option IndexedWindow := do
  let position ← sum? v.position count
  return { v with position := min position v.limit }

/-- Writes as much of `bs` as fits, and counts it. -/
def put? (bs : Bytes) : Option (Nat × IndexedWindow) := do
  let count := min bs.length (← v.remaining?)
  let stop ← sum? v.position count
  let storage ← overwrite? v.storage v.position stop (← slice? bs 0 count)
  return (count, { v with storage, position := stop })

/-- Reads over as much of `dst` as there is, and counts it. -/
def get? (dst : Bytes) : Option ((Nat × Bytes) × IndexedWindow) := do
  let count := min dst.length (← v.remaining?)
  let stop ← sum? v.position count
  let dst ← overwrite? dst 0 count (← slice? v.storage v.position stop)
  return ((count, dst), { v with position := stop })

def putByte? (b : UInt8) : Option (Bool × IndexedWindow) :=
  if v.position < v.limit then do
    let storage ← store? v.storage v.position b
    let position ← sum? v.position 1
    return (true, { v with storage, position })
  else some (false, v)

def getByte? : Option (Option UInt8 × IndexedWindow) :=
  if v.position < v.limit then do
    let b ← v.storage[v.position]?
    let position ← sum? v.position 1
    return (some b, { v with position })
  else some (none, v)

def write? (content : Bytes) : Option IndexedWindow := do
  let chunk ← v.chunk?
  let storage ← overwrite? v.storage v.position v.limit
    (content.take chunk.length ++ chunk.drop content.length)
  return { v with storage }

end IndexedWindow

namespace Window

/-- Writes over the bytes between the cursor and the limit, and leaves the cursor. -/
def write (w : Window) (content : Bytes) : Window :=
  { w with span := content.take w.span.length ++ w.span.drop content.length }

def indexed (w : Window) : IndexedWindow := ⟨w.storage, w.position, w.limit⟩

open IndexedWindow

variable {w : Window}

theorem length_span_write (w : Window) (content : Bytes) :
    (w.write content).span.length = w.span.length := by
  rw [write, List.length_append, List.length_take, List.length_drop]
  omega

@[simp] theorem capacity_write (w : Window) (content : Bytes) :
    (w.write content).capacity = w.capacity := by
  rw [capacity, length_span_write, capacity]
  rfl

@[simp] theorem capacity_advance (w : Window) (count : UInt64) :
    (w.advance count).capacity = w.capacity := capacity_seek w _

@[simp] theorem indexed_storage (w : Window) : w.indexed.storage = w.storage := rfl

@[simp] theorem indexed_position (w : Window) : w.indexed.position = w.position := rfl

@[simp] theorem indexed_limit (w : Window) : w.indexed.limit = w.limit := rfl

theorem new_indexed (n : Nat) : (Window.new n).indexed = IndexedWindow.new n := by
  simp [indexed, Window.new, IndexedWindow.new, storage, position, limit]

theorem capacity_indexed (w : Window) : w.indexed.capacity = w.capacity := length_storage w

theorem remaining?_indexed (w : Window) : w.indexed.remaining? = some w.remaining := by
  have hlimit : w.limit - w.position = w.remaining := Nat.add_sub_cancel_left _ _
  rw [← hlimit]
  exact difference?_of_le (Nat.le_add_right _ _)

theorem chunk?_indexed (w : Window) : w.indexed.chunk? = some w.span :=
  slice?_append rfl rfl

theorem setPosition_indexed (w : Window) (p : Nat) :
    w.indexed.setPosition p = (w.seek p).indexed := by
  have hstorage : (w.seek p).storage = w.storage := by simp [seek, storage]
  have hposition : (w.seek p).position = min p w.limit := by simp [seek, position, limit]
  have hlimit : (w.seek p).limit = w.limit := by
    rw [limit, ← List.length_append, seek, List.take_append_drop, List.length_append, limit]
  show _ = IndexedWindow.mk (w.seek p).storage (w.seek p).position (w.seek p).limit
  rw [hstorage, hposition, hlimit]
  rfl

theorem setLimit_indexed (w : Window) (l : Nat) :
    w.indexed.setLimit l = (w.setLimit l).indexed := by
  have hstorage : (w.setLimit l).storage = w.storage := by
    rw [storage, setLimit, List.take_append_drop, List.take_append_drop]
  have hlimit : (w.setLimit l).limit = min l w.capacity := by
    rw [limit, ← List.length_append, setLimit, List.take_append_drop, List.length_take,
      length_storage]
  have hposition : (w.setLimit l).position = min w.position (min l w.capacity) := by
    rw [position, setLimit, List.length_take, List.length_take, length_storage]
  show _ = IndexedWindow.mk (w.setLimit l).storage (w.setLimit l).position (w.setLimit l).limit
  rw [hstorage, hlimit, hposition, ← capacity_indexed]
  rfl

theorem clear_indexed (w : Window) : w.indexed.clear = w.clear.indexed := by
  simp [IndexedWindow.clear, indexed, clear, storage, position, limit, IndexedWindow.capacity]

theorem flip_indexed (w : Window) : w.indexed.flip = w.flip.indexed := by
  simp [IndexedWindow.flip, indexed, flip, storage, position, limit]

theorem gather?_indexed (w : Window) : w.indexed.gather? = some w.compact.storage := by
  have hcompact : w.compact.storage = w.span ++ w.storage.drop w.span.length := List.append_nil _
  rw [gather?, indexed_position, hcompact]
  by_cases hposition : 0 < w.position
  · rw [if_pos hposition]
    exact move?_append rfl rfl
  · -- With nothing in front of the cursor the bytes are where they should be.
    have hbefore : w.before = [] :=
      List.eq_nil_of_length_eq_zero (Nat.eq_zero_of_not_pos hposition)
    rw [if_neg hposition, indexed_storage, storage, hbefore, List.nil_append, List.drop_left]

theorem compact?_indexed (w : Window) : w.indexed.compact? = some w.compact.indexed := by
  have hlimit : w.compact.storage.length = w.compact.limit := by simp [compact, limit, storage]
  simp only [compact?, remaining?_indexed, gather?_indexed, hlimit, Option.bind_eq_bind,
    Option.bind_some, Option.pure_def]
  rfl

theorem sum?_position (hw : w.capacity < 2 ^ 64) {n : Nat} (hn : n ≤ w.remaining) :
    sum? w.position n = some (w.skip n).position := by
  have hskip : (w.skip n).position = w.position + n := by
    rw [position, skip, List.length_append, List.length_take, ← remaining, Nat.min_eq_left hn]
    rfl
  rw [hskip]
  apply sum?_of_lt
  simp only [capacity, position, remaining] at *
  omega

theorem advance?_indexed {count : UInt64} (hw : w.capacity < 2 ^ 64)
    (hcount : count.toNat ≤ w.remaining) :
    w.indexed.advance? count.toNat = some (w.advance count).indexed := by
  have hlimit : (w.skip count.toNat).position ≤ w.limit :=
    Nat.le_trans (Nat.le_add_right _ _) (Nat.le_of_eq (limit_skip w _))
  rw [advance?, indexed_position, sum?_position hw hcount, advance_eq_skip hcount hw]
  show some (IndexedWindow.mk w.storage (min _ w.limit) w.limit) = _
  rw [Nat.min_eq_left hlimit, indexed, storage_skip, limit_skip]

theorem storage_cut (w : Window) (n : Nat) :
    w.storage = w.before ++ w.span.take n ++ (w.span.drop n ++ w.after) := by
  rw [List.append_assoc, ← List.append_assoc (w.span.take n), List.take_append_drop,
    ← List.append_assoc, storage]

theorem skip_min (w : Window) (n : Nat) : w.skip (min n w.remaining) = w.skip n := by
  rw [skip, skip, remaining, ← List.take_eq_take_min, ← List.drop_eq_drop_min]

theorem slice?_take (bs : Bytes) (n : Nat) : slice? bs 0 (min bs.length n) = some (bs.take n) := by
  have h : slice? ([] ++ bs.take n ++ bs.drop n) 0 (0 + (bs.take n).length) = some (bs.take n) :=
    slice?_append rfl rfl
  rwa [List.nil_append, List.take_append_drop, List.length_take, Nat.zero_add, Nat.min_comm] at h

@[simp] theorem limit_put (w : Window) (bs : Bytes) : (w.put bs).limit = w.limit := by
  simp only [put, limit, List.length_append, List.length_take, List.length_drop]
  omega

theorem position_put (w : Window) (bs : Bytes) :
    (w.put bs).position = (w.skip bs.length).position := by
  rw [position, put, position, skip, List.length_append, List.length_append, List.length_take,
    List.length_take, Nat.min_comm]

theorem put?_indexed (hw : w.capacity < 2 ^ 64) (bs : Bytes) :
    w.indexed.put? bs = some (w.putCount bs, (w.put bs).indexed) := by
  have hcount : (bs.take w.remaining).length = (w.span.take bs.length).length := by
    rw [List.length_take, List.length_take, Nat.min_comm, remaining]
  have hstop : (w.skip bs.length).position = w.before.length + (w.span.take bs.length).length :=
    List.length_append
  have hover : overwrite? w.storage w.position (w.skip bs.length).position (bs.take w.remaining) =
      some (w.put bs).storage := by
    rw [storage_cut w bs.length, storage, put, List.append_assoc _ _ w.after]
    exact overwrite?_append rfl hstop hcount
  simp only [put?, remaining?_indexed, indexed_position, indexed_storage, indexed_limit,
    Option.bind_eq_bind, Option.bind_some, Option.pure_def,
    sum?_position hw (Nat.min_le_right bs.length w.remaining), skip_min, slice?_take, hover]
  rw [putCount, indexed, limit_put, position_put]

theorem get?_indexed (hw : w.capacity < 2 ^ 64) (dst : Bytes) :
    w.indexed.get? dst =
      some (((w.peek dst.length).length, w.peek dst.length ++ dst.drop (w.peek dst.length).length),
        (w.skip dst.length).indexed) := by
  have hcount : min dst.length w.remaining = (w.peek dst.length).length := List.length_take.symm
  have hstop : (w.skip dst.length).position = w.before.length + (w.peek dst.length).length :=
    List.length_append
  have hslice : slice? w.storage w.position (w.skip dst.length).position =
      some (w.peek dst.length) := by
    rw [storage_cut w dst.length]
    exact slice?_append rfl hstop
  have hover : overwrite? dst 0 (w.peek dst.length).length (w.peek dst.length) =
      some (w.peek dst.length ++ dst.drop (w.peek dst.length).length) := by
    have hle : (w.peek dst.length).length ≤ dst.length := hcount ▸ Nat.min_le_left _ _
    rw [overwrite?, if_pos ⟨Nat.zero_le _, hle, rfl⟩]
    rfl
  simp only [get?, remaining?_indexed, indexed_position, indexed_storage, indexed_limit,
    Option.bind_eq_bind, Option.bind_some, Option.pure_def,
    sum?_position hw (Nat.min_le_right dst.length w.remaining), skip_min, hslice]
  rw [hcount, hover, Option.bind_some, indexed, storage_skip, limit_skip]

theorem put_of_full (h : w.span = []) (bs : Bytes) : w.put bs = w := by
  obtain ⟨before, span, after⟩ := w
  obtain rfl : span = [] := h
  simp [put]

theorem skip_of_full (h : w.span = []) (n : Nat) : w.skip n = w := by
  obtain ⟨before, span, after⟩ := w
  obtain rfl : span = [] := h
  simp [skip]

theorem position_lt_limit_iff : w.position < w.limit ↔ w.span ≠ [] := by
  rw [position, limit, Nat.lt_add_right_iff_pos, List.length_pos_iff]

theorem putByte?_indexed (hw : w.capacity < 2 ^ 64) (b : UInt8) :
    w.indexed.putByte? b = some (w.putCount [b] == 1, (w.put [b]).indexed) := by
  rcases hspan : w.span with _ | ⟨a, rest⟩
  · have hfull : ¬ w.position < w.limit := by simp [position_lt_limit_iff, hspan]
    rw [put_of_full hspan, putCount, remaining, hspan]
    exact if_neg hfull
  · have hroom : w.position < w.limit := by simp [position_lt_limit_iff, hspan]
    have hremaining : 1 ≤ w.remaining := by simp [remaining, hspan]
    have hput : (w.put [b]).storage = w.before ++ b :: (rest ++ w.after) := by
      simp [put, storage, hspan]
    have hstore : store? w.storage w.position b = some (w.put [b]).storage := by
      rw [hput, storage, hspan, List.append_assoc]
      exact store?_append rfl
    have hcount : (w.putCount [b] == 1) = true := by simp [putCount, hremaining]
    simp only [putByte?, indexed_position, indexed_limit, indexed_storage, if_pos hroom, hstore,
      sum?_position hw hremaining, Option.bind_eq_bind, Option.bind_some, Option.pure_def]
    rw [hcount, indexed, limit_put, position_put, List.length_singleton]

theorem getByte?_indexed (hw : w.capacity < 2 ^ 64) :
    w.indexed.getByte? = some ((w.peek 1).head?, (w.skip 1).indexed) := by
  rcases hspan : w.span with _ | ⟨a, rest⟩
  · have hempty : ¬ w.position < w.limit := by simp [position_lt_limit_iff, hspan]
    rw [skip_of_full hspan, peek, hspan]
    exact if_neg hempty
  · have hsome : w.position < w.limit := by simp [position_lt_limit_iff, hspan]
    have hremaining : 1 ≤ w.remaining := by simp [remaining, hspan]
    have hbyte : w.storage[w.position]? = some a := by simp [storage, position, hspan]
    have hpeek : (w.peek 1).head? = some a := by simp [peek, hspan]
    simp only [getByte?, indexed_position, indexed_limit, indexed_storage, if_pos hsome, hbyte,
      sum?_position hw hremaining, Option.bind_eq_bind, Option.bind_some, Option.pure_def]
    rw [hpeek, indexed, storage_skip, limit_skip]

theorem write?_indexed (w : Window) (content : Bytes) :
    w.indexed.write? content = some (w.write content).indexed := by
  have hover : overwrite? w.storage w.position w.limit
      (content.take w.span.length ++ w.span.drop content.length) = some (w.write content).storage :=
    overwrite?_append rfl rfl (length_span_write w content)
  have hlimit : (w.write content).limit = w.limit :=
    congrArg (w.before.length + ·) (length_span_write w content)
  simp only [write?, chunk?_indexed, indexed_position, indexed_storage, indexed_limit, hover,
    Option.bind_eq_bind, Option.bind_some, Option.pure_def]
  rw [← hlimit]
  rfl

/-! ## Sequences of operations -/

/-- What is asked of a window. -/
inductive Operation where
  | put (bs : Bytes)
  | get (dst : Bytes)
  | putByte (b : UInt8)
  | getByte
  | setPosition (p : UInt64)
  | setLimit (l : UInt64)
  | advance (count : UInt64)
  | clear
  | flip
  | compact
  | write (content : Bytes)
  deriving DecidableEq, Repr

inductive Answer where
  | done
  | counted (n : Nat)
  | filled (n : Nat) (dst : Bytes)
  | stored (fits : Bool)
  | found (b : Option UInt8)
  deriving DecidableEq, Repr

namespace Operation

def apply : Operation → Window → Answer × Window
  | .put bs, w => (.counted (w.putCount bs), w.put bs)
  | .get dst, w =>
    let bs := w.peek dst.length
    (.filled bs.length (bs ++ dst.drop bs.length), w.skip dst.length)
  | .putByte b, w => (.stored (w.putCount [b] == 1), w.put [b])
  | .getByte, w => (.found (w.peek 1).head?, w.skip 1)
  | .setPosition p, w => (.done, w.seek p.toNat)
  | .setLimit l, w => (.done, w.setLimit l.toNat)
  | .advance count, w => (.done, w.advance count)
  | .clear, w => (.done, w.clear)
  | .flip, w => (.done, w.flip)
  | .compact, w => (.done, w.compact)
  | .write content, w => (.done, w.write content)

/-- The same by index. -/
def run? : Operation → IndexedWindow → Option (Answer × IndexedWindow)
  | .put bs, v => (v.put? bs).map fun r => (.counted r.1, r.2)
  | .get dst, v => (v.get? dst).map fun r => (.filled r.1.1 r.1.2, r.2)
  | .putByte b, v => (v.putByte? b).map fun r => (.stored r.1, r.2)
  | .getByte, v => v.getByte?.map fun r => (.found r.1, r.2)
  | .setPosition p, v => some (.done, v.setPosition p.toNat)
  | .setLimit l, v => some (.done, v.setLimit l.toNat)
  | .advance count, v => (v.advance? count.toNat).map fun v => (.done, v)
  | .clear, v => some (.done, v.clear)
  | .flip, v => some (.done, v.flip)
  | .compact, v => v.compact?.map fun v => (.done, v)
  | .write content, v => (v.write? content).map fun v => (.done, v)

/-- The cursor is not advanced further than the limit. -/
def Allowed (v : IndexedWindow) : Operation → Prop
  | .advance count => v.position + count.toNat ≤ v.limit
  | _ => True

theorem run?_indexed (hw : w.capacity < 2 ^ 64) {op : Operation} (hop : op.Allowed w.indexed) :
    op.run? w.indexed = some ((op.apply w).1, (op.apply w).2.indexed) := by
  cases op with
  | put bs => rw [run?, put?_indexed hw]; rfl
  | get dst => rw [run?, get?_indexed hw]; rfl
  | putByte b => rw [run?, putByte?_indexed hw]; rfl
  | getByte => rw [run?, getByte?_indexed hw]; rfl
  | setPosition p => rw [run?, setPosition_indexed]; rfl
  | setLimit l => rw [run?, setLimit_indexed]; rfl
  | advance count =>
    have hcount : count.toNat ≤ w.remaining := Nat.le_of_add_le_add_left hop
    rw [run?, advance?_indexed hw hcount]
    rfl
  | clear => rw [run?, clear_indexed]; rfl
  | flip => rw [run?, flip_indexed]; rfl
  | compact => rw [run?, compact?_indexed]; rfl
  | write content => rw [run?, write?_indexed]; rfl

theorem capacity_apply (op : Operation) (w : Window) : (op.apply w).2.capacity = w.capacity := by
  cases op <;> simp [apply]

end Operation

/-- One operation on the pieces, and how it answers. -/
def Applies (w : Window) (entry : Operation × Answer) (u : Window) : Prop :=
  entry.1.apply w = (entry.2, u)

end Window

namespace IndexedWindow

open Window

/-- One operation by index that is allowed and succeeds, and how it answers. -/
structure Operates (v : IndexedWindow) (entry : Operation × Answer) (u : IndexedWindow) :
    Prop where
  allowed : entry.1.Allowed v
  run_eq : entry.1.run? v = some (entry.2, u)

variable {n : Nat} {log : List (Operation × Answer)} {u v : IndexedWindow} {w : Window}
  {op : Operation} {answer : Answer}

theorem applies_of_apply_eq
    (h : some ((op.apply w).1, (op.apply w).2.indexed) = some (answer, u)) :
    ∃ w', w'.indexed = u ∧ Applies w (op, answer) w' := by
  obtain ⟨hanswer, hu⟩ := Prod.mk.inj (Option.some.inj h)
  exact ⟨(op.apply w).2, hu, Prod.ext hanswer rfl⟩

theorem Operates.applies (hw : w.capacity < 2 ^ 64) (h : Operates w.indexed (op, answer) u) :
    ∃ w', w'.indexed = u ∧ Applies w (op, answer) w' :=
  applies_of_apply_eq ((Operation.run?_indexed hw h.allowed).symm.trans h.run_eq)

theorem exists_window_of_steps {step : IndexedWindow → Operation × Answer → IndexedWindow → Prop}
    (hstep : ∀ {w : Window} {entry : Operation × Answer} {u : IndexedWindow},
      w.capacity < 2 ^ 64 → step w.indexed entry u → ∃ w', w'.indexed = u ∧ Applies w entry w')
    (hn : n < 2 ^ 64) (h : Steps step (new n) log v) :
    ∃ w : Window, w.indexed = v ∧ w.capacity = n ∧ Steps Applies (Window.new n) log w := by
  -- The capacity has to be known at each step, for the sums to fit a word in the next.
  induction h with
  | refl => exact ⟨Window.new n, new_indexed n, capacity_new n, .refl⟩
  | snoc _ hop ih =>
    obtain ⟨w, rfl, hcapacity, hsteps⟩ := ih
    obtain ⟨w', hw', happlies⟩ := hstep (lt_of_eq_of_lt hcapacity hn) hop
    refine ⟨w', hw', ?_, hsteps.snoc happlies⟩
    rw [← hcapacity, ← Operation.capacity_apply _ w, happlies]

theorem exists_window (hn : n < 2 ^ 64) (h : Steps Operates (new n) log v) :
    ∃ w : Window, w.indexed = v ∧ w.capacity = n ∧ Steps Applies (Window.new n) log w :=
  exists_window_of_steps Operates.applies hn h

end IndexedWindow
end RemoteCall
