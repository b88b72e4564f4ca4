import RemoteCall.Proofs.Stream.Indexed

/-!
Windows as bounded queues.

A window is written, turned, read and compacted, round after round.  While it is written, the
bytes in front of the cursor are unread and all behind it is free room; while it is read, the
bytes between the cursor and the limit are unread.  What was read and what is unread come to
what the window took in, in order (`Queues`).
-/

namespace RemoteCall
namespace Window

/-! ## Rounds -/

inductive Mode where
  | writing
  | reading
  deriving DecidableEq

/-- A round is a number of puts, a flip, a number of gets and a compaction. -/
def Mode.next? : Mode → Operation → Option Mode
  | .writing, .put _ | .writing, .putByte _ => some .writing
  | .writing, .flip => some .reading
  | .reading, .get _ | .reading, .getByte => some .reading
  | .reading, .compact => some .writing
  | _, _ => none

/-- Where operations leave off that make up rounds, the last of which may be unfinished. -/
def rounds? (ops : List Operation) : Option Mode := ops.foldlM Mode.next? .writing

def Operation.accepted : Operation → Answer → Bytes
  | .put bs, .counted n => bs.take n
  | .putByte b, .stored true => [b]
  | _, _ => []

def Operation.taken : Operation → Answer → Bytes
  | .get _, .filled n dst => dst.take n
  | .getByte, .found b => b.toList
  | _, _ => []

def accepted (log : List (Operation × Answer)) : Bytes := log.flatMap fun e => e.1.accepted e.2

def taken (log : List (Operation × Answer)) : Bytes := log.flatMap fun e => e.1.taken e.2

/-- How a queue with so much room answers that holds the bytes `unread`. -/
def Operation.reply (room : Nat) (unread : Bytes) : Operation → Answer
  | .put bs => .counted (min bs.length room)
  | .putByte _ => .stored (decide (0 < room))
  | .get dst =>
    .filled (min dst.length unread.length) (unread.take dst.length ++ dst.drop unread.length)
  | .getByte => .found unread.head?
  | _ => .done

def unread (w : Window) : Mode → Bytes
  | .writing => w.before
  | .reading => w.span

variable {w u : Window} {mode next : Mode} {op : Operation} {answer : Answer}
  {ops : List Operation} {log : List (Operation × Answer)}

theorem rounds?_concat : rounds? (ops ++ [op]) = (rounds? ops).bind (Mode.next? · op) := by
  rw [rounds?, List.foldlM_append, rounds?]
  simp

@[simp] theorem accepted_concat :
    accepted (log ++ [(op, answer)]) = accepted log ++ op.accepted answer := by
  simp [accepted]

@[simp] theorem taken_concat : taken (log ++ [(op, answer)]) = taken log ++ op.taken answer := by
  simp [taken]

/-! ## The queue law -/

/-- What was handed out and what is unread come to what was taken in.  All behind the cursor
of a window that is being written is free room. -/
structure Queues (w : Window) (mode : Mode) (log : List (Operation × Answer)) : Prop where
  conserved : taken log ++ w.unread mode = accepted log
  writable : mode = .writing → w.after = []

theorem accepted_put (w : Window) (bs : Bytes) :
    (Operation.put bs).accepted (.counted (w.putCount bs)) = bs.take w.span.length := by
  show bs.take (min bs.length w.remaining) = _
  rw [Nat.min_comm, remaining, ← List.take_eq_take_min]

theorem accepted_putByte (w : Window) (b : UInt8) :
    (Operation.putByte b).accepted (.stored (w.putCount [b] == 1)) = [b].take w.span.length := by
  rw [putCount, remaining]
  cases w.span with
  | nil => rfl
  | cons a rest =>
    have hroom : min [b].length (a :: rest).length = 1 := by simp
    have htake : [b].take (a :: rest).length = [b] := by simp
    rw [hroom, htake]
    rfl

theorem taken_get (w : Window) (dst : Bytes) :
    (Operation.get dst).taken ((Operation.get dst).apply w).1 = w.span.take dst.length :=
  List.take_left

theorem taken_getByte (w : Window) :
    Operation.getByte.taken (Operation.getByte.apply w).1 = w.span.take 1 := by
  show (w.peek 1).head?.toList = w.peek 1
  rw [peek]
  cases w.span <;> rfl

theorem unread_apply (w : Window) (h : mode.next? op = some next) :
    w.unread mode ++ op.accepted (op.apply w).1 =
      op.taken (op.apply w).1 ++ (op.apply w).2.unread next := by
  cases mode with
  | writing =>
    cases op with
    | put bs =>
      cases h
      exact congrArg (w.before ++ ·) (accepted_put w bs)
    | putByte b =>
      cases h
      exact congrArg (w.before ++ ·) (accepted_putByte w b)
    | flip =>
      cases h
      exact List.append_nil w.before
    | _ => cases h
  | reading =>
    cases op with
    | get dst =>
      cases h
      rw [taken_get]
      exact (List.append_nil w.span).trans (List.take_append_drop dst.length w.span).symm
    | getByte =>
      cases h
      rw [taken_getByte]
      exact (List.append_nil w.span).trans (List.take_append_drop 1 w.span).symm
    | compact =>
      cases h
      exact List.append_nil w.span
    | _ => cases h

theorem after_apply (hw : mode = .writing → w.after = []) (h : mode.next? op = some .writing) :
    (op.apply w).2.after = [] := by
  cases mode with
  | writing =>
    cases op with
    | put | putByte => exact hw rfl
    | _ => cases h
  | reading =>
    cases op with
    | compact => rfl
    | _ => cases h

theorem Queues.snoc (hw : Queues w mode log) (h : mode.next? op = some next)
    (happlies : Applies w (op, answer) u) : Queues u next (log ++ [(op, answer)]) := by
  obtain rfl : (op.apply w).1 = answer := congrArg Prod.fst happlies
  obtain rfl : (op.apply w).2 = u := congrArg Prod.snd happlies
  refine ⟨?_, ?_⟩
  · calc taken (log ++ [(op, (op.apply w).1)]) ++ (op.apply w).2.unread next
        = taken log ++ (op.taken (op.apply w).1 ++ (op.apply w).2.unread next) := by
          rw [taken_concat, List.append_assoc]
      _ = taken log ++ w.unread mode ++ op.accepted (op.apply w).1 := by
          rw [← unread_apply w h, List.append_assoc]
      _ = accepted (log ++ [(op, (op.apply w).1)]) := by rw [hw.conserved, accepted_concat]
  · rintro rfl
    exact after_apply hw.writable h

theorem queues_steps {n : Nat} (h : Steps Applies (new n) log w)
    (hmode : rounds? (log.map Prod.fst) = some mode) : Queues w mode log := by
  -- The operation before the last may have left off in another mode.
  induction h generalizing mode with
  | refl =>
    cases hmode
    exact ⟨rfl, fun _ => rfl⟩
  | @snoc log e w u _ happlies ih =>
    rw [List.map_append, List.map_singleton, rounds?_concat, Option.bind_eq_some_iff] at hmode
    obtain ⟨before, hbefore, hnext⟩ := hmode
    exact (ih hbefore).snoc hnext happlies

/-- There is room for as many bytes as the storage holds beyond those that are unread. -/
theorem Queues.remaining_eq (h : Queues w .writing log) :
    w.remaining = w.capacity - (w.unread .writing).length := by
  rw [capacity, h.writable rfl, unread, remaining, List.length_nil, Nat.add_zero,
    Nat.add_sub_cancel_left]

theorem Queues.reply_eq (h : Queues w mode log) (hop : mode.next? op ≠ none) :
    (op.apply w).1 = op.reply (w.capacity - (w.unread mode).length) (w.unread mode) := by
  cases mode with
  | writing =>
    rw [← h.remaining_eq]
    cases op with
    | put bs => rfl
    | putByte b =>
      show Answer.stored (min 1 w.remaining == 1) = .stored (decide (0 < w.remaining))
      congr 1
      rw [Bool.eq_iff_iff, beq_iff_eq, decide_eq_true_iff]
      omega
    | flip => rfl
    | _ => exact absurd rfl hop
  | reading =>
    cases op with
    | get dst =>
      show Answer.filled (w.span.take dst.length).length
        (w.span.take dst.length ++ dst.drop (w.span.take dst.length).length) = _
      rw [List.length_take, Nat.min_comm, ← List.drop_eq_drop_min, Nat.min_comm]
      rfl
    | getByte =>
      show Answer.found (w.span.take 1).head? = .found w.span.head?
      cases w.span <;> rfl
    | compact => rfl
    | _ => exact absurd rfl hop

end Window

namespace IndexedWindow

open Window

def unread (v : IndexedWindow) : Mode → Bytes
  | .writing => v.storage.take v.position
  | .reading => (v.storage.take v.limit).drop v.position

theorem unread_indexed (w : Window) (mode : Mode) : w.indexed.unread mode = w.unread mode := by
  have hbefore : w.storage.take w.position = w.before := by
    rw [Window.storage, List.append_assoc]
    exact List.take_left
  have hspan : (w.storage.take w.limit).drop w.position = w.span := by
    have hlimit : (w.before ++ w.span).length = w.limit := List.length_append
    rw [Window.storage, List.take_left' hlimit]
    exact List.drop_left
  cases mode with
  | writing => exact hbefore
  | reading => exact hspan

/-- Any operations are asked in any order of a new window that indexes its storage, where the
cursor is only advanced as far as the limit.  The cursor stays in front of the limit and the
limit within the storage, whose length never changes, and the next operation does not reach
outside either.  The window answers all along as the one in three pieces does, and it is that
window by index.

If the operations make up rounds, what was read and what is unread come to what the window
took in, in order, and the next operation of a round is answered as by a queue that holds what
is unread: a put is taken in as far as the storage holds more than that. -/
theorem stays_in_bounds_and_queues {capacity : UInt64} {log : List (Operation × Answer)}
    {v : IndexedWindow} (h : Steps Operates (new capacity.toNat) log v) :
    (v.position ≤ v.limit ∧ v.limit ≤ v.capacity ∧ v.capacity = capacity.toNat) ∧
    (∀ op : Operation, op.Allowed v → ∃ answer u, Operates v (op, answer) u) ∧
    (∃ w : Window, w.indexed = v ∧ Steps Applies (.new capacity.toNat) log w) ∧
    ∀ mode, rounds? (log.map Prod.fst) = some mode →
      taken log ++ v.unread mode = accepted log ∧
      ∀ {op : Operation} {answer : Answer} {u : IndexedWindow}, mode.next? op ≠ none →
        Operates v (op, answer) u →
          answer = op.reply (capacity.toNat - (v.unread mode).length) (v.unread mode) := by
  have hfits : capacity.toNat < 2 ^ 64 := capacity.toNat_lt
  obtain ⟨w, rfl, hcapacity, hsteps⟩ := exists_window hfits h
  have hw : w.capacity < 2 ^ 64 := lt_of_eq_of_lt hcapacity hfits
  refine ⟨⟨Nat.le_add_right _ _, ?_, ?_⟩, ?_, ⟨w, rfl, hsteps⟩, ?_⟩
  · rw [capacity_indexed]
    exact Nat.le_add_right _ _
  · rw [capacity_indexed, hcapacity]
  · intro op hop
    exact ⟨_, _, hop, Operation.run?_indexed hw hop⟩
  · intro mode hmode
    have hqueues : Queues w mode log := queues_steps hsteps hmode
    rw [unread_indexed]
    refine ⟨hqueues.conserved, ?_⟩
    intro op answer u hnext hop
    obtain ⟨w', -, happlies⟩ := hop.applies hw
    obtain rfl : (op.apply w).1 = answer := congrArg Prod.fst happlies
    rw [hqueues.reply_eq hnext, hcapacity]

theorem stays_in_bounds_and_queues_half_read :
    let log : List (Operation × Answer) :=
      [(.put [1, 2, 3], .counted 3), (.flip, .done), (.get [0, 0], .filled 2 [1, 2]),
        (.compact, .done)]
    let v : IndexedWindow := ⟨[3, 2, 3, 0], 1, 4⟩
    Steps Operates (new (4 : UInt64).toNat) log v ∧ rounds? (log.map Prod.fst) = some .writing ∧
      taken log ++ v.unread .writing = [1, 2, 3] ∧
      ∃ u, Operates v (.put [4, 5, 6, 7], .counted 3) u := by
  intro log v
  have hput : Operates (new (4 : UInt64).toNat) (.put [1, 2, 3], .counted 3)
      ⟨[1, 2, 3, 0], 3, 4⟩ := ⟨trivial, by decide +kernel⟩
  have hflip : Operates ⟨[1, 2, 3, 0], 3, 4⟩ (.flip, .done) ⟨[1, 2, 3, 0], 0, 3⟩ :=
    ⟨trivial, rfl⟩
  have hget : Operates ⟨[1, 2, 3, 0], 0, 3⟩ (.get [0, 0], .filled 2 [1, 2])
      ⟨[1, 2, 3, 0], 2, 3⟩ := ⟨trivial, by decide +kernel⟩
  have hcompact : Operates ⟨[1, 2, 3, 0], 2, 3⟩ (.compact, .done) v :=
    ⟨trivial, by decide +kernel⟩
  have h : Steps Operates (new (4 : UInt64).toNat) log v :=
    (((Steps.single hput).snoc hflip).snoc hget).snoc hcompact
  obtain ⟨-, hsucceeds, -, hrounds⟩ := stays_in_bounds_and_queues h
  obtain ⟨hconserved, haccepts⟩ := hrounds .writing rfl
  obtain ⟨answer, u, hlast⟩ := hsucceeds (.put [4, 5, 6, 7]) trivial
  have hputs : Mode.writing.next? (.put [4, 5, 6, 7]) ≠ none := by decide
  obtain rfl := haccepts hputs hlast
  exact ⟨h, rfl, hconserved, u, hlast⟩

end IndexedWindow
end RemoteCall
