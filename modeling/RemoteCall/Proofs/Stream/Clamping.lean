import RemoteCall.Proofs.Stream.Queue

/-!
How far a cursor moves.

Any number may be given to set the cursor or the limit of a window, or to advance the cursor.
What is set is clamped as it is.  What is advanced is added to the position in a machine word
first and clamped then.  The sum that fits a word stops at the limit, as it should; the sum that
does not fit comes out behind the cursor, where no clamp catches it, and bytes that were read
can be read once more.  A machine that checks its sums fails there instead.

So the cursor is clamped if and only if the sum fits (`Advanced`), and this is all that can go
wrong: whatever the numbers were, no operation fails on the window that is left, and the
window is the one in three pieces.
-/

namespace RemoteCall

namespace IndexedWindow

open Window

/-- The sum is taken in words, and wraps. -/
def advance (v : IndexedWindow) (count : UInt64) : IndexedWindow :=
  v.setPosition (UInt64.ofNat v.position + count).toNat

def go? (v : IndexedWindow) : Operation → Option (Answer × IndexedWindow)
  | .advance count => some (.done, v.advance count)
  | op => op.run? v

def Goes (v : IndexedWindow) (entry : Operation × Answer) (u : IndexedWindow) : Prop :=
  v.go? entry.1 = some (entry.2, u)

variable {log : List (Operation × Answer)} {u v : IndexedWindow} {w : Window}
  {entry : Operation × Answer} {count : UInt64}

theorem go?_indexed (hw : w.capacity < 2 ^ 64) (op : Operation) :
    w.indexed.go? op = some ((op.apply w).1, (op.apply w).2.indexed) := by
  cases op with
  | advance count =>
    rw [go?, advance, indexed_position, setPosition_indexed]
    rfl
  | _ =>
    unfold go?
    refine Operation.run?_indexed hw ?_
    trivial

theorem Goes.applies (hw : w.capacity < 2 ^ 64) (h : Goes w.indexed entry u) :
    ∃ w', w'.indexed = u ∧ Applies w entry w' :=
  applies_of_apply_eq ((go?_indexed hw entry.1).symm.trans h)

/-! ## Advancing -/

/-- What `v` is once its cursor was advanced by `count`, and what depends on whether the sum of
position and count fits a word. -/
structure Advanced (v : IndexedWindow) (count : Nat) (u : IndexedWindow) : Prop where
  storage_eq : u.storage = v.storage
  limit_eq : u.limit = v.limit
  clamped_iff : u.position = min (v.position + count) v.limit ↔ v.position + count < 2 ^ 64
  forward_iff : v.position ≤ u.position ↔ v.position + count < 2 ^ 64
  checked_iff : v.advance? count = some u ↔ v.position + count < 2 ^ 64
  /-- What is unread is what was, less as many bytes from its front. -/
  unread_of_fits : v.position + count < 2 ^ 64 →
    u.unread .reading = (v.unread .reading).drop count
  /-- The cursor goes back, and what it goes back over is unread again. -/
  back_of_wraps : 2 ^ 64 ≤ v.position + count →
    u.position + 2 ^ 64 = v.position + count ∧
    u.unread .reading = (v.storage.take v.position).drop u.position ++ v.unread .reading

theorem unread_setPosition (hlimit : v.limit ≤ v.capacity) (p : Nat) :
    (v.setPosition p).unread .reading = (v.storage.take v.limit).drop p := by
  have hline : (v.storage.take v.limit).length = v.limit := by
    rw [List.length_take]
    exact Nat.min_eq_left hlimit
  calc (v.storage.take v.limit).drop (min p v.limit)
      = (v.storage.take v.limit).drop (min p (v.storage.take v.limit).length) := by rw [hline]
    _ = (v.storage.take v.limit).drop p := List.drop_eq_drop_min.symm

theorem toNat_position_add (hposition : v.position < 2 ^ 64) :
    (UInt64.ofNat v.position + count).toNat = (v.position + count.toNat) % 2 ^ 64 := by
  rw [UInt64.toNat_add, UInt64.toNat_ofNat', Nat.mod_eq_of_lt hposition]

theorem advance_of_fits (hfits : v.position + count.toNat < 2 ^ 64) :
    v.advance count = v.setPosition (v.position + count.toNat) := by
  rw [advance, toNat_position_add (by omega), Nat.mod_eq_of_lt hfits]

theorem advance_of_wraps {p : Nat} (hposition : v.position < 2 ^ 64)
    (hwraps : v.position + count.toNat = p + 2 ^ 64) : v.advance count = v.setPosition p := by
  have hcount : count.toNat < 2 ^ 64 := count.toNat_lt
  rw [advance, toNat_position_add hposition, hwraps, Nat.add_mod_right,
    Nat.mod_eq_of_lt (by omega)]

theorem Advanced.of_fits (hposition : v.position ≤ v.limit) (hlimit : v.limit ≤ v.capacity)
    (hfits : v.position + count.toNat < 2 ^ 64) : Advanced v count.toNat (v.advance count) := by
  have hforward : v.position ≤ min (v.position + count.toNat) v.limit := by omega
  have hchecked : v.advance? count.toNat = some (v.setPosition (v.position + count.toNat)) := by
    rw [advance?, sum?_of_lt hfits]
    rfl
  rw [advance_of_fits hfits]
  refine ⟨rfl, rfl, iff_of_true rfl hfits, iff_of_true hforward hfits,
    iff_of_true hchecked hfits, fun _ => ?_, fun h => absurd hfits (Nat.not_lt.mpr h)⟩
  rw [unread_setPosition hlimit, ← List.drop_drop]
  rfl

theorem Advanced.of_wraps (hposition : v.position ≤ v.limit) (hlimit : v.limit ≤ v.capacity)
    (hcapacity : v.capacity < 2 ^ 64) (hwraps : 2 ^ 64 ≤ v.position + count.toNat) :
    Advanced v count.toNat (v.advance count) := by
  have hnot : ¬ v.position + count.toNat < 2 ^ 64 := Nat.not_lt.mpr hwraps
  obtain ⟨p, hp⟩ : ∃ p, v.position + count.toNat = p + 2 ^ 64 :=
    ⟨_, (Nat.sub_add_cancel hwraps).symm⟩
  -- The count is less than a whole turn, so the cursor ends up behind where it was.
  have hback : p < v.position := by
    have hcount : count.toNat < 2 ^ 64 := count.toNat_lt
    omega
  have hmoved : (v.setPosition p).position = p := Nat.min_eq_left (by omega)
  have hclamped : (v.setPosition p).position ≠ min (v.position + count.toNat) v.limit := by
    rw [hmoved]
    omega
  have hforward : ¬ v.position ≤ (v.setPosition p).position := by
    rw [hmoved]
    omega
  have hchecked : v.advance? count.toNat ≠ some (v.setPosition p) := by
    rw [advance?, sum?, if_neg hnot]
    exact (Option.some_ne_none _).symm
  have hagain : (v.setPosition p).unread .reading =
      (v.storage.take v.position).drop p ++ v.unread .reading := by
    have htaken : (v.storage.take v.limit).take v.position = v.storage.take v.position := by
      rw [List.take_take, Nat.min_eq_left hposition]
    have hplace : p ≤ (v.storage.take v.position).length := by
      have hstorage : v.position ≤ v.storage.length := Nat.le_trans hposition hlimit
      rw [List.length_take]
      omega
    rw [unread_setPosition hlimit, ← List.take_append_drop v.position (v.storage.take v.limit),
      htaken, List.drop_append_of_le_length hplace]
    rfl
  rw [advance_of_wraps (by omega) hp]
  refine ⟨rfl, rfl, iff_of_false hclamped hnot, iff_of_false hforward hnot,
    iff_of_false hchecked hnot, fun h => absurd h hnot, fun _ => ⟨?_, ?_⟩⟩
  · rw [hmoved, hp]
  · rw [hmoved, hagain]

theorem advance_indexed (w : Window) (count : UInt64) :
    (w.advance count).indexed = w.indexed.advance count :=
  (setPosition_indexed w _).symm

/-! ## Any numbers in any order -/

/-- Any operations are asked in any order of a new window, with any numbers to move its cursor
and its limit.  None of them fails, and none will.  The cursor is where it should be once it
was advanced, at position and count or at the limit, if and only if the sum of position and
count fits a word; only then is it not moved back, is no byte unread that was read before, and
would a machine that checks its sums not have failed.  Otherwise it is moved back by what is
missing to a whole turn of the word, and the bytes it is moved over are unread again.  What
was set is clamped for every number: the cursor to the limit, the limit to the capacity and
the cursor with it.  The window is the one in three pieces that was asked the same, and to
consume from an input is to advance the cursor of its window. -/
theorem clamped_iff_sum_fits {capacity : UInt64}
    (h : Steps Goes (new capacity.toNat) log v) :
    (∀ op : Operation, ∃ answer u, Goes v (op, answer) u) ∧
    (∀ count : UInt64, Goes v (.advance count, .done) (v.advance count) ∧
      Advanced v count.toNat (v.advance count)) ∧
    ∃ w : Window, w.indexed = v ∧ Steps Applies (.new capacity.toNat) log w ∧
      (∀ p : UInt64,
        (w.seek p.toNat).storage = v.storage ∧ (w.seek p.toNat).limit = v.limit ∧
        (w.seek p.toNat).position = min p.toNat v.limit) ∧
      (∀ l : UInt64,
        (w.setLimit l.toNat).storage = v.storage ∧
        (w.setLimit l.toNat).limit = min l.toNat capacity.toNat ∧
        (w.setLimit l.toNat).position = min v.position (min l.toNat capacity.toNat)) ∧
      ∀ count : UInt64, (w.advance count).indexed = v.advance count ∧
        ∀ {ρ : Type} (refills : ρ),
          BufferedInput.consume count ⟨w, refills⟩ = ⟨w.advance count, refills⟩ := by
  have hfits : capacity.toNat < 2 ^ 64 := capacity.toNat_lt
  obtain ⟨w, rfl, hcapacity, hsteps⟩ := exists_window_of_steps Goes.applies hfits h
  have hw : w.capacity < 2 ^ 64 := lt_of_eq_of_lt hcapacity hfits
  have hposition : w.indexed.position ≤ w.indexed.limit := Nat.le_add_right _ _
  have hlimit : w.indexed.limit ≤ w.indexed.capacity := by
    rw [capacity_indexed]
    exact Nat.le_add_right _ _
  refine ⟨fun op => ⟨_, _, go?_indexed hw op⟩, fun count => ⟨rfl, ?_⟩, w, rfl, hsteps, ?_, ?_,
    fun count => ⟨advance_indexed w count, fun _ => rfl⟩⟩
  · rcases Nat.lt_or_ge (w.indexed.position + count.toNat) (2 ^ 64) with hsum | hsum
    · exact .of_fits hposition hlimit hsum
    · refine .of_wraps hposition hlimit ?_ hsum
      rw [capacity_indexed]
      exact hw
  · intro p
    have hseek : (w.seek p.toNat).indexed = w.indexed.setPosition p.toNat :=
      (setPosition_indexed w _).symm
    exact ⟨congrArg storage hseek, congrArg limit hseek, congrArg position hseek⟩
  · intro l
    have hset : (w.setLimit l.toNat).indexed = w.indexed.setLimit l.toNat :=
      (setLimit_indexed w _).symm
    rw [← hcapacity, ← capacity_indexed]
    exact ⟨congrArg storage hset, congrArg limit hset, congrArg position hset⟩

/-- Five bytes were put into eight, and three of them were read. -/
def threeRead : IndexedWindow := ⟨[1, 2, 3, 4, 5, 0, 0, 0], 3, 5⟩

def threeReadLog : List (Operation × Answer) :=
  [(.put [1, 2, 3, 4, 5], .counted 5), (.flip, .done), (.get [0, 0, 0], .filled 3 [1, 2, 3])]

theorem steps_threeRead : Steps Goes (new (8 : UInt64).toNat) threeReadLog threeRead := by
  have hput : Goes (new (8 : UInt64).toNat) (.put [1, 2, 3, 4, 5], .counted 5)
      ⟨[1, 2, 3, 4, 5, 0, 0, 0], 5, 8⟩ := by unfold Goes; decide +kernel
  have hflip : Goes ⟨[1, 2, 3, 4, 5, 0, 0, 0], 5, 8⟩ (.flip, .done)
      ⟨[1, 2, 3, 4, 5, 0, 0, 0], 0, 5⟩ := rfl
  have hget : Goes ⟨[1, 2, 3, 4, 5, 0, 0, 0], 0, 5⟩ (.get [0, 0, 0], .filled 3 [1, 2, 3])
      threeRead := by unfold Goes; decide +kernel
  exact ((Steps.single hput).snoc hflip).snoc hget

/-- The last count whose sum fits a word, and the first whose sum does not. -/
theorem clamped_iff_sum_fits_threeRead :
    Steps Goes (new (8 : UInt64).toNat) threeReadLog threeRead ∧
      (threeRead.advance 0xFFFFFFFFFFFFFFFC).position = 5 ∧
      (threeRead.advance 0xFFFFFFFFFFFFFFFD).position = 0 := by
  obtain ⟨-, hadvance, -⟩ := clamped_iff_sum_fits steps_threeRead
  have hfits := (hadvance 0xFFFFFFFFFFFFFFFC).2.clamped_iff.mpr (by decide)
  have hwraps := ((hadvance 0xFFFFFFFFFFFFFFFD).2.back_of_wraps (by decide)).1
  refine ⟨steps_threeRead, hfits, ?_⟩
  have hsum : threeRead.position + (0xFFFFFFFFFFFFFFFD : UInt64).toNat = 0 + 2 ^ 64 := by decide
  exact Nat.add_right_cancel (hwraps.trans hsum)

/-- The cursor of a window is advanced by the largest word there is.  It does not stop at the
limit but goes back by one, and the last byte that was read can be read again. -/
theorem advance_goes_back :
    Steps Goes (new (8 : UInt64).toNat) threeReadLog threeRead ∧
      (threeRead.unread .reading = [4, 5] ∧
        (threeRead.advance 0xFFFFFFFFFFFFFFFF).unread .reading = [3, 4, 5]) ∧
      (threeRead.advance 0xFFFFFFFFFFFFFFFF).position = 2 ∧
      (threeRead.advance 0xFFFFFFFFFFFFFFFF).position ≠
        min (threeRead.position + (0xFFFFFFFFFFFFFFFF : UInt64).toNat) threeRead.limit :=
  ⟨steps_threeRead, by decide, by decide, by decide⟩

end IndexedWindow
end RemoteCall
