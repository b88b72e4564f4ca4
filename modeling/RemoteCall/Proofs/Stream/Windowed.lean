import RemoteCall.Stream.Output
import RemoteCall.Stream.Window

/-!
Buffered outputs over their windows.

A windowed output puts bytes into a window and hands the window on once it is full.
Nothing in its type keeps room in the window: a byte that is put into a full one would be
dropped, and a loop that puts nothing would not end.  `WindowedOutput.Shows` says which
buffered output a window stands for.  It holds of a new window and is kept by every
operation, so the window is ready to be written and has room whenever an operation begins
(`Shows.room`), and the loop of a write takes no more rounds than there are bytes
(`fill_agree`).
-/

namespace RemoteCall

/-- A window that is being written, and the state of the drain behind it. -/
structure WindowedOutput (δ : Type) where
  window : Window
  closed : Bool
  drains : δ

namespace WindowedOutput

variable {δ : Type}

def new (capacity : Nat) (drains : δ) : WindowedOutput δ := ⟨Window.new capacity, false, drains⟩

/-- Turns the window for the drain, which moves its cursor over what it consumes.  The
window is cleared afterwards, whatever became of it. -/
def handOn (d : Drain δ) (mode : DrainMode) (w : WindowedOutput δ) :
    Except Fault Unit × WindowedOutput δ :=
  match d mode w.window.flip.span w.drains with
  | (.error e, taken, s) =>
    (.error e, { w with window := (w.window.flip.skip taken).clear, drains := s })
  | (.ok (), taken, s) =>
    (if 0 < (w.window.flip.skip taken).remaining then .error BufferedOutput.leftOver else .ok (),
      { w with window := (w.window.flip.skip taken).clear, drains := s })

/-- Puts what there is room for, and hands the window on if none is left. -/
def place (d : Drain δ) (bs : Bytes) (w : WindowedOutput δ) :
    Except Fault Unit × WindowedOutput δ :=
  if (w.window.put bs).remaining = 0 then { w with window := w.window.put bs }.handOn d .write
  else (.ok (), { w with window := w.window.put bs })

/-- Places all of the bytes, in at most so many rounds; `none` if they are not enough. -/
def fill (d : Drain δ) : Nat → Bytes → WindowedOutput δ →
    Option (Except Fault Unit) × WindowedOutput δ
  | _, [], w => (some (.ok ()), w)
  | 0, _ :: _, w => (none, w)
  | rounds + 1, b :: bs, w =>
    match w.place d (b :: bs) with
    | (.error e, u) => (some (.error e), u)
    | (.ok (), u) => u.fill d rounds ((b :: bs).drop (w.window.putCount (b :: bs)))

def write (d : Drain δ) (rounds : Nat) (bs : Bytes) (w : WindowedOutput δ) :
    Option (Except Fault Nat) × WindowedOutput δ :=
  if w.closed then (some (.error BufferedOutput.closedFault), w)
  else
    match w.fill d rounds bs with
    | (none, u) => (none, u)
    | (some (.error e), u) => (some (.error e), u)
    | (some (.ok ()), u) => (some (.ok bs.length), u)

def writeByte (d : Drain δ) (b : UInt8) (w : WindowedOutput δ) :
    Except Fault Unit × WindowedOutput δ :=
  if w.closed then (.error BufferedOutput.closedFault, w) else w.place d [b]

def flush (d : Drain δ) (w : WindowedOutput δ) : Except Fault Unit × WindowedOutput δ :=
  if w.closed then (.error BufferedOutput.closedFault, w) else w.handOn d .flush

def close (d : Drain δ) (w : WindowedOutput δ) : Except Fault Unit × WindowedOutput δ :=
  if w.closed then (.ok (), w) else { w with closed := true }.handOn d .close

def discard (w : WindowedOutput δ) : WindowedOutput δ := { w with window := w.window.clear }

/-- A window that is being written, and holds what is buffered. -/
structure Shows (w : WindowedOutput δ) (o : BufferedOutput δ) : Prop where
  before : w.window.before = o.pending
  writable : w.window.after = []
  capacity : w.window.capacity = o.capacity
  closed : w.closed = o.closed
  drains : w.drains = o.drains

variable {d : Drain δ} {w : WindowedOutput δ} {o : BufferedOutput δ}

theorem Shows.remaining (h : w.Shows o) :
    w.window.remaining = o.capacity - o.pending.length := by
  have hcap := h.capacity
  rw [Window.capacity, h.writable, h.before] at hcap
  simp only [List.length_nil] at hcap
  rw [Window.remaining]
  omega

theorem Shows.room (h : w.Shows o) : 0 < w.window.remaining := by
  have := o.room
  rw [h.remaining]
  omega

/-- The same answer, and a window that shows the output. -/
structure Agree {α : Type} (r : α × WindowedOutput δ) (r' : α × BufferedOutput δ) : Prop where
  answer : r.1 = r'.1
  shows : r.2.Shows r'.2

theorem handOn_agree (d : Drain δ) (mode : DrainMode) {block : Bytes}
    (hblock : w.window.before = block) (hcapacity : w.window.capacity = o.capacity)
    (hclosed : w.closed = o.closed) (hdrains : w.drains = o.drains) :
    Agree (w.handOn d mode) (o.handOn d mode block) := by
  have hspan : w.window.flip.span = block := hblock
  rw [handOn, BufferedOutput.handOn, hspan, hdrains]
  match d mode block o.drains with
  | (.error e, taken, s) =>
    refine ⟨rfl, rfl, rfl, ?_, hclosed, rfl⟩
    simp [BufferedOutput.discard, hcapacity]
  | (.ok (), taken, s) =>
    have hleft : (w.window.flip.skip taken).remaining = block.length - taken := by
      rw [Window.remaining_skip, Window.remaining, hspan]
    refine ⟨?_, rfl, rfl, ?_, hclosed, rfl⟩
    · simp only [hleft, Nat.sub_pos_iff_lt]
    · simp [BufferedOutput.discard, hcapacity]

theorem place_of_lt (d : Drain δ) (h : w.Shows o) {bs : Bytes}
    (hbs : bs.length < w.window.remaining) :
    w.place d bs = (.ok (), { w with window := w.window.put bs }) ∧
      (w.window.put bs).before = o.pending ++ bs := by
  have hleft : (w.window.put bs).remaining ≠ 0 := by
    simp only [Window.put, Window.remaining, List.length_drop] at hbs ⊢
    omega
  refine ⟨if_neg hleft, ?_⟩
  rw [Window.before_put (Nat.le_of_lt hbs), h.before]

theorem place_of_le (d : Drain δ) (h : w.Shows o) {bs : Bytes}
    (hbs : w.window.remaining ≤ bs.length) :
    Agree (w.place d bs) (o.handOn d .write (o.pending ++ bs.take w.window.remaining)) := by
  have hfull : (w.window.put bs).remaining = 0 := by
    simp only [Window.put, Window.remaining, List.length_drop] at hbs ⊢
    omega
  rw [place, if_pos hfull]
  refine handOn_agree d .write ?_ ((Window.capacity_put _ _).trans h.capacity) h.closed h.drains
  show w.window.before ++ bs.take w.window.span.length = _
  rw [h.before, Window.remaining]

theorem fill_nil (d : Drain δ) (rounds : Nat) (w : WindowedOutput δ) :
    w.fill d rounds [] = (some (.ok ()), w) := by
  cases rounds <;> rfl

theorem fill_of_error {bs : Bytes} (hbs : 0 < bs.length) (rounds : Nat) {e : Fault}
    (h : (w.place d bs).1 = .error e) :
    w.fill d (rounds + 1) bs = (some (.error e), (w.place d bs).2) := by
  obtain ⟨b, bs, rfl⟩ := List.exists_cons_of_length_pos hbs
  rw [fill]
  generalize w.place d (b :: bs) = r at h ⊢
  obtain ⟨answer, u⟩ := r
  obtain rfl : answer = .error e := h
  rfl

theorem fill_of_ok {bs : Bytes} (hbs : 0 < bs.length) (rounds : Nat)
    (h : (w.place d bs).1 = .ok ()) :
    w.fill d (rounds + 1) bs =
      (w.place d bs).2.fill d rounds (bs.drop (w.window.putCount bs)) := by
  obtain ⟨b, bs, rfl⟩ := List.exists_cons_of_length_pos hbs
  rw [fill]
  generalize w.place d (b :: bs) = r at h ⊢
  obtain ⟨answer, u⟩ := r
  obtain rfl : answer = .ok () := h
  rfl

/-- Every round places at least one byte, so as many rounds as there are bytes are enough. -/
theorem fill_agree (h : w.Shows o) {rounds : Nat} {bs : Bytes} (hbs : bs.length ≤ rounds) :
    Agree (w.fill d rounds bs) (some (o.push d bs).1, (o.push d bs).2) := by
  fun_induction BufferedOutput.push d bs o generalizing w rounds with
  | case1 bs o free =>
    rename_i hlt
    rw [show free = w.window.remaining from h.remaining.symm] at hlt
    obtain ⟨hplace, hbefore⟩ := place_of_lt d h hlt
    rcases Nat.eq_zero_or_pos bs.length with hnone | hsome
    · obtain rfl := List.length_eq_zero_iff.mp hnone
      rw [fill_nil]
      exact ⟨rfl, h.before.trans (List.append_nil _).symm, h.writable, h.capacity, h.closed,
        h.drains⟩
    · obtain ⟨rounds, rfl⟩ := Nat.exists_eq_add_of_le' (Nat.lt_of_lt_of_le hsome hbs)
      have hall : w.window.putCount bs = bs.length := Nat.min_eq_left (Nat.le_of_lt hlt)
      rw [fill_of_ok hsome rounds (congrArg Prod.fst hplace), hplace, hall, List.drop_length,
        fill_nil]
      exact ⟨rfl, hbefore, h.writable, (Window.capacity_put _ _).trans h.capacity, h.closed,
        h.drains⟩
  | case2 bs o free hge e p =>
    rename_i hh
    rw [show free = w.window.remaining from h.remaining.symm] at hge hh
    have hsome : 0 < bs.length := Nat.lt_of_lt_of_le h.room (Nat.le_of_not_lt hge)
    obtain ⟨rounds, rfl⟩ := Nat.exists_eq_add_of_le' (Nat.lt_of_lt_of_le hsome hbs)
    have hplace := place_of_le d h (Nat.le_of_not_lt hge)
    rw [hh] at hplace
    rw [fill_of_error hsome rounds hplace.answer]
    exact ⟨rfl, hplace.shows⟩
  | case3 bs o free hge p hh =>
    rename_i ih
    rw [show free = w.window.remaining from h.remaining.symm] at hge hh ih ⊢
    have hsome : 0 < bs.length := Nat.lt_of_lt_of_le h.room (Nat.le_of_not_lt hge)
    obtain ⟨rounds, rfl⟩ := Nat.exists_eq_add_of_le' (Nat.lt_of_lt_of_le hsome hbs)
    have hplace := place_of_le d h (Nat.le_of_not_lt hge)
    rw [hh] at hplace
    have hcount : w.window.putCount bs = w.window.remaining :=
      Nat.min_eq_right (Nat.le_of_not_lt hge)
    have hless : (bs.drop w.window.remaining).length ≤ rounds := by
      have hroom := h.room
      rw [List.length_drop]
      omega
    rw [fill_of_ok hsome rounds hplace.answer, hcount]
    exact ih hplace.shows hless

theorem new_shows {n : Nat} {s : δ} {o : BufferedOutput δ}
    (h : BufferedOutput.new n s = .ok o) : (new n s).Shows o := by
  rw [BufferedOutput.new] at h
  split at h
  · cases h
  · cases h
    exact ⟨rfl, rfl, Window.capacity_new n, rfl, rfl⟩

theorem write_agree (d : Drain δ) (h : w.Shows o) {rounds : Nat} {bs : Bytes}
    (hbs : bs.length ≤ rounds) :
    Agree (w.write d rounds bs) (some (o.write d bs).1, (o.write d bs).2) := by
  rw [write, BufferedOutput.write, h.closed]
  split
  · exact ⟨rfl, h⟩
  · have hfill : Agree (w.fill d rounds bs) _ := fill_agree (d := d) h hbs
    generalize w.fill d rounds bs = r at hfill ⊢
    generalize o.push d bs = r' at hfill ⊢
    obtain ⟨answer, u⟩ := r
    obtain ⟨rfl, hu⟩ := hfill
    rcases r' with ⟨e | ⟨⟩, p⟩ <;> exact ⟨rfl, hu⟩

theorem push_singleton (d : Drain δ) (b : UInt8) (h : w.Shows o) :
    Agree (w.place d [b]) (o.push d [b]) := by
  have hone : Agree (w.fill d 1 [b]) _ := fill_agree (d := d) h (Nat.le_refl 1)
  have hcount : ([b] : Bytes).drop (w.window.putCount [b]) = [] := by
    have hroom := h.room
    rw [Window.putCount, List.drop_eq_nil_iff]
    simp only [List.length_singleton]
    omega
  rw [fill, hcount] at hone
  generalize w.place d [b] = r at hone ⊢
  match r with
  | (.error e, u) => exact ⟨Option.some.inj hone.answer, hone.shows⟩
  | (.ok (), u) => exact ⟨Option.some.inj hone.answer, hone.shows⟩

theorem writeByte_agree (d : Drain δ) (b : UInt8) (h : w.Shows o) :
    Agree (w.writeByte d b) (o.writeByte d b) := by
  rw [writeByte, BufferedOutput.writeByte, h.closed]
  split
  · exact ⟨rfl, h⟩
  · exact push_singleton d b h

theorem flush_agree (d : Drain δ) (h : w.Shows o) : Agree (w.flush d) (o.flush d) := by
  rw [flush, BufferedOutput.flush, h.closed]
  split
  · exact ⟨rfl, h⟩
  · exact handOn_agree d .flush h.before h.capacity h.closed h.drains

theorem close_agree (d : Drain δ) (h : w.Shows o) : Agree (w.close d) (o.close d) := by
  rw [close, BufferedOutput.close, h.closed]
  split
  · exact ⟨rfl, h⟩
  · exact handOn_agree d .close h.before h.capacity rfl h.drains

theorem discard_shows (h : w.Shows o) : w.discard.Shows o.discard where
  before := rfl
  writable := rfl
  capacity := (Window.capacity_clear _).trans h.capacity
  closed := h.closed
  drains := h.drains

end WindowedOutput
end RemoteCall
