import RemoteCall.Proofs.Record.Loops
import RemoteCall.Record.LengthRecords
import RemoteCall.Stream.Script

/-!
A read comes to its end.

A read goes round when the engine consumed a record that carried no plaintext, and when the
engine asked for more and the socket had some.  Neither the buffered bytes nor those that
the socket still holds get fewer every time, since the socket fills the buffer; but the
buffered ones and twice those of the socket together do (`Pump.workload`).  All that this
takes of the engine is that it tells the truth about what it moves, and moves something
when it says that all is well (`Engine.Progresses`).

Where the plaintext of a read comes from is told by an engine that keeps a log of its calls
with what each of them put into its destination (`Engine.recorded`).
-/

namespace RemoteCall

theorem Window.put_put (w : Window) (bs more : Bytes) :
    (w.put bs).put more = w.put (bs ++ more) := by
  simp [put, List.take_append]

theorem Window.remaining_put (w : Window) (bs : Bytes) :
    (w.put bs).remaining = w.remaining - bs.length := by
  simp [put, remaining]

theorem Script.bytes_readSome {n : Nat} {s t : List Arrival} {bs : Bytes}
    (h : source.readSome n s = (.ok bs, t)) : bytes s = bs ++ bytes t := by
  fun_induction Source.readSome source n s with
  | case1 s bs' t' hr =>
    obtain ⟨hbs, rfl⟩ := Prod.mk.inj h
    obtain rfl := Except.ok.inj hbs
    rcases s with _ | ⟨cs | e, rest⟩
    · obtain ⟨hbs, rfl⟩ := Prod.mk.inj hr
      rw [← Except.ok.inj hbs, List.nil_append]
    · obtain ⟨hbs, ht⟩ := Prod.mk.inj ((read_chunk n cs rest).symm.trans hr)
      rw [← Except.ok.inj hbs, ← ht]
      by_cases hleft : cs.drop n = []
      · rw [if_pos hleft, bytes, List.take_of_length_le (List.drop_eq_nil_iff.mp hleft)]
      · rw [if_neg hleft, bytes, bytes, ← List.append_assoc, List.take_append_drop]
    · cases hr
  | case2 s e t' hr _ _ ih =>
    rcases s with _ | ⟨cs | e', rest⟩
    · cases hr
    · cases hr
    · obtain ⟨-, rfl⟩ := Prod.mk.inj hr
      exact ih h
  | case3 => cases h

namespace Record

/-! ## Engines that make progress -/

/-- An unwrap that took the next `taken` bytes of its source, put `made` behind what its
destination held, did nothing else to either, and reports just that. -/
structure Moved.Honest {ε : Type} (m : Moved ε) (src dst : Window) (taken : Nat) (made : Bytes) :
    Prop where
  src_eq : m.src = src.skip taken
  dst_eq : m.dst = dst.put made
  taken_le : taken ≤ src.remaining
  made_le : made.length ≤ dst.remaining
  consumed : ∀ r, m.report = .ok r → r.consumed = taken
  produced : ∀ r, m.report = .ok r → r.produced = made.length

/-- Every unwrap is honest, and one that goes well without plaintext has consumed
something. -/
def Engine.Progresses {ε : Type} (e : Engine ε) : Prop :=
  ∀ src dst s, ∃ taken made, (e.unwrap src dst s).Honest src dst taken made ∧
    ∀ r, (e.unwrap src dst s).report = .ok r → r.status = .ok → r.produced = 0 → 0 < r.consumed

/-- Plaintext comes only with an unwrap that goes well. -/
def Engine.Terse {ε : Type} (e : Engine ε) : Prop :=
  ∀ src dst s r, (e.unwrap src dst s).report = .ok r → r.status ≠ .ok → r.produced = 0

theorem Moved.Honest.made_eq {ε : Type} {m : Moved ε} {src dst : Window} {taken : Nat}
    {made : Bytes} (h : m.Honest src dst taken made) : m.made dst = made := by
  rw [Moved.made, h.dst_eq, Window.before_put h.made_le]
  exact List.drop_left

/-- An engine that keeps a log of its calls, each with what it put into its destination. -/
def Engine.recorded {ε : Type} (e : Engine ε) : Engine (ε × List (Engine.Call × Bytes)) where
  beginHandshake s :=
    ((e.beginHandshake s.1).1, (e.beginHandshake s.1).2, s.2 ++ [(.beginHandshake, [])])
  handshake s := e.handshake s.1
  wrap src dst s :=
    let m := e.wrap src dst s.1
    ⟨m.report, m.src, m.dst, m.engine, s.2 ++ [(.wrap src.span dst.remaining, m.made dst)]⟩
  unwrap src dst s :=
    let m := e.unwrap src dst s.1
    ⟨m.report, m.src, m.dst, m.engine, s.2 ++ [(.unwrap src.span dst.remaining, m.made dst)]⟩
  runTask s := ((e.runTask s.1).1, (e.runTask s.1).2, s.2 ++ [(.runTask, [])])
  closeOutbound s := (e.closeOutbound s.1, s.2 ++ [(.closeOutbound, [])])
  closeInbound s := (e.closeInbound s.1, s.2 ++ [(.closeInbound, [])])
  outboundDone s := e.outboundDone s.1
  inboundDone s := e.inboundDone s.1
  plaintextSize s := e.plaintextSize s.1
  recordSize s := e.recordSize s.1

theorem Engine.recorded_unwraps {ε : Type} (e : Engine ε) : e.recorded.Unwraps e :=
  fun _ _ _ => rfl

theorem Engine.Progresses.recorded {ε : Type} {e : Engine ε} (he : e.Progresses) :
    e.recorded.Progresses := by
  intro src dst s
  obtain ⟨taken, made, hm, hprogress⟩ := he src dst s.1
  exact ⟨taken, made, ⟨hm.src_eq, hm.dst_eq, hm.taken_le, hm.made_le, hm.consumed, hm.produced⟩,
    hprogress⟩

theorem Engine.Terse.recorded {ε : Type} {e : Engine ε} (he : e.Terse) : e.recorded.Terse :=
  fun src dst s => he src dst s.1

def Ends.recorded {ι ω ε : Type} (d : Ends ι ω ε) : Ends ι ω (ε × List (Engine.Call × Bytes)) :=
  ⟨d.source, d.sink, d.engine.recorded⟩

namespace Pump

variable {ι ω ε : Type}

/-! ## One round -/

theorem fillOn_cases {α : Type} (d : Ends ι ω ε) (atEnd : Except Fault α) (p : Pump ι ω ε) :
    (∃ b bs i, d.source.readSome p.netIn.remaining p.input = (.ok (b :: bs), i) ∧
      p.fillOn d atEnd = (.again, { p with input := i, netIn := p.netIn.put (b :: bs) })) ∨
    ∃ r q, p.fillOn d atEnd = (.stop r, q) ∧ q.engine = p.engine ∧
      (r = atEnd ∨ ∃ e, r = .error e) := by
  rw [fillOn, fill]
  by_cases hroom : p.netIn.remaining = 0
  · rw [if_pos hroom]
    exact .inr ⟨_, p, rfl, rfl, .inr ⟨_, rfl⟩⟩
  · rw [if_neg hroom]
    rcases d.source.readSome p.netIn.remaining p.input with ⟨e | _ | ⟨b, bs⟩, i⟩
    · exact .inr ⟨_, _, rfl, rfl, .inr ⟨e, rfl⟩⟩
    · exact .inr ⟨_, _, rfl, rfl, .inl rfl⟩
    · exact .inl ⟨b, bs, i, rfl, rfl⟩

theorem fillOn_engine {α : Type} (d : Ends ι ω ε) (atEnd : Except Fault α) (p : Pump ι ω ε) :
    (p.fillOn d atEnd).2.engine = p.engine := by
  rcases fillOn_cases d atEnd p with ⟨b, bs, i, -, hfill⟩ | ⟨r, q, hfill, hengine, -⟩
  · rw [hfill]
  · rw [hfill]
    exact hengine

/-- What the engine puts into the plaintext window in one round. -/
def fresh (d : Ends ι ω ε) (s : Pump ι ω ε × Window) : Bytes :=
  (d.engine.unwrap s.1.netIn.flip s.2 s.1.engine).made s.2

theorem readStep_call (d : Ends ι ω ε)
    (s : Pump ι ω (ε × List (Engine.Call × Bytes)) × Window) :
    (readStep d.recorded s).2.1.engine.2 =
      s.1.engine.2 ++ [(.unwrap s.1.netIn.flip.span s.2.remaining, fresh d.recorded s)] := by
  have hcall : (s.1.unwrap d.recorded s.2).2.2.engine.2 =
      s.1.engine.2 ++ [(.unwrap s.1.netIn.flip.span s.2.remaining, fresh d.recorded s)] := rfl
  rw [readStep]
  generalize s.1.unwrap d.recorded s.2 = w at hcall ⊢
  obtain ⟨f | r, app, q⟩ := w
  · exact hcall
  · dsimp only at hcall ⊢
    cases r.status with
    | ok =>
      dsimp only
      by_cases hpos : 0 < r.produced
      · rw [if_pos hpos]
        exact hcall
      · rw [if_neg hpos]
        exact hcall
    | bufferUnderflow => exact (congrArg Prod.snd (fillOn_engine d.recorded _ q)).trans hcall
    | bufferOverflow => exact hcall
    | closed => exact hcall

/-- What a read still has to work off at most: a buffered byte is unwrapped, and one that
is still to arrive is read and unwrapped. -/
def workload (p : Pump (List Script.Arrival) ω ε) : Nat :=
  p.netIn.position + 2 * (Script.bytes p.input).length

variable {sink : Sink ω} {e : Engine ε} {p q : Pump (List Script.Arrival) ω ε}

theorem workload_unwrap {d : Ends (List Script.Arrival) ω ε} {app : Window} {taken : Nat}
    {made : Bytes}
    (hm : (d.engine.unwrap p.netIn.flip app p.engine).Honest p.netIn.flip app taken made) :
    (p.unwrap d app).2.2.workload + taken = p.workload := by
  have hleft : (p.unwrap d app).2.2.netIn.position = p.netIn.position - taken := by
    show ((d.engine.unwrap p.netIn.flip app p.engine).src.compact).before.length = _
    rw [hm.src_eq]
    exact Window.remaining_skip _ _
  have htaken : taken ≤ p.netIn.position := hm.taken_le
  show (p.unwrap d app).2.2.netIn.position + 2 * (Script.bytes p.input).length + taken = _
  rw [workload]
  omega

theorem workload_put {b : UInt8} {bs : Bytes} {i : List Script.Arrival}
    (h : Script.source.readSome p.netIn.remaining p.input = (.ok (b :: bs), i)) :
    workload { p with input := i, netIn := p.netIn.put (b :: bs) } < p.workload := by
  have hbefore := Window.before_put (Script.source.length_readSome_le h)
  have hbytes := Script.bytes_readSome h
  simp only [workload, Window.position, hbefore, hbytes, List.length_append, List.length_cons]
  omega

/-- What comes of one round of a read that puts `made` into its window. -/
inductive Round (terse : Prop) (s : Pump (List Script.Arrival) ω ε × Window) (made : Bytes) :
    Turn (Option Nat) × Pump (List Script.Arrival) ω ε × Window → Prop where
  | again {q : Pump (List Script.Arrival) ω ε} (hless : q.workload < s.1.workload)
      (hquiet : terse → made = []) : Round terse s made (.again, q, s.2.put made)
  | handsOut {q : Pump (List Script.Arrival) ω ε} (hpos : 0 < made.length) :
      Round terse s made (.stop (.ok (some made.length)), q, (s.2.put made).flip)
  | ends {q : Pump (List Script.Arrival) ω ε} {r : Except Fault (Option Nat)}
      (hr : ∀ n, r ≠ .ok (some n)) : Round terse s made (.stop r, q, s.2.put made)

theorem readStep_round (sink : Sink ω) (he : e.Progresses)
    (s : Pump (List Script.Arrival) ω ε × Window) :
    (fresh ⟨Script.source, sink, e⟩ s).length ≤ s.2.remaining ∧
      Round e.Terse s (fresh ⟨Script.source, sink, e⟩ s)
        (readStep ⟨Script.source, sink, e⟩ s) := by
  obtain ⟨p, app⟩ := s
  obtain ⟨taken, made, hm, hprogress⟩ := he p.netIn.flip app p.engine
  have hfresh : fresh ⟨Script.source, sink, e⟩ (p, app) = made := hm.made_eq
  rw [hfresh]
  refine ⟨hm.made_le, ?_⟩
  have hunwrap : p.unwrap ⟨Script.source, sink, e⟩ app =
      ((e.unwrap p.netIn.flip app p.engine).report, app.put made,
        (p.unwrap ⟨Script.source, sink, e⟩ app).2.2) := by
    rw [← hm.dst_eq]
    rfl
  have hworkload := workload_unwrap (d := ⟨Script.source, sink, e⟩) hm
  generalize (p.unwrap ⟨Script.source, sink, e⟩ app).2.2 = q at hunwrap hworkload
  rw [readStep, hunwrap]
  rcases hreport : (e.unwrap p.netIn.flip app p.engine).report with f | r
  · exact .ends (by simp)
  · have hproduced := hm.produced r hreport
    have hconsumed := hm.consumed r hreport
    dsimp only
    cases hstatus : r.status with
    | ok =>
      dsimp only
      by_cases hpos : 0 < r.produced
      · rw [if_pos hpos, hproduced]
        exact .handsOut (hproduced ▸ hpos)
      · rw [if_neg hpos]
        have hnone : r.produced = 0 := by omega
        have hsome := hprogress r hreport hstatus hnone
        refine .again ?_ fun _ => List.length_eq_zero_iff.mp (hproduced ▸ hnone)
        show q.workload < p.workload
        omega
    | bufferUnderflow =>
      dsimp only
      rcases fillOn_cases ⟨Script.source, sink, e⟩ (.ok none) q with
        ⟨b, bs, i, hread, hfill⟩ | ⟨r', q', hfill, -, hr'⟩
      · rw [hfill]
        refine .again ?_ fun hterse => ?_
        · have hle : q.workload ≤ p.workload := by omega
          exact Nat.lt_of_lt_of_le (workload_put hread) hle
        · have hnone := hterse _ _ _ r hreport (by simp [hstatus])
          exact List.length_eq_zero_iff.mp (hproduced ▸ hnone)
      · rw [hfill]
        refine .ends fun n => ?_
        rcases hr' with rfl | ⟨f, rfl⟩ <;> simp
    | bufferOverflow => exact .ends (by simp)
    | closed => exact .ends (by simp)

/-! ## All rounds -/

/-- What a read leaves of a plaintext window, after it put `earlier` there in its first
rounds and `fresh` in the last. -/
def Leaves (app : Window) (earlier fresh : Bytes) : Except Fault (Option Nat) → Window → Prop
  | .ok (some count), left =>
    count = fresh.length ∧ 0 < count ∧ left = (app.put (earlier ++ fresh)).flip
  | .ok none, left | .error _, left => left = app.put (earlier ++ fresh)

theorem Leaves.after {app left : Window} {made earlier fresh : Bytes}
    {r : Except Fault (Option Nat)} (h : Leaves (app.put made) earlier fresh r left) :
    Leaves app (made ++ earlier) fresh r left := by
  match r with
  | .ok (some count) =>
    obtain ⟨hcount, hpos, hleft⟩ := h
    rw [Window.put_put, ← List.append_assoc] at hleft
    exact ⟨hcount, hpos, hleft⟩
  | .ok none | .error _ =>
    have hleft : left = (app.put made).put (earlier ++ fresh) := h
    rw [Window.put_put, ← List.append_assoc] at hleft
    exact hleft

theorem recorded_round (sink : Sink ω) (he : e.Progresses)
    (s : Pump (List Script.Arrival) ω (ε × List (Engine.Call × Bytes)) × Window) :
    let d : Ends (List Script.Arrival) ω ε := ⟨Script.source, sink, e⟩
    ∃ offered room, ∃ made : Bytes, (readStep d.recorded s).2.1.engine.2 =
        s.1.engine.2 ++ [(Engine.Call.unwrap offered room, made)] ∧
      made.length ≤ s.2.remaining ∧ Round e.recorded.Terse s made (readStep d.recorded s) := by
  intro d
  obtain ⟨hfits, hround⟩ := readStep_round sink he.recorded s
  exact ⟨_, _, fresh d.recorded s, readStep_call d s, hfits, hround⟩

/-- By induction on the rounds: each makes one call, an unwrap, and the window has room for
all that they bring. -/
theorem exists_leaves (he : e.Progresses)
    {s t : Pump (List Script.Arrival) ω (ε × List (Engine.Call × Bytes)) × Window} {n : Nat}
    {r : Except Fault (Option Nat)}
    (h : Loops (readStep (Ends.recorded ⟨Script.source, sink, e⟩)) s n r t) :
    ∃ calls last, t.1.engine.2 = s.1.engine.2 ++ (calls ++ [last]) ∧ calls.length = n ∧
      (∀ c ∈ calls ++ [last], ∃ offered room, c.1 = Engine.Call.unwrap offered room) ∧
      (calls.flatMap Prod.snd ++ last.2).length ≤ s.2.remaining ∧
      (e.Terse → calls.flatMap Prod.snd = []) ∧
      Leaves s.2 (calls.flatMap Prod.snd) last.2 r t.2 := by
  induction h with
  | @stop s t r h =>
    obtain ⟨offered, room, made, hlog, hfits, hround⟩ := recorded_round sink he s
    rw [h] at hlog hround
    refine ⟨[], (.unwrap offered room, made), hlog, rfl,
      List.forall_mem_singleton.mpr ⟨offered, room, rfl⟩, hfits, fun _ => rfl, ?_⟩
    cases hround with
    | handsOut hpos => exact ⟨rfl, hpos, rfl⟩
    | ends hr =>
      match r with
      | .ok (some n) => exact absurd rfl (hr n)
      | .ok none | .error _ => rfl
  | @again s t u r n h _ ih =>
    obtain ⟨offered, room, made, hlog, hfits, hround⟩ := recorded_round sink he s
    obtain ⟨calls, last, hlater, hlength, hcalls, hrest, hnone, hleaves⟩ := ih
    rw [h] at hlog hround
    cases hround with
    | @again q _ hquiet =>
      refine ⟨(.unwrap offered room, made) :: calls, last, ?_, congrArg (· + 1) hlength,
        List.forall_mem_cons.mpr ⟨⟨offered, room, rfl⟩, hcalls⟩, ?_, fun hterse => ?_,
        hleaves.after⟩
      · rw [hlater, hlog, List.append_assoc]
        rfl
      · have hroom := Window.remaining_put s.2 made
        rw [List.flatMap_cons, List.append_assoc, List.length_append]
        simp only at hrest ⊢
        omega
      · rw [List.flatMap_cons, hquiet hterse.recorded, hnone hterse, List.append_nil]

/-- A read ends, whatever the socket does, for every engine that makes progress.  It calls
the engine at most twice for each byte that is buffered or still to arrive, and once more.
What the engine put into the plaintext window stands there behind what was there, and the
window is turned for reading if and only if the answer counts what the last call put. -/
theorem read_ends (sink : Sink ω) (he : e.Progresses)
    (p : Pump (List Script.Arrival) ω (ε × List (Engine.Call × Bytes))) (app : Window) :
    let d : Ends (List Script.Arrival) ω ε := ⟨Script.source, sink, e⟩
    let held := p.bufferedCiphertext + (Script.bytes p.input).length
    ∃ result q left calls last,
      (∀ limit, 2 * held + 1 ≤ limit →
        p.read d.recorded limit app = (some result, q, left) ∧
        p.unwatched.read d limit app = (some result, q.unwatched, left)) ∧
      q.engine.2 = p.engine.2 ++ (calls ++ [last]) ∧
      (calls ++ [last]).length ≤ 2 * held + 1 ∧
      (∀ c ∈ calls ++ [last], ∃ offered room, c.1 = Engine.Call.unwrap offered room) ∧
      let earlier := calls.flatMap Prod.snd
      let fresh := last.2
      (earlier ++ fresh).length ≤ app.remaining ∧ (e.Terse → earlier = []) ∧
        match result with
        | .ok (some count) =>
          count = fresh.length ∧ 0 < count ∧ left = (app.put (earlier ++ fresh)).flip ∧
            left.span = app.before ++ (earlier ++ fresh)
        | .ok none | .error _ =>
          left = app.put (earlier ++ fresh) ∧ left.before = app.before ++ (earlier ++ fresh) ∧
            left.limit = app.limit := by
  intro d held
  have hless : ∀ s t, readStep d.recorded s = (.again, t) → t.1.workload < s.1.workload := by
    intro s t h
    obtain ⟨_, _, _, -, -, hround⟩ := recorded_round sink he s
    rw [h] at hround
    cases hround with
    | again hless => exact hless
  obtain ⟨n, result, ⟨q, left⟩, (hn : n ≤ p.workload), hloops⟩ :=
    exists_loops (fun s => workload s.1) hless (p, app)
  obtain ⟨calls, last, hlog, hlength, hcalls, (hfits : _ ≤ app.remaining), hterse, hleaves⟩ :=
    exists_leaves he hloops
  have hheld : p.workload ≤ 2 * held := by
    simp only [workload, held, bufferedCiphertext]
    omega
  refine ⟨result, q, left, calls, last, ?_, hlog, ?_, hcalls, hfits, hterse, ?_⟩
  · intro limit hlimit
    have hread : p.read d.recorded limit app = (some result, q, left) :=
      hloops.repeatStep_eq (by omega)
    have hsame : p.read ⟨Script.source, sink, e.recorded⟩ limit app = (some result, q, left) :=
      hread
    refine ⟨hread, ?_⟩
    rw [read_unwatched e.recorded_unwraps, hsame]
  · rw [List.length_append, List.length_singleton]
    omega
  · have hbefore := Window.before_put hfits
    match result with
    | .ok (some count) =>
      obtain ⟨hcount, hpos, rfl⟩ := hleaves
      exact ⟨hcount, hpos, rfl, hbefore⟩
    | .ok none | .error _ =>
      obtain rfl : left = app.put (calls.flatMap Prod.snd ++ last.2) := hleaves
      refine ⟨rfl, hbefore, ?_⟩
      rw [Window.limit, hbefore, List.length_append, Window.limit]
      have hroom := Window.remaining_put app (calls.flatMap Prod.snd ++ last.2)
      simp only [Window.remaining] at hroom hfits
      omega

end Pump

/-! ## Length records make progress -/

namespace LengthRecords

/-- An unwrap that moves what it says: bytes only if all went well, and then some. -/
def Moves (src dst : Window) (m : Moved LengthRecords) : Prop :=
  ∃ status taken made e, m = moved status taken made.length (src.skip taken) (dst.put made) e ∧
    taken ≤ src.remaining ∧ made.length ≤ dst.remaining ∧ (status = .ok → 0 < taken) ∧
    (status ≠ .ok → made = [])

theorem moves_nothing {status : Status} (src dst : Window) (e : LengthRecords)
    (h : status ≠ .ok) : Moves src dst (moved status 0 0 src dst e) := by
  refine ⟨status, 0, [], e, ?_, Nat.zero_le _, Nat.zero_le _, fun hok => absurd hok h,
    fun _ => rfl⟩
  rw [src.skip_zero, dst.put_nil, List.length_nil]

theorem moves_taken {status : Status} {src : Window} (dst : Window) {taken : Nat}
    (e : LengthRecords) (hpos : 0 < taken) (hle : taken ≤ src.remaining) :
    Moves src dst (moved status taken 0 (src.skip taken) dst e) := by
  refine ⟨status, taken, [], e, ?_, hle, Nat.zero_le _, fun _ => hpos, fun _ => rfl⟩
  rw [dst.put_nil, List.length_nil]

theorem unwrap_moves (src dst : Window) (e : LengthRecords) :
    (∃ f, e.unwrap src dst = ⟨.error f, src, dst, e⟩) ∨ Moves src dst (e.unwrap src dst) := by
  rw [unwrap]
  split
  · split
    · exact .inr (moves_nothing src dst e (by simp))
    · split
      · exact .inl ⟨_, rfl⟩
      · exact .inr (moves_taken dst e.step (by omega) (by omega))
  · split
    · exact .inr (moves_nothing src dst e (by simp))
    · rcases hspan : src.span with _ | ⟨len, rest⟩
      · exact .inr (moves_nothing src dst e (by simp))
      · have hsrc : src.remaining = rest.length + 1 := by
          rw [Window.remaining, hspan, List.length_cons]
        dsimp only
        split
        · exact .inr (moves_taken dst _ Nat.one_pos (by omega))
        · split
          · exact .inr (moves_nothing src dst e (by simp))
          · split
            · exact .inr (moves_nothing src dst e (by simp))
            · have hmade : (rest.take len.toNat).length = len.toNat := by
                rw [List.length_take]
                omega
              refine .inr ⟨.ok, len.toNat + 1, rest.take len.toNat, e, ?_, by omega, by omega,
                fun _ => Nat.succ_pos _, fun h => absurd rfl h⟩
              rw [hmade]

theorem progresses : LengthRecords.engine.Progresses := by
  intro src dst e
  show ∃ taken made, (e.unwrap src dst).Honest src dst taken made ∧
    ∀ r, (e.unwrap src dst).report = .ok r → r.status = .ok → r.produced = 0 → 0 < r.consumed
  rcases unwrap_moves src dst e with ⟨f, h⟩ | ⟨status, taken, made, e', h, htaken, hmade, hsome, -⟩
  · rw [h]
    exact ⟨0, [], ⟨src.skip_zero.symm, dst.put_nil.symm, Nat.zero_le _, Nat.zero_le _, nofun,
      nofun⟩, nofun⟩
  · rw [h]
    refine ⟨taken, made, ⟨rfl, rfl, htaken, hmade, ?_, ?_⟩, ?_⟩
    · rintro r ⟨⟩
      rfl
    · rintro r ⟨⟩
      rfl
    · rintro r ⟨⟩ hok -
      exact hsome hok

theorem terse : LengthRecords.engine.Terse := by
  intro src dst e r hr hstatus
  have hunwrap : (e.unwrap src dst).report = .ok r := hr
  rcases unwrap_moves src dst e with ⟨f, h⟩ | ⟨status, taken, made, e', h, -, -, -, hnone⟩
  · rw [h] at hunwrap
    cases hunwrap
  · rw [h] at hunwrap
    obtain rfl := Except.ok.inj hunwrap
    exact congrArg List.length (hnone hstatus)

end LengthRecords

namespace Pump

/-- A record of three bytes comes in pieces with an interruption between them, and a byte
stands in the plaintext window already: three unwraps, where thirteen are allowed. -/
theorem read_ends_with_plaintext :
    let d : Ends (List Script.Arrival) Script.Uptake LengthRecords :=
      ⟨Script.source, Script.sink, LengthRecords.engine⟩
    let p : Pump (List Script.Arrival) Script.Uptake
        (LengthRecords × List (Engine.Call × Bytes)) :=
      new d.recorded [.chunk [3], .fault ⟨.interrupted, "again"⟩, .chunk [7, 8, 9, 2, 1]] .empty
        (.new [] 16 16, [])
    LengthRecords.engine.Progresses ∧ LengthRecords.engine.Terse ∧
    ∃ q left,
      p.read d.recorded 13 ⟨[6], [0, 0, 0, 0], []⟩ = (some (.ok (some 3)), q, left) ∧
      q.engine.2 = [(.unwrap [] 4, []), (.unwrap [3] 4, []), (.unwrap [3, 7, 8, 9, 2, 1] 4,
        [7, 8, 9])] ∧ left.span = [6, 7, 8, 9] := by
  intro d p
  obtain ⟨result, q, left, calls, last, hread, hlog, -, -, -, hterse, hleft⟩ :=
    read_ends Script.sink LengthRecords.progresses p ⟨[6], [0, 0, 0, 0], []⟩
  obtain ⟨hread, -⟩ := hread 13 (by decide)
  have hrun : (p.read d.recorded 13 ⟨[6], [0, 0, 0, 0], []⟩).1.bind Except.toOption =
      some (some 3) ∧ (p.read d.recorded 13 ⟨[6], [0, 0, 0, 0], []⟩).2.1.engine.2 =
      [(.unwrap [] 4, []), (.unwrap [3] 4, []), (.unwrap [3, 7, 8, 9, 2, 1] 4, [7, 8, 9])] := by
    decide +kernel
  rw [hread] at hrun
  obtain ⟨hanswer, hcalls⟩ := hrun
  have hlast : calls ++ [last] =
      [(.unwrap [] 4, []), (.unwrap [3] 4, [])] ++ [(.unwrap [3, 7, 8, 9, 2, 1] 4, [7, 8, 9])] :=
    hlog.symm.trans hcalls
  obtain ⟨-, hlast⟩ := List.append_inj' hlast rfl
  obtain rfl := List.singleton_inj.mp hlast
  match result, hanswer with
  | .ok (some count), hanswer =>
    obtain rfl := Option.some.inj (Option.some.inj hanswer)
    rw [hterse LengthRecords.terse, List.nil_append] at hleft
    obtain ⟨-, -, -, hspan⟩ := hleft
    exact ⟨LengthRecords.progresses, LengthRecords.terse, q, left, hread, hcalls, hspan⟩

end Pump
end Record
end RemoteCall
