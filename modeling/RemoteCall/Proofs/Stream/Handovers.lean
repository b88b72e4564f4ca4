import RemoteCall.Proofs.Steps
import RemoteCall.Proofs.Stream.Draining
import RemoteCall.Proofs.Stream.Windowed

/-!
What a buffered output does with the bytes it is given.

Bytes wait in the buffer until it is full, flushed or closed, and then all of them go to
the drain in one handover.  `BufferedOutput.Handed` is the law of one operation: which
handovers it makes, and where the bytes are if it goes well.  The books of a run
(`BufferedOutput.Books`) follow by induction on its operations, whatever the drain does.
The same run over a window stays in step with it (`WindowedOutput.Shows`), so the window
is ready to be written and has room each time.
-/

namespace RemoteCall

/-- The drain consumed all that it was offered, and did not fail. -/
def Handover.Complete (h : Handover) : Prop := h.answer = .ok () ∧ h.offered.length ≤ h.taken

theorem Handover.Complete.consumed {h : Handover} (hc : h.Complete) : h.consumed = h.offered :=
  List.take_of_length_le hc.2

namespace BufferedOutput

variable {δ : Type} {d : Drain δ}

/-! ## Operations -/

/-- What is asked of a buffered output and what it answers. -/
inductive Operation where
  | write (bs : Bytes) (answer : Except Fault Nat)
  | writeByte (b : UInt8) (answer : Except Fault Unit)
  | flush (answer : Except Fault Unit)
  | close (answer : Except Fault Unit)
  | discard

inductive Operates (d : Drain δ) : BufferedOutput δ → Operation → BufferedOutput δ → Prop where
  | write {bs : Bytes} {o p : BufferedOutput δ} {answer : Except Fault Nat}
      (h : o.write d bs = (answer, p)) : Operates d o (.write bs answer) p
  | writeByte {b : UInt8} {o p : BufferedOutput δ} {answer : Except Fault Unit}
      (h : o.writeByte d b = (answer, p)) : Operates d o (.writeByte b answer) p
  | flush {o p : BufferedOutput δ} {answer : Except Fault Unit} (h : o.flush d = (answer, p)) :
      Operates d o (.flush answer) p
  | close {o p : BufferedOutput δ} {answer : Except Fault Unit} (h : o.close d = (answer, p)) :
      Operates d o (.close answer) p
  | discard (o : BufferedOutput δ) : Operates d o .discard o.discard

namespace Operation

def written : Operation → Bytes
  | .write bs _ => bs
  | .writeByte b _ => [b]
  | .flush _ | .close _ | .discard => []

def Succeeds : Operation → Prop
  | .write _ answer => ∃ n, answer = .ok n
  | .writeByte _ answer | .flush answer | .close answer => answer = .ok ()
  | .discard => True

def isClose : Operation → Bool
  | .close _ => true
  | _ => false

def Keeps (op : Operation) : Prop := op.Succeeds ∧ op ≠ .discard

/-- How a closed output answers. -/
def Refused : Operation → Prop
  | .write _ answer => answer = .error closedFault
  | .writeByte _ answer | .flush answer => answer = .error closedFault
  | .close answer => answer = .ok ()
  | .discard => True

end Operation

end BufferedOutput

/-! ## Windows in step -/

namespace WindowedOutput

open BufferedOutput (Operation)

variable {δ : Type} {d : Drain δ} {w : WindowedOutput δ} {o p : BufferedOutput δ}

/-- One operation.  The loop of a write ends within as many rounds as there are bytes. -/
inductive Operates (d : Drain δ) : WindowedOutput δ → Operation → WindowedOutput δ → Prop where
  | write {bs : Bytes} {w u : WindowedOutput δ} {answer : Except Fault Nat}
      (h : w.write d bs.length bs = (some answer, u)) : Operates d w (.write bs answer) u
  | writeByte {b : UInt8} {w u : WindowedOutput δ} {answer : Except Fault Unit}
      (h : w.writeByte d b = (answer, u)) : Operates d w (.writeByte b answer) u
  | flush {w u : WindowedOutput δ} {answer : Except Fault Unit} (h : w.flush d = (answer, u)) :
      Operates d w (.flush answer) u
  | close {w u : WindowedOutput δ} {answer : Except Fault Unit} (h : w.close d = (answer, u)) :
      Operates d w (.close answer) u
  | discard (w : WindowedOutput δ) : Operates d w .discard w.discard

theorem Shows.operates {op : Operation} (h : w.Shows o) (hop : BufferedOutput.Operates d o op p) :
    ∃ u, Operates d w op u ∧ u.Shows p := by
  cases hop with
  | @write bs _ _ _ ho =>
    have hagree := write_agree d h (Nat.le_refl bs.length)
    rw [ho] at hagree
    exact ⟨_, .write (Prod.ext hagree.answer rfl), hagree.shows⟩
  | @writeByte b _ _ _ ho =>
    have hagree := writeByte_agree d b h
    rw [ho] at hagree
    exact ⟨_, .writeByte (Prod.ext hagree.answer rfl), hagree.shows⟩
  | flush ho =>
    have hagree := flush_agree d h
    rw [ho] at hagree
    exact ⟨_, .flush (Prod.ext hagree.answer rfl), hagree.shows⟩
  | close ho =>
    have hagree := close_agree d h
    rw [ho] at hagree
    exact ⟨_, .close (Prod.ext hagree.answer rfl), hagree.shows⟩
  | discard => exact ⟨_, .discard w, discard_shows h⟩

theorem Shows.steps {ops : List Operation} (h : w.Shows o)
    (hops : Steps (BufferedOutput.Operates d) o ops p) :
    ∃ u, Steps (Operates d) w ops u ∧ u.Shows p := by
  induction hops with
  | refl => exact ⟨w, .refl, h⟩
  | snoc _ hop ih =>
    obtain ⟨u, hrun, hu⟩ := ih
    obtain ⟨v, hop', hv⟩ := hu.operates hop
    exact ⟨v, hrun.snoc hop', hv⟩

end WindowedOutput

namespace BufferedOutput

/-! ## The handovers of one operation -/

abbrev Logged (δ : Type) := BufferedOutput (δ × List Handover)

variable {δ : Type} {d : Drain δ} {o p q : Logged δ}

/-- From `o` to `p` the handovers `hs` were made.  If all went well (`fine`), each of them
was complete, and what was buffered and what was given is where it belongs. -/
structure Handed (o : Logged δ) (given : Bytes) (hs : List Handover) (fine : Prop)
    (p : Logged δ) : Prop where
  log : p.drains.2 = o.drains.2 ++ hs
  capacity : p.capacity = o.capacity
  full : ∀ h ∈ hs, h.mode = .write → h.offered.length = o.capacity
  complete : fine → ∀ h ∈ hs, h.Complete
  balance : fine → hs.flatMap Handover.consumed ++ p.pending = o.pending ++ given

theorem Handed.trans {given more : Bytes} {hs hs' : List Handover} {fine : Prop}
    (h : Handed o given hs True p) (h' : Handed p more hs' fine q) :
    Handed o (given ++ more) (hs ++ hs') fine q where
  log := by rw [h'.log, h.log, List.append_assoc]
  capacity := h'.capacity.trans h.capacity
  full := List.forall_mem_append.mpr ⟨h.full, h.capacity ▸ h'.full⟩
  complete hfine := List.forall_mem_append.mpr ⟨h.complete trivial, h'.complete hfine⟩
  balance hfine := by
    rw [List.flatMap_append, List.append_assoc, h'.balance hfine, ← List.append_assoc,
      h.balance trivial, List.append_assoc]

theorem Handed.imp {given : Bytes} {hs : List Handover} {fine better : Prop}
    (h : Handed o given hs fine p) (himp : better → fine) : Handed o given hs better p where
  log := h.log
  capacity := h.capacity
  full := h.full
  complete hbetter := h.complete (himp hbetter)
  balance hbetter := h.balance (himp hbetter)

@[simp] theorem closed_handOn {δ : Type} (d : Drain δ) (mode : DrainMode) (block : Bytes)
    (o : BufferedOutput δ) : (o.handOn d mode block).2.closed = o.closed := by
  unfold handOn
  split <;> rfl

@[simp] theorem closed_push {δ : Type} (d : Drain δ) (bs : Bytes) (o : BufferedOutput δ) :
    (o.push d bs).2.closed = o.closed := by
  fun_induction push d bs o with
  | case1 bs o free hlt => rfl
  | case2 bs o free hge e p hh =>
    have hclosed := closed_handOn d .write (o.pending ++ bs.take free) o
    rwa [hh] at hclosed
  | case3 bs o free hge p hh ih =>
    have hclosed := closed_handOn d .write (o.pending ++ bs.take free) o
    rw [hh] at hclosed
    exact ih.trans hclosed

theorem handOn_handed (d : Drain δ) (mode : DrainMode) (o : Logged δ) (given : Bytes)
    (hfull : mode = .write → (o.pending ++ given).length = o.capacity) :
    ∃ h, Handed o given [h] ((o.handOn d.traced mode (o.pending ++ given)).1 = .ok ())
        (o.handOn d.traced mode (o.pending ++ given)).2 ∧
      (o.handOn d.traced mode (o.pending ++ given)).2.pending = [] := by
  generalize hblock : o.pending ++ given = block at hfull ⊢
  let h : Handover := ⟨mode, block, (d mode block o.drains.1).2.1, (d mode block o.drains.1).1⟩
  have hmode : ∀ g ∈ [h], g.mode = .write → g.offered.length = o.capacity := by
    simpa [h] using hfull
  have hcall : d.traced mode block o.drains =
      (h.answer, h.taken, (d mode block o.drains.1).2.2, o.drains.2 ++ [h]) := rfl
  refine ⟨h, ?_⟩
  rw [handOn, hcall]
  rcases hanswer : h.answer with e | ⟨⟩
  · exact ⟨⟨rfl, rfl, hmode, by simp, by simp⟩, rfl⟩
  · have hdone : (if h.taken < h.offered.length then Except.error leftOver else .ok ()) = .ok () →
        h.Complete := by
      intro hok
      by_cases hleft : h.taken < h.offered.length
      · simp [hleft] at hok
      · exact ⟨hanswer, Nat.le_of_not_lt hleft⟩
    refine ⟨⟨rfl, rfl, hmode, ?_, ?_⟩, rfl⟩
    · intro hok
      exact List.forall_mem_singleton.mpr (hdone hok)
    · intro hok
      rw [List.flatMap_singleton, (hdone hok).consumed, hblock]
      exact List.append_nil block

theorem length_pending_take {o : Logged δ} {bs : Bytes}
    (h : ¬ bs.length < o.capacity - o.pending.length) :
    (o.pending ++ bs.take (o.capacity - o.pending.length)).length = o.capacity := by
  have := o.room
  rw [List.length_append, List.length_take]
  omega

theorem push_handed (d : Drain δ) (bs : Bytes) (o : Logged δ) :
    ∃ hs, Handed o bs hs ((o.push d.traced bs).1 = .ok ()) (o.push d.traced bs).2 := by
  fun_induction push d.traced bs o with
  | case1 bs o free hlt => exact ⟨[], (List.append_nil _).symm, rfl, by simp, by simp, by simp⟩
  | case2 bs o free hge e p hh =>
    obtain ⟨h, hhanded, -⟩ :=
      handOn_handed d .write o (bs.take free) fun _ => length_pending_take hge
    rw [hh] at hhanded
    exact ⟨[h], hhanded.log, hhanded.capacity, hhanded.full, by simp, by simp⟩
  | case3 bs o free hge p hh ih =>
    obtain ⟨h, hhanded, -⟩ :=
      handOn_handed d .write o (bs.take free) fun _ => length_pending_take hge
    rw [hh] at hhanded
    obtain ⟨hs, hrest⟩ := ih
    have hall := (hhanded.imp fun _ => rfl).trans hrest
    rw [List.take_append_drop] at hall
    exact ⟨_, hall⟩

/-! ## One operation -/

/-- What an operation of an open output does.  Only closing closes it, and leaves nothing
buffered. -/
structure Performed (o : Logged δ) (op : Operation) (hs : List Handover) (p : Logged δ) :
    Prop extends Handed o op.written hs op.Keeps p where
  kept : op = .discard → hs = []
  closed : p.closed = op.isClose
  shut : op.isClose = true → p.pending = []

theorem Handed.performed {op : Operation} {hs : List Handover}
    (h : Handed o op.written hs op.Keeps p) (hdiscard : op ≠ .discard)
    (hclose : op.isClose = false) (hopen : p.closed = false) : Performed o op hs p where
  toHanded := h
  kept hop := absurd hop hdiscard
  closed := hopen.trans hclose.symm
  shut hcloses := absurd (hclose.symm.trans hcloses) Bool.false_ne_true

theorem Operates.exists_performed {op : Operation} (h : Operates d.traced o op p)
    (hopen : o.closed = false) : ∃ hs, Performed o op hs p := by
  cases h with
  | @write bs _ _ answer h =>
    obtain ⟨hs, hhanded⟩ := push_handed d bs o
    have hclosed := closed_push d.traced bs o
    rw [BufferedOutput.write, hopen, if_neg Bool.false_ne_true] at h
    generalize o.push d.traced bs = r at h hhanded hclosed
    obtain ⟨e | ⟨⟩, q⟩ := r
    · cases h
      have hfails : ¬ (Operation.write bs (.error e)).Keeps := by
        rintro ⟨⟨n, hn⟩, -⟩
        cases hn
      exact ⟨hs, (hhanded.imp fun hkeeps => absurd hkeeps hfails).performed (by simp) rfl
        (hclosed.trans hopen)⟩
    · cases h
      exact ⟨hs, (hhanded.imp fun _ => rfl).performed (by simp) rfl (hclosed.trans hopen)⟩
  | @writeByte b _ _ answer h =>
    obtain ⟨hs, hhanded⟩ := push_handed d [b] o
    have hclosed := closed_push d.traced [b] o
    rw [BufferedOutput.writeByte, hopen, if_neg Bool.false_ne_true] at h
    rw [h] at hhanded hclosed
    exact ⟨hs, (hhanded.imp fun hkeeps => hkeeps.1).performed (by simp) rfl
      (hclosed.trans hopen)⟩
  | flush h =>
    obtain ⟨g, hhanded, -⟩ := handOn_handed d .flush o [] (by simp)
    have hclosed := closed_handOn d.traced .flush (o.pending ++ []) o
    rw [BufferedOutput.flush, hopen, if_neg Bool.false_ne_true] at h
    rw [List.append_nil, h] at hhanded hclosed
    exact ⟨[g], (hhanded.imp fun hkeeps => hkeeps.1).performed (by simp) rfl
      (hclosed.trans hopen)⟩
  | close h =>
    obtain ⟨g, hhanded, hnone⟩ := handOn_handed d .close { o with closed := true } [] (by simp)
    have hclosed := closed_handOn d.traced .close (o.pending ++ []) { o with closed := true }
    rw [BufferedOutput.close, hopen, if_neg Bool.false_ne_true] at h
    rw [List.append_nil, h] at hhanded hclosed hnone
    exact ⟨[g], ⟨hhanded.log, hhanded.capacity, hhanded.full,
      fun hkeeps => hhanded.complete hkeeps.1, fun hkeeps => hhanded.balance hkeeps.1⟩, by simp,
      hclosed, fun _ => hnone⟩
  | discard =>
    exact ⟨[], ⟨(List.append_nil _).symm, rfl, by simp, by simp, fun hkeeps => absurd rfl hkeeps.2⟩,
      fun _ => rfl, hopen, by simp [Operation.isClose]⟩

/-- A closed output is not changed any more, except that what is buffered may be dropped. -/
theorem Operates.refused {op : Operation} (h : Operates d.traced o op p)
    (hclosed : o.closed = true) : op.Refused ∧ (p = o ∨ p = o.discard) := by
  cases h with
  | write h =>
    rw [BufferedOutput.write, if_pos hclosed] at h
    cases h
    exact ⟨rfl, .inl rfl⟩
  | writeByte h =>
    rw [BufferedOutput.writeByte, if_pos hclosed] at h
    cases h
    exact ⟨rfl, .inl rfl⟩
  | flush h =>
    rw [BufferedOutput.flush, if_pos hclosed] at h
    cases h
    exact ⟨rfl, .inl rfl⟩
  | close h =>
    rw [BufferedOutput.close, if_pos hclosed] at h
    cases h
    exact ⟨rfl, .inl rfl⟩
  | discard => exact ⟨trivial, .inr rfl⟩

theorem Operation.Refused.written {op : Operation} (h : op.Refused) (hkeeps : op.Keeps) :
    op.written = [] := by
  obtain ⟨hsucceeds, -⟩ := hkeeps
  cases op with
  | write bs answer =>
    obtain ⟨n, hn⟩ := hsucceeds
    cases hn.symm.trans h
  | writeByte b answer => cases hsucceeds.symm.trans h
  | flush | close | discard => rfl

/-! ## Books -/

/-- The books of a buffered output of `n` bytes that was asked for `ops`. -/
structure Books (n : Nat) (ops : List Operation) (o : Logged δ) : Prop where
  capacity : o.capacity = n
  buffered_lt : o.buffered < n
  /-- A block that is handed on because it is full is full. -/
  full : ∀ h ∈ o.drains.2, h.mode = .write → h.offered.length = n
  balance : (∀ op ∈ ops, op.Keeps) →
    o.drains.2.flatMap Handover.consumed ++ o.pending = ops.flatMap Operation.written
  closed : o.closed = ops.any Operation.isClose
  shut : o.closed = true → o.pending = []

theorem books_new {n : Nat} {s : δ} {o : Logged δ} (h : new n (s, []) = .ok o) :
    o.Books n [] := by
  rw [new] at h
  split at h
  · cases h
  · cases h
    exact ⟨rfl, by simpa [buffered] using Nat.pos_of_ne_zero (by assumption), by simp, by simp,
      rfl, fun _ => rfl⟩

theorem Books.snoc {n : Nat} {ops : List Operation} {op : Operation} (h : o.Books n ops)
    (hop : Operates d.traced o op p) : p.Books n (ops ++ [op]) := by
  rcases hclosed : o.closed with _ | _
  · obtain ⟨hs, hdone⟩ := hop.exists_performed hclosed
    have hcapacity := hdone.capacity.trans h.capacity
    refine ⟨hcapacity, hcapacity ▸ p.room, ?_, ?_, ?_, hdone.closed ▸ hdone.shut⟩
    · rw [hdone.log]
      exact List.forall_mem_append.mpr ⟨h.full, h.capacity ▸ hdone.full⟩
    · intro hkeep
      obtain ⟨hkeeps, hlast⟩ := List.forall_mem_append.mp hkeep
      rw [hdone.log, List.flatMap_append, List.append_assoc,
        hdone.balance (hlast op List.mem_cons_self), ← List.append_assoc, h.balance hkeeps,
        List.flatMap_append, List.flatMap_singleton]
    · rw [hdone.closed, List.any_append, ← h.closed, hclosed]
      simp
  · obtain ⟨hrefused, hp⟩ := hop.refused hclosed
    have hpending : p.pending = o.pending := by
      rcases hp with rfl | rfl
      · rfl
      · exact (h.shut hclosed).symm
    have hsame : p.capacity = o.capacity ∧ p.closed = o.closed ∧ p.drains = o.drains := by
      rcases hp with rfl | rfl <;> exact ⟨rfl, rfl, rfl⟩
    obtain ⟨hcapacity, hpclosed, hdrains⟩ := hsame
    refine ⟨hcapacity.trans h.capacity, ?_, hdrains ▸ h.full, ?_, ?_, ?_⟩
    · rw [buffered, hpending]
      exact h.buffered_lt
    · intro hkeep
      obtain ⟨hkeeps, hlast⟩ := List.forall_mem_append.mp hkeep
      rw [hdrains, hpending, h.balance hkeeps, List.flatMap_append, List.flatMap_singleton,
        hrefused.written (hlast op List.mem_cons_self), List.append_nil]
    · rw [hpclosed, List.any_append, ← h.closed, hclosed, Bool.true_or]
    · rw [hpending]
      exact fun _ => h.shut hclosed

theorem Books.steps {n : Nat} {ops more : List Operation} (h : o.Books n ops)
    (hrun : Steps (Operates d.traced) o more p) : p.Books n (ops ++ more) := by
  induction hrun with
  | refl =>
    rw [List.append_nil]
    exact h
  | snoc _ hop ih =>
    rw [← List.append_assoc]
    exact ih.snoc hop

/-- A buffered output keeps its books, whatever its drain does.  After every run of
operations, fewer bytes are buffered than there is room for, and a window that goes the same
way is ready to be written and has room.  Every block that went out because it was full was
full, and if nothing failed and nothing was dropped, the bytes consumed and the bytes
buffered are those written.  The next operation succeeds only if all of its handovers are
complete; after the first close nothing is buffered, and it makes no handover. -/
theorem handovers_accounted {n : Nat} (hn : 0 < n) (d : Drain δ) (s : δ) :
    ∃ start, new n (s, []) = .ok start ∧
      ∀ {ops : List Operation} {q : Logged δ}, Steps (Operates d.traced) start ops q →
        q.Books n ops ∧
        (∃ w, Steps (WindowedOutput.Operates d.traced) (.new n (s, [])) ops w ∧ w.Shows q ∧
          w.window.limit = n ∧ 0 < w.window.remaining) ∧
        ∀ {op : Operation} {p : Logged δ}, Operates d.traced q op p →
          ∃ hs, p.drains.2 = q.drains.2 ++ hs ∧
            (op.Succeeds → ∀ h ∈ hs, h.Complete) ∧
            ((∃ c ∈ ops, c.isClose = true) → q.pending = [] ∧ hs = [] ∧ op.Refused) := by
  obtain ⟨start, hstart⟩ : ∃ start, new n (s, []) = .ok start :=
    ⟨_, dif_neg (Nat.ne_of_gt hn)⟩
  refine ⟨start, hstart, ?_⟩
  intro ops q hrun
  have hbooks : q.Books n ops := (books_new hstart).steps hrun
  refine ⟨hbooks, ?_, ?_⟩
  · obtain ⟨w, hw, hshows⟩ := (WindowedOutput.new_shows hstart).steps hrun
    refine ⟨w, hw, hshows, ?_, hshows.room⟩
    have hcapacity := hshows.capacity.trans hbooks.capacity
    rwa [Window.capacity, hshows.writable] at hcapacity
  · intro op p hop
    rcases hclosed : q.closed with _ | _
    · obtain ⟨hs, hdone⟩ := hop.exists_performed hclosed
      refine ⟨hs, hdone.log, ?_, ?_⟩
      · intro hsucceeds
        by_cases hd : op = .discard
        · simp [hdone.kept hd]
        · exact hdone.complete ⟨hsucceeds, hd⟩
      · rintro ⟨c, hc, hcloses⟩
        have hany : ops.any Operation.isClose = true := List.any_eq_true.mpr ⟨c, hc, hcloses⟩
        rw [← hbooks.closed, hclosed] at hany
        cases hany
    · obtain ⟨hrefused, hp⟩ := hop.refused hclosed
      refine ⟨[], ?_, by simp, fun _ => ⟨hbooks.shut hclosed, rfl, hrefused⟩⟩
      rw [List.append_nil]
      rcases hp with rfl | rfl <;> rfl

/-- Room for three bytes, and a drain that takes a full block, then one byte of a flush, and
fails when the output is closed. -/
theorem handovers_accounted_faulty_drain :
    let late : Fault := ⟨.timedOut, "late"⟩
    let ops : List Operation :=
      [.write [1, 2, 3, 4] (.ok 4), .writeByte 5 (.ok ()), .flush (.error leftOver),
        .writeByte 6 (.ok ()), .close (.error late), .close (.ok ()),
        .write [7] (.error closedFault)]
    ∃ start q, new 3 (⟨[(none, none), (some 1, none), (some 0, some late)], []⟩, [])
        = .ok start ∧
      Steps (Operates Script.drain.traced) start ops q ∧ q.Books 3 ops ∧
      q.drains.2.map (fun h => (h.mode, h.offered, h.taken))
        = [(.write, [1, 2, 3], 3), (.flush, [4, 5], 1), (.close, [6], 0)] ∧
      ∃ w, Steps (WindowedOutput.Operates Script.drain.traced) (.new 3
        (⟨[(none, none), (some 1, none), (some 0, some late)], []⟩, [])) ops w ∧ w.Shows q := by
  intro late ops
  obtain ⟨start, hstart, hruns⟩ := handovers_accounted (n := 3) (by decide) Script.drain
    ⟨[(none, none), (some 1, none), (some 0, some late)], []⟩
  refine ⟨start, ?_⟩
  obtain rfl := Except.ok.inj hstart
  let d := Script.drain.traced
  let o₀ : Logged Script.Drains :=
    ⟨3, [], by decide, false, ⟨[(none, none), (some 1, none), (some 0, some late)], []⟩, []⟩
  let o₁ := (o₀.write d [1, 2, 3, 4]).2
  let o₂ := (o₁.writeByte d 5).2
  let o₃ := (o₂.flush d).2
  let o₄ := (o₃.writeByte d 6).2
  let o₅ := (o₄.close d).2
  let o₆ := (o₅.close d).2
  have h₁ : (o₀.write d [1, 2, 3, 4]).1 = .ok 4 := by decide +kernel
  have h₂ : (o₁.writeByte d 5).1 = .ok () := by decide +kernel
  have h₃ : (o₂.flush d).1 = .error leftOver := by decide +kernel
  have h₄ : (o₃.writeByte d 6).1 = .ok () := by decide +kernel
  have h₅ : (o₄.close d).1 = .error late := by decide +kernel
  have h₆ : (o₅.close d).1 = .ok () := by decide +kernel
  have h₇ : (o₆.write d [7]).1 = .error closedFault := by decide +kernel
  have hrun : Steps (Operates d) o₀ ops (o₆.write d [7]).2 :=
    .cons (.write (Prod.ext h₁ rfl)) <| .cons (.writeByte (Prod.ext h₂ rfl)) <|
    .cons (.flush (Prod.ext h₃ rfl)) <| .cons (.writeByte (Prod.ext h₄ rfl)) <|
    .cons (.close (Prod.ext h₅ rfl)) <| .cons (.close (Prod.ext h₆ rfl)) <|
    .single (.write (Prod.ext h₇ rfl))
  obtain ⟨hbooks, ⟨w, hw, hshows, -⟩, -⟩ := hruns hrun
  refine ⟨_, hstart, hrun, hbooks, ?_, w, hw, hshows⟩
  decide +kernel

end BufferedOutput
end RemoteCall
