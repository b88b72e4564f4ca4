import RemoteCall.Proofs.Stream.Acceptance

/-!
Sinks that keep a log.

`Sink.traced` is a sink with a log of what it is asked and what it answers.  The log of a
`writeAll` and the flush behind it is described by `Sink.Sending`: every write offers just
what was not taken yet, an interrupted one is made again, and the flush comes when nothing
is left.  So a sending that succeeds has put all of its bytes out, and one that fails a
front of them.
-/

namespace RemoteCall
namespace Sink

variable {σ : Type}

/-- What a sink is asked, and what it answers. -/
inductive Event where
  | write (offered : Bytes) (answer : Except Fault Nat)
  | flush (answer : Except Fault Unit)
  deriving Repr

def Event.taken : Event → Bytes
  | .write offered (.ok n) => offered.take n
  | .write _ (.error _) | .flush _ => []

def accepted (evs : List Event) : Bytes := evs.flatMap Event.taken

@[simp] theorem accepted_append (evs more : List Event) :
    accepted (evs ++ more) = accepted evs ++ accepted more := List.flatMap_append

@[simp] theorem accepted_cons (ev : Event) (evs : List Event) :
    accepted (ev :: evs) = ev.taken ++ accepted evs := List.flatMap_cons

def traced (snk : Sink σ) : Sink (σ × List Event) where
  write bs s :=
    ((snk.write bs s.1).1, (snk.write bs s.1).2, s.2 ++ [.write bs (snk.write bs s.1).1])
  flush s := ((snk.flush s.1).1, (snk.flush s.1).2, s.2 ++ [.flush (snk.flush s.1).1])
  patience s := snk.patience s.1
  patience_interrupted {bs s e t} h hk := by
    obtain ⟨hanswer, rfl⟩ := Prod.mk.inj h
    exact snk.patience_interrupted (Prod.ext hanswer rfl) hk

/-- A sink that takes everything still does with a log. -/
theorem Accepts.traced {snk : Sink σ} {taken : σ → Bytes} {s : σ} (h : snk.Accepts taken s)
    (log : List Event) : snk.traced.Accepts (fun t => taken t.1) (s, log) := by
  obtain ⟨ready, ha, hs⟩ := h
  refine ⟨fun t => ready t.1, ⟨?_, ?_⟩, hs⟩
  · intro bs t hb ht
    rcases ha.write hb ht with ⟨e, u, hw, hk, hu, htaken⟩ | ⟨n, u, hw, hn, hu, htaken⟩
    · refine .inl ⟨e, (u, t.2 ++ [.write bs (.error e)]), ?_, hk, hu, htaken⟩
      show (_, _, _) = _
      rw [hw]
    · refine .inr ⟨n, (u, t.2 ++ [.write bs (.ok (n + 1))]), ?_, hn, hu, htaken⟩
      show (_, _, _) = _
      rw [hw]
  · intro t ht
    obtain ⟨u, hf, hu, htaken⟩ := ha.flush ht
    refine ⟨(u, t.2 ++ [.flush (.ok ())]), ?_, hu, htaken⟩
    show (_, _, _) = _
    rw [hf]

def flushes (evs : List Event) : Nat :=
  evs.countP fun
    | .flush _ => true
    | .write _ _ => false

@[simp] theorem flushes_append (evs more : List Event) :
    flushes (evs ++ more) = flushes evs + flushes more := List.countP_append

/-- How the sending of some bytes may go: its result, and what the sink is asked. -/
inductive Sending : Bytes → Except Fault Unit → List Event → Prop where
  | flushed : Sending [] (.ok ()) [.flush (.ok ())]
  | unflushed (e : Fault) : Sending [] (.error e) [.flush (.error e)]
  | interrupted {bs : Bytes} {r : Except Fault Unit} {evs : List Event} {e : Fault}
      (hk : e.kind = .interrupted) (h : Sending bs r evs) :
      Sending bs r (.write bs (.error e) :: evs)
  | taken {bs : Bytes} {r : Except Fault Unit} {evs : List Event} (n : Nat)
      (h : Sending (bs.drop (n + 1)) r evs) : Sending bs r (.write bs (.ok (n + 1)) :: evs)
  | nothing (bs : Bytes) : Sending bs (.error .wroteNothing) [.write bs (.ok 0)]
  | failed (bs : Bytes) {e : Fault} (hk : e.kind ≠ .interrupted) :
      Sending bs (.error e) [.write bs (.error e)]

namespace Sending

variable {bs : Bytes} {r : Except Fault Unit} {evs : List Event}

theorem accepted_prefix (h : Sending bs r evs) : accepted evs <+: bs := by
  induction h with
  | flushed | unflushed | nothing => exact List.nil_prefix
  | failed bs => exact List.nil_prefix
  | interrupted _ _ ih => exact ih
  | @taken bs r evs n _ ih =>
    rw [accepted_cons]
    show bs.take (n + 1) ++ accepted evs <+: bs
    obtain ⟨left, hleft⟩ := ih
    exact ⟨left, by rw [List.append_assoc, hleft, List.take_append_drop]⟩

/-- A sending that succeeds puts everything out, and flushes behind it. -/
theorem whole (h : Sending bs (.ok ()) evs) :
    accepted evs = bs ∧ ∃ writes, evs = writes ++ [.flush (.ok ())] := by
  generalize hr : (Except.ok () : Except Fault Unit) = r at h
  induction h with
  | flushed => exact ⟨rfl, [], rfl⟩
  | unflushed | nothing | failed => cases hr
  | interrupted _ _ ih =>
    obtain ⟨htaken, writes, rfl⟩ := ih hr
    exact ⟨htaken, _ :: writes, rfl⟩
  | @taken bs r evs n _ ih =>
    obtain ⟨htaken, writes, rfl⟩ := ih hr
    refine ⟨?_, _ :: writes, rfl⟩
    rw [accepted_cons, htaken]
    exact List.take_append_drop (n + 1) bs

theorem flushes_eq (h : Sending bs (.ok ()) evs) : flushes evs = 1 := by
  generalize hr : (Except.ok () : Except Fault Unit) = r at h
  induction h with
  | flushed => rfl
  | unflushed | nothing | failed => cases hr
  | interrupted _ _ ih => exact ih hr
  | taken _ _ ih => exact ih hr

end Sending

/-! ## What the writing loops leave in the log -/

/-- The last attempt is the one that is answered; the ones before it were interrupted. -/
theorem traced_writeSome (snk : Sink σ) (bs : Bytes) (s : σ × List Event) :
    ∃ evs, (snk.traced.writeSome bs s).2.2 = s.2 ++ evs ∧
      match (snk.traced.writeSome bs s).1 with
      | .ok 0 => Sending bs (.error .wroteNothing) evs
      | .ok (n + 1) => ∀ {r more}, Sending (bs.drop (n + 1)) r more → Sending bs r (evs ++ more)
      | .error e => Sending bs (.error e) evs := by
  fun_induction writeSome snk.traced bs s with
  | case1 s n t hw =>
    obtain ⟨hanswer, rfl⟩ := Prod.mk.inj hw
    refine ⟨[.write bs (.ok n)], by rw [← hanswer], ?_⟩
    cases n with
    | zero => exact .nothing bs
    | succ n => exact fun h => .taken n h
  | case2 s e t hw hk _ ih =>
    obtain ⟨hanswer, rfl⟩ := Prod.mk.inj hw
    obtain ⟨evs, hlog, hevs⟩ := ih
    refine ⟨.write bs (.error e) :: evs, ?_, ?_⟩
    · rw [hlog, ← hanswer]
      exact List.append_assoc ..
    · split at hevs
      · exact .interrupted hk hevs
      · exact fun h => .interrupted hk (hevs h)
      · exact .interrupted hk hevs
  | case3 s e t hw hk =>
    obtain ⟨hanswer, rfl⟩ := Prod.mk.inj hw
    exact ⟨[.write bs (.error e)], by rw [← hanswer], .failed bs hk⟩

theorem traced_writeAll (snk : Sink σ) (bs : Bytes) (s : σ × List Event) :
    ∃ evs, (snk.traced.writeAll bs s).2.2 = s.2 ++ evs ∧
      match (snk.traced.writeAll bs s).1 with
      | .ok () => ∀ {r more}, Sending [] r more → Sending bs r (evs ++ more)
      | .error e => Sending bs (.error e) evs := by
  fun_induction writeAll snk.traced bs s with
  | case1 s => exact ⟨[], (List.append_nil _).symm, fun h => h⟩
  | case2 bs s hb e t hw =>
    obtain ⟨evs, hlog, hevs⟩ := traced_writeSome snk bs s
    rw [hw] at hlog hevs
    exact ⟨evs, hlog, hevs⟩
  | case3 bs s hb t hw =>
    obtain ⟨evs, hlog, hevs⟩ := traced_writeSome snk bs s
    rw [hw] at hlog hevs
    exact ⟨evs, hlog, hevs⟩
  | case4 bs s hb n t hw _ ih =>
    obtain ⟨evs, hlog, hevs⟩ := traced_writeSome snk bs s
    rw [hw] at hlog hevs
    obtain ⟨more, hlog', hmore⟩ := ih
    refine ⟨evs ++ more, ?_, ?_⟩
    · rw [hlog', hlog, List.append_assoc]
    · split at hmore
      · intro r rest h
        rw [List.append_assoc]
        exact hevs (hmore h)
      · exact hevs hmore

theorem accepted_writeAll {snk : Sink σ} {bs : Bytes} {s t : σ × List Event}
    (h : snk.traced.writeAll bs s = (.ok (), t)) : accepted t.2 = accepted s.2 ++ bs := by
  obtain ⟨evs, hlog, hevs⟩ := traced_writeAll snk bs s
  rw [h] at hlog hevs
  obtain ⟨htaken, -⟩ := (hevs .flushed).whole
  rw [accepted_append] at htaken
  have hflush : accepted [Event.flush (.ok ())] = [] := rfl
  rw [hflush, List.append_nil] at htaken
  rw [hlog, accepted_append, htaken]

end Sink
end RemoteCall
