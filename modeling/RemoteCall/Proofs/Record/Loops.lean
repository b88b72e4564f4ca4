import RemoteCall.Record.Pump

/-!
The loops of a pump.

`Loops` follows a loop step by step up to its result and counts how often it goes round
(`Rounds` follows it for a while only), so what a loop does is proved by induction on it,
whatever the limit on its steps: any limit above the count gives the same result
(`Loops.repeatStep_eq`).  A loop whose rounds lower a measure has such a run
(`exists_loops`).

An engine that keeps a log besides makes a pump do just what the engine alone makes it do
(`Pump.read_unwatched`).
-/

namespace RemoteCall
namespace Record

variable {σ α : Type} {step : σ → Turn α × σ} {s t u : σ} {r : Except Fault α}

/-- From `s` the loop goes round `n` times and then stops with a result. -/
inductive Loops (step : σ → Turn α × σ) : σ → Nat → Except Fault α → σ → Prop where
  | stop {s t : σ} {r : Except Fault α} (h : step s = (.stop r, t)) : Loops step s 0 r t
  | again {s t u : σ} {r : Except Fault α} {n : Nat} (h : step s = (.again, t))
      (hrest : Loops step t n r u) : Loops step s (n + 1) r u

/-- From `s` the loop goes round `n` times and comes to `t`. -/
inductive Rounds (step : σ → Turn α × σ) : σ → Nat → σ → Prop where
  | refl (s : σ) : Rounds step s 0 s
  | again {s t u : σ} {n : Nat} (h : step s = (.again, t)) (hrest : Rounds step t n u) :
      Rounds step s (n + 1) u

theorem Rounds.trans {n m : Nat} (h : Rounds step s n t) (hrest : Rounds step t m u) :
    Rounds step s (n + m) u := by
  induction h with
  | refl =>
    rw [Nat.zero_add]
    exact hrest
  | again h _ ih =>
    rw [Nat.succ_add]
    exact .again h (ih hrest)

theorem Rounds.loops {n m : Nat} (h : Rounds step s n t) (hrest : Loops step t m r u) :
    Loops step s (n + m) r u := by
  induction h with
  | refl =>
    rw [Nat.zero_add]
    exact hrest
  | again h _ ih =>
    rw [Nat.succ_add]
    exact .again h (ih hrest)

theorem Loops.repeatStep_eq {n limit : Nat} (h : Loops step s n r t) (hlimit : n < limit) :
    repeatStep step limit s = (some r, t) := by
  induction h generalizing limit with
  | stop h =>
    obtain ⟨limit, rfl⟩ := Nat.exists_eq_add_of_lt hlimit
    rw [Nat.zero_add, repeatStep, h]
  | @again _ _ _ _ n h _ ih =>
    cases limit with
    | zero => omega
    | succ limit =>
      rw [repeatStep, h]
      exact ih (by omega)

/-- A loop goes round no more often than a measure allows that every round lowers. -/
theorem exists_loops (measure : σ → Nat)
    (hless : ∀ s t, step s = (.again, t) → measure t < measure s) (s : σ) :
    ∃ n r t, n ≤ measure s ∧ Loops step s n r t := by
  generalize hm : measure s = m
  induction m using Nat.strongRecOn generalizing s with
  | ind m ih =>
    match hstep : step s with
    | (.stop r, t) => exact ⟨0, r, t, Nat.zero_le m, .stop hstep⟩
    | (.again, t) =>
      have hlt := hless s t hstep
      obtain ⟨n, r, u, hn, hrest⟩ := ih (measure t) (hm ▸ hlt) t rfl
      exact ⟨n + 1, r, u, by omega, .again hstep hrest⟩

theorem repeatStep_map {τ : Type} {step' : τ → Turn α × τ} (view : σ → τ)
    (h : ∀ s, step' (view s) = ((step s).1, view (step s).2)) (limit : Nat) (s : σ) :
    repeatStep step' limit (view s) =
      ((repeatStep step limit s).1, view (repeatStep step limit s).2) := by
  induction limit generalizing s with
  | zero => rfl
  | succ limit ih =>
    rw [repeatStep, repeatStep, h]
    match step s with
    | (.again, t) => exact ih t
    | (.stop r, t) => rfl

def Ends.watched {ι ω ε : Type} (d : Ends ι ω ε) : Ends ι ω (ε × List Engine.Call) :=
  ⟨d.source, d.sink, d.engine.traced⟩

variable {ε κ : Type}

/-- An engine that unwraps as `e` does and keeps something besides. -/
def Engine.Unwraps (e' : Engine (ε × κ)) (e : Engine ε) : Prop :=
  ∀ src dst s, e.unwrap src dst s.1 =
    ⟨(e'.unwrap src dst s).report, (e'.unwrap src dst s).src, (e'.unwrap src dst s).dst,
      (e'.unwrap src dst s).engine.1⟩

theorem Engine.traced_unwraps (e : Engine ε) : e.traced.Unwraps e := fun _ _ _ => rfl

namespace Pump

variable {ι ω : Type}

def unwatched (p : Pump ι ω (ε × κ)) : Pump ι ω ε :=
  ⟨p.input, p.output, p.engine.1, p.netIn, p.netOut⟩

variable {source : Source ι} {sink : Sink ω} {e : Engine ε}

theorem fill_unwatched (e' : Engine (ε × κ)) (p : Pump ι ω (ε × κ)) :
    p.unwatched.fill ⟨source, sink, e⟩ =
      ((p.fill ⟨source, sink, e'⟩).1, (p.fill ⟨source, sink, e'⟩).2.unwatched) := by
  by_cases hroom : p.netIn.remaining = 0
  · have hleft : p.unwatched.fill ⟨source, sink, e⟩ = _ := if_pos hroom
    have hright : p.fill ⟨source, sink, e'⟩ = _ := if_pos hroom
    rw [hleft, hright]
  · have hleft : p.unwatched.fill ⟨source, sink, e⟩ = _ := if_neg hroom
    have hright : p.fill ⟨source, sink, e'⟩ = _ := if_neg hroom
    rw [hleft, hright]
    dsimp only [unwatched]
    match source.readSome p.netIn.remaining p.input with
    | (.error e, i) => rfl
    | (.ok [], i) => rfl
    | (.ok (b :: bs), i) => rfl

theorem fillOn_unwatched {α : Type} (e' : Engine (ε × κ)) (atEnd : Except Fault α)
    (p : Pump ι ω (ε × κ)) :
    p.unwatched.fillOn ⟨source, sink, e⟩ atEnd =
      ((p.fillOn ⟨source, sink, e'⟩ atEnd).1,
        (p.fillOn ⟨source, sink, e'⟩ atEnd).2.unwatched) := by
  rw [fillOn, fillOn, fill_unwatched e']
  match p.fill ⟨source, sink, e'⟩ with
  | (.error e, q) => rfl
  | (.ok false, q) => rfl
  | (.ok true, q) => rfl

variable {e' : Engine (ε × κ)}

theorem readStep_unwatched (h : e'.Unwraps e) (s : Pump ι ω (ε × κ) × Window) :
    readStep ⟨source, sink, e⟩ (s.1.unwatched, s.2) =
      ((readStep ⟨source, sink, e'⟩ s).1, (readStep ⟨source, sink, e'⟩ s).2.1.unwatched,
        (readStep ⟨source, sink, e'⟩ s).2.2) := by
  have hunwrap : s.1.unwatched.unwrap ⟨source, sink, e⟩ s.2 =
      ((s.1.unwrap ⟨source, sink, e'⟩ s.2).1, (s.1.unwrap ⟨source, sink, e'⟩ s.2).2.1,
        (s.1.unwrap ⟨source, sink, e'⟩ s.2).2.2.unwatched) := by
    have hsame := h s.1.netIn.flip s.2 s.1.engine
    simp only [unwrap, unwatched, hsame]
  rw [readStep, readStep, hunwrap]
  match s.1.unwrap ⟨source, sink, e'⟩ s.2 with
  | (.error e, app, q) => rfl
  | (.ok r, app, q) =>
    dsimp only
    cases r.status with
    | ok => dsimp only; split <;> rfl
    | bufferUnderflow => dsimp only; rw [fillOn_unwatched e']
    | bufferOverflow => rfl
    | closed => rfl

theorem read_unwatched (h : e'.Unwraps e) (limit : Nat) (app : Window)
    (p : Pump ι ω (ε × κ)) :
    p.unwatched.read ⟨source, sink, e⟩ limit app =
      ((p.read ⟨source, sink, e'⟩ limit app).1,
        (p.read ⟨source, sink, e'⟩ limit app).2.1.unwatched,
        (p.read ⟨source, sink, e'⟩ limit app).2.2) :=
  @repeatStep_map _ _ (readStep ⟨source, sink, e'⟩) _ _ (fun s => (s.1.unwatched, s.2))
    (readStep_unwatched h) limit (p, app)

end Pump
end Record
end RemoteCall
