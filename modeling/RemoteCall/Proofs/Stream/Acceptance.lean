import RemoteCall.Stream.Sink
import RemoteCall.Stream.Script

/-!
Sinks that take what they are offered.

`Sink.Accepts snk taken s` says that from the state `s` on no write and no flush fails:
a write may be interrupted and may take a part only, but it takes something.  `taken`
is the record of the bytes taken so far.  Under it `writeAll` succeeds and appends its
bytes to the record, however they were taken.
-/

namespace RemoteCall
namespace Sink

variable {σ : Type}

/-- States in which a sink is ready, and stays so. -/
structure Acceptance (snk : Sink σ) (taken : σ → Bytes) (ready : σ → Prop) : Prop where
  write : ∀ {bs s}, bs ≠ [] → ready s →
    (∃ e t, snk.write bs s = (.error e, t) ∧ e.kind = .interrupted ∧ ready t ∧
      taken t = taken s) ∨
    (∃ n t, snk.write bs s = (.ok (n + 1), t) ∧ n < bs.length ∧ ready t ∧
      taken t = taken s ++ bs.take (n + 1))
  flush : ∀ {s}, ready s → ∃ t, snk.flush s = (.ok (), t) ∧ ready t ∧ taken t = taken s

/-- From `s` on, the sink takes whatever it is offered. -/
def Accepts (snk : Sink σ) (taken : σ → Bytes) (s : σ) : Prop :=
  ∃ ready, snk.Acceptance taken ready ∧ ready s

variable {snk : Sink σ} {taken : σ → Bytes}

/-- From `s` the sink has come to `t`: it still takes everything, and what it took
before is still the front of its record. -/
structure Grows (snk : Sink σ) (taken : σ → Bytes) (s t : σ) : Prop where
  accepts : snk.Accepts taken t
  front : taken s <+: taken t

theorem Grows.refl {s : σ} (h : snk.Accepts taken s) : snk.Grows taken s s :=
  ⟨h, List.prefix_rfl⟩

theorem Grows.trans {s t u : σ} (h : snk.Grows taken s t) (h' : snk.Grows taken t u) :
    snk.Grows taken s u :=
  ⟨h'.accepts, h.front.trans h'.front⟩

namespace Acceptance

variable {ready : σ → Prop} {s : σ} {bs : Bytes}

theorem writeSome (ha : snk.Acceptance taken ready) (hb : bs ≠ []) (hs : ready s) :
    ∃ n t, snk.writeSome bs s = (.ok (n + 1), t) ∧ n < bs.length ∧ ready t ∧
      taken t = taken s ++ bs.take (n + 1) := by
  fun_induction Sink.writeSome snk bs s with
  | case1 s n' t' hw =>
    rcases ha.write hb hs with ⟨e, t, hw', -⟩ | ⟨n, t, hw', hn, ht, htaken⟩
    · rw [hw] at hw'
      simp at hw'
    · rw [hw] at hw'
      simp only [Prod.mk.injEq, Except.ok.injEq] at hw'
      obtain ⟨rfl, rfl⟩ := hw'
      exact ⟨n, t', rfl, hn, ht, htaken⟩
  | case2 s e t' hw hk _ ih =>
    rcases ha.write hb hs with ⟨e', t, hw', -, ht, htaken⟩ | ⟨n, t, hw', -⟩
    · rw [hw] at hw'
      simp only [Prod.mk.injEq, Except.error.injEq] at hw'
      obtain ⟨-, rfl⟩ := hw'
      rw [← htaken]
      exact ih ht
    · rw [hw] at hw'
      simp at hw'
  | case3 s e t' hw hk =>
    rcases ha.write hb hs with ⟨e', t, hw', hk', -⟩ | ⟨n, t, hw', -⟩
    · rw [hw] at hw'
      simp only [Prod.mk.injEq, Except.error.injEq] at hw'
      exact absurd (hw'.1 ▸ hk') hk
    · rw [hw] at hw'
      simp at hw'

theorem writeAll (ha : snk.Acceptance taken ready) (bs : Bytes) (hs : ready s) :
    ∃ t, snk.writeAll bs s = (.ok (), t) ∧ ready t ∧ taken t = taken s ++ bs := by
  generalize hn : bs.length = n
  induction n using Nat.strongRecOn generalizing s bs with
  | ind n ih =>
    rw [Sink.writeAll]
    by_cases hb : bs = []
    · rw [dif_pos hb]
      exact ⟨s, rfl, hs, by rw [hb, List.append_nil]⟩
    · rw [dif_neg hb]
      obtain ⟨k, t, hw, hk, ht, htaken⟩ := ha.writeSome hb hs
      obtain ⟨u, hu, hready, htaken'⟩ := ih (n - (k + 1)) (by omega) (bs.drop (k + 1)) ht (by
        rw [List.length_drop]
        omega)
      refine ⟨u, ?_, hready, ?_⟩
      · rw [hw]
        exact hu
      · rw [htaken', htaken, List.append_assoc, List.take_append_drop]

end Acceptance

theorem writeAll_accepts (bs : Bytes) {s : σ} (h : snk.Accepts taken s) :
    ∃ t, snk.writeAll bs s = (.ok (), t) ∧ snk.Accepts taken t ∧ taken t = taken s ++ bs := by
  obtain ⟨ready, ha, hs⟩ := h
  obtain ⟨t, hw, ht, htaken⟩ := ha.writeAll bs hs
  exact ⟨t, hw, ⟨ready, ha, ht⟩, htaken⟩

theorem flush_accepts {s : σ} (h : snk.Accepts taken s) :
    ∃ t, snk.flush s = (.ok (), t) ∧ snk.Accepts taken t ∧ taken t = taken s := by
  obtain ⟨ready, ha, hs⟩ := h
  obtain ⟨t, hf, ht, htaken⟩ := ha.flush hs
  exact ⟨t, hf, ⟨ready, ha, ht⟩, htaken⟩

theorem flush_grows {s : σ} (h : snk.Accepts taken s) : snk.Grows taken s (snk.flush s).2 := by
  obtain ⟨t, hf, ht, htaken⟩ := flush_accepts h
  rw [hf]
  exact ⟨ht, [], by rw [htaken, List.append_nil]⟩

end Sink

namespace Script

/-- A scripted sink whose answers are no faults but interruptions, and no refusals, and
whose flushes succeed. -/
structure Uptake.Willing (u : Uptake) : Prop where
  answers : ∀ a ∈ u.answers, match a with
    | .ok n => 0 < n
    | .error e => e.kind = .interrupted
  flushAnswers : ∀ a ∈ u.flushAnswers, a = .ok ()

theorem sink_acceptance : sink.Acceptance Uptake.taken Uptake.Willing where
  write {bs u} hb hu := by
    have hlen : 0 < bs.length := List.length_pos_iff.mpr hb
    obtain ⟨answers, flushAnswers, taken, flushes⟩ := u
    match answers with
    | [] =>
      refine Or.inr ⟨bs.length - 1, ⟨[], flushAnswers, taken ++ bs, flushes⟩, ?_, by omega,
        ⟨hu.answers, hu.flushAnswers⟩, ?_⟩
      · rw [Nat.sub_add_cancel hlen]
        rfl
      · rw [Nat.sub_add_cancel hlen, List.take_length]
    | .error e :: rest =>
      exact Or.inl ⟨e, ⟨rest, flushAnswers, taken, flushes⟩, rfl,
        hu.answers (.error e) List.mem_cons_self,
        ⟨fun a ha => hu.answers a (List.mem_cons_of_mem _ ha), hu.flushAnswers⟩, rfl⟩
    | .ok n :: rest =>
      have hn : 0 < n := hu.answers (.ok n) List.mem_cons_self
      have hmin : min n bs.length - 1 + 1 = min n bs.length := by omega
      refine Or.inr ⟨min n bs.length - 1, ⟨rest, flushAnswers, taken ++ bs.take n, flushes⟩, ?_,
        by omega, ⟨fun a ha => hu.answers a (List.mem_cons_of_mem _ ha), hu.flushAnswers⟩, ?_⟩
      · rw [hmin]
        rfl
      · show taken ++ bs.take n = taken ++ bs.take (min n bs.length - 1 + 1)
        rw [hmin, List.take_eq_take_min]
  flush {u} hu := by
    obtain ⟨answers, flushAnswers, taken, flushes⟩ := u
    match flushAnswers with
    | [] => exact ⟨⟨answers, [], taken, flushes + 1⟩, rfl, ⟨hu.answers, hu.flushAnswers⟩, rfl⟩
    | a :: rest =>
      have ha : a = .ok () := hu.flushAnswers a List.mem_cons_self
      subst ha
      exact ⟨⟨answers, rest, taken, flushes + 1⟩, rfl,
        ⟨hu.answers, fun a ha => hu.flushAnswers a (List.mem_cons_of_mem _ ha)⟩, rfl⟩

theorem sink_accepts {u : Uptake} (h : u.Willing) : sink.Accepts Uptake.taken u :=
  ⟨_, sink_acceptance, h⟩

theorem sink_accepts_empty : sink.Accepts Uptake.taken Uptake.empty :=
  sink_accepts ⟨fun _ ha => absurd ha List.not_mem_nil, fun _ ha => absurd ha List.not_mem_nil⟩

end Script
end RemoteCall
