import RemoteCall.Proofs.Frame.Framing
import RemoteCall.Proofs.Stream.Buffering

/-!
Frames over sources that cannot be told apart, and over sinks with books.

Reading a frame is made of the reading loops, so from two sources that play the same events
it comes to the same, well or badly, and leaves them alike again (`readWith_alike`).
Sending a frame ends with a flush, so between two frames a sink holds nothing back
(`Sink.Ledger.Calm`), and sinks that are calm with even books stay so
(`Sink.Ledger.Even.post`).
-/

namespace RemoteCall
namespace Frame

variable {σ τ α : Type} {src : Source σ} {src' : Source τ} {s : σ} {t : τ}

/-! ## Reading -/

theorem readInside_alike (h : src.Alike s src' t) (n : Nat) :
    ∃ answer s' t', readInside src n s = (answer, s') ∧ readInside src' n t = (answer, t') ∧
      src.Alike s' src' t' := by
  obtain ⟨answer, s', t', hr, hr', ha⟩ := h.readExact n
  rw [readInside, readInside, hr, hr']
  cases answer with
  | error e => exact ⟨_, s', t', rfl, rfl, ha⟩
  | ok bs => exact ⟨_, s', t', rfl, rfl, ha⟩

theorem readBody_alike (h : src.Alike s src' t) :
    ∃ answer s' t', readBody src s = (answer, s') ∧ readBody src' t = (answer, t') ∧
      src.Alike s' src' t' := by
  obtain ⟨first, s₁, t₁, hv, hv', h₁⟩ := h.readSome_one
  rw [readBody, readBody, hv, hv']
  rcases first with e | _ | ⟨v, vs⟩
  · exact ⟨_, s₁, t₁, rfl, rfl, h₁⟩
  · exact ⟨_, s₁, t₁, rfl, rfl, h₁⟩
  · dsimp only
    by_cases hversion : v ≠ version
    · rw [if_pos hversion, if_pos hversion]
      exact ⟨_, s₁, t₁, rfl, rfl, h₁⟩
    · rw [if_neg hversion, if_neg hversion]
      obtain ⟨length, s₂, t₂, hl, hl', h₂⟩ := readInside_alike h₁ 4
      rw [hl, hl']
      cases length with
      | error e => exact ⟨_, s₂, t₂, rfl, rfl, h₂⟩
      | ok size =>
        dsimp only
        by_cases hsize : maxBody < Bytes.readLE size
        · rw [if_pos hsize, if_pos hsize]
          exact ⟨_, s₂, t₂, rfl, rfl, h₂⟩
        · rw [if_neg hsize, if_neg hsize]
          obtain ⟨body, s₃, t₃, hb, hb', h₃⟩ := readInside_alike h₂ (Bytes.readLE size)
          rw [hb, hb']
          cases body with
          | error e => exact ⟨_, s₃, t₃, rfl, rfl, h₃⟩
          | ok bs => exact ⟨_, s₃, t₃, rfl, rfl, h₃⟩

theorem readWith_alike (decode : Bytes → Except CodecError α) (h : src.Alike s src' t) :
    ∃ answer s' t', readWith decode src s = (answer, s') ∧
      readWith decode src' t = (answer, t') ∧ src.Alike s' src' t' := by
  obtain ⟨answer, s', t', hr, hr', ha⟩ := readBody_alike h
  rw [readWith, readWith, hr, hr']
  rcases answer with e | _ | body
  · exact ⟨_, s', t', rfl, rfl, ha⟩
  · exact ⟨_, s', t', rfl, rfl, ha⟩
  · exact ⟨_, s', t', rfl, rfl, ha⟩

end Frame

/-! ## Sending -/

namespace Sink.Ledger

variable {σ τ : Type} {snk : Sink σ} {snk' : Sink τ}

/-- The sink takes everything and holds nothing back. -/
structure Calm (L : snk.Ledger) (s : σ) : Prop where
  ready : L.ready s
  sent : L.sent s = L.written s

/-- Two calm sinks that have sent the same and were flushed equally often. -/
structure Even (L : snk.Ledger) (L' : snk'.Ledger) (s : σ) (t : τ) : Prop where
  calm : L.Calm s
  calm' : L'.Calm t
  sent : L.sent s = L'.sent t
  flushes : L.flushes s = L'.flushes t

theorem Calm.post {L : snk.Ledger} {s : σ} (hs : L.Calm s) {body : Bytes}
    (hb : body.length ≤ Frame.maxBody) :
    ∃ t u, Frame.writeBody snk body s = (.ok (), t) ∧ snk.flush t = (.ok (), u) ∧ L.Calm u ∧
      L.sent u = L.sent s ++ Frame.framed body ∧ L.flushes u = L.flushes s + 1 := by
  obtain ⟨t, hw, ht, hwritten, hcount⟩ := L.writeAll (Frame.header body.length) hs.ready
  obtain ⟨u, hw', hu, hwritten', hcount'⟩ := L.writeAll body ht
  obtain ⟨v, hf, hv, hwritten'', hsent, hflushed⟩ := L.flush hu
  refine ⟨u, v, ?_, hf, ⟨hv, hsent.trans hwritten''.symm⟩, ?_, ?_⟩
  · rw [Frame.writeBody, if_neg (by omega), hw]
    dsimp only
    rw [hw']
  · rw [hsent, hwritten', hwritten, ← hs.sent, List.append_assoc, Frame.framed]
  · rw [hflushed, hcount', hcount]

/-- Both sinks refuse a body that is too large, and nothing is written of it; any other is
sent by both. -/
theorem Even.post {L : snk.Ledger} {L' : snk'.Ledger} {s : σ} {t : τ} (h : L.Even L' s t)
    (body : Bytes) :
    (∃ e, Frame.writeBody snk body s = (.error e, s) ∧
      Frame.writeBody snk' body t = (.error e, t)) ∨
    ∃ s₁ s₂ t₁ t₂, (Frame.writeBody snk body s = (.ok (), s₁) ∧ snk.flush s₁ = (.ok (), s₂)) ∧
      (Frame.writeBody snk' body t = (.ok (), t₁) ∧ snk'.flush t₁ = (.ok (), t₂)) ∧
      L.Even L' s₂ t₂ := by
  by_cases hb : body.length ≤ Frame.maxBody
  · obtain ⟨s₁, s₂, hw, hf, hs, hsent, hcount⟩ := h.calm.post hb
    obtain ⟨t₁, t₂, hw', hf', ht, hsent', hcount'⟩ := h.calm'.post hb
    refine Or.inr ⟨s₁, s₂, t₁, t₂, ⟨hw, hf⟩, ⟨hw', hf'⟩, hs, ht, ?_, ?_⟩
    · rw [hsent, hsent', h.sent]
    · rw [hcount, hcount', h.flushes]
  · have hlarge : Frame.maxBody < body.length := Nat.lt_of_not_le hb
    refine Or.inl ⟨.frameTooLarge body.length, ?_, ?_⟩
    · rw [Frame.writeBody, if_pos hlarge]
    · rw [Frame.writeBody, if_pos hlarge]

end Sink.Ledger
end RemoteCall
