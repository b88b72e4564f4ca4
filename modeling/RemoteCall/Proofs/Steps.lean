/-!
Runs of a system that takes one labelled step after the other.
-/

namespace RemoteCall

/-- `Steps step s as t`: from `s` the steps labelled `as` lead to `t`. -/
inductive Steps {σ α : Type} (step : σ → α → σ → Prop) (s : σ) : List α → σ → Prop where
  | refl : Steps step s [] s
  | snoc {as : List α} {a : α} {t u : σ} (h : Steps step s as t) (ha : step t a u) :
      Steps step s (as ++ [a]) u

namespace Steps

variable {σ α : Type} {step : σ → α → σ → Prop} {s t u : σ} {as bs : List α} {a : α}

theorem single (h : step s a t) : Steps step s [a] t :=
  refl.snoc h

theorem trans (h : Steps step s as t) (h' : Steps step t bs u) : Steps step s (as ++ bs) u := by
  induction h' with
  | refl =>
    rw [List.append_nil]
    exact h
  | snoc _ ha ih =>
    rw [← List.append_assoc]
    exact ih.snoc ha

theorem cons (ha : step s a t) (h : Steps step t as u) : Steps step s (a :: as) u :=
  (single ha).trans h

/-- A run passes through a state wherever its steps are cut. -/
theorem exists_of_append (h : Steps step s (as ++ bs) u) :
    ∃ t, Steps step s as t ∧ Steps step t bs u := by
  generalize hall : as ++ bs = all at h
  induction h generalizing bs with
  | refl =>
    obtain ⟨rfl, rfl⟩ := List.append_eq_nil_iff.mp hall
    exact ⟨s, .refl, .refl⟩
  | @snoc front a t u hfront ha ih =>
    rcases List.eq_nil_or_concat bs with rfl | ⟨rest, b, rfl⟩
    · rw [List.append_nil] at hall
      exact ⟨u, hall ▸ hfront.snoc ha, .refl⟩
    · rw [List.concat_eq_append, ← List.append_assoc] at hall
      obtain ⟨hfronts, hlast⟩ := List.append_inj' hall rfl
      obtain rfl : b = a := List.singleton_inj.mp hlast
      obtain ⟨v, hv, hrest⟩ := ih hfronts
      rw [List.concat_eq_append]
      exact ⟨v, hv, hrest.snoc ha⟩

theorem eq_of_nil (h : Steps step s [] t) : t = s := by
  generalize hall : [] = all at h
  cases h with
  | refl => rfl
  | snoc => exact absurd hall.symm (List.concat_ne_nil _ _)

theorem exists_of_cons (h : Steps step s (a :: as) u) : ∃ t, step s a t ∧ Steps step t as u := by
  have hcut : Steps step s ([a] ++ as) u := h
  obtain ⟨t, hfirst, hrest⟩ := hcut.exists_of_append
  refine ⟨t, ?_, hrest⟩
  generalize hall : [a] = all at hfirst
  cases hfirst with
  | refl => cases hall
  | snoc hnone ha =>
    obtain ⟨hnil, hlast⟩ := List.append_inj' ((List.nil_append [a]).trans hall) rfl
    obtain rfl := List.singleton_inj.mp hlast
    rw [← hnil] at hnone
    exact hnone.eq_of_nil ▸ ha

theorem exists_of_mem (h : Steps step s as t) (ha : a ∈ as) : ∃ u v, step u a v := by
  induction h with
  | refl => cases ha
  | snoc _ hstep ih =>
    rcases List.mem_append.mp ha with ha | ha
    · exact ih ha
    · exact ⟨_, _, List.mem_singleton.mp ha ▸ hstep⟩

end Steps
end RemoteCall
