/-!
Operations on a state that is changed in place.

A function that returns a new state or an error cannot leave anything half done.  An
operation in place can: what it has changed by the time it fails stays changed.
`InPlace.Realizes` says that an operation comes to what such a function says all the same,
so that nothing shows of it when it fails.
-/

namespace RemoteCall

/-- An operation that reads and changes a state, and may fail at any point. -/
abbrev InPlace (σ ε α : Type) := ExceptT ε (StateM σ) α

namespace InPlace

variable {σ ε α β : Type} {s t : σ} {e : ε}

def perform (op : InPlace σ ε α) (s : σ) : Except ε α × σ := (op.run.run s).run

/-- Goes on with what a check lets through, or fails as the check does. -/
def require (check : Except ε α) : InPlace σ ε α := ExceptT.mk (pure check)

theorem perform_get_bind (next : σ → InPlace σ ε β) (s : σ) :
    (get >>= next).perform s = (next s).perform s := rfl

def rename {ε' : Type} (f : ε → ε') (op : InPlace σ ε α) : InPlace σ ε' α :=
  ExceptT.mk ((Except.mapError f) <$> op.run)

theorem perform_rename {ε' : Type} (f : ε → ε') (op : InPlace σ ε α) (s : σ) :
    (op.rename f).perform s = ((op.perform s).1.mapError f, (op.perform s).2) := rfl

/-- The state that a function makes is put in place; a refusal leaves the old one there. -/
def settle (r : Except ε σ) (s : σ) : Except ε Unit × σ :=
  match r with
  | .ok t => (.ok (), t)
  | .error e => (.error e, s)

/-- The operation does what a function says, or refuses as the function does and then leaves
the state as it was. -/
def Realizes (op : InPlace σ ε Unit) (f : σ → Except ε σ) : Prop :=
  ∀ s, op.perform s = settle (f s) s

variable {op : InPlace σ ε Unit} {f : σ → Except ε σ}

theorem Realizes.of_error (h : op.Realizes f) (hs : op.perform s = (.error e, t)) :
    f s = .error e ∧ t = s := by
  have hf : settle (f s) s = (.error e, t) := (h s).symm.trans hs
  cases hr : f s with
  | ok u =>
    rw [hr] at hf
    cases (Prod.mk.inj hf).1
  | error e' =>
    rw [hr] at hf
    obtain ⟨he, hst⟩ := Prod.mk.inj hf
    exact ⟨congrArg Except.error (Except.error.inj he), hst.symm⟩

theorem realizes_modify (f : σ → σ) :
    (modify f : InPlace σ ε Unit).Realizes fun s => .ok (f s) :=
  fun _ => rfl

/-- A check in front of an operation, which the state has to pass. -/
theorem Realizes.checked (h : op.Realizes f) (check : σ → Except ε α) :
    (do let s ← get; let _ ← require (check s); op : InPlace σ ε Unit).Realizes fun s =>
      check s >>= fun _ => f s := by
  intro s
  show (require (check s) >>= fun _ => op).perform s = settle (check s >>= fun _ => f s) s
  cases check s with
  | ok a => exact h s
  | error e => rfl

theorem Realizes.rename {ε' : Type} (h : op.Realizes f) (g : ε → ε') :
    (op.rename g).Realizes fun s => (f s).mapError g := by
  intro s
  rw [perform_rename, h s]
  show ((settle (f s) s).1.mapError g, (settle (f s) s).2) = settle ((f s).mapError g) s
  cases f s <;> rfl

end InPlace
end RemoteCall
