import RemoteCall.Configuration
import RemoteCall.Endpoint.Table

/-!
Registries: which interface is served by which table.

Registration is first-come: an interface that has a table keeps it.
-/

namespace RemoteCall

/-- The tables that calls can reach, one for each interface. -/
structure Registry (σ : Type) where
  tables : List (InterfaceTable σ)
  distinct : tables.Pairwise fun t u => t.id ≠ u.id

namespace Registry

variable {σ : Type}

def empty : Registry σ := ⟨[], .nil⟩

def lookup? (r : Registry σ) (id : String) : Option (InterfaceTable σ) :=
  r.tables.find? fun t => t.id == id

def isRegistered (r : Registry σ) (id : String) : Bool := (r.lookup? id).isSome

/-- The registered interfaces, in order. -/
def ids (r : Registry σ) : List String := (r.tables.map InterfaceTable.id).mergeSort

theorem id_ne_of_lookup?_eq_none {r : Registry σ} {id : String} (h : r.lookup? id = none) :
    ∀ t ∈ r.tables, t.id ≠ id := by
  simpa [lookup?] using h

/-- Adds the table of an interface that has none yet. -/
def insert (r : Registry σ) (t : InterfaceTable σ) (h : r.lookup? t.id = none) : Registry σ where
  tables := r.tables ++ [t]
  distinct := by
    refine List.pairwise_append.2 ⟨r.distinct, List.pairwise_singleton .., fun u hu v hv => ?_⟩
    rw [List.mem_singleton.1 hv]
    exact id_ne_of_lookup?_eq_none h u hu

def register (r : Registry σ) (t : InterfaceTable σ) : Except ConfigurationError (Registry σ) :=
  match h : r.lookup? t.id with
  | some _ => .error (.alreadyRegistered t.id)
  | none => .ok (r.insert t h)

/-- Registers the one table of an implementation that is no marker. -/
def registerImplementation (r : Registry σ) (name : String) (tables : List (InterfaceTable σ)) :
    Except ConfigurationError (Registry σ) :=
  match tables.filter fun t => !t.isMarker with
  | [] => .error (.noInterface name)
  | [t] => r.register t
  | _ => .error (.multipleInterfaces name)

theorem register_of_some {r : Registry σ} {t u : InterfaceTable σ} (h : r.lookup? t.id = some u) :
    r.register t = .error (.alreadyRegistered t.id) := by
  unfold register
  split
  · rfl
  · next hnone => exact absurd (hnone.symm.trans h) (by simp)

theorem register_of_none {r : Registry σ} {t : InterfaceTable σ} (h : r.lookup? t.id = none) :
    r.register t = .ok (r.insert t h) := by
  unfold register
  split
  · next u hsome => exact absurd (hsome.symm.trans h) (by simp)
  · rfl

theorem lookup?_insert (r : Registry σ) (t : InterfaceTable σ) (h : r.lookup? t.id = none)
    (id : String) : (r.insert t h).lookup? id = if t.id = id then some t else r.lookup? id := by
  unfold lookup? insert
  rw [List.find?_append]
  by_cases hi : t.id = id
  · subst hi
    simp only [lookup?] at h
    simp [h]
  · simp [hi]

end Registry

end RemoteCall
