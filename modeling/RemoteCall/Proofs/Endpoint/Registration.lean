import Mathlib.Data.String.Basic
import RemoteCall.Proofs.Endpoint.Classification
import RemoteCall.Proofs.InPlace
import RemoteCall.Proofs.Steps

/-!
Registration, one call after the other.

A registry that is in use is changed in place: a registration copies the tables, and puts
the copy in their place once the new table is in it.  `Registration.realizes` says that this
comes to the functions on registries, so a registration that is refused leaves no trace.  What
a sequence of registrations has done can be read off its answers: `Registry.registered` are
the tables of those that succeeded, and the registry is these tables and no others
(`Registry.tables_registered`).
-/

namespace RemoteCall

variable {σ : Type}

/-! ## Registering in place -/

namespace Registry

/-- Registers a table.  The tables are copied, and the copy takes their place once the table
is in it. -/
def enter (t : InterfaceTable σ) : InPlace (Registry σ) ConfigurationError Unit := do
  let copy ← get
  match h : copy.lookup? t.id with
  | some _ => throw (.alreadyRegistered t.id)
  | none => set (copy.insert t h)

/-- Registers the last table of an implementation that is no marker, if it is the only one. -/
def enterImplementation (name : String) (tables : List (InterfaceTable σ)) :
    InPlace (Registry σ) ConfigurationError Unit := do
  let offered := tables.filter fun t => !t.isMarker
  match offered.getLast? with
  | none => throw (.noInterface name)
  | some t => if offered.dropLast.isEmpty then enter t else throw (.multipleInterfaces name)

theorem enter_realizes (t : InterfaceTable σ) : (enter t).Realizes fun r => r.register t := by
  intro r
  show (match h : r.lookup? t.id with
    | some _ => throw (.alreadyRegistered t.id)
    | none => set (r.insert t h) : InPlace _ _ Unit).perform r = InPlace.settle (r.register t) r
  split
  · next u h =>
    rw [register_of_some h]
    rfl
  · next h =>
    rw [register_of_none h]
    rfl

theorem enterImplementation_realizes (name : String) (tables : List (InterfaceTable σ)) :
    (enterImplementation name tables).Realizes fun r => r.registerImplementation name tables := by
  intro r
  unfold enterImplementation registerImplementation
  generalize (tables.filter fun t => !t.isMarker) = offered
  match offered with
  | [] => rfl
  | [t] => exact enter_realizes t r
  | t :: u :: rest =>
    dsimp only
    rw [List.getLast?_cons_cons, List.getLast?_cons, List.dropLast_cons_cons]
    rfl

end Registry

/-! ## Sequences of registrations -/

inductive Registration (σ : Type) where
  | ofTable (t : InterfaceTable σ)
  | ofImplementation (name : String) (tables : List (InterfaceTable σ))

namespace Registration

def inPlace : Registration σ → InPlace (Registry σ) ConfigurationError Unit
  | .ofTable t => Registry.enter t
  | .ofImplementation name tables => Registry.enterImplementation name tables

/-- The same by the functions that make a new registry. -/
def apply : Registration σ → Registry σ → Except ConfigurationError (Registry σ)
  | .ofTable t, r => r.register t
  | .ofImplementation name tables, r => r.registerImplementation name tables

theorem realizes (c : Registration σ) : c.inPlace.Realizes c.apply := by
  cases c with
  | ofTable t => exact Registry.enter_realizes t
  | ofImplementation name tables => exact Registry.enterImplementation_realizes name tables

/-- The table that is to be registered: of an implementation, the only one that is no
marker. -/
def table? : Registration σ → Option (InterfaceTable σ)
  | .ofTable t => some t
  | .ofImplementation _ tables =>
    match tables.filter fun t => !t.isMarker with
    | [t] => some t
    | _ => none

theorem table?_ofImplementation {name : String} {tables : List (InterfaceTable σ)}
    {t : InterfaceTable σ} :
    (ofImplementation name tables).table? = some t ↔
      (tables.filter fun t => !t.isMarker) = [t] := by
  rw [table?]
  generalize (tables.filter fun t => !t.isMarker) = offered
  rcases offered with _ | ⟨u, _ | ⟨v, rest⟩⟩ <;> simp

/-- The cases of a registration, each under the condition that leads to it. -/
inductive Fares (r : Registry σ) : Registration σ → Except ConfigurationError (Registry σ) → Prop
  | registered {c : Registration σ} {t : InterfaceTable σ} (ht : c.table? = some t)
      (hnew : r.lookup? t.id = none) : Fares r c (.ok (r.insert t hnew))
  | alreadyRegistered {c : Registration σ} {t u : InterfaceTable σ} (ht : c.table? = some t)
      (hold : r.lookup? t.id = some u) : Fares r c (.error (.alreadyRegistered t.id))
  | noInterface {name : String} {tables : List (InterfaceTable σ)}
      (hnone : (tables.filter fun t => !t.isMarker) = []) :
      Fares r (.ofImplementation name tables) (.error (.noInterface name))
  | multipleInterfaces {name : String} {tables : List (InterfaceTable σ)}
      (hmany : 2 ≤ (tables.filter fun t => !t.isMarker).length) :
      Fares r (.ofImplementation name tables) (.error (.multipleInterfaces name))

theorem fares_register {r : Registry σ} {c : Registration σ} {t : InterfaceTable σ}
    (ht : c.table? = some t) : Fares r c (r.register t) := by
  cases h : r.lookup? t.id with
  | none =>
    rw [Registry.register_of_none h]
    exact .registered ht h
  | some u =>
    rw [Registry.register_of_some h]
    exact .alreadyRegistered ht h

theorem fares (c : Registration σ) (r : Registry σ) : Fares r c (c.apply r) := by
  cases c with
  | ofTable t => exact fares_register rfl
  | ofImplementation name tables =>
    show Fares r _ (r.registerImplementation name tables)
    unfold Registry.registerImplementation
    rcases h : tables.filter fun t => !t.isMarker with _ | ⟨t, _ | ⟨u, rest⟩⟩
    · rw [h]
      exact .noInterface h
    · rw [h]
      exact fares_register (table?_ofImplementation.mpr h)
    · rw [h]
      exact .multipleInterfaces (by rw [h]; simp)

end Registration

namespace Registry

abbrev Entry (σ : Type) := Registration σ × Except ConfigurationError Unit

def Answers (r : Registry σ) (entry : Entry σ) (q : Registry σ) : Prop :=
  entry.1.inPlace.perform r = (entry.2, q)

def registered (log : List (Entry σ)) : List (InterfaceTable σ) :=
  log.filterMap fun entry =>
    match entry.2 with
    | .ok () => entry.1.table?
    | .error _ => none

variable {r q : Registry σ} {c : Registration σ} {answer : Except ConfigurationError Unit}
  {log more : List (Entry σ)}

theorem Answers.settle_eq (h : Answers r (c, answer) q) :
    InPlace.settle (c.apply r) r = (answer, q) :=
  (c.realizes r).symm.trans h

theorem Answers.exists_fares (h : Answers r (c, answer) q) :
    ∃ made, c.Fares r made ∧ InPlace.settle made r = (answer, q) :=
  ⟨c.apply r, c.fares r, h.settle_eq⟩

theorem Answers.of_ok (h : Answers r (c, .ok ()) q) :
    ∃ t, ∃ hnew : r.lookup? t.id = none, c.table? = some t ∧ q = r.insert t hnew := by
  obtain ⟨made, hfares, hmade⟩ := h.exists_fares
  cases hfares with
  | @registered c t ht hnew => exact ⟨t, hnew, ht, (Prod.mk.inj hmade).2.symm⟩
  | alreadyRegistered | noInterface | multipleInterfaces => cases (Prod.mk.inj hmade).1

theorem Answers.of_error {e : ConfigurationError} (h : Answers r (c, .error e) q) : q = r :=
  (c.realizes.of_error h).2

theorem registered_append : registered (log ++ more) = registered log ++ registered more :=
  List.filterMap_append

theorem tables_registered (h : Steps Answers r log q) :
    q.tables = r.tables ++ registered log := by
  induction h with
  | refl => exact (List.append_nil _).symm
  | @snoc log entry p q _ hentry ih =>
    obtain ⟨c, answer⟩ := entry
    rw [registered_append, ← List.append_assoc, ← ih]
    rcases answer with e | ⟨⟩
    · obtain rfl := hentry.of_error
      exact (List.append_nil _).symm
    · obtain ⟨t, hnew, ht, rfl⟩ := hentry.of_ok
      show p.tables ++ [t] = p.tables ++ registered [(c, .ok ())]
      simp [registered, ht]

/-- A table that was found once is found under its interface from then on. -/
theorem lookup?_steps (h : Steps Answers r log q) {id : String} {t : InterfaceTable σ}
    (ht : r.lookup? id = some t) : q.lookup? id = some t := by
  rw [lookup?, tables_registered h, List.find?_append]
  rw [lookup?] at ht
  rw [ht, Option.some_or]

/-! ## Interfaces in order -/

theorem nodup_ids (r : Registry σ) : r.ids.Nodup := by
  have hnodup : (r.tables.map InterfaceTable.id).Nodup := List.pairwise_map.mpr r.distinct
  exact (List.mergeSort_perm _ _).nodup_iff.mpr hnodup

theorem increasing_ids (r : Registry σ) : r.ids.Pairwise (· < ·) := by
  have hsorted : r.ids.Pairwise fun a b => decide (a ≤ b) = true :=
    List.pairwise_mergeSort (fun _ _ _ => by simpa using String.le_trans)
      (fun a b => by simpa using String.le_total a b) _
  refine (hsorted.and r.nodup_ids).imp ?_
  rintro a b ⟨hle, hne⟩
  exact lt_of_le_of_ne (of_decide_eq_true hle) hne

theorem mem_ids (r : Registry σ) (id : String) : id ∈ r.ids ↔ (r.lookup? id).isSome := by
  rw [ids, List.mem_mergeSort, List.mem_map, lookup?, List.find?_isSome]
  simp

/-! ## First come -/

theorem lookup?_registered (h : Steps Answers empty log r) (id : String) :
    r.lookup? id = (registered log).find? fun t => t.id == id := by
  rw [lookup?, tables_registered h]
  rfl

theorem lookup?_eq_none_iff (h : Steps Answers empty log r) (id : String) :
    r.lookup? id = none ↔ ∀ u ∈ registered log, u.id ≠ id := by
  rw [lookup?_registered h]
  simp

theorem lookup?_ne_none_iff (h : Steps Answers empty log r) (id : String) :
    r.lookup? id ≠ none ↔ ∃ u ∈ registered log, u.id = id := by
  rw [Ne, lookup?_eq_none_iff h]
  push Not
  rfl

/-- A table is refused just if its interface has one. -/
theorem Answers.ofTable {t : InterfaceTable σ} (h : Answers r (.ofTable t, answer) q) :
    (answer = .error (.alreadyRegistered t.id) ↔ r.lookup? t.id ≠ none) ∧
      (answer = .ok () ↔ r.lookup? t.id = none) := by
  obtain ⟨made, hfares, hmade⟩ := h.exists_fares
  cases hfares with
  | registered ht hnew =>
    obtain rfl := Option.some.inj ht
    obtain rfl := (Prod.mk.inj hmade).1
    simp [hnew]
  | alreadyRegistered ht hold =>
    obtain rfl := Option.some.inj ht
    obtain rfl := (Prod.mk.inj hmade).1
    simp [hold]

/-- An implementation is refused for what it shows just if it shows no table that is no
marker, or more than one. -/
theorem Answers.ofImplementation {name : String} {tables : List (InterfaceTable σ)}
    (h : Answers r (.ofImplementation name tables, answer) q) :
    (answer = .error (.noInterface name) ↔ (tables.filter fun t => !t.isMarker) = []) ∧
      (answer = .error (.multipleInterfaces name) ↔
        2 ≤ (tables.filter fun t => !t.isMarker).length) := by
  obtain ⟨made, hfares, hmade⟩ := h.exists_fares
  cases hfares with
  | registered ht hnew =>
    obtain rfl := (Prod.mk.inj hmade).1
    simp [Registration.table?_ofImplementation.mp ht]
  | alreadyRegistered ht hold =>
    obtain rfl := (Prod.mk.inj hmade).1
    simp [Registration.table?_ofImplementation.mp ht]
  | noInterface hnone =>
    obtain rfl := (Prod.mk.inj hmade).1
    simp [hnone]
  | multipleInterfaces hmany =>
    obtain rfl := (Prod.mk.inj hmade).1
    have hsome : (tables.filter fun t => !t.isMarker) ≠ [] := by
      intro hnone
      simp [hnone] at hmany
    simp [hsome, hmany]

theorem Answers.of_table? {t : InterfaceTable σ} (ht : c.table? = some t)
    (h : Answers r (c, answer) q) : Answers r (.ofTable t, answer) q := by
  have happly : c.apply r = r.register t := by
    cases c with
    | ofTable u =>
      obtain rfl := Option.some.inj ht
      rfl
    | ofImplementation name tables =>
      show r.registerImplementation name tables = _
      rw [registerImplementation, Registration.table?_ofImplementation.mp ht]
  rw [Answers, Registration.realizes, ← h.settle_eq, happly]
  rfl

/-- First come, first served.  After every sequence of registrations, successful or not, an
interface has the first table that was registered for it, whatever comes later, and the ids are
those of the interfaces with a table, in strict order.  A registration that succeeds adds its
own table and changes nothing else, and one that fails changes nothing.  A table is refused
just if its interface has one; an implementation is refused for what it shows just if it shows
no table that is no marker, or several, and otherwise is registered as its table. -/
theorem serves_first_come (h : Steps Answers empty log r) :
    (∀ id, r.lookup? id = (registered log).find? fun t => t.id == id) ∧
    (∀ {more : List (Entry σ)} {q : Registry σ}, Steps Answers r more q →
      ∀ id t, r.lookup? id = some t → q.lookup? id = some t) ∧
    r.ids.Pairwise (· < ·) ∧ (∀ id, id ∈ r.ids ↔ (r.lookup? id).isSome) ∧
    (∀ {c : Registration σ} {answer : Except ConfigurationError Unit} {q : Registry σ},
      Answers r (c, answer) q →
        InPlace.settle (c.apply r) r = (answer, q) ∧
        (answer = .ok () → ∃ t, c.table? = some t ∧ q.lookup? t.id = some t ∧
          ∀ id, id ≠ t.id → q.lookup? id = r.lookup? id) ∧
        (answer ≠ .ok () → (∀ id, q.lookup? id = r.lookup? id) ∧ q.ids = r.ids)) ∧
    (∀ {t : InterfaceTable σ} {answer : Except ConfigurationError Unit} {q : Registry σ},
      Answers r (.ofTable t, answer) q →
        (answer = .error (.alreadyRegistered t.id) ↔ ∃ u ∈ registered log, u.id = t.id) ∧
        (answer = .ok () ↔ ∀ u ∈ registered log, u.id ≠ t.id)) ∧
    (∀ {name : String} {tables : List (InterfaceTable σ)}
      {answer : Except ConfigurationError Unit} {q : Registry σ},
      Answers r (.ofImplementation name tables, answer) q →
        (answer = .error (.noInterface name) ↔ ∀ t ∈ tables, t.isMarker = true) ∧
        (answer = .error (.multipleInterfaces name) ↔
          2 ≤ (tables.filter fun t => !t.isMarker).length) ∧
        ∀ t, (tables.filter fun t => !t.isMarker) = [t] → Answers r (.ofTable t, answer) q) := by
  refine ⟨lookup?_registered h, fun hmore id t => lookup?_steps hmore, r.increasing_ids,
    r.mem_ids, ?_, ?_, ?_⟩
  · intro c answer q hq
    refine ⟨hq.settle_eq, ?_, ?_⟩
    · rintro rfl
      obtain ⟨t, hnew, ht, rfl⟩ := hq.of_ok
      refine ⟨t, ht, ?_, fun id hid => ?_⟩
      · rw [lookup?_insert, if_pos rfl]
      · rw [lookup?_insert, if_neg (Ne.symm hid)]
    · intro hfails
      rcases answer with e | ⟨⟩
      · obtain rfl := hq.of_error
        exact ⟨fun _ => rfl, rfl⟩
      · exact absurd rfl hfails
  · intro t answer q hq
    rw [← lookup?_ne_none_iff h, ← lookup?_eq_none_iff h]
    exact hq.ofTable
  · intro name tables answer q hq
    have hmarkers : (tables.filter fun t => !t.isMarker) = [] ↔
        ∀ t ∈ tables, t.isMarker = true := by simp
    rw [← hmarkers]
    exact ⟨hq.ofImplementation.1, hq.ofImplementation.2, fun t hone =>
      hq.of_table? (Registration.table?_ofImplementation.mpr hone)⟩

/-- Two interfaces are registered, one of them with a marker; the other calls are refused. -/
def arrivals : List (Entry Unit) :=
  [(.ofImplementation "GreetingService" [.marker "example.Serializable", Example.greetingTable],
      .ok ()),
   (.ofImplementation "MarkerOnly" [.marker "example.Serializable"],
      .error (.noInterface "MarkerOnly")),
   (.ofTable (.marker Example.greeting), .error (.alreadyRegistered Example.greeting)),
   (.ofTable (.marker Example.echo), .ok ()),
   (.ofImplementation "TwoFaced" [Example.greetingTable, Example.echoTable],
      .error (.multipleInterfaces "TwoFaced")),
   (.ofTable Example.echoTable, .error (.alreadyRegistered Example.echo))]

theorem serves_first_come_arrivals : ∃ r : Registry Unit, Steps Answers empty arrivals r ∧
    r.lookup? Example.greeting = some Example.greetingTable ∧
    r.lookup? Example.echo = some (.marker Example.echo) ∧
    r.lookup? "example.Serializable" = none ∧ r.ids.Pairwise (· < ·) := by
  let next (r : Registry Unit) (c : Registration Unit) : Registry Unit := (c.inPlace.perform r).2
  have hstep : ∀ (r : Registry Unit) (entry : Entry Unit), (entry.1.inPlace.perform r).1 = entry.2 →
      Answers r entry (next r entry.1) := fun r entry h => Prod.ext h rfl
  have hrun : Steps Answers empty arrivals ((arrivals.map Prod.fst).foldl next empty) :=
    .cons (hstep _ _ (by rfl)) <| .cons (hstep _ _ (by rfl)) <| .cons (hstep _ _ (by rfl)) <|
    .cons (hstep _ _ (by rfl)) <| .cons (hstep _ _ (by rfl)) <| .single (hstep _ _ (by rfl))
  obtain ⟨hlookup, -, hincreasing, -⟩ := serves_first_come hrun
  refine ⟨_, hrun, ?_, ?_, ?_, hincreasing⟩
  · rw [hlookup]
    rfl
  · rw [hlookup]
    rfl
  · rw [hlookup]
    rfl

end Registry

end RemoteCall
