import RemoteCall.Proofs.Endpoint.Cookies
import RemoteCall.Proofs.Endpoint.Overloads

/-!
What becomes of a call at an endpoint.

A call may ask for an interface that is not there, or for a method that the interface has
not got, or bring arguments that do not convert.  If nothing of this is so, then one
implementation is run, once, and how it ends decides.  `Endpoint.Fares` has a case for each
of these, under the condition that leads to it, with the result and the thread that is left;
`fares_iff` says that an endpoint answers by these cases and by nothing else.

What an endpoint offers is told apart from the tables that it is put into (`Offer`), since an
entry of a table no longer shows where the conversion of its arguments ends and its
implementation begins.
-/

namespace RemoteCall

variable {σ : Type}

/-! ## Entries -/

theorem MethodEntry.conclude_of_ok {α β : Type} {m : Method α β} {x : β} {v : Value}
    (h : m.encodeResult x = .ok v) : conclude m (.returned x) = .returned v := by
  rw [conclude, h]

theorem MethodEntry.conclude_of_error {α β : Type} {m : Method α β} {x : β} {fault : Fault}
    (h : m.encodeResult x = .error fault) :
    conclude m (.returned x) = .raised (unconverted fault) := by
  rw [conclude, h]

namespace Binding

variable (b : Binding σ) {vs : List Value} {t : Thread σ}

theorem invoke_of_error {fault : Fault} (h : b.method.decodeArguments vs = .error fault) :
    b.entry.invoke vs t = (.raised (MethodEntry.unconverted fault), t) := by
  simp only [entry, MethodEntry.ofMethod, h]

theorem invoke_of_ok {a : b.α} (h : b.method.decodeArguments vs = .ok a) :
    b.entry.invoke vs t = (MethodEntry.conclude b.method (b.run a t).1, (b.run a t).2) := by
  simp only [entry, MethodEntry.ofMethod, h]

end Binding

/-! ## Offers -/

/-- What is offered for an interface: methods with their implementations, in the order in
which they are put into a table. -/
structure Offer (σ : Type) where
  hash : String → List ValueType → UInt64
  interface : String
  bindings : List (Binding σ)

namespace Offer

def table (o : Offer σ) : InterfaceTable σ := .ofBindings o.hash o.interface o.bindings

/-- A binding that a call leads to: it is for the method that the call names, with the types
that it names, and no later one has taken its place. -/
def Reaches (offers : List (Offer σ)) (c : CallFrame) (b : Binding σ) : Prop :=
  ∃ o ∈ offers, o.interface = c.interface ∧ b.signature = (c.method, c.types) ∧
    Binding.IsLast (fun b => o.hash b.method.name b.method.types = o.hash c.method c.types)
      o.bindings b

/-- Where signatures neither come twice nor share a hash, calls lead to every binding. -/
theorem reaches_of_mem {offers : List (Offer σ)} {o : Offer σ} {b : Binding σ} {c : CallFrame}
    (ho : o ∈ offers) (hapart : InterfaceTable.Apart o.hash (o.bindings.map Binding.signature))
    (hnodup : (o.bindings.map Binding.signature).Nodup) (hb : b ∈ o.bindings)
    (hi : o.interface = c.interface) (hs : b.signature = (c.method, c.types)) :
    Reaches offers c b := by
  have hlast := hapart.isLast (Binding.isLast_of_mem hnodup hb)
  rw [hs] at hlast
  exact ⟨o, ho, hi, hs, hlast⟩

theorem isMarker_table {o : Offer σ} (h : o.bindings ≠ []) : o.table.isMarker = false := by
  obtain ⟨bs, b, hbs⟩ := List.eq_nil_or_concat o.bindings |>.resolve_left h
  rw [table, hbs, List.concat_eq_append, InterfaceTable.ofBindings_concat]
  rfl

end Offer

namespace Registry

/-- The tables of a registry are those of some offers. -/
def Holds (r : Registry σ) (offers : List (Offer σ)) : Prop :=
  r.tables = offers.map Offer.table

theorem mem_of_lookup? {r : Registry σ} {id : String} {table : InterfaceTable σ}
    (h : r.lookup? id = some table) : table ∈ r.tables ∧ table.id = id := by
  have hid : table.id = id := by simpa using List.find?_some h
  exact ⟨List.mem_of_find?_eq_some h, hid⟩

theorem lookup?_of_mem {r : Registry σ} {table : InterfaceTable σ} (h : table ∈ r.tables) :
    r.lookup? table.id = some table := by
  have hsome : (r.lookup? table.id).isSome :=
    List.find?_isSome.mpr ⟨table, h, beq_self_eq_true table.id⟩
  obtain ⟨found, hfound⟩ := Option.isSome_iff_exists.mp hsome
  have hnodup : (r.tables.map InterfaceTable.id).Nodup := List.pairwise_map.mpr r.distinct
  obtain ⟨hmem, hid⟩ := mem_of_lookup? hfound
  rw [hfound, List.inj_on_of_nodup_map hnodup hmem h hid]

variable {r : Registry σ} {offers : List (Offer σ)}

theorem Holds.lookup?_of_mem (hr : r.Holds offers) {o : Offer σ} (ho : o ∈ offers) :
    r.lookup? o.interface = some o.table := by
  have hmem : o.table ∈ r.tables := hr ▸ List.mem_map_of_mem ho
  have hid : o.table.id = o.interface := InterfaceTable.id_ofBindings ..
  rw [← hid]
  exact Registry.lookup?_of_mem hmem

theorem Holds.nodup_interfaces (hr : r.Holds offers) :
    (offers.map Offer.interface).Nodup := by
  have hids : r.tables.map InterfaceTable.id = offers.map Offer.interface := by
    rw [hr, List.map_map]
    exact List.map_congr_left fun o _ => InterfaceTable.id_ofBindings ..
  rw [← hids]
  exact List.pairwise_map.mpr r.distinct

theorem Holds.eq_of_reaches (hr : r.Holds offers) {c : CallFrame} {b b' : Binding σ}
    (h : Offer.Reaches offers c b) (h' : Offer.Reaches offers c b') : b = b' := by
  obtain ⟨o, ho, hinterface, -, hlast⟩ := h
  obtain ⟨o', ho', hinterface', -, hlast'⟩ := h'
  obtain rfl := List.inj_on_of_nodup_map hr.nodup_interfaces ho ho'
    (hinterface.trans hinterface'.symm)
  exact hlast.unique hlast'

theorem Holds.lookup?_eq_none (hr : r.Holds offers) {id : String}
    (h : id ∉ offers.map Offer.interface) : r.lookup? id = none := by
  refine Option.eq_none_iff_forall_ne_some.mpr fun table htable => h ?_
  obtain ⟨hmem, rfl⟩ := mem_of_lookup? htable
  rw [hr] at hmem
  obtain ⟨o, ho, rfl⟩ := List.mem_map.mp hmem
  exact List.mem_map.mpr ⟨o, ho, (InterfaceTable.id_ofBindings ..).symm⟩

theorem Holds.registerImplementation (hr : r.Holds offers) (name : String) {o : Offer σ}
    (hmethods : o.bindings ≠ []) (hnew : o.interface ∉ offers.map Offer.interface) :
    ∃ r' : Registry σ, r.registerImplementation name [o.table] = .ok r' ∧
      r'.Holds (offers ++ [o]) := by
  have hnone : r.lookup? o.table.id = none := by
    rw [Offer.table, InterfaceTable.id_ofBindings]
    exact hr.lookup?_eq_none hnew
  have hfilter : [o.table].filter (fun t => !t.isMarker) = [o.table] := by
    rw [List.filter_cons, Offer.isMarker_table hmethods]
    rfl
  refine ⟨r.insert o.table hnone, ?_, ?_⟩
  · rw [Registry.registerImplementation, hfilter]
    exact register_of_none hnone
  · rw [Holds, List.map_append, ← hr]
    rfl

end Registry

/-! ## The ways of a call -/

namespace Endpoint

/-- How a call fares that is dispatched on a thread: its result, and the thread that is left.
Only in the last four cases is an implementation run. -/
inductive Fares (e : Endpoint σ) (offers : List (Offer σ)) (c : CallFrame) (t : Thread σ) :
    Outcome → Thread σ → Prop where
  | noInterface (hi : e.registry.lookup? c.interface = none) :
      Fares e offers c t (.failure (interfaceMissing c)) t
  | noSuchMethod {table : InterfaceTable σ} (hi : e.registry.lookup? c.interface = some table)
      (hm : ∀ m ∈ table.methods, ¬ (m.name = c.method ∧ m.types = c.types)) :
      Fares e offers c t (.failure (methodMissing c)) t
  | invalidArguments {b : Binding σ} {fault : Fault} (hb : Offer.Reaches offers c b)
      (ha : b.method.decodeArguments c.arguments = .error fault) :
      Fares e offers c t (.failure (MethodEntry.unconverted fault)) t
  | returned {b : Binding σ} {a : b.α} {x : b.β} {v : Value} (hb : Offer.Reaches offers c b)
      (ha : b.method.decodeArguments c.arguments = .ok a) (hr : (b.run a t).1 = .returned x)
      (hv : b.method.encodeResult x = .ok v) : Fares e offers c t (.value v) (b.run a t).2
  | unreturned {b : Binding σ} {a : b.α} {x : b.β} {fault : Fault}
      (hb : Offer.Reaches offers c b) (ha : b.method.decodeArguments c.arguments = .ok a)
      (hr : (b.run a t).1 = .returned x) (hv : b.method.encodeResult x = .error fault) :
      Fares e offers c t (.failure (MethodEntry.unconverted fault)) (b.run a t).2
  | raised {b : Binding σ} {a : b.α} {f : RemoteFailure} (hb : Offer.Reaches offers c b)
      (ha : b.method.decodeArguments c.arguments = .ok a) (hr : (b.run a t).1 = .raised f) :
      Fares e offers c t (.failure f) (b.run a t).2
  | panicked {b : Binding σ} {a : b.α} {message : Option String}
      (hb : Offer.Reaches offers c b) (ha : b.method.decodeArguments c.arguments = .ok a)
      (hr : (b.run a t).1 = .panicked message) :
      Fares e offers c t (.failure (breakdown message)) (b.run a t).2

variable {e : Endpoint σ} {offers : List (Offer σ)} {c : CallFrame} {t u : Thread σ}
  {r : Outcome} {b : Binding σ}

theorem dispatch_noInterface (hi : e.registry.lookup? c.interface = none) (t : Thread σ) :
    e.dispatch c t = (.raised (interfaceMissing c), t) := by
  rw [dispatch, hi]

theorem dispatch_noSuchMethod {table : InterfaceTable σ}
    (hi : e.registry.lookup? c.interface = some table)
    (hm : table.find? c.method c.types = none) (t : Thread σ) :
    e.dispatch c t = (.raised (methodMissing c), t) := by
  rw [dispatch, hi]
  simp only [hm]

theorem exists_offer (he : e.registry.Holds offers) {table : InterfaceTable σ}
    (hi : e.registry.lookup? c.interface = some table) :
    ∃ o ∈ offers, o.interface = c.interface ∧ o.table = table := by
  obtain ⟨hmem, hid⟩ := Registry.mem_of_lookup? hi
  rw [he] at hmem
  obtain ⟨o, ho, rfl⟩ := List.mem_map.mp hmem
  exact ⟨o, ho, (InterfaceTable.id_ofBindings ..).symm.trans hid, rfl⟩

theorem exists_table (he : e.registry.Holds offers) (hb : Offer.Reaches offers c b) :
    ∃ table, e.registry.lookup? c.interface = some table ∧
      table.find? c.method c.types = some b.entry := by
  obtain ⟨o, ho, hinterface, hs, hlast⟩ := hb
  refine ⟨o.table, ?_, (InterfaceTable.find?_eq_some_iff ..).mpr ⟨b, hlast, hs, rfl⟩⟩
  rw [← hinterface]
  exact he.lookup?_of_mem ho

theorem dispatch_reaches (he : e.registry.Holds offers) (hb : Offer.Reaches offers c b)
    (t : Thread σ) : e.dispatch c t = b.entry.invoke c.arguments t :=
  dispatch_handler (Option.bind_eq_some_iff.mpr (exists_table he hb)) t

/-- A binding is run if the arguments convert, and how it ends decides. -/
theorem fares_invoke (hb : Offer.Reaches offers c b) (t : Thread σ) :
    e.Fares offers c t (outcome (b.entry.invoke c.arguments t).1)
      (b.entry.invoke c.arguments t).2 := by
  cases ha : b.method.decodeArguments c.arguments with
  | error fault =>
    rw [b.invoke_of_error ha]
    exact .invalidArguments hb ha
  | ok a =>
    rw [b.invoke_of_ok ha]
    dsimp only
    cases hr : (b.run a t).1 with
    | returned x =>
      cases hv : b.method.encodeResult x with
      | error fault =>
        rw [MethodEntry.conclude_of_error hv]
        exact .unreturned hb ha hr hv
      | ok v =>
        rw [MethodEntry.conclude_of_ok hv]
        exact .returned hb ha hr hv
    | raised f => exact .raised hb ha hr
    | panicked message => exact .panicked hb ha hr

theorem fares_dispatch (he : e.registry.Holds offers) (c : CallFrame) (t : Thread σ) :
    e.Fares offers c t (outcome (e.dispatch c t).1) (e.dispatch c t).2 := by
  cases hi : e.registry.lookup? c.interface with
  | none =>
    rw [dispatch_noInterface hi]
    exact .noInterface hi
  | some table =>
    obtain ⟨o, ho, hinterface, rfl⟩ := exists_offer he hi
    cases hm : o.table.find? c.method c.types with
    | none =>
      rw [dispatch_noSuchMethod hi hm]
      exact .noSuchMethod hi ((InterfaceTable.find?_eq_none_iff ..).mp hm)
    | some m =>
      obtain ⟨b, hlast, hs, -⟩ := (InterfaceTable.find?_eq_some_iff ..).mp hm
      have hb : Offer.Reaches offers c b := ⟨o, ho, hinterface, hs, hlast⟩
      rw [dispatch_reaches he hb]
      exact fares_invoke hb t

/-- A call fares in one way only. -/
theorem fares_iff (he : e.registry.Holds offers) :
    e.Fares offers c t r u ↔ r = outcome (e.dispatch c t).1 ∧ u = (e.dispatch c t).2 := by
  constructor
  · intro h
    cases h with
    | noInterface hi =>
      rw [dispatch_noInterface hi]
      exact ⟨rfl, rfl⟩
    | noSuchMethod hi hm =>
      obtain ⟨o, -, -, rfl⟩ := exists_offer he hi
      rw [dispatch_noSuchMethod hi ((InterfaceTable.find?_eq_none_iff ..).mpr hm)]
      exact ⟨rfl, rfl⟩
    | invalidArguments hb ha =>
      rw [dispatch_reaches he hb, Binding.invoke_of_error _ ha]
      exact ⟨rfl, rfl⟩
    | returned hb ha hr hv =>
      rw [dispatch_reaches he hb, Binding.invoke_of_ok _ ha, hr, MethodEntry.conclude_of_ok hv]
      exact ⟨rfl, rfl⟩
    | unreturned hb ha hr hv =>
      rw [dispatch_reaches he hb, Binding.invoke_of_ok _ ha, hr, MethodEntry.conclude_of_error hv]
      exact ⟨rfl, rfl⟩
    | raised hb ha hr =>
      rw [dispatch_reaches he hb, Binding.invoke_of_ok _ ha, hr]
      exact ⟨rfl, rfl⟩
    | panicked hb ha hr =>
      rw [dispatch_reaches he hb, Binding.invoke_of_ok _ ha, hr]
      exact ⟨rfl, rfl⟩
  · rintro ⟨rfl, rfl⟩
    exact fares_dispatch he c t

/-! ## What the result tells -/

/-- The implementation that a call leads to raises a failure of its own. -/
def Raises (offers : List (Offer σ)) (c : CallFrame) (t : Thread σ) (f : RemoteFailure) : Prop :=
  ∃ (b : Binding σ) (a : b.α), Offer.Reaches offers c b ∧
    b.method.decodeArguments c.arguments = .ok a ∧ (b.run a t).1 = .raised f

/-- The result is a failure of the framework, of some kind, that no implementation raised. -/
def RefusedAs (offers : List (Offer σ)) (c : CallFrame) (t : Thread σ) (kind : String)
    (r : Outcome) : Prop :=
  ∃ f, r = .failure f ∧ f.kind = kind ∧ f.origin = .framework ∧ ¬ Raises offers c t f

def LacksMethod (e : Endpoint σ) (c : CallFrame) : Prop :=
  ∃ table, e.registry.lookup? c.interface = some table ∧
    ∀ m ∈ table.methods, ¬ (m.name = c.method ∧ m.types = c.types)

/-- The arguments of a call do not convert, or what its implementation returns does not. -/
def Unconverted (offers : List (Offer σ)) (c : CallFrame) (t : Thread σ) (fault : Fault) : Prop :=
  ∃ b : Binding σ, Offer.Reaches offers c b ∧
    (b.method.decodeArguments c.arguments = .error fault ∨
      ∃ a x, b.method.decodeArguments c.arguments = .ok a ∧ (b.run a t).1 = .returned x ∧
        b.method.encodeResult x = .error fault)

def Panics (offers : List (Offer σ)) (c : CallFrame) (t : Thread σ) (message : Option String) :
    Prop :=
  ∃ (b : Binding σ) (a : b.α), Offer.Reaches offers c b ∧
    b.method.decodeArguments c.arguments = .ok a ∧ (b.run a t).1 = .panicked message

/-- The kind of a failure that no implementation raised tells how it came about. -/
theorem Fares.cause {f : RemoteFailure} (h : e.Fares offers c t (.failure f) u)
    (hown : ¬ Raises offers c t f) :
    (f.kind = RemoteFailure.noInterface ∧ e.registry.lookup? c.interface = none) ∨
    (f.kind = RemoteFailure.noSuchMethod ∧ e.LacksMethod c) ∨
    (f.kind = RemoteFailure.invalidArguments ∧ ∃ fault, Unconverted offers c t fault) ∨
    (f.kind = RemoteFailure.panic ∧ ∃ message, Panics offers c t message) := by
  cases h with
  | noInterface hi => exact .inl ⟨rfl, hi⟩
  | noSuchMethod hi hm => exact .inr (.inl ⟨rfl, _, hi, hm⟩)
  | invalidArguments hb ha => exact .inr (.inr (.inl ⟨rfl, _, _, hb, .inl ha⟩))
  | unreturned hb ha hr hv => exact .inr (.inr (.inl ⟨rfl, _, _, hb, .inr ⟨_, _, ha, hr, hv⟩⟩))
  | raised hb ha hr => exact absurd ⟨_, _, hb, ha, hr⟩ hown
  | panicked hb ha hr => exact .inr (.inr (.inr ⟨rfl, _, _, _, hb, ha, hr⟩))

theorem Fares.eq_of_unconverted (he : e.registry.Holds offers) (h : e.Fares offers c t r u)
    {fault : Fault} (hfault : Unconverted offers c t fault) :
    r = .failure (MethodEntry.unconverted fault) := by
  obtain ⟨rfl, -⟩ := (fares_iff he).mp h
  obtain ⟨b, hb, ha | ⟨a, x, ha, hr, hv⟩⟩ := hfault
  · exact ((fares_iff he).mp (.invalidArguments hb ha)).1.symm
  · exact ((fares_iff he).mp (.unreturned hb ha hr hv)).1.symm

theorem Fares.eq_of_panics (he : e.registry.Holds offers) (h : e.Fares offers c t r u)
    {message : Option String} (hpanic : Panics offers c t message) :
    r = .failure (breakdown message) := by
  obtain ⟨rfl, -⟩ := (fares_iff he).mp h
  obtain ⟨b, a, hb, ha, hr⟩ := hpanic
  exact ((fares_iff he).mp (.panicked hb ha hr)).1.symm

theorem refusedAs_noInterface_iff (he : e.registry.Holds offers)
    (h : e.Fares offers c t r u) :
    RefusedAs offers c t RemoteFailure.noInterface r ↔ e.registry.lookup? c.interface = none := by
  constructor
  · rintro ⟨f, rfl, hkind, -, hown⟩
    rcases h.cause hown with ⟨-, hi⟩ | ⟨hk, -⟩ | ⟨hk, -⟩ | ⟨hk, -⟩
    · exact hi
    all_goals exact absurd (hk.symm.trans hkind) (by decide)
  · intro hi
    obtain ⟨rfl, -⟩ := (fares_iff he).mp h
    rw [dispatch_noInterface hi]
    refine ⟨interfaceMissing c, rfl, rfl, rfl, ?_⟩
    rintro ⟨b, a, hb, -⟩
    obtain ⟨table, htable, -⟩ := exists_table he hb
    rw [hi] at htable
    cases htable

theorem refusedAs_noSuchMethod_iff (he : e.registry.Holds offers)
    (h : e.Fares offers c t r u) :
    RefusedAs offers c t RemoteFailure.noSuchMethod r ↔ e.LacksMethod c := by
  constructor
  · rintro ⟨f, rfl, hkind, -, hown⟩
    rcases h.cause hown with ⟨hk, -⟩ | ⟨-, hm⟩ | ⟨hk, -⟩ | ⟨hk, -⟩
    · exact absurd (hk.symm.trans hkind) (by decide)
    · exact hm
    all_goals exact absurd (hk.symm.trans hkind) (by decide)
  · rintro ⟨table, hi, hm⟩
    obtain ⟨rfl, -⟩ := (fares_iff he).mp h
    obtain ⟨o, -, -, rfl⟩ := exists_offer he hi
    have hnone : o.table.find? c.method c.types = none :=
      (InterfaceTable.find?_eq_none_iff ..).mpr hm
    rw [dispatch_noSuchMethod hi hnone]
    refine ⟨methodMissing c, rfl, rfl, rfl, ?_⟩
    rintro ⟨b, a, hb, -⟩
    obtain ⟨table, htable, hfind⟩ := exists_table he hb
    obtain rfl := Option.some.inj (hi.symm.trans htable)
    rw [hnone] at hfind
    cases hfind

theorem refusedAs_invalidArguments_iff (he : e.registry.Holds offers)
    (h : e.Fares offers c t r u) :
    RefusedAs offers c t RemoteFailure.invalidArguments r ↔
      ∃ fault, Unconverted offers c t fault := by
  constructor
  · rintro ⟨f, rfl, hkind, -, hown⟩
    rcases h.cause hown with ⟨hk, -⟩ | ⟨hk, -⟩ | ⟨-, hfault⟩ | ⟨hk, -⟩
    · exact absurd (hk.symm.trans hkind) (by decide)
    · exact absurd (hk.symm.trans hkind) (by decide)
    · exact hfault
    · exact absurd (hk.symm.trans hkind) (by decide)
  · rintro ⟨fault, hfault⟩
    refine ⟨MethodEntry.unconverted fault, h.eq_of_unconverted he hfault, rfl, rfl, ?_⟩
    rintro ⟨b', a', hb', ha', hr'⟩
    obtain ⟨b, hb, hfault⟩ := hfault
    obtain rfl := he.eq_of_reaches hb hb'
    rcases hfault with ha | ⟨a, x, ha, hr, -⟩
    · cases ha.symm.trans ha'
    · obtain rfl := Except.ok.inj (ha.symm.trans ha')
      cases hr.symm.trans hr'

theorem refusedAs_panic_iff (he : e.registry.Holds offers) (h : e.Fares offers c t r u) :
    RefusedAs offers c t RemoteFailure.panic r ↔ ∃ message, Panics offers c t message := by
  constructor
  · rintro ⟨f, rfl, hkind, -, hown⟩
    rcases h.cause hown with ⟨hk, -⟩ | ⟨hk, -⟩ | ⟨hk, -⟩ | ⟨-, hpanic⟩
    · exact absurd (hk.symm.trans hkind) (by decide)
    · exact absurd (hk.symm.trans hkind) (by decide)
    · exact absurd (hk.symm.trans hkind) (by decide)
    · exact hpanic
  · rintro ⟨message, hpanic⟩
    refine ⟨breakdown message, h.eq_of_panics he hpanic, rfl, rfl, ?_⟩
    rintro ⟨b', a', hb', ha', hr'⟩
    obtain ⟨b, a, hb, ha, hr⟩ := hpanic
    obtain rfl := he.eq_of_reaches hb hb'
    obtain rfl := Except.ok.inj (ha.symm.trans ha')
    cases hr.symm.trans hr'

/-- Every implementation that is offered writes a line into a log whenever it is run. -/
def Logs {ρ : Type} (offers : List (Offer σ)) (log : σ → List ρ)
    (line : (b : Binding σ) → b.α → ρ) : Prop :=
  ∀ o ∈ offers, ∀ b ∈ o.bindings, ∀ a t, log (b.run a t).2.memory = log t.memory ++ [line b a]

theorem Fares.logged {ρ : Type} {log : σ → List ρ} {line : (b : Binding σ) → b.α → ρ}
    (h : e.Fares offers c t r u) (hlog : Logs offers log line) :
    log u.memory = log t.memory ∨ ∃ (b : Binding σ) (a : b.α), Offer.Reaches offers c b ∧
      b.method.decodeArguments c.arguments = .ok a ∧
      log u.memory = log t.memory ++ [line b a] := by
  have hrun : ∀ {b : Binding σ} {a : b.α}, Offer.Reaches offers c b →
      log (b.run a t).2.memory = log t.memory ++ [line b a] := by
    rintro b a ⟨o, ho, -, -, hlast⟩
    exact hlog o ho b hlast.mem a t
  cases h with
  | noInterface hi => exact .inl rfl
  | noSuchMethod hi hm => exact .inl rfl
  | invalidArguments hb ha => exact .inl rfl
  | returned hb ha hr hv => exact .inr ⟨_, _, hb, ha, hrun hb⟩
  | unreturned hb ha hr hv => exact .inr ⟨_, _, hb, ha, hrun hb⟩
  | raised hb ha hr => exact .inr ⟨_, _, hb, ha, hrun hb⟩
  | panicked hb ha hr => exact .inr ⟨_, _, hb, ha, hrun hb⟩

theorem flags_reply (e : Endpoint σ) (ending : Ending Value) (cookie : Cookie) :
    (e.reply ending cookie).flags = 0 := by
  rw [reply]
  cases outcome ending <;> rfl

theorem memory_accept (e : Endpoint σ) (c : CallFrame) (t : Thread σ) :
    (e.accept c t).memory = t.memory := by
  rw [accept]
  split <;> rfl

/-- Every call is answered by a frame without flags, and its result tells what became of it.
It is what the one case of `Fares` says that applies.  A failure of the framework that says
that the interface is missing, and that no implementation raised, comes just if it is; and so
with one that says that the method is missing, that something does not convert, or that the
implementation broke down, whose text it carries.  And of all implementations that are offered
at most one is run, at most once, on what the arguments of the call convert to. -/
theorem every_call_is_classified (e : Endpoint σ) (offers : List (Offer σ))
    (he : e.registry.Holds offers) (c : CallFrame) (t : Thread σ) :
    ∃ reply left, e.process c t = (reply, e.dismiss left) ∧ reply.flags = 0 ∧
      (∀ r u, e.Fares offers c (e.accept c t) r u ↔ r = reply.result ∧ u = left) ∧
      (RefusedAs offers c (e.accept c t) RemoteFailure.noInterface reply.result ↔
        e.registry.lookup? c.interface = none) ∧
      (RefusedAs offers c (e.accept c t) RemoteFailure.noSuchMethod reply.result ↔
        e.LacksMethod c) ∧
      (RefusedAs offers c (e.accept c t) RemoteFailure.invalidArguments reply.result ↔
        ∃ fault, Unconverted offers c (e.accept c t) fault) ∧
      (∀ fault, Unconverted offers c (e.accept c t) fault →
        reply.result = .failure (.framework RemoteFailure.invalidArguments fault.message)) ∧
      (RefusedAs offers c (e.accept c t) RemoteFailure.panic reply.result ↔
        ∃ message, Panics offers c (e.accept c t) message) ∧
      (∀ message, Panics offers c (e.accept c t) message → reply.result =
        .failure (.framework RemoteFailure.panic (message.getD "endpoint panicked"))) ∧
      ∀ {ρ : Type} (log : σ → List ρ) (line : (b : Binding σ) → b.α → ρ), Logs offers log line →
        log left.memory = log t.memory ∨ ∃ (b : Binding σ) (a : b.α), Offer.Reaches offers c b ∧
          b.method.decodeArguments c.arguments = .ok a ∧
          log left.memory = log t.memory ++ [line b a] := by
  have hprocess : e.process c t =
      (e.reply (e.dispatch c (e.accept c t)).1 (e.dispatch c (e.accept c t)).2.cookie,
        e.dismiss (e.dispatch c (e.accept c t)).2) := rfl
  have hfares := fares_dispatch he c (e.accept c t)
  refine ⟨_, _, hprocess, flags_reply .., ?_⟩
  rw [result_reply]
  refine ⟨fun r u => fares_iff he, refusedAs_noInterface_iff he hfares,
    refusedAs_noSuchMethod_iff he hfares, refusedAs_invalidArguments_iff he hfares,
    fun _ => hfares.eq_of_unconverted he, refusedAs_panic_iff he hfares,
    fun _ => hfares.eq_of_panics he, ?_⟩
  intro ρ log line hlog
  rw [← memory_accept e c t]
  exact hfares.logged hlog

/-- Answers a text with itself, and keeps its arguments in the memory of the thread. -/
def noting : Binding (List (List Value)) where
  method := Example.echoText
  run s t := (.returned s, { t with memory := t.memory ++ [[.str s]] })

def notes : Offer (List (List Value)) := ⟨Signature.id, Example.echo, [noting]⟩

def noted : Endpoint (List (List Value)) where
  registry := Registry.empty.insert notes.table (Registry.lookup?_empty _)

def echoing (type : ValueType) (v : Value) : CallFrame :=
  ⟨Example.echo, "echo", [type], [v], 0, none, by decide, by decide⟩

theorem reaches_noting (v : Value) : Offer.Reaches [notes] (echoing .str v) noting :=
  ⟨notes, List.mem_singleton_self notes, rfl, rfl, [], [], rfl, rfl, by simp⟩

/-- The overload that is there is run, on the arguments of the call, unless they do not
convert; the other is missing. -/
theorem every_call_is_classified_noted :
    noted.registry.Holds [notes] ∧
    Logs [notes] id (fun b a => (b.method.encodeArguments a).toOption.getD []) ∧
    (∃ reply left, noted.process (echoing .str (.str "there")) (.fresh []) = (reply, left) ∧
      reply.result = .value (.str "there") ∧ left.memory = [[.str "there"]]) ∧
    RefusedAs [notes] (echoing .str (.int 5)) (.fresh []) RemoteFailure.invalidArguments
      (noted.process (echoing .str (.int 5)) (.fresh [])).1.result ∧
    RefusedAs [notes] (echoing .bytes (.bytes [1])) (.fresh []) RemoteFailure.noSuchMethod
      (noted.process (echoing .bytes (.bytes [1])) (.fresh [])).1.result := by
  have he : noted.registry.Holds [notes] := rfl
  have hlog : Logs [notes] id (fun b a => (b.method.encodeArguments a).toOption.getD []) := by
    intro o ho b hb a t
    obtain rfl := List.mem_singleton.mp ho
    obtain rfl := List.mem_singleton.mp hb
    rfl
  refine ⟨he, hlog, ?_, ?_, ?_⟩
  · obtain ⟨reply, left, hprocess, -, hfares, -⟩ :=
      every_call_is_classified noted [notes] he (echoing .str (.str "there")) (.fresh [])
    obtain ⟨hresult, hleft⟩ :=
      (hfares _ _).mp (.returned (reaches_noting (.str "there")) rfl rfl rfl)
    refine ⟨reply, _, hprocess, hresult.symm, ?_⟩
    rw [← hleft]
    rfl
  · obtain ⟨reply, left, hprocess, -, -, -, -, hunconverted, -⟩ :=
      every_call_is_classified noted [notes] he (echoing .str (.int 5)) (.fresh [])
    rw [hprocess]
    exact hunconverted.mpr ⟨_, noting, reaches_noting (.int 5), .inl rfl⟩
  · obtain ⟨reply, left, hprocess, -, -, -, hmissing, -⟩ :=
      every_call_is_classified noted [notes] he (echoing .bytes (.bytes [1])) (.fresh [])
    rw [hprocess]
    refine hmissing.mpr ⟨notes.table, rfl, fun m hm => ?_⟩
    obtain rfl : m = noting.entry := List.mem_singleton.mp hm
    rintro ⟨-, htypes⟩
    cases htypes

end Endpoint
end RemoteCall
