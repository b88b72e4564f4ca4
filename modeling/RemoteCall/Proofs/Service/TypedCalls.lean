import RemoteCall.Example.Services
import RemoteCall.Proofs.Client.Transparency

/-!
Typed calls over a connection.

A typed call passes through many hands: its input becomes arguments and a frame, the frame
crosses the wire and finds its method, the arguments become an input again, and the way
back is as long.  For a method whose conversions are faithful none of this shows.  The
caller learns how the implementation ended (`Method.view`), and the only thing decided on
the way is whether a failure counts as declared.
-/

namespace RemoteCall

variable {σ τ α β : Type}

/-! ## Methods -/

namespace Method

/-- A method with names, whose arguments and results can be converted and come out as they
went in. -/
structure Faithful (m : Method α β) : Prop where
  interface_ne : m.interface ≠ ""
  name_ne : m.name ≠ ""
  arguments : ∀ a, ∃ vs, m.encodeArguments a = .ok vs ∧ vs.length = m.types.length ∧
    m.decodeArguments vs = .ok a
  result : ∀ b, ∃ v, m.encodeResult b = .ok v ∧ m.decodeResult v = .ok b

/-- A failure of the implementation, of a kind that the method declares or of a narrower
one. -/
def Declares (m : Method α β) (f : RemoteFailure) : Prop :=
  f.origin = .endpoint ∧ ∃ kind ∈ m.declared, f.kind = kind ∨ kind ∈ f.supertypes

theorem declares_iff (m : Method α β) (f : RemoteFailure) :
    (!f.isFramework && m.declared.any f.isKindOf) = true ↔ m.Declares f := by
  have horigin : (!f.isFramework) = true ↔ f.origin = .endpoint := by
    rw [RemoteFailure.isFramework]
    cases f.origin <;> decide
  rw [Bool.and_eq_true, horigin, List.any_eq_true, Declares]
  simp only [RemoteFailure.isKindOf, Bool.or_eq_true, beq_iff_eq, List.contains_iff_mem]

instance (m : Method α β) (f : RemoteFailure) : Decidable (m.Declares f) :=
  decidable_of_iff _ (declares_iff m f)

def view (m : Method α β) : Ending β → Except CallError β
  | .returned b => .ok b
  | .raised f =>
    if m.Declares f then .error (.remote f) else .error (.transport (.undeclaredFailure f))
  | .panicked message => .error (.transport (.undeclaredFailure (Endpoint.breakdown message)))

variable {m : Method α β} {a : α}

theorem resolve_failure (m : Method α β) (f : RemoteFailure) :
    (Outcome.failure f).resolve m.declared =
      if m.Declares f then .error (.remote f) else .error (.transport (.undeclaredFailure f)) := by
  rw [Outcome.resolve]
  by_cases h : m.Declares f
  · rw [if_pos h, if_pos ((declares_iff m f).mpr h)]
  · rw [if_neg h, if_neg fun hd => h ((declares_iff m f).mp hd)]

theorem Faithful.exists_callFrame (hm : m.Faithful) (a : α) :
    ∃ c, m.callFrame a = .ok c ∧ c.interface = m.interface ∧ c.method = m.name ∧
      c.types = m.types ∧ c.types.length = c.arguments.length ∧
      m.decodeArguments c.arguments = .ok a := by
  obtain ⟨vs, hencode, hlength, hdecode⟩ := hm.arguments a
  have hcount : ¬ m.types.length ≠ vs.length := not_not_intro hlength.symm
  refine ⟨⟨m.interface, m.name, m.types, vs, 0, none, hm.interface_ne, hm.name_ne⟩, ?_, rfl, rfl,
    rfl, hlength.symm, hdecode⟩
  simp only [callFrame, hencode, CallFrame.new, dif_neg hm.interface_ne, dif_neg hm.name_ne,
    if_neg hcount]

def read (m : Method α β) : Except CallError Value → Except CallError β
  | .error e => .error e
  | .ok v =>
    match m.decodeResult v with
    | .error e => .error (.transport (.resultType e))
    | .ok b => .ok b

theorem fst_callThrough {ρ : Type}
    {invoke : CallFrame → List String → ρ → Except CallError Value × ρ} {c : CallFrame}
    (hc : m.callFrame a = .ok c) (s : ρ) :
    (m.callThrough invoke a s).1 = m.read (invoke c m.declared s).1 := by
  rw [callThrough, hc]
  dsimp only
  rcases invoke c m.declared s with ⟨e | v, w⟩
  · rfl
  · dsimp only [read]
    rcases m.decodeResult v with e | b <;> rfl

theorem snd_callThrough {ρ : Type}
    {invoke : CallFrame → List String → ρ → Except CallError Value × ρ} {c : CallFrame}
    (hc : m.callFrame a = .ok c) (s : ρ) :
    (m.callThrough invoke a s).2 = (invoke c m.declared s).2 := by
  rw [callThrough, hc]
  dsimp only
  rcases invoke c m.declared s with ⟨e | v, w⟩
  · rfl
  · dsimp only
    rcases m.decodeResult v with e | b <;> rfl

theorem Faithful.read_conclude (hm : m.Faithful) (ending : Ending β) :
    m.read ((Endpoint.outcome (MethodEntry.conclude m ending)).resolve m.declared) =
      m.view ending := by
  cases ending with
  | returned b =>
    obtain ⟨v, hencode, hdecode⟩ := hm.result b
    simp only [MethodEntry.conclude, hencode, Endpoint.outcome, Outcome.resolve, read, hdecode,
      view]
  | raised f =>
    show m.read ((Outcome.failure f).resolve m.declared) = _
    rw [resolve_failure, view]
    split <;> rfl
  | panicked message =>
    -- A breakdown is a failure of the framework, which no declaration covers.
    show m.read ((Outcome.failure (Endpoint.breakdown message)).resolve m.declared) = _
    rw [resolve_failure, if_neg fun h => by cases h.1]
    rfl

end Method

/-! ## Endpoints -/

namespace Endpoint

/-- The table for the interface of a method finds it, bound to an implementation. -/
def Binds (e : Endpoint σ) (m : Method α β) (run : Implementation σ α β) : Prop :=
  ∃ table, e.registry.lookup? m.interface = some table ∧
    table.find? m.name m.types = some (.ofMethod m run)

variable {e : Endpoint σ} {m : Method α β} {run : Implementation σ α β} {c : CallFrame}

theorem result_process (e : Endpoint σ) (c : CallFrame) (t : Thread σ) :
    (e.process c t).1.result = outcome (e.dispatch c (e.accept c t)).1 := by
  rw [process]
  dsimp only
  rw [reply]
  cases outcome (e.dispatch c (e.accept c t)).1 <;> rfl

theorem Binds.dispatch_eq (h : e.Binds m run) (hi : c.interface = m.interface)
    (hn : c.method = m.name) (ht : c.types = m.types) {a : α}
    (ha : m.decodeArguments c.arguments = .ok a) (t : Thread σ) :
    e.dispatch c t = (MethodEntry.conclude m (run a t).1, (run a t).2) := by
  obtain ⟨table, htable, hentry⟩ := h
  rw [dispatch, hi, htable]
  simp only [hn, ht, hentry, MethodEntry.ofMethod, ha]

end Endpoint

/-- An implementation whose ending does not depend on the cookie of its thread. -/
def Implementation.IgnoresCookie (run : Implementation σ α β) : Prop :=
  ∀ a t cookie, (run a (t.setCookie cookie)).1 = (run a t).1

theorem Implementation.IgnoresCookie.accept {run : Implementation σ α β}
    (h : Implementation.IgnoresCookie run) (e : Endpoint σ) (c : CallFrame) (a : α) (t : Thread σ) :
    (run a (e.accept c t)).1 = (run a t).1 := by
  rw [Endpoint.accept]
  split
  · exact h a t c.userData
  · rfl

/-! ## Over a connection -/

def RemoteClient.carrier {ι ω δ : Type} (r : RemoteClient) (ch : Channel ι ω δ) (t : Thread τ)
    (c : CallFrame) (declared : List String) (s : Channel.State ι ω δ) :
    Except CallError Value × Channel.State ι ω δ :=
  ((r.invokeOver ch c declared t s).1.1, (r.invokeOver ch c declared t s).2)

theorem RemoteClient.fst_carrier {ι ω δ : Type} {r : RemoteClient} {ch : Channel ι ω δ}
    {t : Thread τ} {c : CallFrame} {s : Channel.State ι ω δ} {x : Channel.Exchange}
    (h : (ch.exchange (r.config.mark .inOut t.cookie c) r.config.callTimeout.isSome s).1 = .ok x)
    (declared : List String) :
    (r.carrier ch t c declared s).1 = x.reply.result.resolve declared := by
  rw [carrier, invokeOver]
  generalize ch.exchange _ _ s = w at h ⊢
  obtain ⟨y, w⟩ := w
  subst h
  rfl

/-- A typed call, made by some remote client with the given settings from one thread, over
some connection to an endpoint that serves it on another, comes to a result. -/
inductive TypedOverWire (e : Endpoint σ) (running : Bool) (u : Thread σ) (k : ClientSettings)
    (t : Thread τ) (m : Method α β) (a : α) : Except CallError β → Prop
  | intro {ι ω δ κ ψ : Type} (l : Link ι ω δ κ ψ) (r : RemoteClient)
      (settings : r.config.toClientSettings = k)
      (atRest : l.AtRest (m.callThrough (r.carrier l.channel t) a l.client).2.output
        (l.serve running e.process u).2.output) :
      TypedOverWire e running u k t m a (m.callThrough (r.carrier l.channel t) a l.client).1

/-- The frame of a typed call and that of its reply are within the limit. -/
structure TypedFits (e : Endpoint σ) (running : Bool) (u : Thread σ) (k : ClientSettings)
    (t : Thread τ) (m : Method α β) (a : α) : Prop where
  call : ∀ c, m.callFrame a = .ok c →
    (Body.writeCall (k.mark .inOut t.cookie c)).length ≤ Frame.maxBody
  reply : ∀ c, m.callFrame a = .ok c →
    (Body.writeReturn ((e.process (k.mark .inOut t.cookie c) u).1.setKeepAlive
      (k.keepAlive && running))).length ≤ Frame.maxBody

variable {e : Endpoint σ} {running : Bool} {u : Thread σ} {k : ClientSettings} {t : Thread τ}
  {m : Method α β} {a : α} {run : Implementation σ α β} {r : Except CallError β}

theorem TypedFits.sendable (h : TypedFits e running u k t m a) {c : CallFrame}
    (hc : m.callFrame a = .ok c) (hlen : c.types.length = c.arguments.length) :
    Service.Sendable running e.process [k.mark .inOut t.cookie c] u := by
  apply Service.Sendable.inOut (ClientSettings.isInOut_mark k t.cookie c)
  · rwa [ClientSettings.types_mark, ClientSettings.arguments_mark]
  · exact h.call c hc
  · rw [ClientSettings.isKeepAlive_mark]
    exact h.reply c hc

theorem Endpoint.Binds.result_mark (hb : e.Binds m run) (hrun : Implementation.IgnoresCookie run)
    {c : CallFrame} (hi : c.interface = m.interface) (hn : c.method = m.name)
    (ht : c.types = m.types) (ha : m.decodeArguments c.arguments = .ok a) (cookie : Cookie) :
    (e.process (k.mark .inOut cookie c) u).1.result =
      Endpoint.outcome (MethodEntry.conclude m (run a u).1) := by
  have hdispatch := hb.dispatch_eq ((ClientSettings.interface_mark k .inOut cookie c).trans hi)
    ((ClientSettings.method_mark k .inOut cookie c).trans hn)
    ((ClientSettings.types_mark k .inOut cookie c).trans ht)
    ((congrArg _ (ClientSettings.arguments_mark k .inOut cookie c)).trans ha)
    (e.accept (k.mark .inOut cookie c) u)
  rw [Endpoint.result_process, hdispatch, hrun.accept]

/-- Over the wire, a typed call comes to one thing. -/
theorem typedOverWire_iff (hm : m.Faithful) (hb : e.Binds m run)
    (hrun : Implementation.IgnoresCookie run) (hfits : TypedFits e running u k t m a) :
    TypedOverWire e running u k t m a r ↔ r = m.view (run a u).1 := by
  obtain ⟨c, hc, hi, hn, ht, hlen, ha⟩ := hm.exists_callFrame a
  have hinOut := ClientSettings.isInOut_mark k t.cookie c
  have hsend := hfits.sendable hc hlen
  have hresult := hb.result_mark (k := k) (u := u) hrun hi hn ht ha t.cookie
  have hforward : ∀ {r}, TypedOverWire e running u k t m a r → r = m.view (run a u).1 := by
    intro r h
    cases h with
    | intro l remote settings atRest =>
      subst settings
      rw [Method.snd_callThrough hc, RemoteClient.carrier, RemoteClient.output_invokeOver]
        at atRest
      obtain ⟨hexchange, -⟩ := atRest.agree_inOut hsend hinOut
      rw [Method.fst_callThrough hc, RemoteClient.fst_carrier hexchange]
      show m.read ((e.process _ u).1.result.resolve m.declared) = _
      rw [hresult, hm.read_conclude]
  constructor
  · exact hforward
  · rintro rfl
    obtain ⟨l, hrest⟩ := Link.exists_atRest running e.process u [k.mark .inOut t.cookie c] false
      hsend (Or.inr (List.forall_mem_singleton.mpr hinOut))
    have hrest' : l.AtRest
        (m.callThrough ((RemoteClient.withSettings k).carrier l.channel t) a l.client).2.output
        (l.serve running e.process u).2.output := by
      rw [Method.snd_callThrough hc, RemoteClient.carrier, RemoteClient.output_invokeOver]
      exact hrest
    have hover := TypedOverWire.intro (k := k) l (.withSettings k) rfl hrest'
    rwa [hforward hover] at hover

/-- Typed calls are transparent over the wire.  A call of a faithful method comes back with
just the result that the implementation returned, or with just the failure that it raised:
as it was raised if it is the implementation's own and the method declares it, and as an
undeclared one if not.  A breakdown comes back as an undeclared failure of the framework;
and no failure of the framework is ever taken for a declared one. -/
theorem typed_calls_transparent (hm : m.Faithful) (hb : e.Binds m run)
    (hrun : Implementation.IgnoresCookie run) (hfits : TypedFits e running u k t m a) :
    (∃ r, TypedOverWire e running u k t m a r) ∧
    ∀ r, TypedOverWire e running u k t m a r →
      (∀ b, r = .ok b ↔ (run a u).1 = .returned b) ∧
      (∀ f, r = .error (.remote f) ↔ (run a u).1 = .raised f ∧ m.Declares f) ∧
      (∀ f, (run a u).1 = .raised f → ¬ m.Declares f →
        r = .error (.transport (.undeclaredFailure f))) ∧
      (∀ message, (run a u).1 = .panicked message →
        ∃ f, r = .error (.transport (.undeclaredFailure f)) ∧ f.kind = RemoteFailure.panic ∧
          f.origin = .framework) ∧
      ∀ f, f.origin = .framework → r ≠ .error (.remote f) := by
  have hiff {r : Except CallError β} := typedOverWire_iff (r := r) hm hb hrun hfits
  refine ⟨⟨_, hiff.mpr rfl⟩, fun r hr => ?_⟩
  obtain rfl := hiff.mp hr
  have hremote : ∀ f, m.view (run a u).1 = .error (.remote f) ↔
      (run a u).1 = .raised f ∧ m.Declares f := by
    intro f
    cases (run a u).1 with
    | returned b => simp [Method.view]
    | raised g =>
      rw [Method.view]
      by_cases hg : m.Declares g
      · rw [if_pos hg]
        simp only [Except.error.injEq, CallError.remote.injEq, Ending.raised.injEq]
        exact ⟨fun h => ⟨h, h ▸ hg⟩, And.left⟩
      · rw [if_neg hg]
        simp only [Except.error.injEq, reduceCtorEq, Ending.raised.injEq, false_iff, not_and]
        exact fun h => h ▸ hg
    | panicked message => simp [Method.view]
  refine ⟨?_, hremote, ?_, ?_, ?_⟩
  · intro b
    cases (run a u).1 with
    | returned b' => simp [Method.view]
    | raised f =>
      rw [Method.view]
      split <;> simp
    | panicked message => simp [Method.view]
  · intro f hf hdeclared
    rw [hf, Method.view, if_neg hdeclared]
  · intro message hmessage
    rw [hmessage]
    exact ⟨Endpoint.breakdown message, rfl, rfl, rfl⟩
  · intro f hf h
    have hendpoint := ((hremote f).mp h).2.1
    rw [hf] at hendpoint
    cases hendpoint

/-! ## An example service -/

theorem InterfaceTable.find?_method (table : InterfaceTable σ) (m : Method α β)
    (run : Implementation σ α β) :
    (table.method m run).find? m.name m.types = some (.ofMethod m run) := by
  simp [find?, method, entryAt?_insert, MethodEntry.ofMethod]

theorem Example.ignoresCookie_answering (f : α → Except RemoteFailure β) :
    Implementation.IgnoresCookie (answering f : Implementation σ α β) := by
  intro a t cookie
  rw [answering, answering]
  cases f a <;> rfl

theorem Example.faithful_throwDeclared : throwDeclared.Faithful where
  interface_ne := by decide
  name_ne := by decide
  arguments text := ⟨[.str text], rfl, rfl, rfl⟩
  result _ := ⟨.null, rfl, rfl⟩

def throwing : Endpoint Unit where
  registry := Registry.empty.insert Example.throwExceptionTable (Registry.lookup?_empty _)

/-- The declared failure comes back as it was raised, and nothing else does. -/
theorem typed_calls_transparent_throwDeclared :
    (∃ r, TypedOverWire throwing true (.fresh ()) {} (.fresh ()) Example.throwDeclared "now" r) ∧
    ∀ r, TypedOverWire throwing true (.fresh ()) {} (.fresh ()) Example.throwDeclared "now" r →
      r = .error (.remote (.raised Example.ioException Example.testExceptionMessage)) := by
  have hb : throwing.Binds Example.throwDeclared (Example.answering fun _ =>
      .error (.raised Example.ioException Example.testExceptionMessage)) :=
    ⟨Example.throwExceptionTable, rfl, InterfaceTable.find?_method _ _ _⟩
  let c : CallFrame :=
    ⟨Example.throwException, "throw_exception", [.str], [.str "now"], 0, none, by decide, by decide⟩
  have hc : Example.throwDeclared.callFrame "now" = .ok c := rfl
  have hfits : TypedFits throwing true (.fresh ()) {} (.fresh () : Thread Unit)
      Example.throwDeclared "now" := by
    refine ⟨fun c' hc' => ?_, fun c' hc' => ?_⟩
    · obtain rfl := Except.ok.inj (hc.symm.trans hc')
      decide +kernel
    · obtain rfl := Except.ok.inj (hc.symm.trans hc')
      decide +kernel
  obtain ⟨hsome, hall⟩ := typed_calls_transparent Example.faithful_throwDeclared hb
    (Example.ignoresCookie_answering _) hfits
  refine ⟨hsome, fun r hr => ?_⟩
  obtain ⟨-, hremote, -⟩ := hall r hr
  exact (hremote _).mpr ⟨rfl, by decide⟩

end RemoteCall
