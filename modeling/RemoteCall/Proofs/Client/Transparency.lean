import RemoteCall.Client
import RemoteCall.Endpoint.Dispatch
import RemoteCall.Example.Probe
import RemoteCall.Proofs.Session.Agreement

/-!
Local calls against calls over a connection.

`OverWire` is what a call can come to when a remote client makes it over a connection
to the endpoint, served on a thread of its own; `overWire_iff` says that it comes to one
thing only.  A local client has the call processed on the thread of the caller instead,
and an endpoint that does not take the cookie of the call leaves that of the caller in
place there.  An implementation that looks at its thread can so tell the two apart
(`spy`), and no other difference is left.
-/

namespace RemoteCall

/-! ## Calls as they are sent -/

namespace ClientSettings

variable {σ : Type} (k : ClientSettings) (p : Pattern) (cookie : Cookie) (c : CallFrame)

theorem interface_mark : (k.mark p cookie c).interface = c.interface := by
  unfold mark
  split <;> rfl

theorem method_mark : (k.mark p cookie c).method = c.method := by
  unfold mark
  split <;> rfl

theorem types_mark : (k.mark p cookie c).types = c.types := by
  unfold mark
  split <;> rfl

theorem arguments_mark : (k.mark p cookie c).arguments = c.arguments := by
  unfold mark
  split <;> rfl

theorem flags_mark :
    (k.mark p cookie c).flags = (c.flags.withPattern p).withKeepAlive k.keepAlive := by
  unfold mark
  split <;> rfl

theorem isInOut_mark : (k.mark .inOut cookie c).isInOut = true := by
  show ((k.mark .inOut cookie c).flags.pattern? == some .inOut) = true
  rw [flags_mark, Flags.pattern?_withKeepAlive, Flags.pattern?_withPattern]
  rfl

theorem isKeepAlive_mark : (k.mark p cookie c).isKeepAlive = k.keepAlive := by
  show (k.mark p cookie c).flags.isKeepAlive = k.keepAlive
  rw [flags_mark, Flags.isKeepAlive_withKeepAlive]

theorem verdict_mark : ((k.mark p cookie c).isKeepAlive && true) = k.keepAlive := by
  rw [Bool.and_true, isKeepAlive_mark]

theorem cookie_adopt (userData : Cookie) (t : Thread σ) :
    (k.adopt userData t).cookie = if k.acceptCookies then userData else t.cookie := by
  unfold adopt
  split <;> rfl

theorem memory_adopt (userData : Cookie) (t : Thread σ) :
    (k.adopt userData t).memory = t.memory := by
  unfold adopt
  split <;> rfl

end ClientSettings

theorem Endpoint.process_congr {σ : Type} {e : Endpoint σ} {c : CallFrame} {t u : Thread σ}
    (h : e.accept c t = e.accept c u) : e.process c t = e.process c u := by
  unfold process
  rw [h]

/-! ## Over a connection -/

variable {σ : Type}

/-- A call, made by some remote client with the given settings over some connection to the
endpoint, comes to a result, a cookie of the caller, and a memory of the implementations.
It is served on a thread that no call has touched. -/
inductive OverWire (e : Endpoint σ) (k : ClientSettings) (c : CallFrame) (declared : List String)
    (t : Thread σ) : Except CallError Value → Cookie → σ → Prop
  | intro {ι ω δ κ ψ : Type} (l : Link ι ω δ κ ψ) (r : RemoteClient)
      (settings : r.config.toClientSettings = k)
      (atRest : l.AtRest (r.invokeOver l.channel c declared t l.client).2.output
        (l.serve true e.process (.fresh t.memory)).2.output) :
      OverWire e k c declared t (r.invokeOver l.channel c declared t l.client).1.1
        (r.invokeOver l.channel c declared t l.client).1.2.2.cookie
        (l.serve true e.process (.fresh t.memory)).2.service.memory

/-- What the endpoint makes of a call from the thread of its caller, on a thread of its
own. -/
def Endpoint.elsewhere (e : Endpoint σ) (k : ClientSettings) (c : CallFrame) (t : Thread σ) :
    ReturnFrame × Thread σ :=
  e.process (k.mark .inOut t.cookie c) (.fresh t.memory)

variable {e : Endpoint σ} {k : ClientSettings} {c : CallFrame} {declared : List String}
  {t : Thread σ}

theorem Service.Sendable.mark (ha : c.types.length = c.arguments.length)
    (hs : (Body.writeCall (k.mark .inOut t.cookie c)).length ≤ Frame.maxBody)
    (hr : (Body.writeReturn ((e.elsewhere k c t).1.setKeepAlive k.keepAlive)).length
      ≤ Frame.maxBody) :
    Service.Sendable true e.process [k.mark .inOut t.cookie c] (.fresh t.memory) := by
  apply Sendable.inOut (ClientSettings.isInOut_mark k t.cookie c)
  · rwa [ClientSettings.types_mark, ClientSettings.arguments_mark]
  · exact hs
  · rwa [ClientSettings.verdict_mark]

namespace RemoteClient

variable {ι ω δ κ ψ : Type}

theorem state_invokeOver (r : RemoteClient) (ch : Channel ι ω δ) (c : CallFrame)
    (declared : List String) (t : Thread σ) (s : Channel.State ι ω δ) :
    (r.invokeOver ch c declared t s).2 =
      (ch.exchange (r.config.mark .inOut t.cookie c) r.config.callTimeout.isSome s).2 := by
  unfold invokeOver
  split
  · next h => rw [h]
  · next h => rw [h]

theorem output_invokeOver (r : RemoteClient) (l : Link ι ω δ κ ψ) (c : CallFrame)
    (declared : List String) (t : Thread σ) :
    (r.invokeOver l.channel c declared t l.client).2 =
      (l.converse r.config.callTimeout.isSome [r.config.mark .inOut t.cookie c]).2 := by
  rw [state_invokeOver, Link.converse,
    Channel.converse_inOut _ (ClientSettings.isInOut_mark r.config.toClientSettings t.cookie c)]

theorem invokeOver_atRest {r : RemoteClient} {l : Link ι ω δ κ ψ} (declared : List String)
    (hrest : l.AtRest (r.invokeOver l.channel c declared t l.client).2.output
      (l.serve true e.process (.fresh t.memory)).2.output)
    (ha : c.types.length = c.arguments.length)
    (hs : (Body.writeCall (r.config.mark .inOut t.cookie c)).length ≤ Frame.maxBody)
    (hr : (Body.writeReturn ((e.elsewhere r.config.toClientSettings c t).1.setKeepAlive
      r.config.keepAlive)).length ≤ Frame.maxBody) :
    (r.invokeOver l.channel c declared t l.client).1 =
        ((e.elsewhere r.config.toClientSettings c t).1.result.resolve declared,
          { r with connected := r.config.keepAlive },
          r.config.adopt (e.elsewhere r.config.toClientSettings c t).1.userData t) ∧
      (l.serve true e.process (.fresh t.memory)).2.service
        = (e.elsewhere r.config.toClientSettings c t).2 := by
  rw [output_invokeOver] at hrest
  obtain ⟨hx, hservice⟩ := hrest.agree_inOut (.mark ha hs hr)
    (ClientSettings.isInOut_mark r.config.toClientSettings t.cookie c)
  refine ⟨?_, hservice⟩
  rw [ClientSettings.verdict_mark] at hx
  unfold invokeOver
  generalize l.channel.exchange _ _ l.client = w at hx ⊢
  obtain ⟨x, u⟩ := w
  subst hx
  rfl

def withSettings (k : ClientSettings) : RemoteClient where
  config := { toClientSettings := k }
  valid := rfl

end RemoteClient

theorem overWire_iff (ha : c.types.length = c.arguments.length)
    (hs : (Body.writeCall (k.mark .inOut t.cookie c)).length ≤ Frame.maxBody)
    (hr : (Body.writeReturn ((e.elsewhere k c t).1.setKeepAlive k.keepAlive)).length
      ≤ Frame.maxBody) {r : Except CallError Value} {q : Cookie} {m : σ} :
    OverWire e k c declared t r q m ↔
      (e.elsewhere k c t).1.result.resolve declared = r ∧
      (k.adopt (e.elsewhere k c t).1.userData t).cookie = q ∧
      (e.elsewhere k c t).2.memory = m := by
  constructor
  · intro h
    cases h with
    | intro l remote settings atRest =>
      subst settings
      obtain ⟨hclient, hservice⟩ := remote.invokeOver_atRest declared atRest ha hs hr
      rw [hclient, hservice]
      exact ⟨rfl, rfl, rfl⟩
  · rintro ⟨rfl, rfl, rfl⟩
    obtain ⟨l, hrest⟩ := Link.exists_atRest true e.process (.fresh t.memory)
      [k.mark .inOut t.cookie c] false (.mark ha hs hr) (Or.inl rfl)
    have hrest' : l.AtRest
        ((RemoteClient.withSettings k).invokeOver l.channel c declared t l.client).2.output
        (l.serve true e.process (.fresh t.memory)).2.output := by
      rw [RemoteClient.output_invokeOver]
      exact hrest
    have hover := OverWire.intro (k := k) l (.withSettings k) rfl hrest'
    obtain ⟨hclient, hservice⟩ :=
      (RemoteClient.withSettings k).invokeOver_atRest declared hrest' ha hs hr
    rw [hclient, hservice] at hover
    exact hover

/-! ## On the thread of the caller -/

theorem LocalClient.result_invoke (process : Processor σ) (c : CallFrame)
    (declared : List String) (k : LocalClient) (t : Thread σ) :
    (invoke process c declared (k, t)).1
      = (process (k.mark .inOut t.cookie c) t).1.result.resolve declared := rfl

/-- An endpoint that takes the cookie of each call does not look at the thread's, and
without one there is nothing to look at. -/
theorem Endpoint.elsewhere_eq (h : e.policy.acceptCookies = true ∨ t.cookie = none) :
    e.process (k.mark .inOut t.cookie c) t = e.elsewhere k c t := by
  apply process_congr
  unfold accept
  rcases h with h | h
  · rw [if_pos h, if_pos h]
    rfl
  · have ht : t = .fresh t.memory := by
      obtain ⟨cookie, memory⟩ := t
      obtain rfl : cookie = none := h
      rfl
    rw [← ht]

/-- A method that answers whether its thread has a cookie, and takes it away. -/
def spy (c : CallFrame) : MethodEntry σ where
  name := c.method
  types := c.types
  invoke _ t := (.returned (.bool t.cookie.isSome), t.setCookie none)

theorem Registry.lookup?_empty (id : String) : (Registry.empty : Registry σ).lookup? id = none := rfl

def spies (c : CallFrame) : Registry σ :=
  Registry.empty.insert ((InterfaceTable.marker c.interface).insert (spy c)) (Registry.lookup?_empty _)

theorem Endpoint.dispatch_spies (policy : EndpointPolicy) (p : Pattern) (cookie : Cookie)
    (t : Thread σ) : dispatch ⟨spies c, policy⟩ (k.mark p cookie c) t
      = (.returned (.bool t.cookie.isSome), t.setCookie none) := by
  have hlookup : (spies c : Registry σ).lookup? c.interface
      = some ((InterfaceTable.marker c.interface).insert (spy c)) := by
    rw [spies, Registry.lookup?_insert]
    exact if_pos rfl
  have hfind : ((InterfaceTable.marker c.interface).insert (spy c : MethodEntry σ)).find? c.method
      c.types = some (spy c) := by
    simp [InterfaceTable.find?, InterfaceTable.entryAt?_insert, spy]
  rw [dispatch, ClientSettings.interface_mark, ClientSettings.method_mark,
    ClientSettings.types_mark, hlookup]
  dsimp only
  rw [hfind]
  rfl

/-- An endpoint that does not take cookies tells through a spy whether its thread has
one. -/
theorem Endpoint.process_spies {policy : EndpointPolicy} (h : policy.acceptCookies = false)
    (p : Pattern) (cookie : Cookie) (t : Thread σ) :
    (process ⟨spies c, policy⟩ (k.mark p cookie c) t).1 = .success (.bool t.cookie.isSome) := by
  have haccept : accept ⟨spies c, policy⟩ (k.mark p cookie c) t = t := by
    unfold accept
    rw [h, if_neg (by simp)]
  unfold process
  rw [haccept, dispatch_spies]
  show { ReturnFrame.success _ with userData := if policy.sendCookies then none else none } = _
  rw [ite_self]
  rfl

theorem fits_spied (b keep : Bool) :
    (Body.writeReturn ((ReturnFrame.success (.bool b)).setKeepAlive keep)).length
      ≤ Frame.maxBody := by
  revert b keep
  decide +kernel

/-- Whatever is registered at an endpoint with a given policy, a call to a local client
comes to what it comes to over the wire.  A reply that is too long to be sent is left
out. -/
def LocalClient.Transparent (k : LocalClient) (policy : EndpointPolicy) (c : CallFrame)
    (declared : List String) (t : Thread σ) : Prop :=
  ∀ registry : Registry σ,
    let e : Endpoint σ := ⟨registry, policy⟩
    let here := LocalClient.invoke e.process c declared (k, t)
    (Body.writeReturn ((e.elsewhere k.toClientSettings c t).1.setKeepAlive k.keepAlive)).length
      ≤ Frame.maxBody →
    ∀ r q m, OverWire e k.toClientSettings c declared t r q m ↔
      here.1 = r ∧ here.2.2.cookie = q ∧ here.2.2.memory = m

/-- Local calls are transparent just if the endpoint takes the cookie of each call or the
caller has none. -/
theorem transparent_iff (policy : EndpointPolicy) (k : LocalClient) (t : Thread σ)
    (c : CallFrame) (declared : List String) (ha : c.types.length = c.arguments.length)
    (hs : (Body.writeCall (k.mark .inOut t.cookie c)).length ≤ Frame.maxBody) :
    k.Transparent policy c declared t ↔ policy.acceptCookies = true ∨ t.cookie = none := by
  constructor
  · intro h
    by_cases hp : policy.acceptCookies = true
    · exact Or.inl hp
    right
    have hoff : policy.acceptCookies = false := Bool.eq_false_iff.mpr hp
    have hthere : (Endpoint.elsewhere ⟨spies c, policy⟩ k.toClientSettings c t).1
        = .success (.bool false) := Endpoint.process_spies hoff .inOut t.cookie (.fresh t.memory)
    have hfits : (Body.writeReturn ((Endpoint.elsewhere ⟨spies c, policy⟩ k.toClientSettings c
        t).1.setKeepAlive k.keepAlive)).length ≤ Frame.maxBody := by
      rw [hthere]
      exact fits_spied false k.keepAlive
    have hsame := ((h (spies c) hfits _ _ _).mp
      ((overWire_iff ha hs hfits).mpr ⟨rfl, rfl, rfl⟩)).1
    have hhere : (LocalClient.invoke (Endpoint.process ⟨spies c, policy⟩) c declared (k, t)).1
        = .ok (.bool t.cookie.isSome) := by
      rw [LocalClient.result_invoke, Endpoint.process_spies hoff]
      rfl
    rw [hhere, hthere] at hsame
    have hsome : t.cookie.isSome = false := Value.bool.inj (Except.ok.inj hsame)
    exact Option.isNone_iff_eq_none.mp (Option.isSome_eq_false_iff.mp hsome)
  · intro h registry e here hfits r q m
    have hhere := Endpoint.elsewhere_eq (e := e) (k := k.toClientSettings) (c := c) h
    rw [overWire_iff ha hs hfits, ← hhere]
    dsimp only [here]
    rw [LocalClient.invoke, LocalClient.dispatch]
    dsimp only
    rw [ClientSettings.cookie_adopt, ClientSettings.cookie_adopt, ClientSettings.memory_adopt]
    exact Iff.rfl

def probed : Endpoint Unit where
  registry := Registry.empty.insert (Example.Probe.table "example.Probe") (Registry.lookup?_empty _)

def getCookie : CallFrame :=
  ⟨"example.Probe", "get_cookie", [], [], 0, none, by decide, by decide⟩

def caller : Thread Unit := ⟨some [0xAA], ()⟩

/-- Asked from a caller with a cookie, under a policy that takes none: the thread of the
caller has it, the thread of the server does not. -/
theorem probed_differs :
    (LocalClient.invoke probed.process getCookie [] ({}, caller)).1 = .ok (.bytes [0xAA]) ∧
    (∃ q m, OverWire probed {} getCookie [] caller (.ok .null) q m) ∧
    ∀ r q m, OverWire probed {} getCookie [] caller r q m → r = .ok .null := by
  have hhere : (probed.process (ClientSettings.mark {} .inOut caller.cookie getCookie) caller).1
      = .success (.bytes [0xAA]) := by decide +kernel
  have hthere : (probed.elsewhere {} getCookie caller).1 = .success .null := by decide +kernel
  have hs : (Body.writeCall (ClientSettings.mark {} .inOut caller.cookie getCookie)).length
      ≤ Frame.maxBody := by decide +kernel
  have hr : (Body.writeReturn ((probed.elsewhere {} getCookie caller).1.setKeepAlive true)).length
      ≤ Frame.maxBody := by
    rw [hthere]
    decide +kernel
  refine ⟨?_, ⟨_, _, (overWire_iff rfl hs hr).mpr ⟨by rw [hthere]; rfl, rfl, rfl⟩⟩, ?_⟩
  · rw [LocalClient.result_invoke, hhere]
    rfl
  · intro r q m h
    rw [← ((overWire_iff rfl hs hr).mp h).1, hthere]
    rfl

theorem transparent_accepting :
    (Body.writeCall (ClientSettings.mark {} .inOut caller.cookie getCookie)).length
      ≤ Frame.maxBody ∧
    LocalClient.Transparent {} { acceptCookies := true } getCookie [] caller ∧
    ¬ LocalClient.Transparent {} {} getCookie [] caller := by
  have hs : (Body.writeCall (ClientSettings.mark {} .inOut caller.cookie getCookie)).length
      ≤ Frame.maxBody := by decide +kernel
  refine ⟨hs, (transparent_iff _ {} caller getCookie [] rfl hs).mpr (Or.inl rfl), fun h => ?_⟩
  exact absurd ((transparent_iff {} {} caller getCookie [] rfl hs).mp h) (by decide)

end RemoteCall
