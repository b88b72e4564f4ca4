import RemoteCall.Proofs.Client.Transparency

/-!
Cookies and the calls they belong to.

The calls of a session share one thread, and with it one place for a cookie.  An endpoint
that handles cookies takes the cookie away behind every call, however the call ended
(`Endpoint.cookie_process`), and it takes cookies from callers before the call or not at
all.  So a handler finds the cookie of its own call or none (`Endpoint.accept_clear`), and
nothing that an earlier call left behind can show in a reply.
-/

namespace RemoteCall

variable {σ : Type}

theorem Service.answers_append {η : Type} (process : CallFrame → η → ReturnFrame × η)
    (front rest : List CallFrame) (h : η) : answers process (front ++ rest) h =
      answers process front h ++ answers process rest (after process front h) := by
  induction front generalizing h with
  | nil => rfl
  | cons c cs ih =>
    rw [List.cons_append, answers, answers, after, ih]
    rfl

theorem Service.after_append {η : Type} (process : CallFrame → η → ReturnFrame × η)
    (front rest : List CallFrame) (h : η) :
    after process (front ++ rest) h = after process rest (after process front h) := by
  induction front generalizing h with
  | nil => rfl
  | cons c cs ih => exact ih (process c h).2

/-! ## Handlers -/

/-- A handler that depends on its arguments and the cookie of its thread, and on nothing
that is remembered from other calls. -/
def MethodEntry.Forgetful (h : MethodEntry σ) : Prop :=
  ∀ vs cookie memory memory',
    (h.invoke vs ⟨cookie, memory⟩).1 = (h.invoke vs ⟨cookie, memory'⟩).1 ∧
    (h.invoke vs ⟨cookie, memory⟩).2.cookie = (h.invoke vs ⟨cookie, memory'⟩).2.cookie

def Registry.Forgetful (r : Registry σ) : Prop :=
  ∀ table ∈ r.tables, ∀ h ∈ table.methods, h.Forgetful

namespace Endpoint

variable {e : Endpoint σ} {c : CallFrame} {h : MethodEntry σ} {t u : Thread σ}

def handler? (e : Endpoint σ) (c : CallFrame) : Option (MethodEntry σ) :=
  (e.registry.lookup? c.interface).bind fun table => table.find? c.method c.types

theorem dispatch_handler (hh : e.handler? c = some h) (t : Thread σ) :
    e.dispatch c t = h.invoke c.arguments t := by
  obtain ⟨table, htable, hfind⟩ := Option.bind_eq_some_iff.mp hh
  simp only [dispatch, htable, hfind]

theorem exists_dispatch_missing (hh : e.handler? c = none) :
    ∃ f, ∀ t, e.dispatch c t = (.raised f, t) := by
  cases htable : e.registry.lookup? c.interface with
  | none => exact ⟨interfaceMissing c, fun t => by simp only [dispatch, htable]⟩
  | some table =>
    have hfind : table.find? c.method c.types = none := by
      rwa [handler?, htable] at hh
    exact ⟨methodMissing c, fun t => by simp only [dispatch, htable, hfind]⟩

theorem forgetful_handler (he : e.registry.Forgetful) (hh : e.handler? c = some h) :
    h.Forgetful := by
  obtain ⟨table, htable, hfind⟩ := Option.bind_eq_some_iff.mp hh
  obtain ⟨p, hp, rfl⟩ := Option.map_eq_some_iff.mp (Option.filter_eq_some_iff.mp hfind).1
  exact he table (List.mem_of_find?_eq_some htable) p.2
    (List.mem_map_of_mem (List.mem_of_find?_eq_some hp))

/-! ## One call -/

/-- It does not matter which cookie the thread has: it has none, or that of the call takes
its place. -/
def Clear (e : Endpoint σ) (t : Thread σ) : Prop :=
  t.cookie = none ∨ e.policy.acceptCookies = true

def offered (e : Endpoint σ) (c : CallFrame) : Cookie :=
  if e.policy.acceptCookies then c.userData else none

theorem accept_clear (ht : e.Clear t) (c : CallFrame) :
    e.accept c t = ⟨e.offered c, t.memory⟩ := by
  rw [accept, offered]
  by_cases ha : e.policy.acceptCookies = true
  · rw [if_pos ha, if_pos ha]
    rfl
  · rw [if_neg ha, if_neg ha, ← ht.resolve_right ha]

theorem cookie_process (hp : e.policy.handlesCookies = true) (c : CallFrame) (t : Thread σ) :
    (e.process c t).2.cookie = none := by
  rw [process]
  dsimp only
  rw [dismiss, if_pos hp]
  rfl

/-- A reply carries the cookie that is left on the thread if the call succeeded and the
endpoint sends cookies, and no cookie otherwise. -/
theorem userData_reply (e : Endpoint σ) (ending : Ending Value) (cookie : Cookie) :
    (e.reply ending cookie).userData =
      if e.policy.sendCookies && !(e.reply ending cookie).isFailure then cookie else none := by
  rw [reply]
  cases outcome ending with
  | value v =>
    show _ = if e.policy.sendCookies && true then cookie else none
    rw [Bool.and_true]
  | failure f =>
    show none = if e.policy.sendCookies && false then cookie else none
    rw [Bool.and_false, if_neg Bool.false_ne_true]

theorem result_reply (e : Endpoint σ) (ending : Ending Value) (cookie : Cookie) :
    (e.reply ending cookie).result = outcome ending := by
  rw [reply]
  cases outcome ending <;> rfl

/-- The reply to a call does not depend on what the thread was used for before. -/
theorem process_clear (he : e.registry.Forgetful) (ht : e.Clear t) (hu : e.Clear u)
    (c : CallFrame) : (e.process c t).1 = (e.process c u).1 := by
  rw [process, process]
  dsimp only
  rw [accept_clear ht, accept_clear hu]
  cases hh : e.handler? c with
  | none =>
    obtain ⟨f, hf⟩ := exists_dispatch_missing hh
    rw [hf, hf]
  | some h =>
    have hsame := forgetful_handler he hh c.arguments (e.offered c) t.memory u.memory
    rw [dispatch_handler hh, dispatch_handler hh, hsame.1, hsame.2]

/-! ## Many calls -/

theorem clear_after (hp : e.policy.handlesCookies = true) (ht : e.Clear t)
    (calls : List CallFrame) : e.Clear (Service.after e.process calls t) := by
  induction calls generalizing t with
  | nil => exact ht
  | cons c cs ih => exact ih (Or.inl (cookie_process hp c t))

theorem answers_clear (hp : e.policy.handlesCookies = true) (he : e.registry.Forgetful)
    (ht : e.Clear t) (calls : List CallFrame) (memory : σ) :
    Service.answers e.process calls t = calls.map fun c => (e.process c (.fresh memory)).1 := by
  induction calls generalizing t with
  | nil => rfl
  | cons c cs ih =>
    rw [Service.answers, List.map_cons, process_clear (u := .fresh memory) he ht (Or.inl rfl),
      ih (Or.inl (cookie_process hp c t))]

/-- Cookies stay with their calls.  On a thread without a cookie, or on any thread if the
endpoint takes the cookies of its calls, each call of a sequence is answered as it would be
alone on a fresh thread.  Its handler finds the user data of the call, or no cookie if the
endpoint takes none; only a success carries a cookie, only if the endpoint sends them, and
then the one that the handler left; and behind every call the thread has no cookie. -/
theorem cookies_stay_with_their_calls (e : Endpoint σ) (hp : e.policy.handlesCookies = true)
    (he : e.registry.Forgetful) (t : Thread σ)
    (ht : t.cookie = none ∨ e.policy.acceptCookies = true) (calls : List CallFrame) :
    (∀ memory, Service.answers e.process calls t =
      calls.map fun c => (e.process c (.fresh memory)).1) ∧
    ∀ front c rest, calls = front ++ c :: rest → ∃ reply,
      (Service.answers e.process calls t)[front.length]? = some reply ∧
      (e.handler? c = none → reply.isFailure = true ∧ reply.userData = none) ∧
      (∀ h, e.handler? c = some h → ∃ ending left,
        h.invoke c.arguments ⟨if e.policy.acceptCookies then c.userData else none,
          (Service.after e.process front t).memory⟩ = (ending, left) ∧
        reply.result = outcome ending ∧
        reply.userData =
          if e.policy.sendCookies && !reply.isFailure then left.cookie else none) ∧
      (Service.after e.process (front ++ [c]) t).cookie = none := by
  refine ⟨answers_clear hp he ht calls, ?_⟩
  rintro front c rest rfl
  have hbefore := clear_after hp ht front
  refine ⟨(e.process c (Service.after e.process front t)).1, ?_, ?_, ?_, ?_⟩
  · have hlength := Service.length_answers e.process front t
    rw [Service.answers_append, List.getElem?_append_right (Nat.le_of_eq hlength), hlength,
      Nat.sub_self]
    rfl
  · intro hh
    obtain ⟨f, hf⟩ := exists_dispatch_missing hh
    rw [process, hf]
    exact ⟨rfl, rfl⟩
  · intro h hh
    refine ⟨_, _, rfl, ?_, ?_⟩
    · rw [process, accept_clear hbefore, dispatch_handler hh]
      exact result_reply e _ _
    · rw [process, accept_clear hbefore, dispatch_handler hh]
      exact userData_reply e _ _
  · rw [Service.after_append]
    exact cookie_process hp c _

/-- Sets a cookie, which the reply carries; sets one and fails; asks for the cookie; asks for
an interface that is not there. -/
def probing : List CallFrame :=
  [{ getCookie with
      method := "set_cookie", types := [.bytes], arguments := [.bytes [7]], method_ne := by decide },
   { getCookie with
      method := "cookie_fail", types := [.bytes], arguments := [.bytes [8]], userData := some [6],
      method_ne := by decide },
   getCookie,
   { getCookie with
      interface := "example.None", userData := some [9], interface_ne := by decide }]

/-- A probe behind an endpoint that takes cookies and sends them, on a thread that already
has one. -/
theorem cookies_stay_with_their_calls_probing :
    let e : Endpoint Unit := ⟨probed.registry, { acceptCookies := true, sendCookies := true }⟩
    Service.answers e.process probing ⟨some [5], ()⟩ =
      probing.map (fun c => (e.process c (.fresh ())).1) ∧
    (Service.answers e.process probing ⟨some [5], ()⟩).map ReturnFrame.userData =
      [some [7], none, none, none] ∧
    (Service.after e.process probing ⟨some [5], ()⟩).cookie = none := by
  intro e
  have hforgetful : e.registry.Forgetful := fun _ _ _ _ _ _ _ _ => ⟨rfl, rfl⟩
  obtain ⟨halone, hcalls⟩ := cookies_stay_with_their_calls e rfl hforgetful ⟨some [5], ()⟩
    (Or.inr rfl) probing
  refine ⟨halone (), ?_, ?_⟩
  · rw [halone ()]
    simp only [e]
    decide +kernel
  · obtain ⟨_, -, -, -, hclear⟩ := hcalls (probing.take 3) _ [] rfl
    exact hclear

end Endpoint
end RemoteCall
