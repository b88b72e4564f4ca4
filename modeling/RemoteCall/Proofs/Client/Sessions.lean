import RemoteCall.Client
import RemoteCall.Proofs.Client.Transparency

/-!
Sessions of a local client.

A local client holds no connection; it only keeps count as if it did.  Between its uses only
two things are left of what was done: whether a session is open, and the cookie of the
caller.  A session is open just if the last use was a call and the client keeps connections
(`LocalClient.connected_perform`), so such a client opens one for the first call and for the
first behind each disposal (`LocalClient.openings`).  What becomes of the cookie depends on
the reply alone, and not on what the handler does to the thread (`LocalClient.Calls`).
-/

namespace RemoteCall

variable {σ : Type}

/-! ## Handlers that are watched -/

def Processor.watched (process : Processor σ) : Processor (σ × List (CallFrame × ReturnFrame)) :=
  fun c t =>
    let (r, u) := process c ⟨t.cookie, t.memory.1⟩
    (r, ⟨u.cookie, u.memory, t.memory.2 ++ [(c, r)]⟩)

def Thread.watched (t : Thread σ) : Thread (σ × List (CallFrame × ReturnFrame)) :=
  ⟨t.cookie, t.memory, []⟩

/-- The frame `f` is the call `c` as a client with these settings sends it on a thread with
this cookie. -/
structure ClientSettings.Sends (k : ClientSettings) (p : Pattern) (cookie : Cookie)
    (c f : CallFrame) : Prop where
  interface : f.interface = c.interface
  method : f.method = c.method
  types : f.types = c.types
  arguments : f.arguments = c.arguments
  /-- Just the bit of the pattern, whatever was set before. -/
  pattern : f.flags &&& Flags.patternMask = Flags.bitOf p
  keepAlive : f.isKeepAlive = k.keepAlive
  otherFlags : f.flags &&& Flags.otherMask = c.flags &&& Flags.otherMask
  userData : f.userData = if k.sendCookies then cookie else c.userData

theorem ClientSettings.sends_mark (k : ClientSettings) (p : Pattern) (cookie : Cookie)
    (c : CallFrame) : k.Sends p cookie c (k.mark p cookie c) where
  interface := k.interface_mark p cookie c
  method := k.method_mark p cookie c
  types := k.types_mark p cookie c
  arguments := k.arguments_mark p cookie c
  pattern := by
    rw [flags_mark, Flags.withKeepAlive_and_patternMask, Flags.withPattern_and_patternMask]
  keepAlive := k.isKeepAlive_mark p cookie c
  otherFlags := by
    rw [flags_mark, Flags.withKeepAlive_and_otherMask, Flags.withPattern_and_otherMask]
  userData := by
    unfold mark
    split <;> rfl

namespace LocalClient

/-! ## Uses of a client -/

/-- What a caller does with its client. -/
inductive Use where
  | invoke (c : CallFrame) (declared : List String)
  | invokeInOnly (c : CallFrame)
  | dispose

namespace Use

def call? : Use → Option (CallFrame × Pattern)
  | invoke c _ => some (c, .inOut)
  | invokeInOnly c => some (c, .inOnly)
  | dispose => none

def isCall (u : Use) : Bool := u.call?.isSome

end Use

def perform (process : Processor σ) (s : LocalClient × Thread σ) : Use → LocalClient × Thread σ
  | .invoke c declared => (invoke process c declared s).2
  | .invokeInOnly c => (invokeInOnly process c s).2
  | .dispose => (s.1.dispose, s.2)

def performAll (process : Processor σ) (s : LocalClient × Thread σ) (uses : List Use) :
    LocalClient × Thread σ :=
  uses.foldl (perform process) s

/-- How many of the calls come first, or first after the client was disposed of.  Before them
the client was used for `last`. -/
def openings (last : Option Use) : List Use → Nat
  | [] => 0
  | u :: rest =>
    (if u.isCall && last.all (fun v => !v.isCall) then 1 else 0) + openings (some u) rest

variable {process : Processor σ} {s : LocalClient × Thread σ}

/-- The client does not depend on what the processor does. -/
theorem client_perform (u : Use) :
    (perform process s u).1 = if u.isCall then s.1.afterCall else s.1.dispose := by
  cases u <;> rfl

theorem settings_perform (u : Use) :
    (perform process s u).1.toClientSettings = s.1.toClientSettings := by
  rw [client_perform, afterCall]
  split
  · split <;> rfl
  · rfl

theorem connected_perform (u : Use) :
    (perform process s u).1.connected = (s.1.keepAlive && u.isCall) := by
  rw [client_perform, afterCall]
  cases u.isCall <;> cases s.1.keepAlive <;> rfl

theorem sessions_perform (u : Use) :
    (perform process s u).1.sessions
      = s.1.sessions + if u.isCall && !s.1.connected then 1 else 0 := by
  have hafter : s.1.afterCall.sessions = s.1.openSession.sessions := by
    rw [afterCall]
    split <;> rfl
  rw [client_perform]
  cases u.isCall with
  | false => rfl
  | true =>
    rw [if_pos rfl, hafter, openSession]
    cases s.1.connected <;> rfl

theorem settings_performAll (uses : List Use) :
    (performAll process s uses).1.toClientSettings = s.1.toClientSettings := by
  induction uses generalizing s with
  | nil => rfl
  | cons u uses ih => exact ih.trans (settings_perform u)

/-- A client that keeps connections opens a session for a call just if its last use was no
call. -/
theorem sessions_of_keepAlive (hkeep : s.1.keepAlive = true) {last : Option Use}
    (hlast : s.1.connected = last.any Use.isCall) (uses : List Use) :
    (performAll process s uses).1.sessions = s.1.sessions + openings last uses := by
  -- Each use leaves another client and is the last one for the next use.
  induction uses generalizing s last with
  | nil => rfl
  | cons u uses ih =>
    have hsettings : (perform process s u).1.keepAlive = true :=
      (congrArg ClientSettings.keepAlive (settings_perform u)).trans hkeep
    have hnext : (perform process s u).1.connected = (some u).any Use.isCall := by
      rw [connected_perform, hkeep]
      rfl
    have hfirst : (!s.1.connected) = last.all fun v => !v.isCall := by
      rw [hlast]
      cases last <;> rfl
    show (performAll process (perform process s u) uses).1.sessions = _
    rw [ih hsettings hnext, sessions_perform, hfirst, openings, Nat.add_assoc]

/-- A client that keeps no connections opens a session for every call. -/
theorem sessions_of_not_keepAlive (hkeep : s.1.keepAlive = false)
    (hclosed : s.1.connected = false) (uses : List Use) :
    (performAll process s uses).1.sessions = s.1.sessions + uses.countP Use.isCall := by
  induction uses generalizing s with
  | nil => rfl
  | cons u uses ih =>
    have hsettings : (perform process s u).1.keepAlive = false :=
      (congrArg ClientSettings.keepAlive (settings_perform u)).trans hkeep
    have hnext : (perform process s u).1.connected = false := by
      rw [connected_perform, hkeep]
      rfl
    show (performAll process (perform process s u) uses).1.sessions = _
    rw [ih hsettings hnext, sessions_perform, hclosed, List.countP_cons]
    simp only [Bool.not_false, Bool.and_true]
    omega

/-! ## Calls -/

/-- A call turns the thread `t` of the caller into `u`: the processor was given `f` there, and
nothing else, and replied `r`. -/
structure Calls (process : Processor σ) (k : ClientSettings) (c : CallFrame) (p : Pattern)
    (t u : Thread (σ × List (CallFrame × ReturnFrame))) (f : CallFrame) (r : ReturnFrame) :
    Prop where
  sends : k.Sends p t.cookie c f
  seen : u.memory.2 = t.memory.2 ++ [(f, r)]
  reply : (process f ⟨t.cookie, t.memory.1⟩).1 = r
  memory : (process f ⟨t.cookie, t.memory.1⟩).2.memory = u.memory.1
  cookie : u.cookie = if p = .inOut ∧ k.acceptCookies = true then r.userData else t.cookie

theorem exists_calls {s : LocalClient × Thread (σ × List (CallFrame × ReturnFrame))} {u : Use}
    {c : CallFrame} {p : Pattern} (hcall : u.call? = some (c, p)) :
    ∃ f r, Calls process s.1.toClientSettings c p s.2 (perform process.watched s u).2 f r := by
  cases u with
  | dispose => cases hcall
  | invokeInOnly c =>
    cases hcall
    exact ⟨_, _, s.1.sends_mark .inOnly s.2.cookie c, rfl, rfl, rfl, rfl⟩
  | invoke c declared =>
    cases hcall
    refine ⟨_, _, s.1.sends_mark .inOut s.2.cookie c, ?_, rfl, ?_, ?_⟩
    · exact congrArg Prod.snd (s.1.memory_adopt _ _)
    · let given := dispatch process.watched c .inOut s.1 s.2
      exact congrArg Prod.fst (s.1.memory_adopt _ given.2).symm
    · simp only [true_and]
      exact s.1.cookie_adopt _ _

/-- A local client keeps its session and the cookie of its caller, whatever its processor
replies and does to the thread.  Every call gives the processor one frame, marked as the client
is set up.  Behind a call a session is open just if the client keeps connections, and behind
disposing of it none is.  If it keeps them, the sessions are as many as the calls that come
first or first behind a disposal, and otherwise as many as the calls.  Only a call with a reply
changes the cookie of the caller, and only if the client accepts cookies: it becomes the user
data of the reply, also if that is a failure. -/
theorem keeps_session_and_cookie (process : Processor σ) (settings : ClientSettings)
    (t : Thread σ) (uses : List Use) :
    let s := performAll process.watched ({ settings with }, t.watched) uses
    s.1.toClientSettings = settings ∧
    s.1.sessions =
      (if settings.keepAlive then openings none uses else uses.countP Use.isCall) ∧
    ∀ u : Use, let s' := perform process.watched s u
      (u = .dispose → s'.1.connected = false ∧ s'.2 = s.2) ∧
      ∀ c p, u.call? = some (c, p) → s'.1.connected = settings.keepAlive ∧
        ∃ f r, Calls process settings c p s.2 s'.2 f r := by
  intro s
  have hsettings : s.1.toClientSettings = settings := settings_performAll uses
  refine ⟨hsettings, ?_, fun u => ⟨?_, ?_⟩⟩
  · cases hkeep : settings.keepAlive with
    | true => exact (sessions_of_keepAlive hkeep rfl uses).trans (Nat.zero_add _)
    | false => exact (sessions_of_not_keepAlive hkeep rfl uses).trans (Nat.zero_add _)
  · rintro rfl
    exact ⟨rfl, rfl⟩
  · intro c p hcall
    refine ⟨?_, hsettings ▸ exists_calls hcall⟩
    rw [connected_perform, hsettings, Use.isCall, hcall]
    exact Bool.and_true _

def meddling : Processor Unit := fun _ t =>
  ({ ReturnFrame.failure (.raised "Failure" "no") with userData := some [1] },
    t.setCookie (some [2]))

/-- Two calls, two disposals and a call, from a caller with a cookie. -/
theorem keeps_session_and_cookie_meddling :
    let front : List Use := [.invoke getCookie [], .invokeInOnly getCookie, .dispose, .dispose]
    let settings : ClientSettings := { sendCookies := true, acceptCookies := true }
    let s := performAll meddling.watched ({ settings with }, caller.watched)
      (front ++ [.invokeInOnly getCookie])
    s.1.sessions = 2 ∧ s.1.connected = true ∧ s.2.cookie = some [1] ∧
      (s.2.memory.2.map fun exchange => exchange.1.userData) =
        [some [0xAA], some [1], some [1]] := by
  intro front settings s
  obtain ⟨-, hsessions, -⟩ := keeps_session_and_cookie meddling settings caller
    (front ++ [.invokeInOnly getCookie])
  obtain ⟨-, -, hlast⟩ := keeps_session_and_cookie meddling settings caller front
  obtain ⟨hconnected, f, r, hcalls⟩ := (hlast (.invokeInOnly getCookie)).2 _ _ rfl
  refine ⟨hsessions, hconnected, hcalls.cookie, ?_⟩
  have hseen := congrArg (List.map fun exchange => exchange.1.userData) hcalls.seen
  rw [List.map_append, List.map_singleton, hcalls.sends.userData] at hseen
  exact hseen

end LocalClient
end RemoteCall
