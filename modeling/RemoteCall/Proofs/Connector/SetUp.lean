import RemoteCall.Connector.Lifecycle
import RemoteCall.Proofs.InPlace
import RemoteCall.Proofs.Steps

/-!
Setting up a connector that is stopped.

A connector is changed in place, one setting at a time.  As long as nothing is bound, a
command either is refused, and then leaves everything as it was, or puts its argument into its
own setting (`Connector.perform_of_stopped`).  Each setting is checked on its own, and these
checks together are what a configuration as a whole is checked for, so a stopped connector
never holds one that would be refused.
-/

namespace RemoteCall

/-! ## Valid configurations -/

namespace ConnectorConfig

theorem checkSize_eq_ok_iff {name : String} {n : Nat} : checkSize name n = .ok () ↔ 1 ≤ n := by
  unfold checkSize
  split <;> simp <;> omega

theorem checkIdleTimeout_eq_ok_iff {timeout : Option Duration} :
    checkIdleTimeout timeout = .ok () ↔ timeout ≠ some 0 := by
  unfold checkIdleTimeout
  split <;> simp_all

theorem both_eq_ok_iff {check next : Except ConfigurationError Unit} :
    (do check; next) = .ok () ↔ check = .ok () ∧ next = .ok () := by
  cases check <;> simp [bind, Except.bind]

theorem validate_eq_ok_iff {c : ConnectorConfig} :
    c.validate = .ok () ↔
      1 ≤ c.coreThreads ∧ 1 ≤ c.maxThreads ∧ 1 ≤ c.bufferSize ∧ c.idleTimeout ≠ some 0 := by
  unfold validate
  rw [both_eq_ok_iff, both_eq_ok_iff, both_eq_ok_iff, checkSize_eq_ok_iff, checkSize_eq_ok_iff,
    checkSize_eq_ok_iff, checkIdleTimeout_eq_ok_iff]

end ConnectorConfig

/-- The address of a host: the one that its text is the form of, or else the first that the
resolver finds. -/
inductive Network.Finds (net : Network) (host : String) (ip : IpAddress) : Prop where
  | written (h : IpAddress.ofText? host = some ip)
  | resolved {rest : List IpAddress} (hname : IpAddress.ofText? host = none)
      (h : net.resolver host = .ok (ip :: rest))

theorem Network.finds_iff {net : Network} {host : String} {ip : IpAddress} :
    net.Finds host ip ↔ resolveHost net.resolver host = .ok ip := by
  unfold resolveHost
  constructor
  · rintro (h | ⟨hname, h⟩)
    · rw [h]
    · rw [hname, h]
  · intro h
    split at h
    · next found hwritten => exact .written (hwritten.trans (congrArg some (Except.ok.inj h)))
    · next hname =>
      split at h
      · next found rest hresolved =>
        obtain rfl := Except.ok.inj h
        exact .resolved hname hresolved
      · cases h

namespace Connector

variable {η κ : Type}

/-! ## Commands -/

/-- What a connector is told while it is set up. -/
inductive Command (η κ : Type) where
  | setCoreThreads (n : Nat)
  | setMaxThreads (n : Nat)
  | setStopTimeout (timeout : Duration)
  | setBufferSize (n : Nat)
  | setIdleTimeout (timeout : Option Duration)
  | setBindAddress (ip : IpAddress)
  | setBindingAddress (host : String)
  | setPort (port : UInt16)
  | setHandler (handler : η)
  | setCodecs (codecs : κ)
  | start
  | stop

/-- Changes a connector in place if it is stopped and a check has passed. -/
def put (check : Except ConfigurationError Unit) (f : Connector η κ → Connector η κ) :
    InPlace (Connector η κ) ConfigurationError Unit := do
  let c ← get
  InPlace.require c.ensureStopped
  InPlace.require check
  modify f

/-- Takes the workers away, and then finds out whether there were any. -/
def halt : InPlace (Connector η κ) ConfigurationError Unit := do
  let c ← get
  set { c with pool := none }
  match c.pool with
  | none => throw .notRunning
  | some _ => pure ()

/-- Starts in place, with what binds an address and starts workers there. -/
def bringUp (net : Network) :
    InPlace (Connector η κ) ConnectorError Unit := do
  let c ← get
  let (_, address) ← InPlace.require (c.launch.mapError .configuration)
  let pool ← InPlace.require ((net.bind address).mapError .fault)
  set { c with pool := some pool }

theorem put_realizes (check : Except ConfigurationError Unit)
    (f : Connector η κ → Connector η κ) :
    (put check f).Realizes fun c => do
      c.ensureStopped
      check
      return f c :=
  have hmodify := InPlace.realizes_modify (ε := ConfigurationError) f
  (hmodify.checked fun _ => check).checked ensureStopped

theorem halt_realizes : (halt (η := η) (κ := κ)).Realizes stop := by
  rintro ⟨config, security, codecs, handler, pool⟩
  cases pool <;> rfl

theorem bringUp_realizes (net : Network) :
    (bringUp (η := η) (κ := κ) net).Realizes (start net) := by
  intro c
  rw [bringUp, InPlace.perform_get_bind, start]
  cases c.launch with
  | error e => rfl
  | ok found =>
    show (InPlace.require ((net.bind found.2).mapError ConnectorError.fault) >>= fun pool =>
      set { c with pool := some pool }).perform c = _
    dsimp only
    cases net.bind found.2 <;> rfl

namespace Command

def inPlace (net : Network) :
    Command η κ → InPlace (Connector η κ) ConnectorError Unit
  | .setCoreThreads n =>
    .rename .configuration <| put (ConnectorConfig.checkSize "core_threads" n) fun c =>
      { c with config.coreThreads := n }
  | .setMaxThreads n =>
    .rename .configuration <| put (ConnectorConfig.checkSize "max_threads" n) fun c =>
      { c with config.maxThreads := n }
  | .setStopTimeout timeout => modify fun c => { c with config.stopTimeout := timeout }
  | .setBufferSize n =>
    .rename .configuration <| put (ConnectorConfig.checkSize "buffer_size" n) fun c =>
      { c with config.bufferSize := n }
  | .setIdleTimeout timeout =>
    .rename .configuration <| put (ConnectorConfig.checkIdleTimeout timeout) fun c =>
      { c with config.idleTimeout := timeout }
  | .setBindAddress ip =>
    .rename .configuration <| put (.ok ()) fun c => { c with config.bindAddress := some ip }
  | .setBindingAddress host => .rename .configuration do
    let ip ← InPlace.require (resolveHost net.resolver host)
    put (.ok ()) fun c => { c with config.bindAddress := some ip }
  | .setPort port =>
    .rename .configuration <| put (.ok ()) fun c => { c with config.port := some port }
  | .setHandler handler =>
    .rename .configuration <| put (.ok ()) fun c => { c with handler := some handler }
  | .setCodecs codecs => .rename .configuration <| put (.ok ()) fun c => { c with codecs := codecs }
  | .start => bringUp net
  | .stop => .rename .configuration halt

def apply (net : Network) :
    Command η κ → Connector η κ → Except ConnectorError (Connector η κ)
  | .setCoreThreads n, c => (c.setCoreThreads n).mapError .configuration
  | .setMaxThreads n, c => (c.setMaxThreads n).mapError .configuration
  | .setStopTimeout timeout, c => .ok (c.setStopTimeout timeout)
  | .setBufferSize n, c => (c.setBufferSize n).mapError .configuration
  | .setIdleTimeout timeout, c => (c.setIdleTimeout timeout).mapError .configuration
  | .setBindAddress ip, c => (c.setBindAddress ip).mapError .configuration
  | .setBindingAddress host, c => (c.setBindingAddress net host).mapError .configuration
  | .setPort port, c => (c.setPort port).mapError .configuration
  | .setHandler handler, c => (c.setHandler handler).mapError .configuration
  | .setCodecs codecs, c => (c.setCodecs codecs).mapError .configuration
  | .start, c => c.start net
  | .stop, c => c.stop.mapError .configuration

theorem realizes (net : Network) (x : Command η κ) :
    (x.inPlace net).Realizes (x.apply net) := by
  cases x with
  | setStopTimeout timeout => exact InPlace.realizes_modify _
  | start => exact bringUp_realizes net
  | stop => exact halt_realizes.rename _
  | setBindingAddress host =>
    refine InPlace.Realizes.rename (f := fun c => Connector.setBindingAddress c net host) ?_ _
    intro c
    show _ = InPlace.settle (Connector.setBindingAddress c net host) c
    unfold Connector.setBindingAddress
    cases resolveHost net.resolver host with
    | error e => rfl
    | ok ip => exact put_realizes _ _ c
  | setCoreThreads | setMaxThreads | setBufferSize | setIdleTimeout | setBindAddress | setPort
  | setHandler | setCodecs => exact (put_realizes _ _).rename _

/-- The argument is one that its setting may have.  Starting and stopping never succeed while
nothing is bound. -/
def Proper (net : Network) : Command η κ → Prop
  | .setCoreThreads n | .setMaxThreads n | .setBufferSize n => 1 ≤ n
  | .setIdleTimeout timeout => timeout ≠ some 0
  | .setBindingAddress host => ∃ ip, net.Finds host ip
  | .start | .stop => False
  | _ => True

/-- A start that gets as far as binding an address. -/
def Binds (c : Connector η κ) : Command η κ → Prop
  | .start => ∃ found, c.launch = .ok found
  | _ => False

/-- What a connector that is stopped checks first. -/
def check (net : Network) (c : Connector η κ) : Command η κ → Except ConfigurationError Unit
  | .setCoreThreads n => ConnectorConfig.checkSize "core_threads" n
  | .setMaxThreads n => ConnectorConfig.checkSize "max_threads" n
  | .setBufferSize n => ConnectorConfig.checkSize "buffer_size" n
  | .setIdleTimeout timeout => ConnectorConfig.checkIdleTimeout timeout
  | .setBindingAddress host => (resolveHost net.resolver host).map fun _ => ()
  | .start => c.launch.map fun _ => ()
  | .stop => .error .notRunning
  | _ => .ok ()

def set (net : Network) (c : Connector η κ) : Command η κ → Connector η κ
  | .setCoreThreads n => { c with config.coreThreads := n }
  | .setMaxThreads n => { c with config.maxThreads := n }
  | .setStopTimeout timeout => { c with config.stopTimeout := timeout }
  | .setBufferSize n => { c with config.bufferSize := n }
  | .setIdleTimeout timeout => { c with config.idleTimeout := timeout }
  | .setBindAddress ip => { c with config.bindAddress := some ip }
  | .setBindingAddress host =>
    { c with config.bindAddress := (resolveHost net.resolver host).toOption }
  | .setPort port => { c with config.port := some port }
  | .setHandler handler => { c with handler := some handler }
  | .setCodecs codecs => { c with codecs := codecs }
  | .start | .stop => c

variable {net : Network} {c : Connector η κ} {x : Command η κ}

theorem check_eq_ok_iff (hx : ¬ x.Binds c) : x.check net c = .ok () ↔ x.Proper net := by
  cases x with
  | setCoreThreads n | setMaxThreads n | setBufferSize n =>
    exact ConnectorConfig.checkSize_eq_ok_iff
  | setIdleTimeout timeout => exact ConnectorConfig.checkIdleTimeout_eq_ok_iff
  | setBindingAddress host =>
    simp only [check, Proper, Network.finds_iff]
    cases resolveHost net.resolver host <;> simp [Except.map]
  | start =>
    show c.launch.map _ = _ ↔ False
    cases hlaunch : c.launch with
    | error e => simp [Except.map]
    | ok found => exact absurd ⟨found, hlaunch⟩ hx
  | stop => simp [check, Proper]
  | setStopTimeout | setBindAddress | setPort | setHandler | setCodecs => simp [check, Proper]

end Command

theorem ensureStopped_of_stopped {c : Connector η κ} (h : c.pool = none) :
    c.ensureStopped = .ok () := by
  rw [ensureStopped, isRunning, h]
  rfl

theorem change_of_stopped {c : Connector η κ} (h : c.pool = none)
    (check : Except ConfigurationError Unit) (config : ConnectorConfig) :
    c.change check config = check.map fun _ => { c with config := config } := by
  rw [change, ensureStopped_of_stopped h]
  cases check <;> rfl

variable {net : Network} {c d : Connector η κ} {x : Command η κ}

theorem apply_of_stopped (h : c.pool = none) (hx : ¬ x.Binds c) :
    x.apply net c = ((x.check net c).map fun _ => x.set net c).mapError .configuration := by
  cases x with
  | setStopTimeout timeout => rfl
  | setHandler handler =>
    show (c.setHandler handler).mapError _ = _
    rw [setHandler, ensureStopped_of_stopped h]
    rfl
  | setCodecs codecs =>
    show (c.setCodecs codecs).mapError _ = _
    rw [setCodecs, ensureStopped_of_stopped h]
    rfl
  | start =>
    show c.start net = (Except.map _ (c.launch.map _)).mapError _
    rw [start]
    cases hlaunch : c.launch with
    | error e => rfl
    | ok found => exact absurd ⟨found, hlaunch⟩ hx
  | stop =>
    show c.stop.mapError _ = _
    rw [stop, h]
    rfl
  | setBindingAddress host =>
    rw [Command.apply, Command.check, Command.set, setBindingAddress]
    cases resolveHost net.resolver host with
    | error e => rfl
    | ok ip =>
      exact congrArg (Except.mapError ConnectorError.configuration) (change_of_stopped h _ _)
  | setCoreThreads | setMaxThreads | setBufferSize | setIdleTimeout | setBindAddress | setPort =>
    exact congrArg (Except.mapError ConnectorError.configuration) (change_of_stopped h _ _)

/-- While nothing is bound, a command is carried out if its argument is proper, and refused
otherwise. -/
theorem perform_of_stopped (net : Network) (h : c.pool = none)
    (hx : ¬ x.Binds c) :
    (x.Proper net ∧ (x.inPlace net).perform c = (.ok (), x.set net c)) ∨
      ∃ e, ¬ x.Proper net ∧ x.check net c = .error e ∧
        (x.inPlace net).perform c = (.error (.configuration e), c) := by
  rw [x.realizes net c, apply_of_stopped h hx, ← Command.check_eq_ok_iff hx]
  cases x.check net c with
  | ok u => exact Or.inl ⟨rfl, rfl⟩
  | error e => exact Or.inr ⟨e, by simp, rfl, rfl⟩

/-! ## Settings -/

inductive Setting where
  | coreThreads
  | maxThreads
  | stopTimeout
  | bufferSize
  | idleTimeout
  | bindAddress
  | port
  | handler
  | codecs

def Setting.Same (c d : Connector η κ) : Setting → Prop
  | .coreThreads => d.config.coreThreads = c.config.coreThreads
  | .maxThreads => d.config.maxThreads = c.config.maxThreads
  | .stopTimeout => d.config.stopTimeout = c.config.stopTimeout
  | .bufferSize => d.config.bufferSize = c.config.bufferSize
  | .idleTimeout => d.config.idleTimeout = c.config.idleTimeout
  | .bindAddress => d.config.bindAddress = c.config.bindAddress
  | .port => d.config.port = c.config.port
  | .handler => d.handler = c.handler
  | .codecs => d.codecs = c.codecs

def Setting.Present (c : Connector η κ) : Setting → Prop
  | .bindAddress => c.config.bindAddress ≠ none
  | .port => c.config.port ≠ none
  | .handler => c.handler ≠ none
  | _ => True

namespace Command

def setting? : Command η κ → Option Setting
  | .setCoreThreads _ => some .coreThreads
  | .setMaxThreads _ => some .maxThreads
  | .setStopTimeout _ => some .stopTimeout
  | .setBufferSize _ => some .bufferSize
  | .setIdleTimeout _ => some .idleTimeout
  | .setBindAddress _ | .setBindingAddress _ => some .bindAddress
  | .setPort _ => some .port
  | .setHandler _ => some .handler
  | .setCodecs _ => some .codecs
  | .start | .stop => none

/-- The setting of the command has its argument. -/
def Stands (net : Network) (d : Connector η κ) : Command η κ → Prop
  | .setCoreThreads n => d.config.coreThreads = n
  | .setMaxThreads n => d.config.maxThreads = n
  | .setStopTimeout timeout => d.config.stopTimeout = timeout
  | .setBufferSize n => d.config.bufferSize = n
  | .setIdleTimeout timeout => d.config.idleTimeout = timeout
  | .setBindAddress ip => d.config.bindAddress = some ip
  | .setBindingAddress host =>
    ∃ ip, net.Finds host ip ∧ d.config.bindAddress = some ip
  | .setPort port => d.config.port = some port
  | .setHandler handler => d.handler = some handler
  | .setCodecs codecs => d.codecs = codecs
  | .start | .stop => True

theorem same_set (x : Command η κ) (c : Connector η κ) {s : Setting} (hs : x.setting? ≠ some s) :
    s.Same c (x.set net c) := by
  cases x <;> cases s <;> simp_all [setting?, set, Setting.Same]

theorem stands_set (c : Connector η κ) (hx : x.Proper net) : x.Stands net (x.set net c) := by
  cases x with
  | setBindingAddress host =>
    obtain ⟨ip, hip⟩ := hx
    exact ⟨ip, hip, congrArg Except.toOption (Network.finds_iff.mp hip)⟩
  | start | stop => trivial
  | _ => rfl

theorem present_set (c : Connector η κ) (hx : x.Proper net) (s : Setting) :
    s.Present (x.set net c) ↔ s.Present c ∨ x.setting? = some s := by
  cases x with
  | setBindingAddress host =>
    obtain ⟨ip, hip⟩ := hx
    cases s <;> simp [setting?, set, Setting.Present, Network.finds_iff.mp hip, Except.toOption]
  | start | stop => cases hx
  | _ => cases s <;> simp [setting?, set, Setting.Present]

theorem valid_set (h : c.config.validate = .ok ()) (hx : x.Proper net) :
    (x.set net c).config.validate = .ok () := by
  rw [ConnectorConfig.validate_eq_ok_iff] at h ⊢
  obtain ⟨hcore, hmax, hbuffer, hidle⟩ := h
  cases x with
  | setCoreThreads n => exact ⟨hx, hmax, hbuffer, hidle⟩
  | setMaxThreads n => exact ⟨hcore, hx, hbuffer, hidle⟩
  | setBufferSize n => exact ⟨hcore, hmax, hx, hidle⟩
  | setIdleTimeout timeout => exact ⟨hcore, hmax, hbuffer, hx⟩
  | _ => exact ⟨hcore, hmax, hbuffer, hidle⟩

theorem unchanged_set (x : Command η κ) (c : Connector η κ) :
    (x.set net c).pool = c.pool ∧ (x.set net c).security = c.security := by
  cases x <;> exact ⟨rfl, rfl⟩

end Command

/-! ## Starting -/

theorem withConfig_eq_ok_iff {config : ConnectorConfig} :
    c.withConfig config = .ok d ↔ config.validate = .ok () ∧ d = { c with config := config } := by
  unfold withConfig
  cases config.validate with
  | error e => simp [bind, Except.bind]
  | ok u => simp [bind, Except.bind, pure, Except.pure, eq_comm]

theorem launch_of_stopped (h : c.pool = none) :
    (c.handler = none → c.launch = .error .missingHandler) ∧
    (c.handler ≠ none → c.config.bindAddress = none → c.launch = .error .missingBindAddress) ∧
    (c.handler ≠ none → c.config.bindAddress ≠ none → c.config.port = none →
      c.launch = .error .missingPort) ∧
    (c.handler ≠ none → c.config.bindAddress ≠ none → c.config.port ≠ none →
      ∃ found, c.launch = .ok found) := by
  rw [launch, ensureStopped_of_stopped h, ConnectorConfig.socketAddress]
  cases c.handler <;> cases c.config.bindAddress <;> cases c.config.port <;>
    simp [bind, Except.bind, pure, Except.pure]

/-! ## Sequences of commands -/

abbrev Entry (η κ : Type) := Command η κ × Except ConnectorError Unit

/-- One command turns the connector `c` into `d`, without anything being bound. -/
structure Obeys (net : Network) (c : Connector η κ)
    (entry : Entry η κ) (d : Connector η κ) : Prop where
  perform_eq : (entry.1.inPlace net).perform c = (entry.2, d)
  unbound : ¬ entry.1.Binds c

/-- A connector that is new, or has just been given a configuration. -/
inductive Fresh (security : ConnectionSecurity) (codecs : κ) : Connector η κ → Prop where
  | new : Fresh security codecs { security, codecs }
  | withConfig {config : ConnectorConfig} {c : Connector η κ}
      (h : Connector.withConfig { security, codecs } config = .ok c) : Fresh security codecs c

def Given (log : List (Entry η κ)) (s : Setting) : Prop :=
  ∃ entry ∈ log, entry.2 = .ok () ∧ entry.1.setting? = some s

/-- What is known of a connector after commands, from how it was at first. -/
structure Ready (first : Connector η κ) (log : List (Entry η κ)) (c : Connector η κ) :
    Prop where
  valid : c.config.validate = .ok ()
  stopped : c.pool = none
  present : ∀ s : Setting, s.Present c ↔ s.Present first ∨ Given log s

variable {first : Connector η κ} {log : List (Entry η κ)} {answer : Except ConnectorError Unit}

theorem Fresh.ready {security : ConnectionSecurity} {codecs : κ} (h : Fresh security codecs c) :
    Ready c [] c := by
  have hpresent : ∀ s : Setting, s.Present c ↔ s.Present c ∨ Given ([] : List (Entry η κ)) s := by
    simp [Given]
  cases h with
  | new => exact ⟨rfl, rfl, hpresent⟩
  | withConfig h =>
    obtain ⟨hvalid, rfl⟩ := withConfig_eq_ok_iff.mp h
    exact ⟨hvalid, rfl, hpresent⟩

theorem given_concat {s : Setting} :
    Given (log ++ [(x, answer)]) s ↔ Given log s ∨ answer = .ok () ∧ x.setting? = some s := by
  simp [Given, or_and_right, exists_or]

theorem Obeys.carriedOut_or_refused (h : c.pool = none) (hx : Obeys net c (x, answer) d) :
    (x.Proper net ∧ answer = .ok () ∧ d = x.set net c) ∨
      ∃ e, ¬ x.Proper net ∧ x.check net c = .error e ∧ answer = .error (.configuration e) ∧ d = c := by
  rcases perform_of_stopped net h hx.unbound with ⟨hproper, hdone⟩ | ⟨e, hrest⟩
  · obtain ⟨hanswer, hd⟩ := Prod.mk.inj (hx.perform_eq.symm.trans hdone)
    exact Or.inl ⟨hproper, hanswer, hd⟩
  · obtain ⟨himproper, hcheck, hdone⟩ := hrest
    obtain ⟨hanswer, hd⟩ := Prod.mk.inj (hx.perform_eq.symm.trans hdone)
    exact Or.inr ⟨e, himproper, hcheck, hanswer, hd⟩

theorem Ready.snoc (h : Ready first log c) (hx : Obeys net c (x, answer) d) :
    Ready first (log ++ [(x, answer)]) d := by
  rcases hx.carriedOut_or_refused h.stopped with ⟨hproper, rfl, rfl⟩ | ⟨e, -, -, rfl, rfl⟩
  · refine ⟨Command.valid_set h.valid hproper, (x.unchanged_set c).1.trans h.stopped, fun s => ?_⟩
    rw [Command.present_set c hproper, h.present, given_concat, or_assoc, and_iff_right rfl]
  · refine ⟨h.valid, h.stopped, fun s => ?_⟩
    rw [h.present, given_concat]
    simp

theorem Fresh.ready_steps {security : ConnectionSecurity} {codecs : κ}
    (hfirst : Fresh security codecs first) (h : Steps (Obeys net) first log c) :
    Ready first log c := by
  -- Validity would not carry the induction: only of a stopped connector is it known what a
  -- command does.
  induction h with
  | refl => exact hfirst.ready
  | snoc _ hx ih => exact ih.snoc hx

/-- What one command does to a connector on which nothing is bound. -/
structure Effect (net : Network) (c : Connector η κ) (x : Command η κ)
    (answer : Except ConnectorError Unit) (d : Connector η κ) : Prop where
  succeeds_iff : answer = .ok () ↔ x.Proper net
  refused : answer ≠ .ok () → d = c
  stands : answer = .ok () → x.Stands net d
  others : ∀ s : Setting, x.setting? ≠ some s → s.Same c d
  unchanged : d.pool = c.pool ∧ d.security = c.security

theorem Obeys.effect (h : c.pool = none) (hx : Obeys net c (x, answer) d) :
    Effect net c x answer d := by
  rcases hx.carriedOut_or_refused h with ⟨hproper, rfl, rfl⟩ | ⟨e, himproper, -, rfl, rfl⟩
  · exact ⟨iff_of_true rfl hproper, fun hfails => absurd rfl hfails,
      fun _ => Command.stands_set c hproper, fun s hs => x.same_set c hs, x.unchanged_set c⟩
  · refine ⟨iff_of_false (by simp) himproper, fun _ => rfl, by simp, fun s _ => ?_, rfl, rfl⟩
    cases s <;> rfl

theorem Obeys.settle_eq (hx : Obeys net c (x, answer) d) :
    InPlace.settle (x.apply net c) c = (answer, d) :=
  (x.realizes net c).symm.trans hx.perform_eq

/-- A start that does not get as far as binding an address misses something that it needs. -/
theorem Obeys.start_eq (h : c.pool = none) (hx : Obeys net c (.start, answer) d) :
    (¬ Setting.handler.Present c ∧ answer = .error (.configuration .missingHandler)) ∨
    (Setting.handler.Present c ∧ ¬ Setting.bindAddress.Present c ∧
      answer = .error (.configuration .missingBindAddress)) ∨
    (Setting.handler.Present c ∧ Setting.bindAddress.Present c ∧ ¬ Setting.port.Present c ∧
      answer = .error (.configuration .missingPort)) := by
  rcases hx.carriedOut_or_refused h with ⟨hproper, -⟩ | ⟨e, -, hcheck, rfl, -⟩
  · exact hproper.elim
  obtain ⟨hhandler, haddress, hport, hbinds⟩ := launch_of_stopped h
  have hfails : ∀ e', c.launch = .error e' → e = e' := by
    intro e' hlaunch
    have hmap : c.launch.map (fun _ => ()) = .error e := hcheck
    rw [hlaunch] at hmap
    exact (Except.error.inj hmap).symm
  by_cases hh : c.handler = none
  · exact Or.inl ⟨not_not_intro hh, by rw [hfails _ (hhandler hh)]⟩
  by_cases ha : c.config.bindAddress = none
  · exact Or.inr (Or.inl ⟨hh, not_not_intro ha, by rw [hfails _ (haddress hh ha)]⟩)
  by_cases hp : c.config.port = none
  · exact Or.inr (Or.inr ⟨hh, ha, not_not_intro hp, by rw [hfails _ (hport hh ha hp)]⟩)
  · exact absurd (hbinds hh ha hp) hx.unbound

/-- Any commands are given in any order to a connector that is new or has just been given a
configuration, and no start gets as far as binding an address.  Then the connector is stopped
and its configuration is valid.  The next command does what the function of its name says.
It is refused if its argument is not proper, and then nothing changes.  Otherwise its argument
is in its setting, and all other settings are as before.  A start is always refused, for the
first that is missing of a handler, an address and a port: the first that the connector
neither had at first nor was given by a command that succeeded. -/
theorem stopped_stays_valid {security : ConnectionSecurity} {codecs : κ}
    (hfirst : Fresh security codecs first) (h : Steps (Obeys net) first log c) :
    c.config.validate = .ok () ∧ c.isRunning = false ∧
    (∀ {x : Command η κ} {answer : Except ConnectorError Unit} {d : Connector η κ},
      Obeys net c (x, answer) d →
        InPlace.settle (x.apply net c) c = (answer, d) ∧ Effect net c x answer d) ∧
    ∀ {answer : Except ConnectorError Unit} {d : Connector η κ},
      Obeys net c (.start, answer) d →
        let has (s : Setting) := s.Present first ∨ Given log s
        (¬ has .handler ∧ answer = .error (.configuration .missingHandler)) ∨
        (has .handler ∧ ¬ has .bindAddress ∧
          answer = .error (.configuration .missingBindAddress)) ∨
        (has .handler ∧ has .bindAddress ∧ ¬ has .port ∧
          answer = .error (.configuration .missingPort)) := by
  have hready : Ready first log c := hfirst.ready_steps h
  refine ⟨hready.valid, ?_, fun hx => ⟨hx.settle_eq, hx.effect hready.stopped⟩, ?_⟩
  · rw [isRunning, hready.stopped]
    rfl
  · intro answer d hx has
    have hstart := hx.start_eq hready.stopped
    rwa [hready.present, hready.present, hready.present] at hstart

theorem stopped_stays_valid_loopback :
    let net : Network := ⟨fun _ => .ok [.v4 127 0 0 1], fun address => .ok ⟨address, 4, 0⟩⟩
    let first : Connector Nat Nat := { codecs := 8 }
    let c := { first with handler := some 7, config.bindAddress := some (.v4 127 0 0 1) }
    Fresh .plain 8 first ∧
    Steps (Obeys net) first
      [(.setCoreThreads 0, .error (.configuration (.invalidPoolSize "core_threads" 0))),
        (.setHandler 7, .ok ()), (.start, .error (.configuration .missingBindAddress)),
        (.setBindingAddress "localhost", .ok ())] c ∧
    c.config.validate = .ok () ∧
    (((.start : Command Nat Nat).inPlace net).perform c).1 =
      .error (.configuration .missingPort) := by
  intro net first c
  have hfirst : Fresh .plain 8 first := .new
  have hcore : Obeys net first (.setCoreThreads 0, _) first := ⟨rfl, id⟩
  have hhandler : Obeys net first (.setHandler 7, .ok ()) { first with handler := some 7 } :=
    ⟨rfl, id⟩
  have hbare : Obeys net { first with handler := some 7 }
      (.start, .error (.configuration .missingBindAddress)) { first with handler := some 7 } :=
    ⟨rfl, fun ⟨_, hbinds⟩ => nomatch hbinds⟩
  have hname : IpAddress.ofText? "localhost" = none := by decide +kernel
  have hbound : Obeys net { first with handler := some 7 }
      (.setBindingAddress "localhost", .ok ()) c := by
    refine ⟨?_, id⟩
    rw [Command.realizes, Command.apply, setBindingAddress, resolveHost, hname]
    rfl
  have h := (((Steps.single hcore).snoc hhandler).snoc hbare).snoc hbound
  obtain ⟨hvalid, -, -, hstart⟩ := stopped_stays_valid hfirst h
  refine ⟨hfirst, h, hvalid, ?_⟩
  have hlast : Obeys net c (.start, (((.start : Command Nat Nat).inPlace net).perform c).1) c :=
    ⟨rfl, fun ⟨_, hbinds⟩ => nomatch hbinds⟩
  rcases hstart hlast with ⟨hmissing, -⟩ | ⟨-, hmissing, -⟩ | ⟨-, -, -, hport⟩
  · exact absurd (Or.inr ⟨(.setHandler 7, .ok ()), by simp, rfl, rfl⟩) hmissing
  · exact absurd (Or.inr ⟨(.setBindingAddress "localhost", .ok ()), by simp, rfl, rfl⟩) hmissing
  · exact hport

end Connector
end RemoteCall
