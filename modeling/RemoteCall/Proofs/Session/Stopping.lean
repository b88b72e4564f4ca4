import Mathlib.Data.List.Chain
import RemoteCall.Proofs.Frame.Flags
import RemoteCall.Proofs.Session.Server
import RemoteCall.Proofs.Steps

/-!
Stopping a session.

The run flag may change at any time, so a session is followed act by act: it looks at
the flag, reads a call, processes it, sends a reply.  `Serving.Does` says what one act
does, and `told` in which order the acts of a session come.  `led_round` finds the acts
of a round, and `exists_course` puts the rounds of a session together.  What
`stopping_is_safe` says of every session is then read off the order of the acts, and off
what each act does to the source (`reads_of_steps`) and to the sink (`sends_of_steps`).
-/

namespace RemoteCall
namespace Serving

variable {ι ω η : Type} {svc : Service η} {src : Source ι} {snk : Sink ω} {s t : Serving ι ω η}

/-! ## Acts -/

inductive Act where
  | look (shown : Bool)
  | read (came : Except CodecError (Option CallFrame))
  | process (c : CallFrame) (made : ReturnFrame)
  | reply (r : ReturnFrame) (sent : Except SessionError Unit)

def Act.isProcess : Act → Bool
  | .process .. => true
  | _ => false

/-- One act of a session on a service, a source and a sink. -/
inductive Does (svc : Service η) (src : Source ι) (snk : Sink ω) :
    Serving ι ω η → Act → Serving ι ω η → Prop where
  | look (s : Serving ι ω η) : Does svc src snk s (.look (svc.running s.service).1)
      { s with service := (svc.running s.service).2 }
  | read (s : Serving ι ω η) : Does svc src snk s (.read (Frame.readCall src s.input).1)
      { s with input := (Frame.readCall src s.input).2 }
  | process (c : CallFrame) (s : Serving ι ω η) :
      Does svc src snk s (.process c (svc.process c s.service).1)
        { s with service := (svc.process c s.service).2, served := s.served + 1 }
  | reply (r : ReturnFrame) (s : Serving ι ω η) :
      Does svc src snk s (.reply r (s.reply snk r).1) (s.reply snk r).2

/-- The round trip of a call: the call, what the service made of it, what the run flag
showed then, and whether the reply was sent.  The flag is looked at only if the call asks
for keep-alive, and a reply is sent only if the call waits for one. -/
structure Trip where
  call : CallFrame
  made : ReturnFrame
  shown : Bool
  sent : Except SessionError Unit
  inOnly : call.isInOut = false → sent = .ok ()

namespace Trip

def keeps (x : Trip) : Bool := x.call.isKeepAlive && x.shown

def reply (x : Trip) : ReturnFrame := x.made.setKeepAlive x.keeps

def work (x : Trip) : List Act :=
  .process x.call x.made :: ((if x.call.isKeepAlive then [.look x.shown] else [])
    ++ (if x.call.isInOut then [.reply x.reply x.sent] else []))

def close (x : Trip) (t : Serving ι ω η) : Round ι ω η :=
  match x.sent with
  | .error e => .stop (.error e) t
  | .ok () => t.conclude x.keeps

end Trip

/-- What follows the last round trip of a session. -/
inductive Coda where
  /-- Nothing: that round trip ends the session. -/
  | ended
  /-- The run flag is found cleared. -/
  | stopped
  /-- The peer has closed the connection. -/
  | closed
  /-- What comes is not a call. -/
  | refused (e : CodecError)

/-- What comes before a call is read, when `n` calls have been processed. -/
def lead : Nat → List Act
  | 0 => []
  | _ + 1 => [.look true]

/-- The acts of a session, from the time that `n` calls have been processed. -/
def told : Nat → List Trip → Coda → List Act
  | _, [], .ended => []
  | _, [], .stopped => [.look false]
  | n, [], .closed => lead n ++ [.read (.ok none)]
  | n, [], .refused e => lead n ++ [.read (.error e)]
  | n, x :: xs, coda => lead n ++ .read (.ok (some x.call)) :: x.work ++ told (n + 1) xs coda

/-- Which round trips and which coda a session may have, and what it comes to. -/
inductive Course : Nat → List Trip → Coda → Except SessionError Nat → Prop where
  | stopped {n : Nat} (hn : n ≠ 0) : Course n [] .stopped (.ok n)
  | closed (n : Nat) : Course n [] .closed (.ok n)
  | refused (n : Nat) (e : CodecError) : Course n [] (.refused e) (.error (.codec e))
  | unsent {n : Nat} {x : Trip} {e : SessionError} (hx : x.sent = .error e) :
      Course n [x] .ended (.error e)
  | last {n : Nat} {x : Trip} (hx : x.sent = .ok ()) (hk : x.keeps = false) :
      Course n [x] .ended (.ok (n + 1))
  | next {n : Nat} {x : Trip} {xs : List Trip} {coda : Coda} {r : Except SessionError Nat}
      (hx : x.sent = .ok ()) (hk : x.keeps = true) (h : Course (n + 1) xs coda r) :
      Course n (x :: xs) coda r

/-! ## The acts of a session -/

theorem served_reply (snk : Sink ω) (r : ReturnFrame) (s : Serving ι ω η) :
    (s.reply snk r).2.served = s.served := by
  unfold reply
  split
  · rfl
  · split <;> rfl

theorem does_look (src : Source ι) (snk : Sink ω) {b : Bool} {h : η}
    (hb : svc.running s.service = (b, h)) :
    Does svc src snk s (.look b) { s with service := h } := by
  have hlook : Does svc src snk s _ _ := .look s
  rw [hb] at hlook
  exact hlook

theorem does_read (svc : Service η) (snk : Sink ω) {came : Except CodecError (Option CallFrame)}
    {i : ι} (hr : Frame.readCall src s.input = (came, i)) :
    Does svc src snk s (.read came) { s with input := i } := by
  have hread : Does svc src snk s _ _ := .read s
  rw [hr] at hread
  exact hread

theorem steps_verdict (svc : Service η) (src : Source ι) (snk : Sink ω) (c : CallFrame)
    (s : Serving ι ω η) :
    Steps (Does svc src snk) s (.process c (svc.process c s.service).1
        :: if c.isKeepAlive then [.look (svc.verdict c s.service).1] else [])
      { s with service := (svc.verdict c s.service).2, served := s.served + 1 } := by
  have hprocess : Steps (Does svc src snk) s _ _ := .single (.process c s)
  unfold Service.verdict
  by_cases hk : c.isKeepAlive = true
  · rw [if_pos hk, if_pos hk]
    exact hprocess.snoc (.look _)
  · rw [if_neg hk, if_neg hk]
    exact hprocess

def trip (svc : Service η) (c : CallFrame) (h : η) (sent : Except SessionError Unit)
    (hs : c.isInOut = false → sent = .ok ()) : Trip :=
  ⟨c, (svc.process c h).1, (svc.verdict c h).1, sent, hs⟩

theorem keeps_trip (svc : Service η) {c : CallFrame} (h : η) {sent : Except SessionError Unit}
    (hs : c.isInOut = false → sent = .ok ()) :
    (trip svc c h sent hs).keeps = (svc.verdict c h).1 := by
  unfold Trip.keeps trip Service.verdict
  dsimp only
  cases c.isKeepAlive <;> rfl

theorem work_trip (svc : Service η) {c : CallFrame} (h : η) {sent : Except SessionError Unit}
    (hs : c.isInOut = false → sent = .ok ()) :
    (trip svc c h sent hs).work = .process c (svc.process c h).1
      :: ((if c.isKeepAlive then [.look (svc.verdict c h).1] else [])
        ++ (if c.isInOut then [.reply (svc.answer c h) sent] else [])) := by
  rw [Trip.work, Trip.reply, keeps_trip]
  rfl

theorem close_trip (svc : Service η) {c : CallFrame} (h : η) {sent : Except SessionError Unit}
    (hs : c.isInOut = false → sent = .ok ()) (t : Serving ι ω η) :
    (trip svc c h sent hs).close t = match (sent, t) with
      | (.error e, t) => .stop (.error e) t
      | (.ok (), t) => t.conclude (svc.verdict c h).1 := by
  rw [Trip.close, keeps_trip]
  cases sent <;> rfl

theorem exists_trip (svc : Service η) (src : Source ι) (snk : Sink ω) (c : CallFrame)
    (s : Serving ι ω η) :
    ∃ (x : Trip) (t : Serving ι ω η), x.call = c ∧ Steps (Does svc src snk) s x.work t ∧
      t.served = s.served + 1 ∧ s.handle svc snk c = x.close t := by
  have hwork := steps_verdict svc src snk c s
  rw [handle_eq]
  dsimp only
  generalize hu : ({ s with service := _, served := s.served + 1 } : Serving ι ω η) = u at hwork ⊢
  have hserved : u.served = s.served + 1 := by rw [← hu]
  by_cases hc : c.isInOut = true
  · have hreply : Does svc src snk u _ _ := .reply (svc.answer c s.service) u
    have hserved' := served_reply snk (svc.answer c s.service) u
    rw [if_pos hc]
    generalize u.reply snk (svc.answer c s.service) = w at hreply hserved' ⊢
    obtain ⟨sent, t⟩ := w
    have hin : c.isInOut = false → sent = .ok () := fun hn => absurd (hc.symm.trans hn) (by decide)
    refine ⟨trip svc c s.service sent hin, t, rfl, ?_, hserved'.trans hserved, ?_⟩
    · rw [work_trip, if_pos hc]
      exact hwork.snoc hreply
    · exact (close_trip svc s.service hin t).symm
  · refine ⟨trip svc c s.service (.ok ()) fun _ => rfl, u, rfl, ?_, hserved, ?_⟩
    · rw [work_trip, if_neg hc, List.append_nil]
      exact hwork
    · rw [close_trip, if_neg hc]

/-- What a round comes to, act by act. -/
inductive Round.Led (svc : Service η) (src : Source ι) (snk : Sink ω) (s : Serving ι ω η) :
    Round ι ω η → Prop where
  | stop {trips : List Trip} {coda : Coda} {r : Except SessionError Nat} {t : Serving ι ω η}
      (hcourse : Course s.served trips coda r)
      (hsteps : Steps (Does svc src snk) s (told s.served trips coda) t) :
      Led svc src snk s (.stop r t)
  | next {x : Trip} {t : Serving ι ω η} (hx : x.sent = .ok ()) (hk : x.keeps = true)
      (hserved : t.served = s.served + 1)
      (hsteps : Steps (Does svc src snk) s
        (lead s.served ++ .read (.ok (some x.call)) :: x.work) t) : Led svc src snk s (.next t)

theorem led_receive (hlead : Steps (Does svc src snk) s (lead s.served) t)
    (hserved : t.served = s.served) : Round.Led svc src snk s (t.receive svc src snk) := by
  unfold receive
  match hr : Frame.readCall src t.input with
  | (.error e, i) => exact .stop (.refused s.served e) (hlead.snoc (does_read svc snk hr))
  | (.ok none, i) =>
    have hclosed : Course s.served [] .closed (.ok t.served) := by
      rw [hserved]
      exact .closed s.served
    exact .stop hclosed (hlead.snoc (does_read svc snk hr))
  | (.ok (some c), i) =>
    dsimp only
    obtain ⟨x, u, rfl, hwork, hu, hx⟩ := exists_trip svc src snk c { t with input := i }
    have hsteps := hlead.trans (hwork.cons (does_read svc snk hr))
    -- If the session ends here, these are all its acts.
    have htold : told s.served [x] .ended = lead s.served ++ .read (.ok (some x.call)) :: x.work :=
      List.append_nil _
    rw [hx, Trip.close]
    match hsent : x.sent with
    | .error e => exact .stop (.unsent hsent) (htold ▸ hsteps)
    | .ok () =>
      dsimp only at hu ⊢
      rw [hserved] at hu
      unfold conclude
      by_cases hk : x.keeps = true
      · rw [if_pos hk]
        exact .next hsent hk hu hsteps
      · rw [if_neg hk, hu]
        exact .stop (.last hsent (Bool.eq_false_iff.mpr hk)) (htold ▸ hsteps)

theorem led_round (svc : Service η) (src : Source ι) (snk : Sink ω) (s : Serving ι ω η) :
    Round.Led svc src snk s (s.round svc src snk) := by
  unfold round
  by_cases h0 : s.served = 0
  · rw [if_pos h0]
    have hlead : Steps (Does svc src snk) s (lead s.served) s := by
      rw [h0]
      exact .refl
    exact led_receive hlead rfl
  · rw [if_neg h0]
    match hb : svc.running s.service with
    | (false, h) =>
      exact .stop (.stopped h0) (.single (does_look src snk hb))
    | (true, h) =>
      have hlead : lead s.served = [.look true] := by
        obtain ⟨n, hn⟩ := Nat.exists_eq_succ_of_ne_zero h0
        rw [hn]
        rfl
      exact led_receive (hlead ▸ .single (does_look src snk hb)) rfl

/-- The acts of a whole session, by induction on its rounds. -/
theorem exists_course (svc : Service η) (src : Source ι) (snk : Sink ω) (s : Serving ι ω η) :
    ∃ trips coda, Course s.served trips coda (s.run svc src snk).1 ∧
      Steps (Does svc src snk) s (told s.served trips coda) (s.run svc src snk).2 := by
  fun_induction run svc src snk s with
  | case1 s r t hs =>
    have hround := led_round svc src snk s
    rw [hs] at hround
    cases hround with
    | stop hcourse hsteps => exact ⟨_, _, hcourse, hsteps⟩
  | case2 s t hs _ ih =>
    have hround := led_round svc src snk s
    rw [hs] at hround
    cases hround with
    | @next x _ hx hk hserved hsteps =>
      obtain ⟨trips, coda, hcourse, hrest⟩ := ih
      rw [hserved] at hcourse hrest
      exact ⟨x :: trips, coda, .next hx hk hcourse, hsteps.trans hrest⟩

/-! ## What the order of the acts says -/

theorem processed_told (n : Nat) (trips : List Trip) (coda : Coda) :
    (told n trips coda).countP Act.isProcess = trips.length := by
  have hlead (n : Nat) : (lead n).countP Act.isProcess = 0 := by cases n <;> rfl
  have hwork (x : Trip) : x.work.countP Act.isProcess = 1 := by
    unfold Trip.work
    split <;> split <;> rfl
  induction trips generalizing n with
  | nil => cases coda <;> simp [told, hlead, Act.isProcess]
  | cons x xs ih =>
    rw [told, List.countP_append, List.countP_append, List.countP_cons, hlead, hwork, ih,
      List.length_cons]
    simp only [Act.isProcess, Bool.false_eq_true, if_false]
    omega

/-- What may come just before an act: before a call is read, a look that shows the run
flag set. -/
def Act.Leads (a b : Act) : Prop := ∀ came, b = .read came → a = .look true

theorem leads_work {came : Except CodecError (Option CallFrame)} {x : Trip} {as : List Act}
    (h : ∀ a, (a :: as).IsChain Act.Leads) : (.read came :: x.work ++ as).IsChain Act.Leads := by
  unfold Trip.work
  split <;> split <;> simp [Act.Leads, h]

theorem leads_told (n : Nat) (trips : List Trip) (coda : Coda) (a : Act) :
    (a :: told (n + 1) trips coda).IsChain Act.Leads := by
  induction trips generalizing n a with
  | nil => cases coda <;> simp [told, lead, Act.Leads]
  | cons x xs ih =>
    have hrest : (.read (.ok (some x.call)) :: x.work ++ told (n + 2) xs coda).IsChain Act.Leads :=
      leads_work (ih (n + 1))
    rw [told, List.append_assoc]
    refine List.isChain_cons_cons.mpr ⟨?_, List.isChain_cons_cons.mpr ⟨fun _ _ => rfl, hrest⟩⟩
    intro came h
    cases h

theorem leads_told_zero (trips : List Trip) (coda : Coda) :
    (told 0 trips coda).IsChain Act.Leads := by
  cases trips with
  | nil => cases coda <;> simp [told, lead]
  | cons x xs =>
    rw [told]
    exact leads_work (leads_told 0 xs coda)

theorem Course.begins {trips : List Trip} {coda : Coda} {r : Except SessionError Nat}
    (h : Course 0 trips coda r) : ∃ came rest, told 0 trips coda = .read came :: rest := by
  cases h with
  | stopped hn => exact absurd rfl hn
  | closed => exact ⟨_, [], rfl⟩
  | refused => exact ⟨_, [], rfl⟩
  | unsent => exact ⟨_, _, rfl⟩
  | last => exact ⟨_, _, rfl⟩
  | next => exact ⟨_, _, rfl⟩

theorem Course.count {n m : Nat} {trips : List Trip} {coda : Coda}
    (h : Course n trips coda (.ok m)) : m = n + trips.length := by
  generalize hr : (Except.ok m : Except SessionError Nat) = r at h
  induction h with
  | stopped | closed =>
    cases hr
    rfl
  | refused => cases hr
  | unsent => cases hr
  | last =>
    cases hr
    rfl
  | next _ _ _ ih =>
    rw [ih hr, List.length_cons]
    omega

theorem Course.not_ended {n : Nat} {xs : List Trip} {coda : Coda} {r : Except SessionError Nat}
    (h : Course n xs coda r) (hxs : xs = []) : coda ≠ .ended := by
  intro hcoda
  cases h <;> cases hxs <;> cases hcoda

/-- A session ends with a round trip just if that does not keep the connection, or if its
reply cannot be sent. -/
theorem Course.ends {n : Nat} {trips : List Trip} {coda : Coda} {r : Except SessionError Nat}
    (h : Course n trips coda r) {front rest : List Trip} {x : Trip}
    (ht : trips = front ++ x :: rest) :
    x.keeps = false ∨ x.sent ≠ .ok () ↔ rest = [] ∧ coda = .ended := by
  induction h generalizing front with
  | stopped | closed | refused => simp at ht
  | @unsent _ y _ hy =>
    obtain ⟨-, rfl, rfl⟩ : front = [] ∧ x = y ∧ rest = [] := by
      simpa [List.singleton_eq_append_iff] using ht
    simp [hy]
  | @last _ y _ hk =>
    obtain ⟨-, rfl, rfl⟩ : front = [] ∧ x = y ∧ rest = [] := by
      simpa [List.singleton_eq_append_iff] using ht
    simp [hk]
  | next hy hk hcourse ih =>
    cases front with
    | nil =>
      obtain ⟨rfl, rfl⟩ := List.cons.inj ht
      simp only [hy, hk, ne_eq, not_true_eq_false, Bool.true_eq_false, or_self, false_iff, not_and]
      exact hcourse.not_ended
    | cons y front => exact ih (List.cons.inj ht).2

/-! ## What the acts do to the streams -/

def Act.came? : Act → Option (Except CodecError (Option CallFrame))
  | .read came => some came
  | _ => none

def Act.wire : Act → Bytes
  | .reply r _ => Frame.returnWire r
  | _ => []

/-- The replies to the in-out calls among the round trips, as they are sent. -/
def wires (trips : List Trip) : Bytes :=
  (trips.filter fun x => x.call.isInOut).flatMap fun x => Frame.returnWire x.reply

theorem wires_cons (x : Trip) (xs : List Trip) : wires (x :: xs) = wires [x] ++ wires xs := by
  rw [← List.singleton_append, wires, List.filter_append, List.flatMap_append]
  rfl

def Coda.came? : Coda → Option (Except CodecError (Option CallFrame))
  | .ended | .stopped => none
  | .closed => some (.ok none)
  | .refused e => some (.error e)

/-- The source of a session knows its reads only. -/
theorem reads_of_steps {acts : List Act} (h : Steps (Does svc src snk) s acts t) :
    Steps (fun i came j => Frame.readCall src i = (came, j)) s.input
      (acts.filterMap Act.came?) t.input := by
  induction h with
  | refl => exact .refl
  | snoc _ hact ih =>
    rw [List.filterMap_append]
    cases hact with
    | look | process =>
      rw [← List.append_nil (List.filterMap _ _)] at ih
      exact ih
    | read => exact ih.snoc rfl
    | reply r =>
      rw [← List.append_nil (List.filterMap _ _)] at ih
      exact (input_reply snk r _).symm ▸ ih

theorem came_told (n : Nat) (trips : List Trip) (coda : Coda) :
    (told n trips coda).filterMap Act.came? =
      trips.map (fun x => .ok (some x.call)) ++ coda.came?.toList := by
  have hlead (n : Nat) : (lead n).filterMap Act.came? = [] := by cases n <;> rfl
  have hwork (x : Trip) : x.work.filterMap Act.came? = [] := by
    unfold Trip.work
    split <;> split <;> rfl
  induction trips generalizing n with
  | nil => cases coda <;> simp [told, hlead, Act.came?, Coda.came?]
  | cons x xs ih =>
    rw [told, List.filterMap_append, List.filterMap_append, List.filterMap_cons, hlead, hwork, ih]
    rfl

/-- How a session goes through a stream that begins with `calls` and goes on with `rest`,
up to where it leaves the source. -/
inductive Hears (src : Source ι) (calls : List CallFrame) (rest : Bytes) (trips : List Trip)
    (coda : Coda) (left : ι) : Prop where
  /-- It stops behind a call, and what comes behind that is not read. -/
  | leaves {unread : List CallFrame} (hcalls : calls = trips.map Trip.call ++ unread)
      (hcoda : coda = .ended ∨ coda = .stopped)
      (hleft : src.Delivers left (unread.flatMap Frame.callWire ++ rest))
  /-- It reads behind the last call, and no call comes. -/
  | runsOut (hcalls : calls = trips.map Trip.call)
      (hcoda : coda = .closed ∨ rest ≠ [] ∧ ∃ e, coda = .refused e)
  /-- It finds calls behind the last one. -/
  | goesOn {more : List CallFrame} (hmore : more ≠ [])
      (hcalls : calls ++ more = trips.map Trip.call) (hrest : rest ≠ [])

theorem Hears.cons {calls : List CallFrame} {rest : Bytes} {xs : List Trip} {coda : Coda}
    {left : ι} (h : Hears src calls rest xs coda left) (x : Trip) :
    Hears src (x.call :: calls) rest (x :: xs) coda left := by
  cases h with
  | leaves hcalls hcoda hleft => exact .leaves (congrArg (x.call :: ·) hcalls) hcoda hleft
  | runsOut hcalls hcoda => exact .runsOut (congrArg (x.call :: ·) hcalls) hcoda
  | goesOn hmore hcalls hrest => exact .goesOn hmore (congrArg (x.call :: ·) hcalls) hrest

def Readable (calls : List CallFrame) : Prop :=
  ∀ c ∈ calls, c.types.length = c.arguments.length ∧ (Body.writeCall c).length ≤ Frame.maxBody

variable {calls : List CallFrame} {rest : Bytes}

theorem readCall_first {c : CallFrame} {i : ι} (hc : Readable (c :: calls))
    (h : src.Delivers i ((c :: calls).flatMap Frame.callWire ++ rest)) :
    ∃ j, Frame.readCall src i = (.ok (some c), j) ∧
      src.Delivers j (calls.flatMap Frame.callWire ++ rest) := by
  obtain ⟨harity, hsize⟩ := hc c List.mem_cons_self
  rw [List.flatMap_cons, List.append_assoc] at h
  exact Frame.readCall_callWire h hsize harity

/-- By induction on the round trips: a call is read whole, and nothing behind it. -/
theorem hears_of_reads {trips : List Trip} {coda : Coda} {i j : ι} (hc : Readable calls)
    (h : src.Delivers i (calls.flatMap Frame.callWire ++ rest))
    (hreads : Steps (fun i came j => Frame.readCall src i = (came, j)) i
      (trips.map (fun x => .ok (some x.call)) ++ coda.came?.toList) j) :
    Hears src calls rest trips coda j := by
  induction trips generalizing calls i with
  | nil =>
    rw [List.map_nil, List.nil_append] at hreads
    match coda, hreads with
    | .ended, hreads => exact .leaves rfl (.inl rfl) (hreads.eq_of_nil ▸ h)
    | .stopped, hreads => exact .leaves rfl (.inr rfl) (hreads.eq_of_nil ▸ h)
    | .closed, hreads =>
      obtain ⟨k, hread, -⟩ := hreads.exists_of_cons
      cases calls with
      | nil => exact .runsOut rfl (.inl rfl)
      | cons c cs =>
        obtain ⟨k', hfirst, -⟩ := readCall_first hc h
        cases hread.symm.trans hfirst
    | .refused e, hreads =>
      obtain ⟨k, hread, -⟩ := hreads.exists_of_cons
      cases calls with
      | nil =>
        refine .runsOut rfl (.inr ⟨?_, e, rfl⟩)
        rintro rfl
        obtain ⟨k', hend, -⟩ := Frame.readWith_end Frame.decodeCall h
        cases hread.symm.trans hend
      | cons c cs =>
        obtain ⟨k', hfirst, -⟩ := readCall_first hc h
        cases hread.symm.trans hfirst
  | cons x xs ih =>
    obtain ⟨k, hread, hreads⟩ := hreads.exists_of_cons
    cases calls with
    | nil =>
      refine .goesOn (List.cons_ne_nil _ _) (List.nil_append _) ?_
      rintro rfl
      obtain ⟨k', hend, -⟩ := Frame.readWith_end Frame.decodeCall h
      cases hread.symm.trans hend
    | cons c cs =>
      obtain ⟨k', hfirst, hk⟩ := readCall_first hc h
      obtain ⟨hcame, rfl⟩ := Prod.mk.inj (hread.symm.trans hfirst)
      obtain rfl := Option.some.inj (Except.ok.inj hcame)
      exact (ih (List.forall_mem_cons.mp hc).2 hk hreads).cons x

variable {taken : ω → Bytes}

theorem sends_of_does {a : Act} (h : Does svc src snk s a t) (ho : snk.Accepts taken s.output)
    (hfit : ∀ r sent, a = .reply r sent → (Body.writeReturn r).length ≤ Frame.maxBody) :
    (∀ r sent, a = .reply r sent → sent = .ok ()) ∧ snk.Accepts taken t.output ∧
      taken t.output = taken s.output ++ a.wire := by
  cases h with
  | look | read | process =>
    refine ⟨?_, ho, (List.append_nil (taken s.output)).symm⟩
    rintro r sent ⟨⟩
  | reply r =>
    obtain ⟨p, hp, hacc, hput⟩ := reply_accepts ho (hfit r _ rfl)
    rw [hp]
    refine ⟨?_, hacc, hput⟩
    rintro r' sent ⟨⟩
    rfl

/-- On a sink that takes everything every reply is sent whole, one behind the other. -/
theorem sends_of_steps {acts : List Act} (h : Steps (Does svc src snk) s acts t)
    (ho : snk.Accepts taken s.output)
    (hfit : ∀ r sent, .reply r sent ∈ acts → (Body.writeReturn r).length ≤ Frame.maxBody) :
    (∀ r sent, .reply r sent ∈ acts → sent = .ok ()) ∧ snk.Accepts taken t.output ∧
      taken t.output = taken s.output ++ acts.flatMap Act.wire := by
  induction h with
  | refl =>
    exact ⟨fun _ _ hr => absurd hr List.not_mem_nil, ho, (List.append_nil _).symm⟩
  | @snoc acts a t u _ hact ih =>
    obtain ⟨hsent, ht, htaken⟩ := ih fun r sent hr => hfit r sent (List.mem_append_left _ hr)
    obtain ⟨hlast, hu, hput⟩ := sends_of_does hact ht fun r sent ha =>
      hfit r sent (List.mem_append_right _ (List.mem_singleton.mpr ha.symm))
    refine ⟨fun r sent hr => ?_, hu, ?_⟩
    · rcases List.mem_append.mp hr with hr | hr
      · exact hsent r sent hr
      · exact hlast r sent (List.mem_singleton.mp hr).symm
    · rw [hput, htaken, List.flatMap_append, List.flatMap_singleton, List.append_assoc]

theorem wire_told (n : Nat) (trips : List Trip) (coda : Coda) :
    (told n trips coda).flatMap Act.wire = wires trips := by
  have hlead (n : Nat) : (lead n).flatMap Act.wire = [] := by cases n <;> rfl
  have hwork (x : Trip) : x.work.flatMap Act.wire = wires [x] := by
    unfold Trip.work
    split <;> split <;> simp_all [Act.wire, wires]
  induction trips generalizing n with
  | nil => cases coda <;> simp [told, hlead, Act.wire, wires]
  | cons x xs ih =>
    rw [told, List.flatMap_append, List.flatMap_append, List.flatMap_cons, hlead, hwork, ih,
      wires_cons x xs]
    rfl

theorem reply_mem_told {n : Nat} {trips : List Trip} {coda : Coda} {r : ReturnFrame}
    {sent : Except SessionError Unit} :
    .reply r sent ∈ told n trips coda ↔
      ∃ x ∈ trips, x.call.isInOut = true ∧ r = x.reply ∧ sent = x.sent := by
  have hlead (n : Nat) : .reply r sent ∉ lead n := by cases n <;> simp [lead]
  have hwork (x : Trip) :
      .reply r sent ∈ x.work ↔ x.call.isInOut = true ∧ r = x.reply ∧ sent = x.sent := by
    unfold Trip.work
    cases x.call.isKeepAlive <;> cases x.call.isInOut <;> simp
  induction trips generalizing n with
  | nil => cases coda <;> simp [told, hlead]
  | cons x xs ih => simp [told, hlead, hwork, ih]

theorem process_mem_told {n : Nat} {trips : List Trip} {coda : Coda} {x : Trip}
    (hx : x ∈ trips) : .process x.call x.made ∈ told n trips coda := by
  induction trips generalizing n with
  | nil => cases hx
  | cons y ys ih =>
    rw [told]
    rcases List.mem_cons.mp hx with rfl | hx
    · simp [Trip.work]
    · exact List.mem_append_right _ (ih hx)

theorem made_of_does {c : CallFrame} {made : ReturnFrame}
    (h : Does svc src snk s (.process c made) t) : made = (svc.process c s.service).1 := by
  cases h
  rfl

/-- Stopping is safe at any moment, whatever the run flag shows at each look and whatever
the service puts into the flags of its replies.  The first call is always read, and every
other one only just after a look that showed the flag set.  A reply carries keep-alive just
if its call asked for it and the flag was set when the reply was made; the client makes the
same of both frames; and a round trip is the last act of the session just if that is
`false`, or the reply cannot be sent.  The count that a session comes to is that of the
calls that were processed.

The calls of the round trips are those on the stream, read whole and in order, and what is
behind the last of them is still to come.  A sink that takes everything has been given the
replies, whole and in order. -/
theorem stopping_is_safe (svc : Service η) (src : Source ι) (snk : Sink ω) (input : ι)
    (output : ω) (h : η) : ∃ trips coda,
    Steps (Does svc src snk) ⟨input, output, h, 0⟩ (told 0 trips coda)
      (serve svc src snk input output h).2 ∧
    (∃ came rest, told 0 trips coda = .read came :: rest) ∧
    (told 0 trips coda).IsChain Act.Leads ∧
    (∀ x ∈ trips, x.reply.isKeepAlive = (x.call.isKeepAlive && x.shown) ∧
      Flags.bothKeepAlive x.call.flags x.reply.flags = x.keeps) ∧
    (∀ front x rest, trips = front ++ x :: rest →
      (x.keeps = false ∨ x.sent ≠ .ok () ↔ rest = [] ∧ coda = .ended)) ∧
    (∀ n, (serve svc src snk input output h).1 = .ok n →
      n = (told 0 trips coda).countP Act.isProcess) ∧
    (∀ calls rest, Readable calls → src.Delivers input (calls.flatMap Frame.callWire ++ rest) →
      Hears src calls rest trips coda (serve svc src snk input output h).2.input) ∧
    (∀ taken, snk.Accepts taken output →
      (∀ x ∈ trips, x.call.isInOut = true → (Body.writeReturn x.reply).length ≤ Frame.maxBody) →
      (∀ x ∈ trips, x.sent = .ok ()) ∧
        taken (serve svc src snk input output h).2.output =
          taken output ++ wires trips) := by
  obtain ⟨trips, coda, hcourse, hsteps⟩ := exists_course svc src snk ⟨input, output, h, 0⟩
  refine ⟨trips, coda, hsteps, hcourse.begins, leads_told_zero trips coda, ?_, ?_, ?_, ?_, ?_⟩
  · intro x _
    have hreply : x.reply.isKeepAlive = x.keeps := ReturnFrame.isKeepAlive_setKeepAlive ..
    refine ⟨hreply, ?_⟩
    have hflags : Flags.bothKeepAlive x.call.flags x.reply.flags
      = (x.call.isKeepAlive && x.reply.isKeepAlive) := rfl
    rw [hflags, hreply, Trip.keeps, ← Bool.and_assoc, Bool.and_self]
  · intro front x rest ht
    exact hcourse.ends ht
  · intro n hn
    unfold serve at hn
    rw [hn] at hcourse
    rw [processed_told, hcourse.count, Nat.zero_add]
  · intro calls rest hc hdelivers
    have hreads := reads_of_steps hsteps
    rw [came_told] at hreads
    exact hears_of_reads hc hdelivers hreads
  · intro taken haccepts hfit
    obtain ⟨hsent, -, htaken⟩ := sends_of_steps hsteps haccepts (by
      intro r sent hr
      obtain ⟨x, hx, hinOut, rfl, -⟩ := reply_mem_told.mp hr
      exact hfit x hx hinOut)
    rw [wire_told] at htaken
    refine ⟨fun x hx => ?_, htaken⟩
    cases hinOut : x.call.isInOut with
    | false => exact x.inOnly hinOut
    | true => exact hsent x.reply x.sent (reply_mem_told.mpr ⟨x, hx, hinOut, rfl, rfl⟩)

def inquiry (argument : String) : CallFrame :=
  ⟨"example.Oracle", "ask", [.str], [.str argument], 0x101, none, by decide, by decide⟩

def flagged : ReturnFrame := ⟨.value .null, 0xFFFFFFFF, none⟩

/-- A service whose run flag shows what a list says, and which sets every flag it can. -/
def capricious : Service (List Bool) :=
  ⟨fun shows => (shows.headD false, shows.tail), fun _ shows => (flagged, shows)⟩

/-- Three calls come, of which two are read: the run flag is cleared when the reply to the
second is made, which goes out without keep-alive. -/
theorem stopping_is_safe_midway :
    let calls := [inquiry "a", inquiry "b", inquiry "c"]
    let t := serve capricious Script.source Script.sink [.chunk (calls.flatMap Frame.callWire)]
      .empty [true, true, false, true]
    t.1 = .ok 2 ∧ Script.source.Delivers t.2.input (Frame.callWire (inquiry "c")) ∧
    t.2.output.taken = Frame.returnWire flagged ++ Frame.returnWire (flagged.setKeepAlive false) ∧
    ∃ trips : List Trip, trips.map Trip.call = [inquiry "a", inquiry "b"] ∧
      t.2.output.taken = wires trips := by
  intro calls t
  obtain ⟨trips, coda, hsteps, -, -, -, -, hcount, hhears, hsends⟩ := stopping_is_safe capricious
    Script.source Script.sink [.chunk (calls.flatMap Frame.callWire)] Script.Uptake.empty
    [true, true, false, true]
  have hrun : t.1 = .ok 2 ∧ t.2.output.taken =
      Frame.returnWire flagged ++ Frame.returnWire (flagged.setKeepAlive false) := by
    decide +kernel
  have htwo : trips.length = 2 := by rw [hcount 2 hrun.1, processed_told]
  have hmade (x : Trip) (hx : x ∈ trips) : x.made = flagged := by
    obtain ⟨u, v, hact⟩ := hsteps.exists_of_mem (process_mem_told hx)
    exact made_of_does hact
  have hfit (x : Trip) (hx : x ∈ trips) (_ : x.call.isInOut = true) :
      (Body.writeReturn x.reply).length ≤ Frame.maxBody := by
    rw [Trip.reply, hmade x hx]
    cases x.keeps <;> decide +kernel
  have hreadable : Readable calls := by
    unfold Readable
    decide +kernel
  have hheard := hhears calls [] hreadable (by
    rw [List.append_nil]
    exact Script.source_delivers_chunk (by decide +kernel))
  have hcalls : ∃ unread, calls = trips.map Trip.call ++ unread ∧
      Script.source.Delivers t.2.input (unread.flatMap Frame.callWire) := by
    cases hheard with
    | @leaves unread hcalls _ hleft =>
      rw [List.append_nil] at hleft
      exact ⟨unread, hcalls, hleft⟩
    | runsOut hcalls =>
      have hlength := congrArg List.length hcalls
      rw [List.length_map, htwo] at hlength
      cases hlength
    | goesOn _ _ hrest => exact absurd rfl hrest
  obtain ⟨unread, hcalls, hleft⟩ := hcalls
  have hsplit : [inquiry "a", inquiry "b"] ++ [inquiry "c"] = trips.map Trip.call ++ unread :=
    hcalls
  have hlength : [inquiry "a", inquiry "b"].length = (trips.map Trip.call).length := by
    rw [List.length_map, htwo]
    rfl
  obtain ⟨hread, rfl⟩ := List.append_inj hsplit hlength
  rw [List.flatMap_singleton] at hleft
  obtain ⟨-, htaken⟩ := hsends Script.Uptake.taken Script.sink_accepts_empty hfit
  refine ⟨hrun.1, hleft, hrun.2, trips, hread.symm, htaken.trans ?_⟩
  exact List.nil_append (wires trips)

end Serving
end RemoteCall
