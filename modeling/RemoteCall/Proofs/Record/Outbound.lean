import Mathlib.Control.Monad.Basic
import RemoteCall.Proofs.Record.Acts
import RemoteCall.Proofs.Stream.Traced
import RemoteCall.Record.Script
import RemoteCall.Stream.Script

/-!
Ciphertext on its way out.

Every operation that wraps comes down to parcels with quiet acts between them, and only its
last parcel may be refused or cut short, which ends it (`Pump.Ships`).  Behind a sink that
keeps a log, each parcel accounts for the part of the log that its sending left there
(`Pump.exists_sendings`).  So whatever earlier operations left in `netOut`, none of it goes
out with a later wrap.
-/

namespace RemoteCall

theorem Window.exists_put (dst : Window) (bs : Bytes) :
    ∃ made : Bytes, made.length ≤ dst.remaining ∧ dst.put bs = dst.put made := by
  refine ⟨bs.take dst.remaining, List.length_take_le .., ?_⟩
  rw [put, put, remaining, List.take_take, Nat.min_self, List.length_take]
  by_cases h : bs.length ≤ dst.span.length
  · rw [Nat.min_eq_right h]
  · have hle : dst.span.length ≤ bs.length := Nat.le_of_not_le h
    rw [Nat.min_eq_left hle, List.drop_of_length_le hle, List.drop_length]

namespace Record

/-- A wrap puts bytes into its destination window and does nothing else to it. -/
def Engine.Appends {ε : Type} (e : Engine ε) : Prop :=
  ∀ src dst s, ∃ made : Bytes, made.length ≤ dst.remaining ∧ (e.wrap src dst s).dst = dst.put made

def Ends.logged {ι ω ε : Type} (d : Ends ι ω ε) : Ends ι (ω × List Sink.Event) ε :=
  ⟨d.source, d.sink.traced, d.engine⟩

namespace Pump

variable {ι ω ε : Type} {d : Ends ι ω ε}

theorem netOut_wrap (he : d.engine.Appends) (app : Window) (p : Pump ι ω ε) :
    (p.wrap d app).2.2.netOut = p.netOut.clear.put (p.wrapped d app) := by
  obtain ⟨made, hfits, hmade⟩ := he app p.netOut.clear p.engine
  have hwrap : (p.wrap d app).2.2.netOut = p.netOut.clear.put made := hmade
  have hmade' : p.wrapped d app = made := by
    rw [wrapped, Moved.made, hmade, Window.before_put hfits]
    rfl
  rw [hwrap, hmade']

theorem before_wrap (d : Ends ι ω ε) (app : Window) (p : Pump ι ω ε) :
    (p.wrap d app).2.2.netOut.before = p.wrapped d app := rfl

/-- A write stops with success only where nothing is left and no wrap is due. -/
theorem writeStep_done {t u : Pump ι ω ε × Window}
    (h : writeStep d t = (.stop (.ok ()), u)) :
    u.2.remaining = 0 ∧ d.engine.handshake u.1.engine ≠ .needWrap := by
  unfold writeStep at h
  split at h
  · next hdone =>
    cases h
    exact hdone
  · split at h
    · cases h
    · next r app q hw =>
      dsimp only at h
      split at h
      · cases h
      · split at h
        · cases h
        · split at h
          · cases h
          · rw [sendOn] at h
            rcases hsend : q.send d with ⟨e | ⟨⟩, v⟩
            · rw [hsend] at h
              cases h
            · rw [hsend] at h
              cases h

theorem write_done {p : Pump ι ω ε} {limit : Nat} {app : Window}
    (h : (p.write d limit app).1 = some (.ok ())) :
    (p.write d limit app).2.2.remaining = 0 ∧
      d.engine.handshake (p.write d limit app).2.1.engine ≠ .needWrap := by
  rw [write] at h ⊢
  match hloop : repeatStep (writeStep d) limit (p, app) with
  | (some (.ok ()), q, left) =>
    obtain ⟨t, -, hstep⟩ :=
      @repeatStep_stops _ _ _ (fun _ => True) (fun _ _ => trivial) _ _ _ _ trivial hloop
    have hdone := writeStep_done hstep
    exact hdone
  | (some (.error e), q, left) =>
    rw [hloop] at h
    cases h
  | (none, q, left) =>
    rw [hloop] at h
    cases h

/-! ## Logs -/

abbrev Logged (ι ω ε : Type) := Pump ι (ω × List Sink.Event) ε

variable {p q : Logged ι ω ε} {errand : Errand} {result : Option (Except Fault Unit)}

/-- A wrap that is accepted is sent in full and flushed, unless the sink fails; then what
was sent is a front of it.  A wrap that is refused is not sent. -/
structure Parcel.Lawful (w : Parcel) (events : List Sink.Event) : Prop where
  sending : ∀ r, w.sent = some r → Sink.Sending w.made r events
  whole : w.sent = some (.ok ()) →
    Sink.accepted events = w.made ∧ ∃ writes, events = writes ++ [.flush (.ok ())]
  cut : Sink.accepted events <+: w.made
  unsent : w.sent = none → events = []

/-- What a pump sends, and what its log shows of it. -/
theorem exists_sending (d : Ends ι ω ε) (p : Logged ι ω ε) :
    ∃ events, (p.send d.logged).2.output.2 = p.output.2 ++ events ∧
      Sink.Sending p.netOut.before (p.send d.logged).1 events := by
  have hspan : p.netOut.flip.span = p.netOut.before := rfl
  obtain ⟨writes, hlog, hwrites⟩ := d.sink.traced_writeAll p.netOut.before p.output
  rw [send, hspan]
  dsimp only [Ends.logged]
  match hw : d.sink.traced.writeAll p.netOut.before p.output with
  | (.error e, o) =>
    rw [hw] at hlog hwrites
    exact ⟨writes, hlog, hwrites⟩
  | (.ok (), o) =>
    rw [hw] at hlog hwrites
    dsimp only at hlog hwrites ⊢
    match hf : d.sink.traced.flush o with
    | (.error e, u) =>
      obtain ⟨hanswer, rfl⟩ := Prod.mk.inj hf
      refine ⟨writes ++ [.flush (.error e)], ?_, hwrites (.unflushed e)⟩
      show o.2 ++ [.flush (d.sink.flush o.1).1] = _
      rw [hlog, hanswer, List.append_assoc]
    | (.ok (), u) =>
      obtain ⟨hanswer, rfl⟩ := Prod.mk.inj hf
      refine ⟨writes ++ [.flush (.ok ())], ?_, hwrites .flushed⟩
      show o.2 ++ [.flush (d.sink.flush o.1).1] = _
      rw [hlog, hanswer, List.append_assoc]

theorem Does.output_eq {a : Act} (h : Does d.logged p a q) (ha : a.Quiet) :
    q.output = p.output := by
  cases h with
  | wrap | send => exact ha.elim
  | receive | fail | unwrap | beginHandshake | runTask | closeOutbound | tidy => rfl

theorem output_wrap (d : Ends ι ω ε) (app : Window) (p : Pump ι ω ε) :
    (p.wrap d app).2.2.output = p.output := rfl

theorem Goes.exists_events {move : Option Parcel} (h : Goes d.logged errand p move q) :
    ∃ events, q.output.2 = p.output.2 ++ events ∧
      match move with
      | none => events = []
      | some w => w.Lawful events := by
  cases h with
  | quiet h ha => exact ⟨[], by rw [h.output_eq ha, List.append_nil], rfl⟩
  | @refused _ app _ _ hw =>
    have hsame := output_wrap d.logged app p
    rw [hw] at hsame
    exact ⟨[], by rw [hsame, List.append_nil], nofun, nofun, List.nil_prefix, fun _ => rfl⟩
  | @accepted u _ app _ _ sent hw _ hsend =>
    have hsame := output_wrap d.logged app p
    have hmade := before_wrap d.logged app p
    obtain ⟨events, hlog, hsending⟩ := exists_sending d u
    rw [hw] at hsame hmade
    rw [hsend] at hlog hsending
    rw [hmade] at hsending
    refine ⟨events, by rw [hlog, hsame], ?_, ?_, hsending.accepted_prefix, nofun⟩
    · rintro r hr
      exact Option.some.inj hr ▸ hsending
    · rintro hr
      obtain rfl := Option.some.inj hr
      exact hsending.whole

/-- Parcels with the events of their sending. -/
structure Sendings (ws : List Parcel) (before after : List Sink.Event)
    (sendings : List (Parcel × List Sink.Event)) : Prop where
  parcels : sendings.map Prod.fst = ws
  lawful : ∀ x ∈ sendings, x.1.Lawful x.2
  log : after = before ++ sendings.flatMap Prod.snd

theorem Sendings.append {ws more : List Parcel} {a b c : List Sink.Event}
    {xs ys : List (Parcel × List Sink.Event)} (h : Sendings ws a b xs)
    (h' : Sendings more b c ys) : Sendings (ws ++ more) a c (xs ++ ys) where
  parcels := by rw [List.map_append, h.parcels, h'.parcels]
  lawful := List.forall_mem_append.mpr ⟨h.lawful, h'.lawful⟩
  log := by rw [h'.log, h.log, List.flatMap_append, List.append_assoc]

theorem Sendings.none {a b : List Sink.Event} (h : b = a) : Sendings [] a b [] :=
  ⟨rfl, List.forall_mem_nil _, h.trans (List.append_nil a).symm⟩

theorem Sendings.single {w : Parcel} {a b events : List Sink.Event} (hw : w.Lawful events)
    (h : b = a ++ events) : Sendings [w] a b [(w, events)] :=
  ⟨rfl, List.forall_mem_singleton.mpr hw, by rw [h, List.flatMap_singleton]⟩

theorem exists_sendings {moves : List (Option Parcel)}
    (h : Steps (Goes d.logged errand) p moves q) :
    ∃ xs, Sendings (parcels moves) p.output.2 q.output.2 xs := by
  induction h with
  | refl => exact ⟨[], .none rfl⟩
  | @snoc moves move t u _ hmove ih =>
    obtain ⟨xs, hxs⟩ := ih
    obtain ⟨events, hlog, hlawful⟩ := hmove.exists_events
    rw [parcels_append]
    cases move with
    | none =>
      rw [hlawful, List.append_nil] at hlog
      exact ⟨_, hxs.append (.none hlog)⟩
    | some w => exact ⟨_, hxs.append (.single hlawful hlog)⟩

/-! ## Runs -/

/-- One operation, however it ends; the result is `none` if the limit cuts it short. -/
inductive Performs (d : Ends ι ω ε) :
    Pump ι ω ε → Errand × Option (Except Fault Unit) → Pump ι ω ε → Prop where
  | handshake (limit : Nat) (p : Pump ι ω ε) :
      Performs d p (.handshake, (p.handshake d limit).1) (p.handshake d limit).2
  | write (limit : Nat) (app : Window) (p : Pump ι ω ε) :
      Performs d p (.write app (p.write d limit app).2.2, (p.write d limit app).1)
        (p.write d limit app).2.1
  | writeClosing (limit : Nat) (p : Pump ι ω ε) :
      Performs d p (.writeClosing, (p.writeClosing d limit).1) (p.writeClosing d limit).2

structure Entry where
  errand : Errand
  result : Option (Except Fault Unit)
  moves : List (Option Parcel)

/-- The operation of an entry comes down to its moves. -/
structure Obeys (d : Ends ι ω ε) (p : Pump ι ω ε) (x : Entry) (q : Pump ι ω ε) : Prop where
  performs : Performs d p (x.errand, x.result) q
  goes : Steps (Goes d x.errand) p x.moves q
  closes : Closes x.result (parcels x.moves)
  /-- A write that succeeds leaves nothing to be wrapped. -/
  complete : ∀ app left, x.errand = .write app left → x.result = some (.ok ()) →
    left.remaining = 0 ∧ d.engine.handshake q.engine ≠ .needWrap

theorem Performs.exists_obeys {d : Ends ι ω ε} {p q : Pump ι ω ε}
    (h : Performs d p (errand, result) q) : ∃ moves, Obeys d p ⟨errand, result, moves⟩ q := by
  have hships : Ships d errand p q result := by
    cases h with
    | handshake limit => exact ships_handshake d limit p
    | write limit app => exact ships_write d limit app _ p
    | writeClosing limit => exact ships_writeClosing d limit p
  obtain ⟨moves, hmoves, hclose⟩ := hships
  refine ⟨moves, h, hmoves, hclose, ?_⟩
  intro app left hwrite hok
  cases h with
  | handshake | writeClosing => cases hwrite
  | write limit app' =>
    obtain ⟨-, rfl⟩ := Errand.write.inj hwrite
    exact write_done hok

def parcelsOf (story : List Entry) : List Parcel := story.flatMap fun x => parcels x.moves

theorem exists_story {ops : List (Errand × Option (Except Fault Unit))}
    (h : Steps (Performs d.logged) p ops q) :
    ∃ story : List Entry, story.map (fun x => (x.errand, x.result)) = ops ∧
      Steps (Obeys d.logged) p story q ∧
      ∃ xs, Sendings (parcelsOf story) p.output.2 q.output.2 xs := by
  induction h with
  | refl => exact ⟨[], rfl, .refl, [], .none rfl⟩
  | @snoc ops op t u _ hop ih =>
    obtain ⟨story, hops, hstory, xs, hxs⟩ := ih
    obtain ⟨moves, hobeys⟩ := Performs.exists_obeys hop
    obtain ⟨ys, hys⟩ := exists_sendings hobeys.goes
    refine ⟨story ++ [⟨op.1, op.2, moves⟩], ?_, hstory.snoc hobeys, xs ++ ys, ?_⟩
    · rw [List.map_append, hops]
      rfl
    · rw [parcelsOf, List.flatMap_append, List.flatMap_singleton]
      exact hxs.append hys

/-- What an engine wraps is what reaches the socket.  Behind every wrap the outgoing window,
whatever it held before, holds what the engine put there and nothing else.  Every operation
comes down to wraps, each followed at once by the sending of what the engine made if the
operation accepts it.  All that the socket meets is the sending of these parcels, one after
the other, whatever became of the operations before. -/
theorem wrapped_is_sent (d : Ends ι ω ε) (he : d.engine.Appends) (input : ι) (output : ω)
    (engine : ε) (ops : List (Errand × Option (Except Fault Unit))) (q : Logged ι ω ε)
    (h : Steps (Performs d.logged) (new d.logged input (output, []) engine) ops q) :
    (∀ (app : Window) (p : Logged ι ω ε), (p.wrap d.logged app).2.2.netOut =
      p.netOut.clear.put ((d.engine.wrap app p.netOut.clear p.engine).made p.netOut.clear)) ∧
    ∃ story : List Entry, story.map (fun x => (x.errand, x.result)) = ops ∧
      Steps (Obeys d.logged) (new d.logged input (output, []) engine) story q ∧
      ∃ sendings, Sendings (parcelsOf story) [] q.output.2 sendings ∧
        Sink.accepted q.output.2 = sendings.flatMap fun x => Sink.accepted x.2 := by
  refine ⟨netOut_wrap (d := d.logged) he, ?_⟩
  obtain ⟨story, hops, hstory, sendings, hsendings⟩ := exists_story h
  refine ⟨story, hops, hstory, sendings, hsendings, ?_⟩
  rw [hsendings.log]
  exact List.flatMap_assoc

end Pump

theorem Scripted.appends : Scripted.engine.Appends := by
  intro src dst e
  have hnone : ∃ made : Bytes, made.length ≤ dst.remaining ∧ dst = dst.put made :=
    ⟨[], Nat.zero_le _, dst.put_nil.symm⟩
  obtain ⟨handshake, begins, wraps, rest⟩ := e
  rcases wraps with _ | ⟨a, wraps⟩
  · exact hnone
  · show ∃ made : Bytes, made.length ≤ dst.remaining ∧ (Scripted.move a src dst _).dst = dst.put made
    unfold Scripted.move
    cases a.fault with
    | some f => exact hnone
    | none => exact Window.exists_put dst a.put

namespace Pump

/-- The first wrap of application data is refused and leaves two bytes in the outgoing window,
and the socket breaks in the middle of what the second one made.  None of this goes out with
what comes later. -/
theorem wrapped_is_sent_past_failure :
    let d : Ends (List Script.Arrival) Script.Uptake Scripted :=
      ⟨Script.source, Script.sink, Scripted.engine⟩
    let wrap (take : Nat) (put : Bytes) (status : Status) : Action :=
      ⟨some .finished, false, false, none, take, put, status, none, none⟩
    let engine : Scripted :=
      { handshake := .needWrap, begins := [], unwraps := [], tasks := []
        wraps := [wrap 0 [0x68, 0x69] .ok, wrap 0 [1, 2] .bufferUnderflow, wrap 1 [3, 4, 5] .ok,
          wrap 1 [6] .ok, { wrap 0 [0] .closed with outboundDone := true }]
        outboundDone := false, inboundDone := false, plaintextSize := 16, recordSize := 16 }
    let output : Script.Uptake :=
      ⟨[.ok 1, .error ⟨.interrupted, "again"⟩, .ok 1, .ok 1, .error ⟨.brokenPipe, "gone"⟩],
        [], [], 0⟩
    let start := new d.logged [] (output, []) engine
    let refused : Fault := unexpected .bufferUnderflow "wrapping"
    ∃ (story : List Entry) (q : Logged (List Script.Arrival) Script.Uptake Scripted),
      story.map (fun x => (x.errand, x.result))
        = [(.handshake, some (.ok ())),
            (.write ⟨[], [7], []⟩ ⟨[], [7], []⟩, some (.error refused)),
            (.write ⟨[], [7], []⟩ ⟨[7], [], []⟩, some (.error ⟨.brokenPipe, "gone"⟩)),
            (.write ⟨[], [8], []⟩ ⟨[8], [], []⟩, some (.ok ())),
            (.writeClosing, some (.ok ()))] ∧
      Steps (Obeys d.logged) start story q ∧
      ∃ sendings, Sendings (parcelsOf story) [] q.output.2 sendings ∧
        sendings.flatMap (fun x => Sink.accepted x.2) = [0x68, 0x69] ++ [3] ++ [6] ++ [0] := by
  intro d wrap engine output start refused
  let p₁ := (start.handshake d.logged 3).2
  let p₂ := (p₁.write d.logged 3 ⟨[], [7], []⟩).2.1
  let p₃ := (p₂.write d.logged 3 ⟨[], [7], []⟩).2.1
  let p₄ := (p₃.write d.logged 3 ⟨[], [8], []⟩).2.1
  let p₅ := (p₄.writeClosing d.logged 3).2
  have h₁ : (start.handshake d.logged 3).1 = some (.ok ()) := by decide +kernel
  have h₂ : (p₁.write d.logged 3 ⟨[], [7], []⟩).1 = some (.error refused) := by decide +kernel
  have hleft₂ : (p₁.write d.logged 3 ⟨[], [7], []⟩).2.2 = ⟨[], [7], []⟩ := by decide +kernel
  have h₃ : (p₂.write d.logged 3 ⟨[], [7], []⟩).1 = some (.error ⟨.brokenPipe, "gone"⟩) := by
    decide +kernel
  have hleft₃ : (p₂.write d.logged 3 ⟨[], [7], []⟩).2.2 = ⟨[7], [], []⟩ := by decide +kernel
  have h₄ : (p₃.write d.logged 3 ⟨[], [8], []⟩).1 = some (.ok ()) := by decide +kernel
  have hleft₄ : (p₃.write d.logged 3 ⟨[], [8], []⟩).2.2 = ⟨[8], [], []⟩ := by decide +kernel
  have h₅ : (p₄.writeClosing d.logged 3).1 = some (.ok ()) := by decide +kernel
  have hwire : Sink.accepted p₅.output.2 = [0x68, 0x69] ++ [3] ++ [6] ++ [0] := by decide +kernel
  have hhandshake := Performs.handshake (d := d.logged) 3 start
  have hrefused := Performs.write (d := d.logged) 3 ⟨[], [7], []⟩ p₁
  have hbroken := Performs.write (d := d.logged) 3 ⟨[], [7], []⟩ p₂
  have hwrite := Performs.write (d := d.logged) 3 ⟨[], [8], []⟩ p₃
  have hclosing := Performs.writeClosing (d := d.logged) 3 p₄
  rw [h₁] at hhandshake
  rw [h₂, hleft₂] at hrefused
  rw [h₃, hleft₃] at hbroken
  rw [h₄, hleft₄] at hwrite
  rw [h₅] at hclosing
  obtain ⟨-, story, hops, hstory, sendings, hsendings, hbytes⟩ :=
    wrapped_is_sent d Scripted.appends [] output engine _ p₅
      (.cons hhandshake (.cons hrefused (.cons hbroken (.cons hwrite (.single hclosing)))))
  exact ⟨story, p₅, hops, hstory, sendings, hsendings, hbytes.symm.trans hwire⟩

end Pump
end Record
end RemoteCall
