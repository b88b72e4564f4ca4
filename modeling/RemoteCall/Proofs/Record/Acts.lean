import RemoteCall.Proofs.Steps
import RemoteCall.Record.Pump

/-!
The acts of a pump.

Every operation of a pump is made of a few acts: the socket delivers bytes or takes some,
the engine wraps or unwraps, the engine or a window is made ready.  `Pump.Does` says what
an act does.  The operations that take bytes in wrap and send nothing (`Pump.Quietly`).
The three that wrap differ in which wraps they accept (`Pump.Errand.Accepts`); what an
accepted wrap made is sent at once, and what a refused one made is not (`Pump.Goes`).  Each
step of an operation comes down to such moves, and these to acts, hence each operation does,
however it ends (`Operates.reaches`); so what every act keeps is kept by every operation.
-/

namespace RemoteCall
namespace Record

theorem repeatStep_stops {σ α : Type} {step : σ → Turn α × σ} {inv : σ → Prop}
    (hkeep : ∀ s, inv s → inv (step s).2) {limit : Nat} {s t : σ} {r : Except Fault α}
    (hs : inv s) (h : repeatStep step limit s = (some r, t)) :
    ∃ u, inv u ∧ step u = (.stop r, t) := by
  induction limit generalizing s with
  | zero => simp [repeatStep] at h
  | succ limit ih =>
    have hnext := hkeep s hs
    rw [repeatStep] at h
    rcases hstep : step s with ⟨_ | r', u⟩
    · rw [hstep] at h hnext
      exact ih hnext h
    · rw [hstep] at h
      obtain ⟨hr, rfl⟩ := Prod.mk.inj h
      obtain rfl := Option.some.inj hr
      exact ⟨s, hs, hstep⟩

def Turn.result {α : Type} : Turn α → Option (Except Fault α)
  | .again => none
  | .stop r => some r

namespace Pump

inductive Act where
  | receive (came : Bytes)
  /-- The engine is offered bytes and takes some of them. -/
  | unwrap (offered taken : Bytes)
  | wrap (made : Bytes)
  | send (offered : Bytes) (sent : Except Fault Unit)
  /-- The engine or a window is made ready, or a read fails. -/
  | aside

variable {ι ω ε : Type} {d : Ends ι ω ε} {p q r : Pump ι ω ε}

/-- What the engine puts into the outgoing window when it wraps into that, cleared. -/
def wrapped (d : Ends ι ω ε) (app : Window) (p : Pump ι ω ε) : Bytes :=
  (d.engine.wrap app p.netOut.clear p.engine).made p.netOut.clear

/-- One act of a pump. -/
inductive Does (d : Ends ι ω ε) : Pump ι ω ε → Act → Pump ι ω ε → Prop where
  | receive {p : Pump ι ω ε} {came : Bytes} {i : ι}
      (h : d.source.readSome p.netIn.remaining p.input = (.ok came, i)) :
      Does d p (.receive came) { p with input := i, netIn := p.netIn.put came }
  | fail {p : Pump ι ω ε} {e : Fault} {i : ι}
      (h : d.source.readSome p.netIn.remaining p.input = (.error e, i)) :
      Does d p .aside { p with input := i }
  | unwrap (app : Window) (p : Pump ι ω ε) :
      Does d p (.unwrap p.netIn.flip.span (d.engine.unwrap p.netIn.flip app p.engine).src.before)
        (p.unwrap d app).2.2
  | wrap (app : Window) (p : Pump ι ω ε) :
      Does d p (.wrap (p.wrapped d app)) (p.wrap d app).2.2
  | send (p : Pump ι ω ε) : Does d p (.send p.netOut.flip.span (p.send d).1) (p.send d).2
  | beginHandshake (p : Pump ι ω ε) :
      Does d p .aside { p with engine := (d.engine.beginHandshake p.engine).2 }
  | runTask (p : Pump ι ω ε) : Does d p .aside { p with engine := (d.engine.runTask p.engine).2 }
  | closeOutbound (p : Pump ι ω ε) :
      Does d p .aside { p with engine := d.engine.closeOutbound p.engine }
  | tidy (p : Pump ι ω ε) : Does d p .aside { p with netOut := p.netOut.clear }

def Reaches (d : Ends ι ω ε) (p q : Pump ι ω ε) : Prop := ∃ acts, Steps (Does d) p acts q

theorem Reaches.refl (d : Ends ι ω ε) (p : Pump ι ω ε) : Reaches d p p := ⟨[], .refl⟩

theorem Reaches.trans (h : Reaches d p q) (h' : Reaches d q r) : Reaches d p r := by
  obtain ⟨acts, hacts⟩ := h
  obtain ⟨more, hmore⟩ := h'
  exact ⟨_, hacts.trans hmore⟩

theorem Does.reaches {a : Act} (h : Does d p a q) : Reaches d p q := ⟨_, .single h⟩

/-! ## Acts that wrap and send nothing -/

/-- Nothing is wrapped or sent. -/
def Act.Quiet : Act → Prop
  | .wrap _ | .send _ _ => False
  | _ => True

def Quietly (d : Ends ι ω ε) (p q : Pump ι ω ε) : Prop :=
  ∃ acts, Steps (Does d) p acts q ∧ ∀ a ∈ acts, a.Quiet

theorem Quietly.refl (d : Ends ι ω ε) (p : Pump ι ω ε) : Quietly d p p :=
  ⟨[], .refl, List.forall_mem_nil _⟩

theorem Quietly.trans (h : Quietly d p q) (h' : Quietly d q r) : Quietly d p r := by
  obtain ⟨acts, hacts, hquiet⟩ := h
  obtain ⟨more, hmore, hquiet'⟩ := h'
  exact ⟨_, hacts.trans hmore, List.forall_mem_append.mpr ⟨hquiet, hquiet'⟩⟩

theorem Quietly.reaches (h : Quietly d p q) : Reaches d p q := by
  obtain ⟨acts, hacts, -⟩ := h
  exact ⟨acts, hacts⟩

theorem Does.quietly {a : Act} (h : Does d p a q) (ha : a.Quiet) : Quietly d p q :=
  ⟨[a], .single h, List.forall_mem_singleton.mpr ha⟩

theorem quietly_unwrap (d : Ends ι ω ε) (app : Window) (p : Pump ι ω ε) :
    Quietly d p (p.unwrap d app).2.2 := (Does.unwrap app p).quietly trivial

theorem quietly_fill (d : Ends ι ω ε) (p : Pump ι ω ε) : Quietly d p (p.fill d).2 := by
  unfold fill
  by_cases h0 : p.netIn.remaining = 0
  · rw [if_pos h0]
    exact .refl d p
  · rw [if_neg h0]
    match hr : d.source.readSome p.netIn.remaining p.input with
    | (.error e, i) => exact (Does.fail hr).quietly trivial
    | (.ok [], i) =>
      have hput : p.netIn.put [] = p.netIn := by simp [Window.put]
      have hreceive := Does.receive hr
      rw [hput] at hreceive
      exact hreceive.quietly trivial
    | (.ok (b :: bs), i) => exact (Does.receive hr).quietly trivial

theorem quietly_fillOn {α : Type} (d : Ends ι ω ε) (atEnd : Except Fault α) (p : Pump ι ω ε) :
    Quietly d p (p.fillOn d atEnd).2 := by
  have hfill := quietly_fill d p
  unfold fillOn
  generalize p.fill d = w at hfill ⊢
  match w with
  | (.error e, q) => exact hfill
  | (.ok false, q) => exact hfill
  | (.ok true, q) => exact hfill

theorem quietly_readStep (d : Ends ι ω ε) (s : Pump ι ω ε × Window) :
    Quietly d s.1 (readStep d s).2.1 := by
  unfold readStep
  have hunwrap := quietly_unwrap d s.2 s.1
  generalize s.1.unwrap d s.2 = w at hunwrap ⊢
  match w with
  | (.error e, app, q) => exact hunwrap
  | (.ok r, app, q) =>
    dsimp only at hunwrap ⊢
    cases r.status with
    | ok =>
      dsimp only
      split <;> exact hunwrap
    | bufferUnderflow => exact hunwrap.trans (quietly_fillOn d _ q)
    | bufferOverflow => exact hunwrap
    | closed => exact hunwrap

theorem quietly_readClosingStep (d : Ends ι ω ε) (s : Pump ι ω ε × Window) :
    Quietly d s.1 (readClosingStep d s).2.1 := by
  unfold readClosingStep
  split
  · exact .refl d s.1
  · have hunwrap := quietly_unwrap d s.2.clear s.1
    generalize s.1.unwrap d s.2.clear = w at hunwrap ⊢
    match w with
    | (.error e, drop, q) => exact hunwrap
    | (.ok r, drop, q) =>
      dsimp only at hunwrap ⊢
      cases r.status with
      | ok => exact hunwrap
      | bufferUnderflow => exact hunwrap.trans (quietly_fillOn d _ q)
      | bufferOverflow => exact hunwrap
      | closed => exact hunwrap

theorem quietly_repeatStep {σ α : Type} {step : σ → Turn α × σ} (pump : σ → Pump ι ω ε)
    (h : ∀ s, Quietly d (pump s) (pump (step s).2)) (limit : Nat) (s : σ) :
    Quietly d (pump s) (pump (repeatStep step limit s).2) := by
  induction limit generalizing s with
  | zero => exact .refl d _
  | succ limit ih =>
    have hstep := h s
    rw [repeatStep]
    generalize step s = w at hstep ⊢
    match w with
    | (.again, t) => exact hstep.trans (ih t)
    | (.stop r, t) => exact hstep

/-! ## Wraps and what becomes of them -/

inductive Errand where
  | handshake
  /-- What is in the first window; the second is what is left of it. -/
  | write (app left : Window)
  | writeClosing

/-- The wraps that an errand accepts, told by the report and by whether the outbound side
is done behind it. -/
def Errand.Accepts : Errand → Except Fault Report → Bool → Prop
  | _, .error _, _ => False
  | .handshake, .ok r, _ => r.status = .ok
  | .write _ _, .ok r, _ =>
    (r.status = .ok ∨ r.status = .bufferOverflow) ∧ (r.consumed ≠ 0 ∨ r.produced ≠ 0)
  | .writeClosing, .ok r, done => r.produced ≠ 0 ∨ done = true

/-- A wrap and what became of it. -/
structure Parcel where
  made : Bytes
  report : Except Fault Report
  /-- Whether the outbound side of the engine is done behind the wrap. -/
  done : Bool
  /-- What sending came to; `none` if the wrap was not accepted. -/
  sent : Option (Except Fault Unit)

/-- One move of an errand: a quiet act, or a wrap and the sending of what it made. -/
inductive Goes (d : Ends ι ω ε) (errand : Errand) :
    Pump ι ω ε → Option Parcel → Pump ι ω ε → Prop where
  | quiet {p q : Pump ι ω ε} {a : Act} (h : Does d p a q) (ha : a.Quiet) : Goes d errand p none q
  | refused {p q : Pump ι ω ε} {app left : Window} {report : Except Fault Report}
      (hw : p.wrap d app = (report, left, q))
      (h : ¬ errand.Accepts report (d.engine.outboundDone q.engine)) :
      Goes d errand p (some ⟨p.wrapped d app, report, d.engine.outboundDone q.engine, none⟩) q
  | accepted {p q r : Pump ι ω ε} {app left : Window} {report : Except Fault Report}
      {sent : Except Fault Unit} (hw : p.wrap d app = (report, left, q))
      (h : errand.Accepts report (d.engine.outboundDone q.engine))
      (hsend : q.send d = (sent, r)) :
      Goes d errand p (some ⟨p.wrapped d app, report, d.engine.outboundDone q.engine, some sent⟩) r

/-- The parcels of an operation: all of them arrived, or the last did not and the operation
ends with an error. -/
inductive Closes : Option (Except Fault Unit) → List Parcel → Prop where
  | arrived {result : Option (Except Fault Unit)} {ws : List Parcel}
      (h : ∀ w ∈ ws, w.sent = some (.ok ())) : Closes result ws
  | failed {e : Fault} {ws : List Parcel} {w : Parcel} (h : ∀ w ∈ ws, w.sent = some (.ok ()))
      (hw : w.sent = none ∨ w.sent = some (.error e)) : Closes (some (.error e)) (ws ++ [w])

def parcels (moves : List (Option Parcel)) : List Parcel := moves.reduceOption

theorem parcels_append (moves more : List (Option Parcel)) :
    parcels (moves ++ more) = parcels moves ++ parcels more := List.filterMap_append

/-- Moves lead from one pump to the other; how far they get is told by the result. -/
def Ships (d : Ends ι ω ε) (errand : Errand) (p q : Pump ι ω ε)
    (result : Option (Except Fault Unit)) : Prop :=
  ∃ moves, Steps (Goes d errand) p moves q ∧ Closes result (parcels moves)

variable {errand : Errand} {result : Option (Except Fault Unit)}

theorem Closes.after {ws more : List Parcel} (h : Closes none ws) (h' : Closes result more) :
    Closes result (ws ++ more) := by
  cases h with
  | arrived h =>
    cases h' with
    | arrived h' => exact .arrived (List.forall_mem_append.mpr ⟨h, h'⟩)
    | failed h' hw =>
      rw [← List.append_assoc]
      exact .failed (List.forall_mem_append.mpr ⟨h, h'⟩) hw

theorem Ships.refl (d : Ends ι ω ε) (errand : Errand) (p : Pump ι ω ε)
    (result : Option (Except Fault Unit)) : Ships d errand p p result :=
  ⟨[], .refl, .arrived (List.forall_mem_nil _)⟩

theorem Ships.trans (h : Ships d errand p q none) (h' : Ships d errand q r result) :
    Ships d errand p r result := by
  obtain ⟨moves, hmoves, hclose⟩ := h
  obtain ⟨more, hmore, hclose'⟩ := h'
  refine ⟨moves ++ more, hmoves.trans hmore, ?_⟩
  rw [parcels_append]
  exact hclose.after hclose'

theorem Quietly.exists_moves (h : Quietly d p q) :
    ∃ moves, Steps (Goes d errand) p moves q ∧ parcels moves = [] := by
  obtain ⟨acts, hacts, hquiet⟩ := h
  induction hacts with
  | refl => exact ⟨[], .refl, rfl⟩
  | snoc _ ha ih =>
    obtain ⟨hquiet, hlast⟩ := List.forall_mem_append.mp hquiet
    obtain ⟨moves, hmoves, hnone⟩ := ih hquiet
    refine ⟨_, hmoves.snoc (.quiet ha (hlast _ List.mem_cons_self)), ?_⟩
    rw [parcels_append, hnone]
    rfl

theorem Ships.quiet_after (h : Ships d errand p q result) (h' : Quietly d q r) :
    Ships d errand p r result := by
  obtain ⟨moves, hmoves, hclose⟩ := h
  obtain ⟨more, hmore, hnone⟩ := h'.exists_moves
  refine ⟨_, hmoves.trans hmore, ?_⟩
  rw [parcels_append, hnone, List.append_nil]
  exact hclose

theorem Quietly.ships (h : Quietly d p q) : Ships d errand p q result :=
  (Ships.refl d errand p result).quiet_after h

theorem Goes.reaches {move : Option Parcel} (h : Goes d errand p move q) : Reaches d p q := by
  cases h with
  | quiet h => exact h.reaches
  | @refused _ app _ _ hw =>
    have hwrap := (Does.wrap (d := d) app p).reaches
    rwa [hw] at hwrap
  | @accepted w _ app _ _ _ hw _ hsend =>
    have hwrap := (Does.wrap (d := d) app p).reaches
    have hsent := (Does.send (d := d) w).reaches
    rw [hw] at hwrap
    rw [hsend] at hsent
    exact hwrap.trans hsent

theorem Ships.reaches (h : Ships d errand p q result) : Reaches d p q := by
  obtain ⟨moves, hmoves, -⟩ := h
  induction hmoves with
  | refl => exact .refl d p
  | snoc _ hmove ih => exact ih.trans hmove.reaches

theorem ships_refused {app left : Window} {report : Except Fault Report}
    (hw : p.wrap d app = (report, left, q))
    (h : ¬ errand.Accepts report (d.engine.outboundDone q.engine)) (e : Fault) :
    Ships d errand p q (some (.error e)) :=
  ⟨_, .single (.refused hw h), .failed (List.forall_mem_nil _) (.inl rfl)⟩

theorem ships_sendOn {app left : Window} {report : Except Fault Report}
    (hw : p.wrap d app = (report, left, q))
    (h : errand.Accepts report (d.engine.outboundDone q.engine)) :
    Ships d errand p (q.sendOn d : Turn Unit × Pump ι ω ε).2
      (q.sendOn d : Turn Unit × Pump ι ω ε).1.result := by
  rw [sendOn]
  match hsend : q.send d with
  | (.error e, u) =>
    exact ⟨_, .single (.accepted hw h hsend), .failed (List.forall_mem_nil _) (.inr rfl)⟩
  | (.ok (), u) =>
    exact ⟨_, .single (.accepted hw h hsend), .arrived (List.forall_mem_singleton.mpr rfl)⟩

/-! ## The steps of the operations that wrap -/

theorem ships_handshakeStep (d : Ends ι ω ε) (p : Pump ι ω ε) :
    Ships d .handshake p (p.handshakeStep d).2 (p.handshakeStep d).1.result := by
  unfold handshakeStep
  cases d.engine.handshake p.engine with
  | needWrap =>
    dsimp only
    match hw : p.wrap d noPlaintext with
    | (.error e, app, q) => exact ships_refused hw not_false e
    | (.ok r, app, q) =>
      dsimp only
      by_cases hr : r.status = .ok
      · rw [if_pos hr]
        exact ships_sendOn hw hr
      · rw [if_neg hr]
        have hno : ¬ Errand.handshake.Accepts (.ok r) (d.engine.outboundDone q.engine) := hr
        exact ships_refused hw hno _
  | needUnwrap =>
    dsimp only
    split
    · exact (quietly_fillOn d _ p).ships
    · have hunwrap := quietly_unwrap d noPlaintext p
      generalize p.unwrap d noPlaintext = w at hunwrap ⊢
      match w with
      | (.error e, app, q) => exact hunwrap.ships
      | (.ok r, app, q) =>
        dsimp only at hunwrap ⊢
        cases r.status with
        | ok => exact hunwrap.ships
        | bufferUnderflow => exact (hunwrap.trans (quietly_fillOn d _ q)).ships
        | bufferOverflow =>
          dsimp only
          split <;> exact hunwrap.ships
        | closed => exact hunwrap.ships
  | needTask =>
    dsimp only
    have htask : Quietly d p _ := (Does.runTask p).quietly trivial
    generalize d.engine.runTask p.engine = w at htask ⊢
    match w with
    | (.error e, en) => exact htask.ships
    | (.ok (), en) => exact htask.ships
  | finished => exact .refl d _ p _
  | notHandshaking => exact .refl d _ p _

theorem ships_writeStep (d : Ends ι ω ε) (app left : Window) (t : Pump ι ω ε × Window) :
    Ships d (.write app left) t.1 (writeStep d t).2.1 (writeStep d t).1.result := by
  unfold writeStep
  split
  · exact .refl d _ t.1 _
  · match hw : t.1.wrap d t.2 with
    | (.error e, app, q) => exact ships_refused hw not_false e
    | (.ok r, app, q) =>
      dsimp only
      by_cases hclosed : r.status = .closed
      · rw [if_pos hclosed]
        refine ships_refused hw ?_ _
        rintro ⟨hok | hover, -⟩
        · cases hclosed.symm.trans hok
        · cases hclosed.symm.trans hover
      · rw [if_neg hclosed]
        by_cases hunder : r.status = .bufferUnderflow
        · rw [if_pos hunder]
          refine ships_refused hw ?_ _
          rintro ⟨hok | hover, -⟩
          · cases hunder.symm.trans hok
          · cases hunder.symm.trans hover
        · rw [if_neg hunder]
          by_cases hnothing : r.consumed = 0 ∧ r.produced = 0
          · rw [if_pos hnothing]
            refine ships_refused hw ?_ _
            rintro ⟨-, hconsumed | hproduced⟩
            · exact hconsumed hnothing.1
            · exact hproduced hnothing.2
          · rw [if_neg hnothing]
            refine ships_sendOn hw ⟨?_, Classical.not_and_iff_not_or_not.mp hnothing⟩
            cases hstatus : r.status with
            | ok => exact .inl rfl
            | bufferOverflow => exact .inr rfl
            | closed => exact absurd hstatus hclosed
            | bufferUnderflow => exact absurd hstatus hunder

theorem ships_writeClosingStep (d : Ends ι ω ε) (p : Pump ι ω ε) :
    Ships d .writeClosing p (p.writeClosingStep d).2
      (p.writeClosingStep d).1.result := by
  unfold writeClosingStep
  split
  · exact .refl d _ p _
  · match hw : p.wrap d noPlaintext with
    | (.error e, app, q) => exact ships_refused hw not_false e
    | (.ok r, app, q) =>
      dsimp only
      by_cases hnothing : r.produced = 0 ∧ ¬ d.engine.outboundDone q.engine
      · rw [if_pos hnothing]
        refine ships_refused hw ?_ _
        rintro (hproduced | hdone)
        · exact hproduced hnothing.1
        · exact hnothing.2 hdone
      · rw [if_neg hnothing]
        have hmoved := Classical.not_and_iff_not_or_not.mp hnothing
        exact ships_sendOn hw (hmoved.imp_right Classical.not_not.mp)

theorem ships_repeatStep {τ : Type} {step : τ → Turn Unit × τ} (pump : τ → Pump ι ω ε)
    (h : ∀ t, Ships d errand (pump t) (pump (step t).2) (step t).1.result) (limit : Nat) (t : τ) :
    Ships d errand (pump t) (pump (repeatStep step limit t).2) (repeatStep step limit t).1 := by
  induction limit generalizing t with
  | zero => exact .refl d errand _ _
  | succ limit ih =>
    have hstep := h t
    rw [repeatStep]
    generalize step t = w at hstep ⊢
    match w with
    | (.again, u) => exact hstep.trans (ih u)
    | (.stop r, u) => exact hstep

theorem ships_tidy (r : Option (Except Fault Unit) × Pump ι ω ε)
    (h : Ships d errand p r.2 r.1) : Ships d errand p (tidy r).2 (tidy r).1 := by
  match r, h with
  | (some (.ok ()), q), h => exact h.quiet_after ((Does.tidy q).quietly trivial)
  | (some (.error e), q), h => exact h
  | (none, q), h => exact h

theorem ships_handshake (d : Ends ι ω ε) (limit : Nat) (p : Pump ι ω ε) :
    Ships d .handshake p (p.handshake d limit).2 (p.handshake d limit).1 := by
  unfold handshake
  split
  · exact .refl d _ p _
  · have hbegin : Quietly d p _ := (Does.beginHandshake p).quietly trivial
    generalize d.engine.beginHandshake p.engine = w at hbegin ⊢
    match w with
    | (.error e, en) => exact hbegin.ships
    | (.ok (), en) =>
      have hloop := ships_repeatStep id (ships_handshakeStep d) limit { p with engine := en }
      exact ships_tidy _ (hbegin.ships.trans hloop)

theorem ships_write (d : Ends ι ω ε) (limit : Nat) (app left : Window)
    (p : Pump ι ω ε) :
    Ships d (.write app left) p (p.write d limit app).2.1
      (p.write d limit app).1 := by
  have hloop := ships_repeatStep Prod.fst (ships_writeStep d app left) limit (p, app)
  unfold write
  generalize repeatStep (writeStep d) limit (p, app) = w at hloop ⊢
  match w with
  | (r, q, app') => exact ships_tidy (r, q) hloop

theorem ships_writeClosing (d : Ends ι ω ε) (limit : Nat) (p : Pump ι ω ε) :
    Ships d .writeClosing p (p.writeClosing d limit).2
      (p.writeClosing d limit).1 := by
  have hclose : Quietly d p _ := (Does.closeOutbound p).quietly trivial
  have hloop := ships_repeatStep id (ships_writeClosingStep d) limit
    { p with engine := d.engine.closeOutbound p.engine }
  exact ships_tidy _ (hclose.ships.trans hloop)

/-! ## Operations and their acts -/

theorem reaches_handshake (d : Ends ι ω ε) (limit : Nat) (p : Pump ι ω ε) :
    Reaches d p (p.handshake d limit).2 := (ships_handshake d limit p).reaches

theorem reaches_read (d : Ends ι ω ε) (limit : Nat) (app : Window) (p : Pump ι ω ε) :
    Reaches d p (p.read d limit app).2.1 :=
  (quietly_repeatStep Prod.fst (quietly_readStep d) limit (p, app)).reaches

theorem reaches_write (d : Ends ι ω ε) (limit : Nat) (app : Window) (p : Pump ι ω ε) :
    Reaches d p (p.write d limit app).2.1 := (ships_write d limit app app p).reaches

theorem reaches_writeClosing (d : Ends ι ω ε) (limit : Nat) (p : Pump ι ω ε) :
    Reaches d p (p.writeClosing d limit).2 := (ships_writeClosing d limit p).reaches

/-- The loop comes down to acts; if it completes, the inbound side is closed behind it and
what is still buffered is dropped. -/
theorem exists_readClosing (d : Ends ι ω ε) (limit : Nat) (p : Pump ι ω ε) :
    ∃ q, Reaches d p q ∧
      ((p.readClosing d limit).1 ≠ some (.ok ()) → (p.readClosing d limit).2 = q) ∧
      ((p.readClosing d limit).1 = some (.ok ()) → (p.readClosing d limit).2 =
        { q with engine := d.engine.closeInbound q.engine, netIn := q.netIn.clear }) := by
  have hloop := (quietly_repeatStep Prod.fst (quietly_readClosingStep d) limit
    (p, Window.new (d.engine.plaintextSize p.engine))).reaches
  unfold readClosing
  generalize repeatStep (readClosingStep d) limit _ = w at hloop ⊢
  match w with
  | (some (.ok ()), q, drop) => exact ⟨q, hloop, fun h => absurd rfl h, fun _ => rfl⟩
  | (some (.error e), q, drop) => exact ⟨q, hloop, fun _ => rfl, fun h => by cases h⟩
  | (none, q, drop) => exact ⟨q, hloop, fun _ => rfl, fun h => by cases h⟩

inductive Operation where
  | handshake
  | read (app : Window)
  | write (app : Window)
  | writeClosing
  | readClosing

/-- One operation, however it ends, unless it closes the inbound side. -/
inductive Operates (d : Ends ι ω ε) : Pump ι ω ε → Operation → Pump ι ω ε → Prop where
  | handshake (limit : Nat) (p : Pump ι ω ε) : Operates d p .handshake (p.handshake d limit).2
  | read (limit : Nat) (app : Window) (p : Pump ι ω ε) :
      Operates d p (.read app) (p.read d limit app).2.1
  | write (limit : Nat) (app : Window) (p : Pump ι ω ε) :
      Operates d p (.write app) (p.write d limit app).2.1
  | writeClosing (limit : Nat) (p : Pump ι ω ε) :
      Operates d p .writeClosing (p.writeClosing d limit).2
  | readClosing {limit : Nat} {p : Pump ι ω ε} (h : (p.readClosing d limit).1 ≠ some (.ok ())) :
      Operates d p .readClosing (p.readClosing d limit).2

theorem Operates.reaches {op : Operation} (h : Operates d p op q) : Reaches d p q := by
  cases h with
  | handshake limit => exact reaches_handshake d limit p
  | read limit app => exact reaches_read d limit app p
  | write limit app => exact reaches_write d limit app p
  | writeClosing limit => exact reaches_writeClosing d limit p
  | @readClosing limit _ hopen =>
    obtain ⟨q, hq, heq, -⟩ := exists_readClosing d limit p
    rw [heq hopen]
    exact hq

theorem reaches_of_operations {ops : List Operation} (h : Steps (Operates d) p ops q) :
    Reaches d p q := by
  induction h with
  | refl => exact .refl d p
  | snoc _ hop ih => exact ih.trans hop.reaches

end Pump
end Record
end RemoteCall
