import Mathlib.Data.List.Induction
import RemoteCall.Proofs.Session.Buffering
import RemoteCall.Proofs.Session.Client
import RemoteCall.Proofs.Steps

/-!
Replies in turn.

A reply does not say which call it answers.  The errands of a client can only tell their
replies by the order in which they come, and so each errand must take off the stream what is
its own and nothing else, however it ends.

An errand is followed act by act (`Does`).  `Course` says in which order the acts come on any
channel, and so what is not done once one of them has failed.  On a channel that takes what
is written (`Ready`), `Fares` says what becomes of an errand in front of which so many replies
were read, and `Stands` where the errands so far have left the channel.
-/

namespace RemoteCall

/-- The beginning of a frame, short of its end. -/
def Frame.Cut (tail : Bytes) : Prop :=
  ∃ body, body.length ≤ maxBody ∧ tail <+: framed body ∧ tail ≠ framed body

namespace Channel

variable {ι ω δ : Type}

namespace Errand

def call : Errand → CallFrame
  | .exchange c _ => c
  | .send c _ => c

def deadline : Errand → Bool
  | .exchange _ d => d
  | .send _ d => d

def Fits (e : Errand) : Prop := (Body.writeCall e.call).length ≤ Frame.maxBody

instance (e : Errand) : Decidable e.Fits := inferInstanceAs (Decidable (_ ≤ _))

def reads : Errand → Bool
  | .exchange c d => decide (Fits (.exchange c d))
  | .send .. => false

end Errand

def wires (errands : List Errand) : Bytes :=
  (errands.filter fun e => decide e.Fits).flatMap fun e => Frame.callWire e.call

def replies (errands : List Errand) : Nat := errands.countP Errand.reads

/-! ## Acts -/

/-- What a client does at one time, and what comes of it. -/
inductive Act where
  | deadline (d : Bool) (answer : Except Fault Unit)
  | write (c : CallFrame) (answer : Except CodecError Unit)
  | flush (answer : Except Fault Unit)
  | read (came : Except CodecError (Option ReturnFrame))

/-- One act on a channel. -/
inductive Does (ch : Channel ι ω δ) : State ι ω δ → Act → State ι ω δ → Prop where
  | deadline (d : Bool) (s : State ι ω δ) : Does ch s (.deadline d (ch.setDeadline d s.timer).1)
      { s with timer := (ch.setDeadline d s.timer).2 }
  | write (c : CallFrame) (s : State ι ω δ) :
      Does ch s (.write c (Frame.writeCall ch.sink c s.output).1)
        { s with output := (Frame.writeCall ch.sink c s.output).2 }
  | flush (s : State ι ω δ) : Does ch s (.flush (ch.sink.flush s.output).1)
      { s with output := (ch.sink.flush s.output).2 }
  | read (s : State ι ω δ) : Does ch s (.read (Frame.readReturn ch.source s.input).1)
      { s with input := (Frame.readReturn ch.source s.input).2 }

def sending (c : CallFrame) (d : Bool) : List Act :=
  [.deadline d (.ok ()), .write c (.ok ()), .flush (.ok ())]

/-- The acts of sending a call, up to the first that fails. -/
inductive Sends (c : CallFrame) (d : Bool) : List Act → Except SessionError Unit → Prop where
  | deadline (e : Fault) : Sends c d [.deadline d (.error e)] (.error (.fault e))
  | write (e : CodecError) :
      Sends c d [.deadline d (.ok ()), .write c (.error e)] (.error (.codec e))
  | flush (e : Fault) :
      Sends c d [.deadline d (.ok ()), .write c (.ok ()), .flush (.error e)] (.error (.fault e))
  | sent : Sends c d (sending c d) (.ok ())

/-- What a call comes to, by what was read for it. -/
def understood (c : CallFrame) :
    Except CodecError (Option ReturnFrame) → Except SessionError (Option Exchange)
  | .error e => .error (.codec e)
  | .ok none => .error .noResponse
  | .ok (some r) => .ok (some ⟨r, c.isKeepAlive && r.isKeepAlive⟩)

/-- The acts of an errand.  Nothing is read unless the call was sent and flushed. -/
inductive Course : Errand → List Act → Except SessionError (Option Exchange) → Prop where
  | unsent {e : Errand} {acts : List Act} {cause : SessionError}
      (h : Sends e.call e.deadline acts (.error cause)) : Course e acts (.error cause)
  | sent (c : CallFrame) (d : Bool) : Course (.send c d) (sending c d) (.ok none)
  | read (c : CallFrame) (d : Bool) (came : Except CodecError (Option ReturnFrame)) :
      Course (.exchange c d) (sending c d ++ [.read came]) (understood c came)

variable (ch : Channel ι ω δ) {c : CallFrame} {d : Bool} {s t : State ι ω δ} {e : Errand}

theorem exists_sends (c : CallFrame) (d : Bool) (s : State ι ω δ) :
    ∃ acts, Sends c d acts (ch.send c d s).1 ∧ Steps (Does ch) s acts (ch.send c d s).2 := by
  have hdeadline : Steps (Does ch) s _ _ := .single (.deadline d s)
  rw [send]
  generalize ch.setDeadline d s.timer = timed at hdeadline ⊢
  rcases timed with ⟨f | _, timer⟩
  · exact ⟨_, .deadline f, hdeadline⟩
  · have hwrite := hdeadline.snoc (.write c _)
    dsimp only at hwrite ⊢
    generalize Frame.writeCall ch.sink c s.output = written at hwrite ⊢
    rcases written with ⟨f | _, o⟩
    · exact ⟨_, .write f, hwrite⟩
    · have hflush := hwrite.snoc (.flush _)
      dsimp only at hflush ⊢
      generalize ch.sink.flush o = flushed at hflush ⊢
      rcases flushed with ⟨f | _, p⟩
      · exact ⟨_, .flush f, hflush⟩
      · exact ⟨_, .sent, hflush⟩

variable {ch}

theorem runErrand_of_unsent {cause : SessionError}
    (h : ch.send e.call e.deadline s = (.error cause, t)) :
    ch.runErrand s e = (.error cause, t) := by
  cases e with
  | exchange c d =>
    have hsend : ch.send c d s = _ := h
    rw [runErrand, exchange, hsend]
    rfl
  | send c d =>
    have hsend : ch.send c d s = _ := h
    rw [runErrand, hsend]
    rfl

theorem runErrand_send (h : ch.send c d s = (.ok (), t)) :
    ch.runErrand s (.send c d) = (.ok none, t) := by
  rw [runErrand, h]
  rfl

theorem runErrand_exchange (h : ch.send c d s = (.ok (), t)) :
    ch.runErrand s (.exchange c d) = (understood c (Frame.readReturn ch.source t.input).1,
      { t with input := (Frame.readReturn ch.source t.input).2 }) := by
  rw [runErrand, exchange, h]
  dsimp only
  rw [awaitReply]
  rcases Frame.readReturn ch.source t.input with ⟨e | _ | r, i⟩ <;> rfl

/-- On any channel, an errand takes one of these courses. -/
theorem exists_course (ch : Channel ι ω δ) (s : State ι ω δ) (e : Errand) :
    ∃ acts, Course e acts (ch.runErrand s e).1 ∧
      Steps (Does ch) s acts (ch.runErrand s e).2 := by
  obtain ⟨acts, hsends, hsteps⟩ := ch.exists_sends e.call e.deadline s
  rcases hsend : ch.send e.call e.deadline s with ⟨cause | _, t⟩
  · rw [hsend] at hsends hsteps
    rw [runErrand_of_unsent hsend]
    exact ⟨acts, .unsent hsends, hsteps⟩
  · rw [hsend] at hsends hsteps
    cases hsends
    cases e with
    | exchange c d =>
      rw [runErrand_exchange (c := c) (d := d) hsend]
      exact ⟨_, .read c d _, hsteps.snoc (.read t)⟩
    | send c d =>
      rw [runErrand_send (c := c) (d := d) hsend]
      exact ⟨_, .sent c d, hsteps⟩

/-! ## What is left on the stream -/

/-- The bytes that are left of a stream of framed bodies, with a tail behind them, once so many
replies were read. -/
def left (bodies : List Bytes) (tail : Bytes) (i : Nat) : Bytes :=
  (bodies.drop i).flatMap Frame.framed ++ if i ≤ bodies.length then tail else []

variable {bodies : List Bytes} {tail : Bytes} {i : Nat}

theorem left_zero (bodies : List Bytes) (tail : Bytes) :
    left bodies tail 0 = bodies.flatMap Frame.framed ++ tail := by
  rw [left, if_pos (Nat.zero_le _), List.drop_zero]

theorem left_of_getElem? {body : Bytes} (h : bodies[i]? = some body) :
    left bodies tail i = Frame.framed body ++ left bodies tail (i + 1) := by
  obtain ⟨hi, rfl⟩ := List.getElem?_eq_some_iff.mp h
  rw [left, left, if_pos (Nat.le_of_lt hi), if_pos (Nat.succ_le_of_lt hi),
    List.drop_eq_getElem_cons hi, List.flatMap_cons, List.append_assoc]

theorem left_length (bodies : List Bytes) (tail : Bytes) :
    left bodies tail bodies.length = tail := by
  rw [left, if_pos (Nat.le_refl _), List.drop_length]
  rfl

theorem left_beyond (h : bodies.length < i) : left bodies tail i = [] := by
  rw [left, if_neg (Nat.not_le_of_lt h), List.drop_eq_nil_of_le (Nat.le_of_lt h)]
  rfl

/-- What is read next, if so many replies were read before. -/
inductive Comes (bodies : List Bytes) (tail : Bytes) (i : Nat) :
    Except CodecError (Option ReturnFrame) → Prop where
  | answered {body : Bytes} {reply : ReturnFrame} (hb : bodies[i]? = some body)
      (hd : Frame.decodeReturn body = .ok reply) : Comes bodies tail i (.ok (some reply))
  | malformed {body : Bytes} {reason : String} (hb : bodies[i]? = some body)
      (hd : Frame.decodeReturn body = .error (.malformed reason)) :
      Comes bodies tail i (.error (.malformed reason))
  | truncated (hi : i = bodies.length) (ht : tail ≠ []) : Comes bodies tail i (.error .truncated)
  | ended (hl : left bodies tail i = []) : Comes bodies tail i (.ok none)

theorem Comes.eq_none_iff {came : Except CodecError (Option ReturnFrame)}
    (h : Comes bodies tail i came) : came = .ok none ↔ left bodies tail i = [] := by
  have hbody {body : Bytes} (hb : bodies[i]? = some body) : left bodies tail i ≠ [] := by
    rw [left_of_getElem? hb]
    exact List.append_ne_nil_of_left_ne_nil (Frame.framed_ne_nil body) _
  cases h with
  | answered hb hd => simp [hbody hb]
  | malformed hb hd => simp [hbody hb]
  | truncated hi ht => simp [hi, left_length, ht]
  | ended hl => simp [hl]

theorem Comes.of_body {came : Except CodecError (Option ReturnFrame)} {body : Bytes}
    (h : Comes bodies tail i came) (hb : bodies[i]? = some body) :
    came = some <$> Frame.decodeReturn body := by
  have hsame {body' : Bytes} (hb' : bodies[i]? = some body') : body' = body :=
    Option.some.inj (hb'.symm.trans hb)
  cases h with
  | answered hb' hd => rw [← hsame hb', hd]; rfl
  | malformed hb' hd => rw [← hsame hb', hd]; rfl
  | truncated hi ht => simp [hi] at hb
  | ended hl =>
    rw [left_of_getElem? hb] at hl
    exact absurd (List.append_eq_nil_iff.mp hl).1 (Frame.framed_ne_nil body)

theorem readReturn_left {src : Source ι} {s : ι} (hb : ∀ b ∈ bodies, b.length ≤ Frame.maxBody)
    (hcut : Frame.Cut tail) (h : src.Delivers s (left bodies tail i)) :
    ∃ came t, Frame.readReturn src s = (came, t) ∧ Comes bodies tail i came ∧
      src.Delivers t (left bodies tail (i + 1)) := by
  have hend (hl : left bodies tail i = []) (hl' : left bodies tail (i + 1) = []) :
      ∃ came t, Frame.readReturn src s = (came, t) ∧ Comes bodies tail i came ∧
        src.Delivers t (left bodies tail (i + 1)) := by
    rw [hl] at h
    obtain ⟨t, hr, ht⟩ := Frame.readWith_end Frame.decodeReturn h
    exact ⟨_, t, hr, .ended hl, hl'.symm ▸ ht⟩
  rcases Nat.lt_trichotomy i bodies.length with hi | rfl | hi
  · have hbody : bodies[i]? = some bodies[i] := List.getElem?_eq_getElem hi
    rw [left_of_getElem? hbody] at h
    obtain ⟨t, hr, ht⟩ :=
      Frame.readWith_framed Frame.decodeReturn h (hb _ (List.getElem_mem hi))
    refine ⟨_, t, hr, ?_, ht⟩
    cases hd : Frame.decodeReturn bodies[i] with
    | ok reply => exact .answered hbody hd
    | error e =>
      obtain ⟨reason, rfl⟩ := Frame.malformed_of_decodeReturn hd
      exact .malformed hbody hd
  · have hbeyond : left bodies tail (bodies.length + 1) = [] := left_beyond (Nat.lt_succ_self _)
    by_cases ht : tail = []
    · exact hend ((left_length bodies tail).trans ht) hbeyond
    · obtain ⟨body, hsize, hfront, hne⟩ := hcut
      rw [left_length, List.prefix_iff_eq_take.mp hfront] at h
      have hlt : tail.length < (Frame.framed body).length :=
        Nat.lt_of_le_of_ne hfront.length_le fun hlen => hne (hfront.eq_of_length hlen)
      obtain ⟨t, hr, ht'⟩ := Frame.readWith_cut Frame.decodeReturn h hsize
        (List.length_pos_iff.mpr ht) hlt
      exact ⟨_, t, hr, .truncated rfl ht, hbeyond.symm ▸ ht'⟩
  · exact hend (left_beyond hi) (left_beyond (Nat.lt_succ_of_lt hi))

/-! ## Errands on a channel that is ready -/

/-- Deadlines can be set, the sink takes everything, and framed bodies are to come, behind
which a frame may be cut off. -/
structure Ready (ch : Channel ι ω δ) (taken : ω → Bytes) (bodies : List Bytes) (tail : Bytes)
    (s : State ι ω δ) : Prop where
  patient : ch.Patient
  accepts : ch.sink.Accepts taken s.output
  bodies_le : ∀ b ∈ bodies, b.length ≤ Frame.maxBody
  cut : Frame.Cut tail
  delivers : ch.source.Delivers s.input (bodies.flatMap Frame.framed ++ tail)

/-- Where some errands that started in `s` have left the channel: what was written are their
calls, and what was read are as many replies as they wait for. -/
structure Stands (ch : Channel ι ω δ) (taken : ω → Bytes) (bodies : List Bytes) (tail : Bytes)
    (s : State ι ω δ) (errands : List Errand) (t : State ι ω δ) : Prop where
  accepts : ch.sink.Accepts taken t.output
  taken : taken t.output = taken s.output ++ wires errands
  delivers : ch.source.Delivers t.input (left bodies tail (replies errands))

/-- How an errand fares, and by which acts, if so many replies were read before. -/
inductive Fares (bodies : List Bytes) (tail : Bytes) (i : Nat) :
    Errand → List Act → Except SessionError (Option Exchange) → Prop where
  | tooLarge {e : Errand} (h : ¬ e.Fits) : Fares bodies tail i e
      [.deadline e.deadline (.ok ()),
        .write e.call (.error (.frameTooLarge (Body.writeCall e.call).length))]
      (.error (.codec (.frameTooLarge (Body.writeCall e.call).length)))
  | sent {c : CallFrame} {d : Bool} (h : Errand.Fits (.send c d)) :
      Fares bodies tail i (.send c d) (sending c d) (.ok none)
  | read {c : CallFrame} {d : Bool} {came : Except CodecError (Option ReturnFrame)}
      (h : Errand.Fits (.exchange c d)) (hc : Comes bodies tail i came) :
      Fares bodies tail i (.exchange c d) (sending c d ++ [.read came]) (understood c came)

section

variable {front : List Errand}

theorem wires_concat (h : e.Fits) :
    wires (front ++ [e]) = wires front ++ Frame.callWire e.call := by
  rw [wires, List.filter_append, List.flatMap_append, List.filter_cons_of_pos (by simpa using h)]
  simp [wires]

theorem wires_concat_of_not_fits (h : ¬ e.Fits) : wires (front ++ [e]) = wires front := by
  rw [wires, List.filter_append, List.filter_cons_of_neg (by simpa using h)]
  simp [wires]

theorem replies_concat (h : e.reads = true) : replies (front ++ [e]) = replies front + 1 := by
  rw [replies, List.countP_append, List.countP_singleton, if_pos h, replies]

theorem replies_concat_of_not_reads (h : e.reads = false) :
    replies (front ++ [e]) = replies front := by
  rw [replies, List.countP_append, List.countP_singleton, if_neg (by simp [h]), replies,
    Nat.add_zero]

end

theorem reads_of_not_fits (h : ¬ e.Fits) : e.reads = false := by
  cases e with
  | exchange c d => exact decide_eq_false h
  | send c d => rfl

theorem send_of_not_fits (hp : ch.Patient) (h : ¬ e.Fits) :
    ch.send e.call e.deadline s =
      (.error (.codec (.frameTooLarge (Body.writeCall e.call).length)),
        { s with timer := (ch.setDeadline e.deadline s.timer).2 }) := by
  have hd := hp e.deadline s.timer
  rw [send]
  generalize ch.setDeadline e.deadline s.timer = timed at hd ⊢
  obtain ⟨answer, timer⟩ := timed
  subst hd
  dsimp only
  rw [Frame.writeCall, Frame.writeBody, if_pos (Nat.lt_of_not_le h)]

variable {taken : ω → Bytes} {front : List Errand} {u : State ι ω δ}

theorem Ready.stands (h : Ready ch taken bodies tail s) : Stands ch taken bodies tail s [] s where
  accepts := h.accepts
  taken := (List.append_nil _).symm
  delivers := left_zero bodies tail ▸ h.delivers

theorem Ready.exists_fares (h : Ready ch taken bodies tail s)
    (hu : Stands ch taken bodies tail s front u) (e : Errand) :
    ∃ acts, Fares bodies tail (replies front) e acts (ch.runErrand u e).1 ∧
      Steps (Does ch) u acts (ch.runErrand u e).2 ∧
      Stands ch taken bodies tail s (front ++ [e]) (ch.runErrand u e).2 := by
  obtain ⟨acts, hsends, hsteps⟩ := ch.exists_sends e.call e.deadline u
  by_cases hfits : e.Fits
  · obtain ⟨t, hsend, hinput, haccepts, htaken⟩ :=
      send_accepts e.deadline h.patient hu.accepts hfits
    -- Sending went well, and there is only one way in which it does.
    rw [hsend] at hsends hsteps
    cases hsends
    have hwritten : taken t.output = taken s.output ++ wires (front ++ [e]) := by
      rw [htaken, hu.taken, wires_concat hfits, List.append_assoc]
    have hdelivers := hu.delivers
    rw [← hinput] at hdelivers
    cases e with
    | exchange c d =>
      have hreads : (Errand.exchange c d).reads = true := decide_eq_true hfits
      obtain ⟨came, i, hread, hcomes, hleft⟩ := readReturn_left h.bodies_le h.cut hdelivers
      rw [runErrand_exchange (c := c) (d := d) hsend]
      have hlast := hsteps.snoc (.read t)
      rw [hread] at hlast ⊢
      exact ⟨_, .read hfits hcomes, hlast, haccepts, hwritten, replies_concat hreads ▸ hleft⟩
    | send c d =>
      rw [runErrand_send (c := c) (d := d) hsend]
      exact ⟨_, .sent hfits, hsteps, haccepts, hwritten,
        (replies_concat_of_not_reads (e := .send c d) rfl).symm ▸ hdelivers⟩
  · have hsend := send_of_not_fits (s := u) h.patient hfits
    have hreads := reads_of_not_fits hfits
    rw [hsend] at hsends hsteps
    cases hsends
    rw [runErrand_of_unsent hsend]
    refine ⟨_, .tooLarge hfits, hsteps, hu.accepts, ?_, ?_⟩
    · rw [wires_concat_of_not_fits hfits]
      exact hu.taken
    · rw [replies_concat_of_not_reads hreads]
      exact hu.delivers

/-! ## Errands one after the other -/

theorem runErrands_cons (e : Errand) (es : List Errand) (s : State ι ω δ) :
    ch.runErrands (e :: es) s =
      ((ch.runErrand s e).1 :: (ch.runErrands es (ch.runErrand s e).2).1,
        (ch.runErrands es (ch.runErrand s e).2).2) := rfl

theorem runErrands_append (front rest : List Errand) (s : State ι ω δ) :
    ch.runErrands (front ++ rest) s =
      ((ch.runErrands front s).1 ++ (ch.runErrands rest (ch.runErrands front s).2).1,
        (ch.runErrands rest (ch.runErrands front s).2).2) := by
  induction front generalizing s with
  | nil => rfl
  | cons e es ih =>
    rw [List.cons_append, runErrands_cons, runErrands_cons, ih]
    rfl

theorem length_runErrands (errands : List Errand) (s : State ι ω δ) :
    (ch.runErrands errands s).1.length = errands.length := by
  induction errands generalizing s with
  | nil => rfl
  | cons e es ih =>
    rw [runErrands_cons, List.length_cons, List.length_cons, ih]

/-- The result of an errand is the one that the errands before it lead to. -/
theorem getElem?_runErrands (front rest : List Errand) (e : Errand) (s : State ι ω δ) :
    (ch.runErrands (front ++ e :: rest) s).1[front.length]? =
      some (ch.runErrand (ch.runErrands front s).2 e).1 := by
  rw [runErrands_append]
  dsimp only
  rw [List.getElem?_append_right (Nat.le_of_eq (length_runErrands front s)), length_runErrands,
    Nat.sub_self]
  rfl

theorem Ready.stands_runErrands (h : Ready ch taken bodies tail s) (errands : List Errand) :
    Stands ch taken bodies tail s errands (ch.runErrands errands s).2 := by
  induction errands using List.reverseRecOn with
  | nil => exact h.stands
  | append_singleton es e ih =>
    obtain ⟨-, -, -, hstands⟩ := h.exists_fares ih e
    rw [runErrands_append]
    exact hstands

theorem understood_eq_noResponse (came : Except CodecError (Option ReturnFrame)) :
    understood c came = .error .noResponse ↔ came = .ok none := by
  rcases came with e | _ | r <;> simp [understood]

theorem Fares.noResponse_iff {acts : List Act} {r : Except SessionError (Option Exchange)}
    (h : Fares bodies tail i e acts r) :
    r = .error .noResponse ↔ e.reads = true ∧ left bodies tail i = [] := by
  cases h with
  | tooLarge hfits =>
    have hreads : e.reads = false := reads_of_not_fits hfits
    simp [hreads]
  | sent hfits => simp [Errand.reads]
  | read hfits hcomes =>
    rw [understood_eq_noResponse, hcomes.eq_none_iff, Errand.reads, decide_eq_true_iff]
    exact (and_iff_right hfits).symm

theorem Fares.of_body {acts : List Act} {r : Except SessionError (Option Exchange)} {body : Bytes}
    (h : Fares bodies tail i (.exchange c d) acts r) (hfits : Errand.Fits (.exchange c d))
    (hb : bodies[i]? = some body) : r = understood c (some <$> Frame.decodeReturn body) := by
  cases h with
  | tooLarge hlarge => exact absurd hfits hlarge
  | read _ hcomes => rw [hcomes.of_body hb]

/-- Replies are taken in turn.  On a channel that takes what is written, errands of a client
write their calls one after the other, each of which is flushed before its reply is read.  An
errand that waits for a reply reads the next one, however many calls were only sent in
between, and nothing more; a reply that is malformed is used up like any other.  There is no
response just if the stream has ended in front of a frame.  On any channel whatever, nothing
is written or read once the deadline could not be set, and nothing is read once the call could
not be written or flushed. -/
theorem replies_in_turn (ch : Channel ι ω δ) :
    (∀ {taken : ω → Bytes} {bodies : List Bytes} {tail : Bytes} {s : State ι ω δ},
      Ready ch taken bodies tail s → ∀ errands : List Errand,
      Stands ch taken bodies tail s errands (ch.runErrands errands s).2 ∧
      (ch.runErrands errands s).1.length = errands.length ∧
      ∀ front e rest, errands = front ++ e :: rest → ∃ acts r u v,
        ch.runErrands front s = ((ch.runErrands errands s).1.take front.length, u) ∧
        ch.runErrand u e = (r, v) ∧ (ch.runErrands errands s).1[front.length]? = some r ∧
        Steps (Does ch) u acts v ∧ Fares bodies tail (replies front) e acts r ∧
        Stands ch taken bodies tail s front u ∧
        Stands ch taken bodies tail s (front ++ [e]) v ∧
        (r = .error .noResponse ↔ e.reads = true ∧ left bodies tail (replies front) = [])) ∧
    ∀ (s : State ι ω δ) (e : Errand),
      (∃ acts, Course e acts (ch.runErrand s e).1 ∧ Steps (Does ch) s acts (ch.runErrand s e).2) ∧
      (∀ fault d, ch.setDeadline e.deadline s.timer = (.error fault, d) →
        ch.runErrand s e = (.error (.fault fault), { s with timer := d })) ∧
      (∀ d cause o, ch.setDeadline e.deadline s.timer = (.ok (), d) →
        Frame.writeCall ch.sink e.call s.output = (.error cause, o) →
        ch.runErrand s e = (.error (.codec cause), { s with timer := d, output := o })) ∧
      ∀ d o fault p, ch.setDeadline e.deadline s.timer = (.ok (), d) →
        Frame.writeCall ch.sink e.call s.output = (.ok (), o) →
        ch.sink.flush o = (.error fault, p) →
        ch.runErrand s e = (.error (.fault fault), { s with timer := d, output := p }) := by
  constructor
  · intro taken bodies tail s h errands
    refine ⟨h.stands_runErrands errands, length_runErrands errands s, ?_⟩
    rintro front e rest rfl
    have hfront := h.stands_runErrands front
    obtain ⟨acts, hfares, hsteps, hstands⟩ := h.exists_fares hfront e
    refine ⟨acts, _, _, _, ?_, rfl, getElem?_runErrands front rest e s, hsteps, hfares, hfront,
      hstands, hfares.noResponse_iff⟩
    rw [runErrands_append]
    dsimp only
    rw [List.take_left' (length_runErrands front s)]
  · intro s e
    refine ⟨exists_course ch s e, ?_, ?_, ?_⟩
    · intro fault d hd
      apply runErrand_of_unsent
      rw [send, hd]
    · intro d cause o hd hw
      apply runErrand_of_unsent
      rw [send, hd]
      dsimp only
      rw [hw]
    · intro d o fault p hd hw hf
      apply runErrand_of_unsent
      rw [send, hd]
      dsimp only
      rw [hw]
      dsimp only
      rw [hf]

def scripted : Channel (List Script.Arrival) Script.Uptake Unit :=
  ⟨Script.source, Script.sink, fun _ d => (.ok (), d)⟩

def welcome : ReturnFrame := ⟨.value .null, 1, none⟩

/-- A body that is no packing of a frame, and one that is. -/
def welcomes : List Bytes := [[255], Body.writeReturn welcome]

def welcoming : State (List Script.Arrival) Script.Uptake Unit :=
  ⟨[.chunk (welcomes.flatMap Frame.framed)], .empty, ()⟩

/-- Three errands that wait for a reply, and one between them that does not. -/
def visits : List Errand :=
  [.exchange (Link.greeting 0x101) true, .send (Link.greeting 0x201) false,
    .exchange (Link.greeting 0x101) true, .exchange (Link.greeting 0x100) false]

/-- The malformed body is used up by the first errand, the welcome reaches the third, and
nothing is left for the fourth. -/
theorem replies_in_turn_visits :
    Ready scripted Script.Uptake.taken welcomes [] welcoming ∧
    (scripted.runErrands visits welcoming).1[0]?
      = some (.error (.codec (.malformed Frame.notPacked))) ∧
    (scripted.runErrands visits welcoming).1[2]? = some (.ok (some ⟨welcome, true⟩)) ∧
    (scripted.runErrands visits welcoming).1[3]? = some (.error .noResponse) := by
  have hready : Ready scripted Script.Uptake.taken welcomes [] welcoming :=
    { patient := fun _ _ => rfl
      accepts := Script.sink_accepts_empty
      bodies_le := by decide +kernel
      cut := ⟨[], Nat.zero_le _, List.nil_prefix, (Frame.framed_ne_nil []).symm⟩
      delivers := by
        rw [List.append_nil]
        exact Script.source_delivers_chunk (by decide +kernel) }
  have hfits : Errand.Fits (.exchange (Link.greeting 0x101) true) := by decide +kernel
  have hsecond : welcomes[replies (visits.take 2)]? = some (Body.writeReturn welcome) := by
    decide +kernel
  obtain ⟨hruns, -⟩ := replies_in_turn scripted
  obtain ⟨-, -, hturns⟩ := hruns hready visits
  refine ⟨hready, ?_, ?_, ?_⟩
  · obtain ⟨_, _, _, _, -, -, hresult, -, hfares, -⟩ := hturns [] _ _ rfl
    rw [hfares.of_body hfits rfl] at hresult
    exact hresult.trans (by decide +kernel)
  · obtain ⟨_, _, _, _, -, -, hresult, -, hfares, -⟩ := hturns (visits.take 2) _ _ rfl
    rw [hfares.of_body hfits hsecond] at hresult
    exact hresult.trans (by decide +kernel)
  · obtain ⟨_, r, _, _, -, -, hresult, -, -, -, -, hnone⟩ := hturns (visits.take 3) _ _ rfl
    rw [hnone.mpr (by decide +kernel)] at hresult
    exact hresult

end Channel
end RemoteCall
