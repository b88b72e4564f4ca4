import RemoteCall.Proofs.Session.Spelling

/-!
Orderly sessions.

Any read may fail, and any write and any flush.  `Serving.Orderly` says what holds of a
session whatever fails: what has been accepted and flushed at every moment, what becomes of
every failure and of every frame that has come, and which calls are processed.  The moves of
a round trip are a `Leg`, and a leg that is followed by an orderly session is orderly with it
(`Leg.orderly`).
-/

namespace RemoteCall
namespace Serving

variable {ι ω η : Type}

/-! ## Orderly sessions -/

/-- All of `bs`, and nothing else, has been accepted, and has been flushed then. -/
def Flushed (ms : List Move) (bs : Bytes) : Prop :=
  bs = [] ∨ ∃ front rest, ms = front ++ .flush (.ok ()) :: rest ∧ accepted front = bs

/-- What has come of a frame is judged in the end, unless taking more of it has failed. -/
def Settled (ms : List Move) : Prop :=
  pending ms = [] ∨ ∃ front n came e, ms = front ++ [.take n came] ∧
    (Move.take n came).failure (pending front) = some e

/-- The look at the run flag between a call and its reply, if the call asks for keep-alive. -/
def Trip.looks (x : Trip) : List Move := if x.call.isKeepAlive then [.look x.shown] else []

/-- What holds of a move between `front` and `rest` in a session of these round trips that
comes to `result`. -/
structure Lawful (trips : List Trip) (result : Except SessionError Nat) (front : List Move)
    (m : Move) (rest : List Move) : Prop where
  failure : ∀ e, m.failure (pending front) = some e → rest = [] ∧ result = .error e
  retried : m.Retried rest
  /-- Bytes are taken only while the frame that is being read is short. -/
  wanted : ∀ n came, m = .take n came → Frame.Short (pending front)
  /-- All that has come of a frame is judged, and nothing else.  If that is a call, it is
  processed next. -/
  judged : ∀ bs came, m = .judge bs came →
    bs = pending front ∧ ∀ c, came = .ok (some c) → ∃ made more, rest = .process c made :: more
  /-- A call is processed just after a whole frame of it was judged, in its turn.  A reply
  that is too large is no move of the sink, but a failure all the same. -/
  handled : ∀ c made, m = .process c made →
    (∃ before body, front = before ++ [.judge (Frame.framed body) (.ok (some c))] ∧
      body.length ≤ Frame.maxBody ∧ Frame.decodeCall body = .ok c) ∧
    ∃ x more, trips[(dispatched front).length]? = some x ∧ x.call = c ∧ x.made = made ∧
      rest = x.looks ++ more ∧
      (c.isInOut = true → Frame.maxBody < (Body.writeReturn x.reply).length → more = [] ∧
        result = .error (.codec (.frameTooLarge (Body.writeReturn x.reply).length)))

/-- The moves of a session of these round trips that comes to `result`. -/
structure Orderly (trips : List Trip) (result : Except SessionError Nat) (moves : List Move) :
    Prop where
  calls : dispatched moves = trips.map fun x => (x.call, x.made)
  /-- At every moment, what has been accepted is the front of the replies to the calls
  that have been dispatched. -/
  replies : ∀ front, front <+: moves →
    accepted front <+: wires (trips.take (dispatched front).length)
  /-- At every moment, the replies to all of these calls but the latest have been flushed. -/
  flushed : ∀ front, front <+: moves →
    Flushed front (wires (trips.take ((dispatched front).length - 1)))
  /-- A session that ends well has left no reply behind. -/
  complete : ∀ n, result = .ok n → accepted moves = wires trips ∧ Flushed moves (wires trips)
  lawful : ∀ front m rest, moves = front ++ m :: rest → Lawful trips result front m rest
  settled : Settled moves

/-! ## Moves that are no calls -/

/-- A move that neither judges nor processes anything. -/
def Move.Plain : Move → Prop
  | .judge .. | .process .. => False
  | _ => True

namespace Move

variable {m : Move}

theorem Opens.plain (h : m.Opens) : m.Plain := by
  cases m <;> trivial

theorem Closes.plain (h : m.Closes) : m.Plain := by
  cases m <;> trivial

theorem Opens.accepted (h : m.Opens) : m.accepted = [] := by
  cases m with
  | offer => cases h
  | _ => rfl

theorem Closes.received (h : m.Closes) : m.received = [] := by
  cases m with
  | take => cases h
  | _ => rfl

theorem Closes.not_take (h : m.Closes) {n : Nat} {came : Except Fault Bytes} :
    m ≠ .take n came := by
  rintro rfl
  cases h

theorem Plain.dispatched (h : m.Plain) : m.dispatched = [] := by
  cases m with
  | process => cases h
  | _ => rfl

theorem Plain.hold (h : m.Plain) (held : Bytes) : m.hold held = held ++ m.received := by
  cases m with
  | judge => cases h
  | _ => rfl

end Move

variable {ms ns front rest opening closing last : List Move} {m : Move} {trips xs : List Trip}
  {x : Trip} {result : Except SessionError Nat}

theorem dispatched_of_plain (h : ∀ m ∈ ms, m.Plain) : dispatched ms = [] :=
  List.flatMap_eq_nil_iff.mpr fun m hm => (h m hm).dispatched

theorem foldl_hold_of_plain (h : ∀ m ∈ ms, m.Plain) (held : Bytes) :
    ms.foldl Move.hold held = held ++ received ms := by
  induction ms generalizing held with
  | nil => exact (List.append_nil held).symm
  | cons m ms ih =>
    obtain ⟨hm, hms⟩ := List.forall_mem_cons.mp h
    rw [List.foldl_cons, hm.hold, ih hms, List.append_assoc]
    rfl

theorem pending_append (ms ns : List Move) : pending (ms ++ ns) = ns.foldl Move.hold (pending ms) :=
  List.foldl_append

theorem Lawful.of_plain (hm : m.Plain)
    (hf : ∀ e, m.failure (pending front) = some e → rest = [] ∧ result = .error e)
    (hr : m.Retried rest) (hw : ∀ n came, m = .take n came → Frame.Short (pending front)) :
    Lawful trips result front m rest where
  failure := hf
  retried := hr
  wanted := hw
  judged bs came h := by
    subst h
    cases hm
  handled c made h := by
    subst h
    cases hm

theorem Stretch.lawful {kind : Move → Prop} (h : Stretch kind ms last)
    (hkind : ∀ m, kind m → m.Plain) {before after tail : List Move} {m : Move}
    (hms : ms = before ++ m :: after)
    (hw : ∀ n came, m = .take n came → Frame.Short (pending front)) :
    Lawful trips result front m (after ++ (last ++ tail)) := by
  have hm : m ∈ ms := hms ▸ List.mem_append_right _ List.mem_cons_self
  refine .of_plain (hkind m (h.kind m (List.mem_append_left _ hm))) ?_ ?_ hw
  · intro e he
    rw [h.calm m hm] at he
    cases he
  · have hs : ms ++ last = before ++ m :: (after ++ last) := by
      rw [hms, List.append_assoc, List.cons_append]
    rw [← List.append_assoc]
    exact (h.retried before m _ hs).append tail

theorem prefix_append_cases {α : Type} {as bs front : List α} (h : front <+: as ++ bs) :
    front <+: as ∨ ∃ a more, front = as ++ a :: more ∧ a :: more <+: bs := by
  obtain ⟨rest, hrest⟩ := h
  rcases List.append_eq_append_iff.mp hrest with ⟨more, has, -⟩ | ⟨more, hfront, hbs⟩
  · exact Or.inl ⟨more, has.symm⟩
  · rcases more with _ | ⟨a, more⟩
    · exact Or.inl ⟨[], by rw [hfront, List.append_nil, List.append_nil]⟩
    · exact Or.inr ⟨a, more, hfront, rest, hbs.symm⟩

theorem accepted_mono (h : ms <+: ns) : accepted ms <+: accepted ns := by
  obtain ⟨rest, rfl⟩ := h
  rw [accepted_append]
  exact List.prefix_append _ _

theorem Flushed.append {bs : Bytes} (h : Flushed ms bs) (ns : List Move) :
    Flushed (ms ++ ns) bs := by
  rcases h with rfl | ⟨front, rest, rfl, hacc⟩
  · exact Or.inl rfl
  · exact Or.inr ⟨front, rest ++ ns, List.append_assoc .., hacc⟩

theorem Flushed.after {bs cs : Bytes} (h : Flushed ns cs) (ha : accepted ms = bs)
    (hms : Flushed ms bs) : Flushed (ms ++ ns) (bs ++ cs) := by
  rcases h with rfl | ⟨front, rest, rfl, hacc⟩
  · rw [List.append_nil]
    exact hms.append ns
  · exact Or.inr ⟨ms ++ front, rest, (List.append_assoc ..).symm, by
      rw [accepted_append, ha, hacc]⟩

/-! ## A round trip -/

/-- The moves that send the reply of a round trip, if it has one: those that go well, and
one that fails, if there is one. -/
structure Answer (x : Trip) (closing last : List Move) : Prop where
  closes : Stretch Move.Closes closing last
  accepted : accepted (closing ++ last) <+: wires [x]
  sent : x.sent = .ok () →
    last = [] ∧ Serving.accepted closing = wires [x] ∧ Flushed closing (wires [x])
  unsent : ∀ m ∈ last, last = [m] ∧ ∃ e, x.sent = .error e ∧ ∀ held, m.failure held = some e
  tooLarge : x.call.isInOut = true → Frame.maxBody < (Body.writeReturn x.reply).length →
    closing ++ last = [] ∧
      x.sent = .error (.codec (.frameTooLarge (Body.writeReturn x.reply).length))

/-- The moves of a round trip: those that lead up to the call, and those of its reply. -/
structure Leg (x : Trip) (opening closing last : List Move) : Prop
    extends Answer x closing last where
  opens : Stretch Move.Opens opening []
  wanted : Wanted Frame.Short opening
  judge : Frame.judge (received opening) = .ok (some x.call)

theorem Trip.looks_silent (x : Trip) :
    accepted x.looks = [] ∧ dispatched x.looks = [] ∧ pending x.looks = [] := by
  unfold Trip.looks
  split <;> exact ⟨rfl, rfl, rfl⟩

theorem Trip.eq_of_mem_looks (h : m ∈ x.looks) : m = .look x.shown := by
  unfold Trip.looks at h
  split at h
  · exact List.mem_singleton.mp h
  · exact absurd h List.not_mem_nil

namespace Leg

def start (x : Trip) (opening : List Move) : List Move :=
  opening ++ .judge (received opening) (.ok (some x.call)) :: .process x.call x.made :: x.looks

theorem pending_opening (h : Leg x opening closing last) (hfront : front <+: opening) :
    pending front = received front :=
  foldl_hold_of_plain
    (fun m hm => (h.opens.kind m (List.mem_append_left _ (hfront.subset hm))).plain) []

theorem dispatched_opening (h : Leg x opening closing last) : dispatched opening = [] :=
  dispatched_of_plain fun m hm => (h.opens.kind m (List.mem_append_left _ hm)).plain

theorem accepted_start (h : Leg x opening closing last) :
    Serving.accepted (start x opening) = [] := by
  have hopening : Serving.accepted opening = [] := List.flatMap_eq_nil_iff.mpr fun m hm =>
    (h.opens.kind m (List.mem_append_left _ hm)).accepted
  rw [start, accepted_append, hopening]
  exact x.looks_silent.1

theorem dispatched_start (h : Leg x opening closing last) :
    dispatched (start x opening) = [(x.call, x.made)] := by
  rw [start, dispatched_append, h.dispatched_opening]
  exact congrArg ((x.call, x.made) :: ·) x.looks_silent.2.1

theorem dispatched_closing (h : Leg x opening closing last) : dispatched (closing ++ last) = [] :=
  dispatched_of_plain fun m hm => (h.closes.kind m hm).plain

theorem pending_leg (h : Leg x opening closing last) (ns : List Move) :
    pending (start x opening ++ (closing ++ last) ++ ns) = pending ns := by
  have hnone : received (closing ++ last) = [] :=
    List.flatMap_eq_nil_iff.mpr fun m hm => (h.closes.kind m hm).received
  have hstart : pending (start x opening) = [] := by
    rw [start, pending_append]
    exact x.looks_silent.2.2
  rw [pending_append, pending_append, hstart,
    foldl_hold_of_plain fun m hm => (h.closes.kind m hm).plain, hnone]
  rfl

theorem shift (h : Leg x opening closing last) {result : Except SessionError Nat}
    (hl : Lawful xs result ms m rest) :
    Lawful (x :: xs) result (start x opening ++ (closing ++ last) ++ ms) m rest where
  failure e he := hl.failure e (h.pending_leg ms ▸ he)
  retried := hl.retried
  wanted n came hm := h.pending_leg ms ▸ hl.wanted n came hm
  judged bs came hm := h.pending_leg ms ▸ hl.judged bs came hm
  handled c made hm := by
    obtain ⟨⟨before, body, rfl, hbody⟩, y, more, hy⟩ := hl.handled c made hm
    refine ⟨⟨start x opening ++ (closing ++ last) ++ before, body, ?_, hbody⟩, y, more, ?_⟩
    · rw [List.append_assoc _ before]
    · rw [dispatched_append, dispatched_append, h.dispatched_start, h.dispatched_closing]
      exact hy

theorem lawful_judge (h : Leg x opening closing last) {rest : List Move} :
    Lawful (x :: xs) result opening (.judge (received opening) (.ok (some x.call)))
      (.process x.call x.made :: rest) where
  failure e he := by cases he
  retried := trivial
  wanted n came hm := by cases hm
  judged bs came hm := by
    cases hm
    refine ⟨(h.pending_opening List.prefix_rfl).symm, fun c hc => ?_⟩
    obtain rfl := Option.some.inj (Except.ok.inj hc)
    exact ⟨_, _, rfl⟩
  handled c made hm := by cases hm

theorem lawful_process (h : Leg x opening closing last)
    (hsent : ∀ e, x.sent = .error e → ms = [] ∧ result = .error e) :
    Lawful (x :: xs) result (opening ++ [.judge (received opening) (.ok (some x.call))])
      (.process x.call x.made) (x.looks ++ (closing ++ last) ++ ms) where
  failure e he := by cases he
  retried := trivial
  wanted n came hm := by cases hm
  judged bs came hm := by cases hm
  handled c made hm := by
    cases hm
    obtain ⟨body, hbody, hsize, hdecode⟩ := Frame.framed_of_judge h.judge
    refine ⟨⟨opening, body, by rw [hbody], hsize, hdecode⟩, x, closing ++ last ++ ms, ?_, rfl, rfl,
      List.append_assoc .., ?_⟩
    · rw [dispatched_append, h.dispatched_opening]
      rfl
    · intro hin hlarge
      obtain ⟨hnone, hx⟩ := h.tooLarge hin hlarge
      obtain ⟨rfl, rfl⟩ := hsent _ hx
      exact ⟨by rw [hnone]; rfl, rfl⟩

theorem lawful_looks {before after : List Move} (hlooks : x.looks = before ++ m :: after) :
    Lawful trips result front m rest := by
  obtain rfl := Trip.eq_of_mem_looks (hlooks ▸ List.mem_append_right _ List.mem_cons_self)
  exact .of_plain trivial (fun e he => by cases he) trivial fun n came hm => by cases hm

theorem lawful_last (h : Leg x opening closing last) {before after : List Move}
    (hlast : last = before ++ m :: after)
    (hsent : ∀ e, x.sent = .error e → rest = [] ∧ result = .error e) :
    Lawful trips result front m (after ++ rest) := by
  have hm : m ∈ last := hlast ▸ List.mem_append_right _ List.mem_cons_self
  obtain ⟨hone, e, he, hfail⟩ := h.unsent m hm
  obtain ⟨rfl, rfl⟩ : before = [] ∧ after = [] := by
    rw [hone] at hlast
    simpa [List.singleton_eq_append_iff] using hlast
  obtain ⟨rfl, rfl⟩ := hsent e he
  have hkind := h.closes.kind m (List.mem_append_right _ hm)
  refine .of_plain hkind.plain ?_ ?_ fun n came hm => absurd hm hkind.not_take
  · intro e' he'
    rw [hfail] at he'
    exact ⟨rfl, congrArg Except.error (Option.some.inj he')⟩
  · exact h.closes.retried closing m [] (by rw [hone])

theorem accepted_beyond (h : Leg x opening closing last) (hx : x.sent = .ok ())
    (ms : List Move) : Serving.accepted (start x opening ++ (closing ++ last) ++ ms)
      = wires [x] ++ Serving.accepted ms := by
  obtain ⟨rfl, hacc, -⟩ := h.sent hx
  rw [accepted_append, accepted_append, h.accepted_start, List.append_nil, hacc, List.nil_append]

theorem dispatched_beyond (h : Leg x opening closing last) (ms : List Move) :
    dispatched (start x opening ++ (closing ++ last) ++ ms)
      = (x.call, x.made) :: dispatched ms := by
  rw [dispatched_append, dispatched_append, h.dispatched_start, h.dispatched_closing]
  rfl

theorem flushed_beyond (h : Leg x opening closing last) (hx : x.sent = .ok ()) {bs : Bytes}
    (hms : Flushed ms bs) :
    Flushed (start x opening ++ (closing ++ last) ++ ms) (wires [x] ++ bs) := by
  have hacc := h.accepted_beyond hx []
  rw [List.append_nil] at hacc
  refine hms.after (hacc.trans (List.append_nil _)) ?_
  obtain ⟨rfl, -, hflushed⟩ := h.sent hx
  rw [List.append_nil]
  exact hflushed.after h.accepted_start (Or.inl rfl)

theorem replies (h : Leg x opening closing last)
    (hsent : ∀ e, x.sent = .error e → ms = [] ∧ result = .error e) (ho : Orderly xs result ms)
    (hfront : front <+: start x opening ++ (closing ++ last) ++ ms) :
    Serving.accepted front <+: wires ((x :: xs).take (dispatched front).length) := by
  rcases prefix_append_cases hfront with hleg | ⟨a, more, rfl, hmore⟩
  · rcases prefix_append_cases hleg with hstart | ⟨a, more, rfl, hmore⟩
    · have hnone := accepted_mono hstart
      rw [h.accepted_start, List.prefix_nil] at hnone
      rw [hnone]
      exact List.nil_prefix
    · have hplain : dispatched (a :: more) = [] :=
        dispatched_of_plain fun m hm => (h.closes.kind m (hmore.subset hm)).plain
      rw [accepted_append, h.accepted_start, dispatched_append, h.dispatched_start, hplain]
      exact (accepted_mono hmore).trans h.accepted
  · rcases hx : x.sent with e | ⟨⟩
    · obtain ⟨rfl, -⟩ := hsent e hx
      exact absurd (List.prefix_nil.mp hmore) (List.cons_ne_nil a more)
    · rw [h.accepted_beyond hx, h.dispatched_beyond, List.length_cons, List.take_succ_cons,
        wires_cons x (xs.take _)]
      exact (List.prefix_append_right_inj _).mpr (ho.replies _ hmore)

theorem flushed (h : Leg x opening closing last)
    (hsent : ∀ e, x.sent = .error e → ms = [] ∧ result = .error e) (ho : Orderly xs result ms)
    (hfront : front <+: start x opening ++ (closing ++ last) ++ ms) :
    Flushed front (wires ((x :: xs).take ((dispatched front).length - 1))) := by
  rcases prefix_append_cases hfront with ⟨more, hleg⟩ | ⟨a, more, rfl, hmore⟩
  · -- At most this call has been dispatched.
    have hlen : (dispatched front ++ dispatched more).length = 1 := by
      have hall := h.dispatched_beyond []
      rw [List.append_nil] at hall
      rw [← dispatched_append, hleg, hall]
      rfl
    rw [List.length_append] at hlen
    have hzero : (dispatched front).length - 1 = 0 := by omega
    rw [hzero]
    exact Or.inl rfl
  · rcases hx : x.sent with e | ⟨⟩
    · obtain ⟨rfl, -⟩ := hsent e hx
      exact absurd (List.prefix_nil.mp hmore) (List.cons_ne_nil a more)
    · have hrest := ho.flushed _ hmore
      rw [h.dispatched_beyond, List.length_cons, Nat.add_sub_cancel]
      rcases hn : (dispatched (a :: more)).length with _ | n
      · exact Or.inl rfl
      · rw [hn, Nat.add_sub_cancel] at hrest
        rw [List.take_succ_cons, wires_cons x (xs.take n)]
        exact h.flushed_beyond hx hrest

theorem complete (h : Leg x opening closing last)
    (hsent : ∀ e, x.sent = .error e → ms = [] ∧ result = .error e) (ho : Orderly xs result ms)
    {n : Nat} (hn : result = .ok n) :
    Serving.accepted (start x opening ++ (closing ++ last) ++ ms) = wires (x :: xs) ∧
      Flushed (start x opening ++ (closing ++ last) ++ ms) (wires (x :: xs)) := by
  rcases hx : x.sent with e | ⟨⟩
  · obtain ⟨-, rfl⟩ := hsent e hx
    cases hn
  · obtain ⟨hacc, hflushed⟩ := ho.complete n hn
    rw [wires_cons x xs, h.accepted_beyond hx, hacc]
    exact ⟨rfl, h.flushed_beyond hx hflushed⟩

theorem lawful (h : Leg x opening closing last)
    (hsent : ∀ e, x.sent = .error e → ms = [] ∧ result = .error e) (ho : Orderly xs result ms)
    (hs : start x opening ++ (closing ++ last) ++ ms = front ++ m :: rest) :
    Lawful (x :: xs) result front m rest := by
  rcases split_append hs with ⟨after, hleg, rfl⟩ | ⟨more, rfl, hms⟩
  · rcases split_append hleg with ⟨after, hstart, rfl⟩ | ⟨before, rfl, hclosing⟩
    · rcases split_append hstart with ⟨after, hopening, rfl⟩ | ⟨before, rfl, hcall⟩
      · rw [List.append_assoc, List.append_assoc]
        refine h.opens.lawful (fun _ => Move.Opens.plain) hopening fun n came hm => ?_
        rw [h.pending_opening ⟨_, hopening.symm⟩]
        exact h.wanted front n came after (hm ▸ hopening)
      · rcases before with _ | ⟨n, _ | ⟨_, before⟩⟩
        · obtain ⟨rfl, rfl⟩ := List.cons.inj hcall
          rw [List.append_nil]
          exact h.lawful_judge
        · obtain ⟨hjudge, hprocess⟩ := List.cons.inj hcall
          obtain ⟨rfl, rfl⟩ := List.cons.inj hprocess
          rw [← hjudge]
          exact h.lawful_process hsent
        · exact lawful_looks (List.cons.inj (List.cons.inj hcall).2).2
    · rcases split_append hclosing with ⟨after, hms, rfl⟩ | ⟨before, rfl, hlast⟩
      · rw [List.append_assoc]
        refine h.closes.lawful (fun _ => Move.Closes.plain) hms fun n came hm => ?_
        have hclosing : m ∈ closing := hms ▸ List.mem_append_right _ List.mem_cons_self
        exact absurd hm (h.closes.kind m (List.mem_append_left _ hclosing)).not_take
      · exact h.lawful_last hlast hsent
  · exact h.shift (ho.lawful more m rest hms)

theorem settled (h : Leg x opening closing last) (ho : Orderly xs result ms) :
    Settled (start x opening ++ (closing ++ last) ++ ms) := by
  rw [Settled, h.pending_leg]
  refine ho.settled.imp_right fun ⟨front, n, came, e, hms, hfail⟩ => ?_
  refine ⟨start x opening ++ (closing ++ last) ++ front, n, came, e, ?_, ?_⟩
  · rw [hms, List.append_assoc _ front]
  · rw [h.pending_leg]
    exact hfail

/-- A round trip and the orderly session that follows on it, if the reply could be sent. -/
theorem orderly (h : Leg x opening closing last)
    (hsent : ∀ e, x.sent = .error e → ms = [] ∧ result = .error e) (ho : Orderly xs result ms) :
    Orderly (x :: xs) result (start x opening ++ (closing ++ last) ++ ms) where
  calls := by
    rw [h.dispatched_beyond, ho.calls]
    rfl
  replies _ hfront := h.replies hsent ho hfront
  flushed _ hfront := h.flushed hsent ho hfront
  complete _ hn := h.complete hsent ho hn
  lawful _ _ _ hs := h.lawful hsent ho hs
  settled := h.settled ho

end Leg

end Serving
end RemoteCall
