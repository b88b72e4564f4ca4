import RemoteCall.Proofs.Session.Orderly

/-!
Failures under a session.

The moves of a session are legs, one for each round trip (`exists_leg`), and then what
follows on the last round trip, which is orderly too (`orderly_of_reads`).  So every
session is orderly, by induction on its course.
-/

namespace RemoteCall
namespace Serving

variable {ι ω η : Type} {ms closing last : List Move} {m : Move} {trips xs : List Trip} {x : Trip}
  {result : Except SessionError Nat}

/-! ## The round trips of a session -/

theorem Spelled.single {a : Act} (h : Spelled [a] ms) : Spells a ms := by
  cases h with
  | cons ha hs =>
    cases hs
    rw [List.append_nil]
    exact ha

theorem Stretch.look {kind : Move → Prop} {b : Bool} (hk : kind (.look b)) :
    Stretch kind [.look b] [] :=
  ((Stretch.nil kind).snoc hk trivial).settle fun _ => rfl

theorem stretch_lead {n : Nat} (h : Spelled (lead n) ms) :
    Stretch Move.Opens ms [] ∧ received ms = [] ∧ ∀ few, Wanted few ms := by
  cases n with
  | zero =>
    cases h
    exact ⟨.nil _, rfl, .nil⟩
  | succ n =>
    cases h.single
    refine ⟨.look trivial, rfl, fun few front n came rest hs => ?_⟩
    simp [List.singleton_eq_append_iff] at hs

theorem Reads.exists_judged {came : Except CodecError (Option CallFrame)} {c : CallFrame}
    (h : Reads came ms) (hc : came = .ok (some c)) :
    ∃ ns, ms = ns ++ [.judge (received ns) (.ok (some c))] ∧ Stretch Move.Opens ns [] ∧
      Wanted Frame.Short ns ∧ Frame.judge (received ns) = .ok (some c) := by
  cases h with
  | judged hns hw => exact ⟨_, by rw [hc], hns, hw, hc⟩
  | ended =>
    split at hc <;> cases hc
  | failed => cases hc

theorem Spelled.looks (h : Spelled (if x.call.isKeepAlive then [.look x.shown] else []) ms) :
    ms = x.looks := by
  unfold Trip.looks
  by_cases hk : x.call.isKeepAlive = true
  · rw [if_pos hk] at h ⊢
    cases h.single
    rfl
  · rw [if_neg hk] at h ⊢
    cases h
    rfl

theorem wires_inOut (h : x.call.isInOut = true) : wires [x] = Frame.returnWire x.reply := by
  rw [wires, List.filter_cons, if_pos h]
  exact List.flatMap_singleton ..

theorem wires_inOnly (h : x.call.isInOut = false) : wires [x] = [] := by
  rw [wires, List.filter_cons, if_neg (Bool.eq_false_iff.mp h)]
  rfl

theorem Sends.answer {sent : Except SessionError Unit} (h : Sends x.reply sent ms last)
    (hx : x.sent = sent) (hc : x.call.isInOut = true) : Answer x ms last := by
  have hwires := wires_inOut hc
  cases h with
  | @sent ns hsize hns ha =>
    have hall : accepted (ns ++ [.flush (.ok ())]) = wires [x] := by
      rw [accepted_append, ha, hwires]
      exact List.append_nil _
    have hflush : Stretch Move.Closes ns [.flush (.ok ())] := hns.snoc trivial trivial
    refine ⟨hflush.settle fun _ => rfl, ?_, ?_, ?_, ?_⟩
    · rw [List.append_nil]
      exact hall ▸ List.prefix_rfl
    · intro _
      exact ⟨rfl, hall, Or.inr ⟨ns, [], rfl, ha.trans hwires.symm⟩⟩
    · intro m hm
      exact absurd hm List.not_mem_nil
    · intro _ hlarge
      exact absurd hlarge (Nat.not_lt_of_le hsize)
  | @failed _ m e hsize hms ha hm =>
    refine ⟨hms, hwires ▸ ha, ?_, ?_, ?_⟩
    · intro hok
      rw [hx] at hok
      cases hok
    · intro n hn
      obtain rfl := List.mem_singleton.mp hn
      exact ⟨rfl, e, hx, hm⟩
    · intro _ hlarge
      exact absurd hlarge (Nat.not_lt_of_le hsize)
  | tooLarge hsize =>
    refine ⟨.nil _, List.nil_prefix, ?_, ?_, fun _ _ => ⟨rfl, hx⟩⟩
    · intro hok
      rw [hx] at hok
      cases hok
    · intro m hm
      exact absurd hm List.not_mem_nil

theorem answer_inOnly (hc : x.call.isInOut = false) : Answer x [] [] where
  closes := .nil _
  accepted := List.nil_prefix
  sent _ := ⟨rfl, (wires_inOnly hc).symm, Or.inl (wires_inOnly hc)⟩
  unsent m hm := absurd hm List.not_mem_nil
  tooLarge hin := absurd (hc.symm.trans hin) (by decide)

theorem exists_answer
    (h : Spelled (if x.call.isInOut then [.reply x.reply x.sent] else []) ms) :
    ∃ closing last, ms = closing ++ last ∧ Answer x closing last := by
  by_cases hc : x.call.isInOut = true
  · rw [if_pos hc] at h
    cases h.single with
    | reply hsends => exact ⟨_, _, rfl, hsends.answer rfl hc⟩
  · rw [if_neg hc] at h
    cases h
    exact ⟨[], [], rfl, answer_inOnly (Bool.eq_false_iff.mpr hc)⟩

/-- The acts of a round trip come to the moves of one. -/
theorem exists_leg {n : Nat}
    (h : Spelled (lead n ++ .read (.ok (some x.call)) :: x.work) ms) :
    ∃ opening closing last, ms = Leg.start x opening ++ (closing ++ last) ∧
      Leg x opening closing last := by
  obtain ⟨leads, _, rfl, hleads, hcall⟩ := h.of_append
  obtain ⟨hlead, hnone, hfree⟩ := stretch_lead hleads
  cases hcall with
  | cons hread hwork =>
    cases hread with
    | read hreads =>
      obtain ⟨ns, rfl, hns, hwanted, hjudge⟩ := hreads.exists_judged rfl
      cases hwork with
      | cons hprocess hrest =>
        cases hprocess
        obtain ⟨looks, replies, rfl, hlooks, hreplies⟩ := hrest.of_append
        obtain rfl := hlooks.looks
        obtain ⟨closing, last, rfl, hanswer⟩ := exists_answer hreplies
        have hcame : received (leads ++ ns) = received ns := by
          rw [received_append, hnone, List.nil_append]
        have hall : Wanted Frame.Short (leads ++ ns) :=
          (hfree _).append (hwanted.mono fun bs hbs => hnone ▸ hbs)
        refine ⟨leads ++ ns, closing, last, ?_, hanswer, hlead.append hns, hall, hcame ▸ hjudge⟩
        rw [Leg.start, hcame]
        simp only [List.append_assoc, List.cons_append, List.nil_append]

/-! ## The end of a session -/

theorem orderly_of_no_calls (hd : dispatched ms = []) (ha : accepted ms = [])
    (hl : ∀ front m rest, ms = front ++ m :: rest → Lawful [] result front m rest)
    (hs : Settled ms) : Orderly [] result ms where
  calls := hd
  replies front h := by
    have hnone := accepted_mono h
    rw [ha, List.prefix_nil] at hnone
    rw [hnone]
    exact List.nil_prefix
  flushed _ _ := Or.inl (by rw [List.take_nil]; rfl)
  complete _ _ := ⟨ha, Or.inl rfl⟩
  lawful := hl
  settled := hs

theorem orderly_nil (result : Except SessionError Nat) : Orderly [] result [] :=
  orderly_of_no_calls rfl rfl (fun _ _ _ h => absurd h (by simp)) (Or.inl rfl)

theorem orderly_of_last {tail : List Move} (h : Stretch Move.Opens ms last)
    (hw : Wanted Frame.Short ms) (hm : last ++ tail = [m]) (hd : m.dispatched = [])
    (ha : m.accepted = []) (hl : Lawful [] result ms m []) (hs : Settled (ms ++ [m])) :
    Orderly [] result (ms ++ [m]) := by
  have hopens (n : Move) (hn : n ∈ ms) : n.Opens := h.kind n (List.mem_append_left _ hn)
  refine orderly_of_no_calls ?_ ?_ ?_ hs
  · rw [dispatched_append, dispatched_of_plain fun n hn => (hopens n hn).plain]
    exact (List.append_nil _).trans hd
  · have hnone : accepted ms = [] := List.flatMap_eq_nil_iff.mpr fun n hn => (hopens n hn).accepted
    rw [accepted_append, hnone]
    exact (List.append_nil _).trans ha
  · intro front n rest hs
    rcases split_append hs with ⟨after, hms, rfl⟩ | ⟨more, rfl, hlast⟩
    · refine hm ▸ h.lawful (fun _ => Move.Opens.plain) hms fun k came hn => ?_
      have hfront : ∀ n ∈ front, n.Plain := fun n hn =>
        (hopens n (hms ▸ List.mem_append_left _ hn)).plain
      rw [pending, foldl_hold_of_plain hfront]
      exact hw front k came after (hn ▸ hms)
    · obtain ⟨rfl, rfl, rfl⟩ : more = [] ∧ n = m ∧ rest = [] := by
        simpa [List.singleton_eq_append_iff] using hlast
      rw [List.append_nil]
      exact hl

theorem orderly_of_take {k : Nat} {came : Except Fault Bytes}
    (h : Stretch Move.Opens ms [.take k came]) (hw : Wanted Frame.Short (ms ++ [.take k came]))
    (hfails : ∀ e, (Move.take k came).failure (received ms) = some e → result = .error e)
    (hcalm : (Move.take k came).failure (received ms) = none →
      received (ms ++ [.take k came]) = []) : Orderly [] result (ms ++ [.take k came]) := by
  have hplain : ∀ m ∈ ms ++ [.take k came], m.Plain := fun m hm => (h.kind m hm).plain
  have hpending : pending ms = received ms :=
    foldl_hold_of_plain (fun m hm => hplain m (List.mem_append_left _ hm)) []
  refine orderly_of_last h hw.of_append rfl rfl rfl
    (.of_plain trivial ?_ (h.retried ms _ [] rfl) fun n c hm => ?_) ?_
  · intro e he
    rw [hpending] at he
    exact ⟨rfl, hfails e he⟩
  · rw [hpending]
    exact hw ms n c [] (by rw [hm])
  · rcases hfail : (Move.take k came).failure (received ms) with _ | e
    · exact Or.inl ((foldl_hold_of_plain hplain []).trans (hcalm hfail))
    · exact Or.inr ⟨ms, k, came, e, rfl, hpending.symm ▸ hfail⟩

theorem orderly_of_reads {n : Nat} {came : Except CodecError (Option CallFrame)}
    (h : Spelled (lead n ++ [.read came]) ms) (hcall : ∀ c, came ≠ .ok (some c))
    (hr : ∀ e, came = .error e → result = .error (.codec e)) : Orderly [] result ms := by
  obtain ⟨leads, _, rfl, hleads, hread⟩ := h.of_append
  obtain ⟨hlead, hnone, hfree⟩ := stretch_lead hleads
  have hcame (ns : List Move) : received (leads ++ ns) = received ns := by
    rw [received_append, hnone, List.nil_append]
  have hwanted {ns : List Move} (hns : Wanted Frame.Short ns) : Wanted Frame.Short (leads ++ ns) :=
    (hfree _).append (hns.mono fun bs hbs => hnone ▸ hbs)
  cases hread.single with
  | read hreads =>
    cases hreads with
    | @judged ns hns hw =>
      rw [← List.append_assoc]
      refine orderly_of_last (hlead.append hns) (hwanted hw) rfl rfl rfl
        ⟨?_, trivial, nofun, ?_, nofun⟩ (Or.inl ?_)
      · intro e he
        rcases hj : Frame.judge (received ns) with e' | v
        · rw [hj] at he
          cases he
          exact ⟨rfl, hr e' hj⟩
        · rw [hj] at he
          cases he
      · intro bs came hm
        cases hm
        have hplain : ∀ m ∈ leads ++ ns, m.Plain := fun m hm =>
          ((hlead.append hns).kind m (List.mem_append_left _ hm)).plain
        have hpending : pending (leads ++ ns) = received ns :=
          (foldl_hold_of_plain hplain []).trans (hcame ns)
        exact ⟨hpending.symm, fun c hc => absurd hc (hcall c)⟩
      · rw [pending_append]
        rfl
    | @ended ns k hns hw =>
      rw [← List.append_assoc]
      refine orderly_of_take (hlead.append hns) (List.append_assoc .. ▸ hwanted hw) ?_ ?_
      · intro e he
        rw [hcame, Move.failure] at he
        by_cases hempty : received ns = []
        · rw [if_pos hempty] at he
          cases he
        · rw [if_neg hempty] at he
          obtain rfl := Option.some.inj he
          exact hr _ (if_neg hempty)
      · intro hcalm
        rw [hcame, Move.failure] at hcalm
        have hempty : received ns = [] := by
          refine Decidable.byContradiction fun hne => ?_
          rw [if_neg hne] at hcalm
          cases hcalm
        rw [received_append, hcame, hempty]
        rfl
    | @failed ns k e hns hw hk =>
      rw [← List.append_assoc]
      refine orderly_of_take (hlead.append hns) (List.append_assoc .. ▸ hwanted hw) ?_ ?_
      · intro e' he
        rw [hcame, Move.failure, if_neg hk] at he
        exact (hr _ rfl).trans (congrArg Except.error (Option.some.inj he))
      · intro hcalm
        rw [Move.failure, if_neg hk] at hcalm
        cases hcalm

theorem orderly_of_stop (h : Spelled [.look false] ms) : Orderly [] result ms := by
  cases h.single
  have hl : Lawful [] result [] (.look false) [] :=
    .of_plain trivial (fun e he => by cases he) trivial fun n came hm => by cases hm
  exact orderly_of_last (.nil _) (.nil _) rfl rfl rfl hl (Or.inl rfl)

theorem orderly_of_trip {n : Nat} {coda : Coda} (h : Spelled (told n (x :: xs) coda) ms)
    (hrest : ∀ ns, Spelled (told (n + 1) xs coda) ns →
      (∀ e, x.sent = .error e → ns = [] ∧ result = .error e) ∧ Orderly xs result ns) :
    Orderly (x :: xs) result ms := by
  obtain ⟨legs, ns, rfl, hfirst, hns⟩ := h.of_append
  obtain ⟨opening, closing, last, rfl, hleg⟩ := exists_leg hfirst
  obtain ⟨hsent, ho⟩ := hrest ns hns
  exact hleg.orderly hsent ho

/-- Whatever its course, a session is orderly. -/
theorem Course.orderly {n : Nat} {coda : Coda} (h : Course n trips coda result)
    (hs : Spelled (told n trips coda) ms) : Orderly trips result ms := by
  induction h generalizing ms with
  | stopped => exact orderly_of_stop hs
  | closed => exact orderly_of_reads hs (fun c hc => by cases hc) fun e he => by cases he
  | refused n e =>
    refine orderly_of_reads hs (fun c hc => by cases hc) fun e' he => ?_
    rw [Except.error.inj he]
  | unsent hx =>
    refine orderly_of_trip hs fun ns hns => ?_
    cases hns
    refine ⟨fun e he => ⟨rfl, ?_⟩, orderly_nil _⟩
    rw [hx] at he
    rw [Except.error.inj he]
  | last hx =>
    refine orderly_of_trip hs fun ns hns => ?_
    cases hns
    refine ⟨fun e he => ?_, orderly_nil _⟩
    rw [hx] at he
    cases he
  | next hx _ _ ih =>
    refine orderly_of_trip hs fun ns hns => ⟨fun e he => ?_, ih hns⟩
    rw [hx] at he
    cases he

/-- A session survives the failures of its streams.  It is told in round trips and in
moves: each of its rounds is a piece of the moves, which lead from the state in which the
round starts to the state in which it leaves the session.  At every moment, what the sink
has accepted is the front of the replies to the calls dispatched so far, and the replies to
all of these calls but the latest have been flushed; where the session ends well, all have.

A read or a write that was interrupted is tried again; any other failure is the last move of
the session, which comes to just this error; only the unexpected end that a source reports
inside a frame becomes a truncated frame, as an early end of the stream does.

Bytes are taken only while the frame is short, and what has come of it is judged in the end
unless taking more has failed; so a frame that does not decode is always told, and is a
failure like the others.  A call is processed just after all that had come of a frame was
judged to be a whole frame of it, within the limit and of the right version, and every call
that was judged is processed. -/
theorem survives_failures (svc : Service η) (src : Source ι) (snk : Sink ω) (input : ι)
    (output : ω) (h : η) : ∃ trips moves,
    Played svc src snk ⟨input, output, h, 0⟩ moves (serve svc src snk input output h).1
      (serve svc src snk input output h).2 ∧
    Orderly trips (serve svc src snk input output h).1 moves := by
  obtain ⟨trips, coda, moves, hcourse, hspelled, hplayed⟩ :=
    exists_played svc src snk ⟨input, output, h, 0⟩
  exact ⟨trips, moves, hplayed, hcourse.orderly hspelled⟩

/-- A read fails inside a frame, and the session comes to another error.  An unexpected end
that the source reports is taken for the end of the stream. -/
theorem truncated_by_unexpectedEof :
    let e : Fault := ⟨.unexpectedEof, "gone"⟩
    let svc : Service Unit := .steady true fun _ h => (.success .null, h)
    let input : List Script.Arrival := [.chunk [Frame.version], .fault e]
    ∃ t, Played svc Script.source Script.sink ⟨input, .empty, (), 0⟩
        [.take 1 (.ok [Frame.version]), .take 4 (.error e)] (.error (.codec .truncated)) t ∧
      serve svc Script.source Script.sink input .empty () = (.error (.codec .truncated), t) ∧
      e.kind ≠ .interrupted ∧ SessionError.codec .truncated ≠ .codec (.fault e) := by
  intro e svc input
  have hread : Frame.readCall Script.source input = (.error .truncated, []) := by decide +kernel
  have hround : (⟨input, .empty, (), 0⟩ : Serving _ _ _).round svc Script.source Script.sink
      = .stop (.error (.codec .truncated)) ⟨[], .empty, (), 0⟩ := by
    rw [round, if_pos rfl, receive, hread]
  have hfirst : Moves svc Script.source Script.sink ⟨input, .empty, (), 0⟩
      (.take 1 (.ok [Frame.version])) ⟨[.fault e], .empty, (), 0⟩ := .take 1 _
  have hsecond : Moves svc Script.source Script.sink ⟨[.fault e], .empty, (), 0⟩
      (.take 4 (.error e)) ⟨[], .empty, (), 0⟩ := .take 4 _
  exact ⟨_, .stop hround ((Steps.single hfirst).snoc hsecond), run_of_stop hround, by decide,
    by decide⟩

end Serving
end RemoteCall
