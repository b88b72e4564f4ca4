import RemoteCall.Proofs.Session.Moves

/-!
The moves that the acts of a session come to.

`Serving.Reads` says which moves the reading of a call may be, and what is read then;
`Serving.Sends` says the same of the sending of a reply.  Both are found loop by loop
(`steps_readCall`, `steps_reply`), and `exists_played` tells a whole session in moves.
-/

namespace RemoteCall
namespace Serving

variable {ι ω η : Type}

/-! ## Attempts on a source and a sink -/

variable (svc : Service η) (src : Source ι) (snk : Sink ω)

theorem steps_readSome (n : Nat) (s : Serving ι ω η) : ∃ ms, Interrupted (.take n) ms ∧
    Steps (Moves svc src snk) s (ms ++ [.take n (src.readSome n s.input).1])
      { s with input := (src.readSome n s.input).2 } := by
  generalize hi : s.input = i
  have htake : Moves svc src snk s (.take n (src.read n i).1)
      { s with input := (src.read n i).2 } := hi ▸ .take n s
  fun_induction Source.readSome src n i generalizing s with
  | case1 i bs j hr =>
    rw [hr] at htake
    exact ⟨[], fun _ h => absurd h List.not_mem_nil, .single htake⟩
  | case2 i e j hr hk _ ih =>
    rw [hr] at htake
    obtain ⟨ms, hms, hsteps⟩ := ih { s with input := j } rfl (.take n _)
    exact ⟨.take n (.error e) :: ms, List.forall_mem_cons.mpr ⟨⟨e, rfl, hk⟩, hms⟩,
      hsteps.cons htake⟩
  | case3 i e j hr hk =>
    rw [hr] at htake
    exact ⟨[], fun _ h => absurd h List.not_mem_nil, .single htake⟩

theorem steps_writeSome (bs : Bytes) (s : Serving ι ω η) : ∃ ms, Interrupted (.offer bs) ms ∧
    Steps (Moves svc src snk) s (ms ++ [.offer bs (snk.writeSome bs s.output).1])
      { s with output := (snk.writeSome bs s.output).2 } := by
  generalize ho : s.output = o
  have hoffer : Moves svc src snk s (.offer bs (snk.write bs o).1)
      { s with output := (snk.write bs o).2 } := ho ▸ .offer bs s
  fun_induction Sink.writeSome snk bs o generalizing s with
  | case1 o n p hw =>
    rw [hw] at hoffer
    exact ⟨[], fun _ h => absurd h List.not_mem_nil, .single hoffer⟩
  | case2 o e p hw hk _ ih =>
    rw [hw] at hoffer
    obtain ⟨ms, hms, hsteps⟩ := ih { s with output := p } rfl (.offer bs _)
    exact ⟨.offer bs (.error e) :: ms, List.forall_mem_cons.mpr ⟨⟨e, rfl, hk⟩, hms⟩,
      hsteps.cons hoffer⟩
  | case3 o e p hw hk =>
    rw [hw] at hoffer
    exact ⟨[], fun _ h => absurd h List.not_mem_nil, .single hoffer⟩

theorem exists_takes {n : Nat} {s : Serving ι ω η} {came : Except Fault Bytes} {i : ι}
    (hr : src.readSome n s.input = (came, i)) : ∃ ms, Stretch Move.Opens ms [.take n came] ∧
      (∀ few : Bytes → Prop, few [] → Wanted few (ms ++ [.take n came])) ∧
      received ms = [] ∧ (∀ e, came = .error e → e.kind ≠ .interrupted) ∧
      Steps (Moves svc src snk) s (ms ++ [.take n came]) { s with input := i } := by
  obtain ⟨ms, hms, hsteps⟩ := steps_readSome svc src snk n s
  have hk : ∀ e, came = .error e → e.kind ≠ .interrupted := by
    rintro e rfl
    exact src.not_interrupted_readSome hr
  rw [hr] at hsteps
  exact ⟨ms, (attempt_take n).stretch hms hk, fun _ => hms.wanted came,
    flatMap_interrupted hms fun _ => rfl, hk, hsteps⟩

theorem exists_offers {bs : Bytes} {s : Serving ι ω η} {answer : Except Fault Nat} {o : ω}
    (hw : snk.writeSome bs s.output = (answer, o)) :
    ∃ ms, Stretch Move.Closes ms [.offer bs answer] ∧ accepted ms = [] ∧
      (∀ e, answer = .error e → e.kind ≠ .interrupted) ∧
      Steps (Moves svc src snk) s (ms ++ [.offer bs answer]) { s with output := o } := by
  obtain ⟨ms, hms, hsteps⟩ := steps_writeSome svc src snk bs s
  have hk : ∀ e, answer = .error e → e.kind ≠ .interrupted := by
    rintro e rfl
    exact snk.not_interrupted_writeSome hw
  rw [hw] at hsteps
  exact ⟨ms, (attempt_offer bs).stretch hms hk, flatMap_interrupted hms fun _ => rfl, hk, hsteps⟩

/-! ## Reading a call -/

/-- What comes of reading `n` bytes, and the moves that it takes: those that go well, and
one that fails, if there is one. -/
inductive Gathers (n : Nat) : Except Fault Bytes → List Move → List Move → Prop where
  | all {ms : List Move} (h : Stretch Move.Opens ms []) (hn : (received ms).length = n) :
      Gathers n (.ok (received ms)) ms []
  | short {ms : List Move} {k : Nat} (h : Stretch Move.Opens ms [.take k (.ok [])])
      (hn : (received ms).length < n) : Gathers n (.error .endedEarly) ms [.take k (.ok [])]
  | failed {ms : List Move} {k : Nat} {e : Fault} (h : Stretch Move.Opens ms [.take k (.error e)])
      (hk : e.kind ≠ .interrupted) : Gathers n (.error e) ms [.take k (.error e)]

variable {ms ns last : List Move}

theorem Gathers.after {n k : Nat} {r : Except Fault Bytes} (h : Stretch Move.Opens ms [])
    (hn : (received ms).length + k = n) (hg : Gathers k r ns last) :
    Gathers n ((received ms ++ ·) <$> r) (ms ++ ns) last := by
  have hlen : (received (ms ++ ns)).length = (received ms).length + (received ns).length := by
    rw [received_append, List.length_append]
  cases hg with
  | all h' hk =>
    have hall : Gathers n (.ok (received (ms ++ ns))) (ms ++ ns) [] :=
      .all (h.append h') (by omega)
    rw [received_append] at hall
    exact hall
  | short h' hk => exact .short (h.append h') (by omega)
  | failed h' hk => exact .failed (h.append h') hk

theorem exists_gathers {n : Nat} {b : UInt8} {bs : Bytes} {s t : Serving ι ω η} {i : ι}
    {r : Except Fault Bytes} (hr : src.readSome n s.input = (.ok (b :: bs), i))
    (h : ∃ ns last, Gathers (n - (bs.length + 1)) r ns last ∧
      Wanted (·.length < n - (bs.length + 1)) (ns ++ last) ∧
      Steps (Moves svc src snk) { s with input := i } (ns ++ last) t) :
    ∃ ms last, Gathers n ((b :: bs ++ ·) <$> r) ms last ∧ Wanted (·.length < n) (ms ++ last) ∧
      Steps (Moves svc src snk) s (ms ++ last) t := by
  obtain ⟨ms, hms, hwanted, hnone, -, hsteps⟩ := exists_takes svc src snk hr
  obtain ⟨ns, last, hg, hwanted', hsteps'⟩ := h
  have hcame : received (ms ++ [.take n (.ok (b :: bs))]) = b :: bs := by
    rw [received_append, hnone]
    exact List.append_nil _
  have hle : bs.length + 1 ≤ n := src.length_readSome_le hr
  have hlen : (received (ms ++ [.take n (.ok (b :: bs))])).length + (n - (bs.length + 1)) = n := by
    rw [hcame, List.length_cons]
    omega
  have hafter := hg.after (hms.settle fun _ => rfl) hlen
  have hall : Wanted (·.length < n) (ms ++ [.take n (.ok (b :: bs))] ++ (ns ++ last)) := by
    refine (hwanted (·.length < n) (Nat.lt_of_lt_of_le (Nat.succ_pos _) hle)).append
      (hwanted'.mono fun cs hcs => ?_)
    rw [hcame, List.length_append, List.length_cons]
    omega
  rw [hcame] at hafter
  rw [← List.append_assoc] at hall
  exact ⟨_, last, hafter, hall, List.append_assoc _ ns last ▸ hsteps.trans hsteps'⟩

theorem steps_readExact (n : Nat) (s : Serving ι ω η) : ∃ ms last,
    Gathers n (src.readExact n s.input).1 ms last ∧ Wanted (·.length < n) (ms ++ last) ∧
      Steps (Moves svc src snk) s (ms ++ last)
        { s with input := (src.readExact n s.input).2 } := by
  generalize hi : s.input = i
  fun_induction Source.readExact src n i generalizing s with
  | case1 i =>
    subst hi
    exact ⟨[], [], .all (.nil _) rfl, .nil _, .refl⟩
  | case2 n i hn e j hr =>
    obtain ⟨ms, h, hwanted, -, hk, hsteps⟩ := exists_takes svc src snk (hi ▸ hr)
    exact ⟨ms, _, .failed h (hk e rfl), hwanted _ (Nat.pos_of_ne_zero hn), hsteps⟩
  | case3 n i hn j hr =>
    obtain ⟨ms, h, hwanted, hnone, -, hsteps⟩ := exists_takes svc src snk (hi ▸ hr)
    have hlen : (received ms).length < n := by
      rw [hnone]
      exact Nat.pos_of_ne_zero hn
    exact ⟨ms, _, .short h hlen, hwanted _ (Nat.pos_of_ne_zero hn), hsteps⟩
  | case4 n i hn b bs j hr e k hrest ih =>
    have hgathers := ih { s with input := j } rfl
    rw [hrest] at hgathers
    exact exists_gathers svc src snk (hi ▸ hr) hgathers
  | case5 n i hn b bs j hr rest k hrest ih =>
    have hgathers := ih { s with input := j } rfl
    rw [hrest] at hgathers
    exact exists_gathers svc src snk (hi ▸ hr) hgathers

/-- What comes of reading a call, and the moves that it takes: bytes are taken while the frame
is short, until they are judged, the stream ends, or a read fails. -/
inductive Reads : Except CodecError (Option CallFrame) → List Move → Prop where
  | judged {ms : List Move} (h : Stretch Move.Opens ms []) (hw : Wanted Frame.Short ms) :
      Reads (Frame.judge (received ms)) (ms ++ [.judge (received ms) (Frame.judge (received ms))])
  | ended {ms : List Move} {n : Nat} (h : Stretch Move.Opens ms [.take n (.ok [])])
      (hw : Wanted Frame.Short (ms ++ [.take n (.ok [])])) :
      Reads (if received ms = [] then .ok none else .error .truncated)
        (ms ++ [.take n (.ok [])])
  | failed {ms : List Move} {n : Nat} {e : Fault} (h : Stretch Move.Opens ms [.take n (.error e)])
      (hw : Wanted Frame.Short (ms ++ [.take n (.error e)])) (hk : e.kind ≠ .interrupted) :
      Reads (.error (Frame.broken (received ms) e)) (ms ++ [.take n (.error e)])

variable {svc src snk} {s t : Serving ι ω η}

theorem exists_judged {bs : Bytes} (h : Stretch Move.Opens ms []) (hw : Wanted Frame.Short ms)
    (hbs : received ms = bs) (hsteps : Steps (Moves svc src snk) s ms t) :
    ∃ ns, Reads (Frame.judge bs) ns ∧ Steps (Moves svc src snk) s ns t := by
  subst hbs
  exact ⟨_, .judged h hw, hsteps.snoc (.judge _ t)⟩

/-- What comes of reading `n` bytes in the middle of a frame: `held` and then these, or the
end of the frame. -/
inductive Inside (svc : Service η) (src : Source ι) (snk : Sink ω) (s : Serving ι ω η)
    (held : Bytes) (n : Nat) : Except CodecError Bytes × ι → Prop where
  | whole {bs : Bytes} {i : ι} {ms : List Move} (hn : bs.length = n)
      (hms : Stretch Move.Opens ms []) (hw : Wanted Frame.Short ms) (hr : received ms = held ++ bs)
      (hsteps : Steps (Moves svc src snk) s ms { s with input := i }) :
      Inside svc src snk s held n (.ok bs, i)
  | broken {e : CodecError} {i : ι} {ms : List Move} (hreads : Reads (.error e) ms)
      (hsteps : Steps (Moves svc src snk) s ms { s with input := i }) :
      Inside svc src snk s held n (.error e, i)

theorem inside_readInside {held : Bytes} {i : ι} (n : Nat) (hne : held ≠ [])
    (hshort : ∀ bs, bs.length < n → Frame.judge (held ++ bs) = .error .truncated)
    (hms : Stretch Move.Opens ms []) (hw : Wanted Frame.Short ms) (hr : received ms = held)
    (hsteps : Steps (Moves svc src snk) s ms { s with input := i }) :
    Inside svc src snk s held n (Frame.readInside src n i) := by
  subst hr
  obtain ⟨ns, last, hg, hwanted, hmore⟩ := steps_readExact svc src snk n { s with input := i }
  replace hmore := hsteps.trans hmore
  have hall := hw.append (hwanted.mono fun bs hbs => Or.inr (hshort bs hbs))
  rw [← List.append_assoc] at hmore hall
  have hheld : received (ms ++ ns) ≠ [] := by
    rw [received_append]
    exact List.append_ne_nil_of_left_ne_nil hne _
  rw [Frame.readInside]
  rcases hq : src.readExact n i with ⟨r, j⟩
  rw [hq] at hg hmore
  dsimp only at hg hmore
  cases hg with
  | all hns hn =>
    rw [List.append_nil] at hmore hall
    exact .whole hn (hms.append hns) hall (received_append ms ns) hmore
  | short hns hn =>
    have hreads := Reads.ended (hms.append hns) hall
    rw [if_neg hheld] at hreads
    exact .broken hreads hmore
  | failed hns hk =>
    have hreads := Reads.failed (hms.append hns) hall hk
    have hbroken (e : Fault) : Frame.broken (received (ms ++ ns)) e
        = if e.kind = .unexpectedEof then .truncated else .fault e := by
      simp only [Frame.broken, ne_eq, hheld, not_false_eq_true, true_and]
    rw [hbroken] at hreads
    exact .broken hreads hmore

theorem steps_readCall (svc : Service η) (src : Source ι) (snk : Sink ω) (s : Serving ι ω η) :
    ∃ ms, Reads (Frame.readCall src s.input).1 ms ∧
      Steps (Moves svc src snk) s ms { s with input := (Frame.readCall src s.input).2 } := by
  rw [Frame.readCall, Frame.readWith, Frame.readBody]
  rcases hr : src.readSome 1 s.input with ⟨e | _ | ⟨v, vs⟩, i⟩
  · obtain ⟨ms, h, hwanted, hnone, hk, hsteps⟩ := exists_takes svc src snk hr
    have hreads := Reads.failed h (hwanted _ (Or.inl rfl)) (hk e rfl)
    rw [hnone] at hreads
    exact ⟨_, hreads, hsteps⟩
  · obtain ⟨ms, h, hwanted, hnone, -, hsteps⟩ := exists_takes svc src snk hr
    have hreads := Reads.ended h (hwanted _ (Or.inl rfl))
    rw [if_pos hnone] at hreads
    exact ⟨_, hreads, hsteps⟩
  · have hle := src.length_readSome_le hr
    obtain rfl : vs = [] := List.eq_nil_of_length_eq_zero (by
      rw [List.length_cons] at hle
      omega)
    obtain ⟨ms, h, hwanted, hnone, -, hsteps⟩ := exists_takes svc src snk hr
    have hms := h.settle fun _ => rfl
    have hfirst := hwanted Frame.Short (Or.inl rfl)
    have hcame : received (ms ++ [.take 1 (.ok [v])]) = [v] := by
      rw [received_append, hnone]
      rfl
    dsimp only
    by_cases hv : v ≠ Frame.version
    · have hjudged := exists_judged hms hfirst hcame hsteps
      rw [Frame.judge_other hv] at hjudged
      rw [if_pos hv]
      exact hjudged
    · rw [if_neg hv]
      obtain rfl := Decidable.not_not.mp hv
      have hsize := inside_readInside 4 (List.cons_ne_nil _ _) (fun _ => Frame.judge_short)
        hms hfirst hcame hsteps
      rcases hq : Frame.readInside src 4 i with ⟨r, j⟩
      rw [hq] at hsize
      cases hsize with
      | broken hreads hsteps => exact ⟨_, hreads, hsteps⟩
      | @whole size _ ns h4 hns hsecond hcame hsteps =>
        rw [List.singleton_append] at hcame
        dsimp only
        by_cases hlarge : Frame.maxBody < Bytes.readLE size
        · have hjudged := exists_judged hns hsecond hcame hsteps
          rw [← List.append_nil size, Frame.judge_sized h4, if_pos hlarge] at hjudged
          rw [if_pos hlarge]
          exact hjudged
        · have hshort (bs : Bytes) (hbs : bs.length < Bytes.readLE size) :
              Frame.judge (Frame.version :: size ++ bs) = .error .truncated := by
            rw [List.cons_append, Frame.judge_sized h4, if_neg hlarge, if_pos (Nat.ne_of_lt hbs)]
          rw [if_neg hlarge]
          have hbody := inside_readInside _ (List.cons_ne_nil _ _) hshort hns hsecond hcame hsteps
          rcases hp : Frame.readInside src (Bytes.readLE size) j with ⟨r, k⟩
          rw [hp] at hbody
          cases hbody with
          | broken hreads hsteps => exact ⟨_, hreads, hsteps⟩
          | whole hlen hqs hthird hcame hsteps =>
            have hjudged := exists_judged hqs hthird hcame hsteps
            rw [List.cons_append, Frame.judge_sized h4, if_neg hlarge,
              if_neg (Decidable.not_not.mpr hlen)] at hjudged
            exact hjudged

/-! ## Sending a reply -/

/-- What comes of writing `bs`, and the moves that it takes: those that go well, and one that
fails, if there is one. -/
inductive Writes (bs : Bytes) : Except Fault Unit → List Move → List Move → Prop where
  | all {ms : List Move} (h : Stretch Move.Closes ms []) (ha : accepted ms = bs) :
      Writes bs (.ok ()) ms []
  | failed {ms : List Move} {m : Move} {e : Fault} (h : Stretch Move.Closes ms [m])
      (ha : accepted (ms ++ [m]) <+: bs)
      (hm : ∀ held, m.failure held = some (.codec (.fault e))) : Writes bs (.error e) ms [m]

theorem Writes.after {bs cs : Bytes} {r : Except Fault Unit} (h : Stretch Move.Closes ms [])
    (ha : accepted ms ++ cs = bs) (hw : Writes cs r ns last) : Writes bs r (ms ++ ns) last := by
  cases hw with
  | all h' hcs =>
    refine .all (h.append h') ?_
    rw [accepted_append, hcs, ha]
  | failed h' hcs hm =>
    refine .failed (h.append h') ?_ hm
    rw [List.append_assoc, accepted_append, ← ha]
    exact (List.prefix_append_right_inj _).mpr hcs

theorem steps_writeAll (svc : Service η) (src : Source ι) (snk : Sink ω) (bs : Bytes)
    (s : Serving ι ω η) : ∃ ms last, Writes bs (snk.writeAll bs s.output).1 ms last ∧
      Steps (Moves svc src snk) s (ms ++ last)
        { s with output := (snk.writeAll bs s.output).2 } := by
  generalize ho : s.output = o
  fun_induction Sink.writeAll snk bs o generalizing s with
  | case1 o =>
    subst ho
    exact ⟨[], [], .all (.nil _) rfl, .refl⟩
  | case2 bs o hb e p hw =>
    obtain ⟨ms, h, hnone, hk, hsteps⟩ := exists_offers svc src snk (ho ▸ hw)
    refine ⟨ms, _, .failed h ?_ fun _ => if_neg (hk e rfl), hsteps⟩
    rw [accepted_append, hnone]
    exact List.nil_prefix
  | case3 bs o hb p hw =>
    obtain ⟨ms, h, hnone, -, hsteps⟩ := exists_offers svc src snk (ho ▸ hw)
    refine ⟨ms, _, .failed h ?_ fun _ => rfl, hsteps⟩
    rw [accepted_append, hnone]
    exact List.nil_prefix
  | case4 bs o hb n p hw _ ih =>
    obtain ⟨ms, h, hnone, -, hsteps⟩ := exists_offers svc src snk (ho ▸ hw)
    obtain ⟨ns, last, hrest, hsteps'⟩ := ih { s with output := p } rfl
    have ha : accepted (ms ++ [.offer bs (.ok (n + 1))]) ++ bs.drop (n + 1) = bs := by
      rw [accepted_append, hnone, List.nil_append]
      show bs.take (n + 1) ++ [] ++ _ = _
      rw [List.append_nil, List.take_append_drop]
    exact ⟨_, last, hrest.after (h.settle fun _ => rfl) ha,
      List.append_assoc _ ns last ▸ hsteps.trans hsteps'⟩

/-- What comes of sending a reply, and the moves that it takes: those that go well, and one
that fails, if there is one.  A reply that is too large fails before any move. -/
inductive Sends (r : ReturnFrame) : Except SessionError Unit → List Move → List Move → Prop where
  | sent {ms : List Move} (hsize : (Body.writeReturn r).length ≤ Frame.maxBody)
      (h : Stretch Move.Closes ms []) (ha : accepted ms = Frame.returnWire r) :
      Sends r (.ok ()) (ms ++ [.flush (.ok ())]) []
  | failed {ms : List Move} {m : Move} {e : SessionError}
      (hsize : (Body.writeReturn r).length ≤ Frame.maxBody) (h : Stretch Move.Closes ms [m])
      (ha : accepted (ms ++ [m]) <+: Frame.returnWire r) (hm : ∀ held, m.failure held = some e) :
      Sends r (.error e) ms [m]
  | tooLarge (hsize : Frame.maxBody < (Body.writeReturn r).length) :
      Sends r (.error (.codec (.frameTooLarge (Body.writeReturn r).length))) [] []

theorem steps_reply (svc : Service η) (src : Source ι) (snk : Sink ω) (r : ReturnFrame)
    (s : Serving ι ω η) : ∃ ms last, Sends r (s.reply snk r).1 ms last ∧
      Steps (Moves svc src snk) s (ms ++ last) (s.reply snk r).2 := by
  rw [reply, Frame.writeReturn, Frame.writeBody]
  by_cases hsize : Frame.maxBody < (Body.writeReturn r).length
  · rw [if_pos hsize]
    exact ⟨[], [], .tooLarge hsize, .refl⟩
  · rw [if_neg hsize]
    have hle := Nat.le_of_not_lt hsize
    obtain ⟨ms, last, hhead, hsteps⟩ := steps_writeAll svc src snk
      (Frame.header (Body.writeReturn r).length) s
    rcases hw : snk.writeAll (Frame.header (Body.writeReturn r).length) s.output with ⟨q, o⟩
    rw [hw] at hhead hsteps
    cases hhead with
    | failed h ha hm =>
      exact ⟨ms, _, .failed hle h (ha.trans (List.prefix_append _ _)) hm, hsteps⟩
    | all h ha =>
      obtain ⟨ns, last, hbody, hmore⟩ := steps_writeAll svc src snk (Body.writeReturn r)
        { s with output := o }
      have hwire : accepted ms ++ Body.writeReturn r = Frame.returnWire r := by
        rw [ha]
        rfl
      have hboth := hbody.after h hwire
      rw [List.append_nil] at hsteps
      replace hmore := hsteps.trans hmore
      rw [← List.append_assoc] at hmore
      dsimp only at hboth hmore ⊢
      rcases hv : snk.writeAll (Body.writeReturn r) o with ⟨q, p⟩
      rw [hv] at hboth hmore
      cases hboth with
      | failed h ha hm => exact ⟨_, _, .failed hle h ha hm, hmore⟩
      | all h ha =>
        rw [List.append_nil] at hmore
        replace hmore := hmore.snoc (.flush _)
        dsimp only at hmore ⊢
        rcases hf : snk.flush p with ⟨e | ⟨⟩, q⟩
        · rw [hf] at hmore
          have hall : accepted (ms ++ ns ++ [.flush (.error e)]) = Frame.returnWire r := by
            rw [accepted_append, ha]
            exact List.append_nil _
          have hfail : Stretch Move.Closes (ms ++ ns) [.flush (.error e)] := h.snoc trivial trivial
          exact ⟨_, _, .failed hle hfail (hall ▸ List.prefix_rfl) fun _ => rfl, hmore⟩
        · rw [hf] at hmore
          refine ⟨_, [], .sent hle h ha, ?_⟩
          rw [List.append_nil]
          exact hmore

/-! ## Acts and moves -/

inductive Spells : Act → List Move → Prop where
  | look (shown : Bool) : Spells (.look shown) [.look shown]
  | read {came : Except CodecError (Option CallFrame)} {ms : List Move} (h : Reads came ms) :
      Spells (.read came) ms
  | process (c : CallFrame) (made : ReturnFrame) : Spells (.process c made) [.process c made]
  | reply {r : ReturnFrame} {sent : Except SessionError Unit} {ms last : List Move}
      (h : Sends r sent ms last) : Spells (.reply r sent) (ms ++ last)

inductive Spelled : List Act → List Move → Prop where
  | nil : Spelled [] []
  | cons {a : Act} {as : List Act} {ms ns : List Move} (h : Spells a ms) (hs : Spelled as ns) :
      Spelled (a :: as) (ms ++ ns)

theorem Spelled.append {as bs : List Act} (h : Spelled as ms) (h' : Spelled bs ns) :
    Spelled (as ++ bs) (ms ++ ns) := by
  induction h with
  | nil => exact h'
  | cons ha _ ih =>
    rw [List.append_assoc]
    exact .cons ha ih

theorem Spelled.of_append {as bs : List Act} (h : Spelled (as ++ bs) ms) :
    ∃ ns qs, ms = ns ++ qs ∧ Spelled as ns ∧ Spelled bs qs := by
  induction as generalizing ms with
  | nil => exact ⟨[], ms, rfl, .nil, h⟩
  | cons a as ih =>
    cases h with
    | @cons _ _ ms _ ha hs =>
      obtain ⟨ns, qs, rfl, hns, hqs⟩ := ih hs
      exact ⟨ms ++ ns, qs, (List.append_assoc ..).symm, .cons ha hns, hqs⟩

theorem Does.spelled {a : Act} (h : Does svc src snk s a t) :
    ∃ ms, Spells a ms ∧ Steps (Moves svc src snk) s ms t := by
  cases h with
  | look => exact ⟨_, .look _, .single (.look s)⟩
  | read =>
    obtain ⟨ms, hreads, hsteps⟩ := steps_readCall svc src snk s
    exact ⟨ms, .read hreads, hsteps⟩
  | process c => exact ⟨_, .process c _, .single (.process c s)⟩
  | reply r =>
    obtain ⟨ms, last, hsends, hsteps⟩ := steps_reply svc src snk r s
    exact ⟨_, .reply hsends, hsteps⟩

theorem spelled_of_steps {as : List Act} (h : Steps (Does svc src snk) s as t) :
    ∃ ms, Spelled as ms ∧ Steps (Moves svc src snk) s ms t := by
  induction h with
  | refl => exact ⟨[], .nil, .refl⟩
  | snoc _ ha ih =>
    obtain ⟨ms, hms, hsteps⟩ := ih
    obtain ⟨ns, hns, hmore⟩ := ha.spelled
    refine ⟨ms ++ (ns ++ []), hms.append (.cons hns .nil), ?_⟩
    rw [List.append_nil]
    exact hsteps.trans hmore

/-- A session move by move, by induction on its rounds. -/
theorem exists_played (svc : Service η) (src : Source ι) (snk : Sink ω) (s : Serving ι ω η) :
    ∃ trips coda ms, Course s.served trips coda (s.run svc src snk).1 ∧
      Spelled (told s.served trips coda) ms ∧
      Played svc src snk s ms (s.run svc src snk).1 (s.run svc src snk).2 := by
  fun_induction run svc src snk s with
  | case1 s r t hs =>
    have hround := led_round svc src snk s
    rw [hs] at hround
    cases hround with
    | stop hcourse hsteps =>
      obtain ⟨ms, hms, hmoves⟩ := spelled_of_steps hsteps
      exact ⟨_, _, ms, hcourse, hms, .stop hs hmoves⟩
  | case2 s t hs _ ih =>
    have hround := led_round svc src snk s
    rw [hs] at hround
    cases hround with
    | @next x _ hx hk hserved hsteps =>
      obtain ⟨ms, hms, hmoves⟩ := spelled_of_steps hsteps
      obtain ⟨trips, coda, ns, hcourse, hns, hplayed⟩ := ih
      rw [hserved] at hcourse hns
      exact ⟨x :: trips, coda, ms ++ ns, .next hx hk hcourse, hms.append hns,
        .next hs hmoves hplayed⟩

end Serving
end RemoteCall
