import RemoteCall.Proofs.Session.Stopping

/-!
The moves of a session.

To follow a session through a failure, its acts are taken apart.  A call is read by taking
bytes from the source time and again, and by judging what has been taken; a reply is sent
by offering bytes to the sink time and again, and by flushing it.  `Serving.Moves` says
what one move does.  `Serving.Played` puts the moves together round by round, so that none
of them is made at another time than the session makes it.

Moves that go well, and then one that fails, at most: that is a `Stretch`, and each of the
loops that read and write is one.  Those that read take bytes only while there are too few
(`Wanted`).
-/

namespace RemoteCall

/-! ## What has come of a frame -/

namespace Frame

/-- What is made of the bytes that have come of a frame, when no more of them are read. -/
def judge : Bytes → Except CodecError (Option CallFrame)
  | [] => .ok none
  | v :: bs =>
    if v ≠ version then .error (.unsupportedVersion v)
    else if bs.length < 4 then .error .truncated
    else if maxBody < Bytes.readLE (bs.take 4) then
      .error (.frameTooLarge (Bytes.readLE (bs.take 4)))
    else if (bs.drop 4).length ≠ Bytes.readLE (bs.take 4) then .error .truncated
    else some <$> decodeCall (bs.drop 4)

/-- More of a frame is to come: none of it has, or less than what it announces. -/
def Short (bs : Bytes) : Prop := bs = [] ∨ judge bs = .error .truncated

/-- How a frame ends of which `held` has come when a read fails.  In the middle of a frame
an unexpected end is an end. -/
def broken (held : Bytes) (e : Fault) : CodecError :=
  if held ≠ [] ∧ e.kind = .unexpectedEof then .truncated else .fault e

theorem judge_other {v : UInt8} (hv : v ≠ version) (bs : Bytes) :
    judge (v :: bs) = .error (.unsupportedVersion v) := by
  rw [judge, if_pos hv]

theorem judge_short {bs : Bytes} (h : bs.length < 4) :
    judge (version :: bs) = .error .truncated := by
  rw [judge, if_neg (by simp), if_pos h]

theorem judge_sized {size part : Bytes} (h : size.length = 4) :
    judge (version :: (size ++ part)) =
      if maxBody < Bytes.readLE size then .error (.frameTooLarge (Bytes.readLE size))
      else if part.length ≠ Bytes.readLE size then .error .truncated
      else some <$> decodeCall part := by
  have hlen : ¬ (size ++ part).length < 4 := by
    rw [List.length_append]
    omega
  rw [judge, if_neg (by simp), if_neg hlen, List.take_left' h, List.drop_left' h]

theorem framed_of_judge {bs : Bytes} {c : CallFrame} (h : judge bs = .ok (some c)) :
    ∃ body, bs = framed body ∧ body.length ≤ maxBody ∧ decodeCall body = .ok c := by
  rcases bs with _ | ⟨v, bs⟩
  · cases h
  · have hv : v = version := by
      refine Decidable.byContradiction fun hv => ?_
      rw [judge_other hv] at h
      cases h
    subst hv
    have hshort : ¬ bs.length < 4 := by
      intro hlt
      rw [judge_short hlt] at h
      cases h
    have h4 : (bs.take 4).length = 4 := by
      rw [List.length_take]
      omega
    rw [← List.take_append_drop 4 bs, judge_sized h4] at h
    have hlarge : ¬ maxBody < Bytes.readLE (bs.take 4) := by
      intro hlt
      rw [if_pos hlt] at h
      cases h
    rw [if_neg hlarge] at h
    have hlen : (bs.drop 4).length = Bytes.readLE (bs.take 4) := by
      refine Decidable.byContradiction fun hne => ?_
      rw [if_pos hne] at h
      cases h
    rw [if_neg (Decidable.not_not.mpr hlen)] at h
    refine ⟨bs.drop 4, ?_, by omega, ?_⟩
    · rw [framed, header, hlen, Bytes.writeLE_readLE h4, List.cons_append, List.take_append_drop]
    · rcases hd : decodeCall (bs.drop 4) with e | d
      · rw [hd] at h
        cases h
      · rw [hd] at h
        cases h
        rfl

end Frame

namespace Serving

variable {ι ω η : Type}

/-! ## Moves -/

/-- What a session does at one time, in the smallest pieces that can fail. -/
inductive Move where
  | look (shown : Bool)
  | take (room : Nat) (came : Except Fault Bytes)
  /-- Makes something of what has come of a frame. -/
  | judge (bs : Bytes) (came : Except CodecError (Option CallFrame))
  | process (c : CallFrame) (made : ReturnFrame)
  | offer (bs : Bytes) (answer : Except Fault Nat)
  | flush (answer : Except Fault Unit)

namespace Move

def received : Move → Bytes
  | .take _ (.ok bs) => bs
  | _ => []

def accepted : Move → Bytes
  | .offer bs (.ok n) => bs.take n
  | _ => []

def dispatched : Move → List (CallFrame × ReturnFrame)
  | .process c made => [(c, made)]
  | _ => []

/-- What has come of a frame after a move.  What was judged is done with. -/
def hold (held : Bytes) : Move → Bytes
  | .judge .. => []
  | m => held ++ m.received

/-- How a move fails when `held` has come of a frame.  An attempt that was interrupted has
not failed, and neither has the end of the stream in front of a frame. -/
def failure (held : Bytes) : Move → Option SessionError
  | .take _ (.error e) =>
    if e.kind = .interrupted then none else some (.codec (Frame.broken held e))
  | .take _ (.ok []) => if held = [] then none else some (.codec .truncated)
  | .judge _ (.error e) => some (.codec e)
  | .offer _ (.error e) => if e.kind = .interrupted then none else some (.codec (.fault e))
  | .offer _ (.ok 0) => some (.codec (.fault .wroteNothing))
  | .flush (.error e) => some (.fault e)
  | _ => none

/-- An attempt that was interrupted is followed by the same attempt. -/
def Retried : Move → List Move → Prop
  | .take n (.error e), rest => e.kind = .interrupted → ∃ came tail, rest = .take n came :: tail
  | .offer bs (.error e), rest =>
    e.kind = .interrupted → ∃ answer tail, rest = .offer bs answer :: tail
  | _, _ => True

/-- The moves that lead up to a call. -/
def Opens : Move → Prop
  | .look _ | .take .. => True
  | _ => False

/-- The moves that follow on a call. -/
def Closes : Move → Prop
  | .look _ | .offer .. | .flush _ => True
  | _ => False

end Move

def received (ms : List Move) : Bytes := ms.flatMap Move.received

def accepted (ms : List Move) : Bytes := ms.flatMap Move.accepted

def dispatched (ms : List Move) : List (CallFrame × ReturnFrame) := ms.flatMap Move.dispatched

/-- What has come of the frame that is being read. -/
def pending (ms : List Move) : Bytes := ms.foldl Move.hold []

/-- One move of a session on a service, a source and a sink. -/
inductive Moves (svc : Service η) (src : Source ι) (snk : Sink ω) :
    Serving ι ω η → Move → Serving ι ω η → Prop where
  | look (s : Serving ι ω η) : Moves svc src snk s (.look (svc.running s.service).1)
      { s with service := (svc.running s.service).2 }
  | take (n : Nat) (s : Serving ι ω η) : Moves svc src snk s (.take n (src.read n s.input).1)
      { s with input := (src.read n s.input).2 }
  | judge (bs : Bytes) (s : Serving ι ω η) : Moves svc src snk s (.judge bs (Frame.judge bs)) s
  | process (c : CallFrame) (s : Serving ι ω η) :
      Moves svc src snk s (.process c (svc.process c s.service).1)
        { s with service := (svc.process c s.service).2, served := s.served + 1 }
  | offer (bs : Bytes) (s : Serving ι ω η) :
      Moves svc src snk s (.offer bs (snk.write bs s.output).1)
        { s with output := (snk.write bs s.output).2 }
  | flush (s : Serving ι ω η) : Moves svc src snk s (.flush (snk.flush s.output).1)
      { s with output := (snk.flush s.output).2 }

/-- A session move by move.  The moves of each round lead from the state in which it starts
to the state in which it leaves the session. -/
inductive Played (svc : Service η) (src : Source ι) (snk : Sink ω) :
    Serving ι ω η → List Move → Except SessionError Nat → Serving ι ω η → Prop where
  | stop {s t : Serving ι ω η} {ms : List Move} {r : Except SessionError Nat}
      (hround : s.round svc src snk = .stop r t) (hsteps : Steps (Moves svc src snk) s ms t) :
      Played svc src snk s ms r t
  | next {s t u : Serving ι ω η} {ms ns : List Move} {r : Except SessionError Nat}
      (hround : s.round svc src snk = .next t) (hsteps : Steps (Moves svc src snk) s ms t)
      (h : Played svc src snk t ns r u) : Played svc src snk s (ms ++ ns) r u

/-! ## Stretches -/

theorem received_append (ms ns : List Move) : received (ms ++ ns) = received ms ++ received ns :=
  List.flatMap_append

theorem accepted_append (ms ns : List Move) : accepted (ms ++ ns) = accepted ms ++ accepted ns :=
  List.flatMap_append

theorem dispatched_append (ms ns : List Move) :
    dispatched (ms ++ ns) = dispatched ms ++ dispatched ns :=
  List.flatMap_append

theorem Move.Retried.append {m : Move} {rest : List Move} (h : m.Retried rest)
    (tail : List Move) : m.Retried (rest ++ tail) := by
  unfold Retried at *
  split
  · next n e =>
    intro hk
    obtain ⟨came, more, rfl⟩ := h hk
    exact ⟨came, more ++ tail, rfl⟩
  · next bs e =>
    intro hk
    obtain ⟨answer, more, rfl⟩ := h hk
    exact ⟨answer, more ++ tail, rfl⟩
  · trivial

/-- Moves of one kind that go well, and those that follow when no more of them do. -/
structure Stretch (kind : Move → Prop) (ms last : List Move) : Prop where
  kind : ∀ m ∈ ms ++ last, kind m
  calm : ∀ m ∈ ms, ∀ held, m.failure held = none
  retried : ∀ front m rest, ms ++ last = front ++ m :: rest → m.Retried rest

theorem split_append {α : Type} {as bs front rest : List α} {a : α}
    (h : as ++ bs = front ++ a :: rest) :
    (∃ more, as = front ++ a :: more ∧ rest = more ++ bs) ∨
      ∃ more, front = as ++ more ∧ bs = more ++ a :: rest := by
  rcases List.append_eq_append_iff.mp h with ⟨more, hfront, hbs⟩ | ⟨more, has, hrest⟩
  · exact Or.inr ⟨more, hfront, hbs⟩
  · rcases more with _ | ⟨b, more⟩
    · exact Or.inr ⟨[], by rw [has, List.append_nil, List.append_nil], hrest.symm⟩
    · obtain ⟨rfl, rfl⟩ := List.cons.inj hrest
      exact Or.inl ⟨more, has, rfl⟩

namespace Stretch

variable {kind : Move → Prop} {ms ns last : List Move} {m : Move}

theorem nil (kind : Move → Prop) : Stretch kind [] [] :=
  ⟨fun _ h => absurd h List.not_mem_nil, fun _ h => absurd h List.not_mem_nil,
    fun front m rest h => absurd h (by simp)⟩

theorem append (h : Stretch kind ms []) (h' : Stretch kind ns last) :
    Stretch kind (ms ++ ns) last where
  kind m hm := by
    rw [List.append_assoc] at hm
    rcases List.mem_append.mp hm with hm | hm
    · exact h.kind m (List.mem_append_left _ hm)
    · exact h'.kind m hm
  calm m hm := (List.mem_append.mp hm).elim (h.calm m) (h'.calm m)
  retried front m rest hs := by
    rw [List.append_assoc] at hs
    rcases split_append hs with ⟨more, rfl, rfl⟩ | ⟨more, -, hs⟩
    · exact (h.retried front m more (List.append_nil _)).append _
    · exact h'.retried more m rest hs

theorem snoc (h : Stretch kind ms []) (hk : kind m) (hr : m.Retried []) :
    Stretch kind ms [m] where
  kind n hn := by
    rcases List.mem_append.mp hn with hn | hn
    · exact h.kind n (List.mem_append_left _ hn)
    · exact List.mem_singleton.mp hn ▸ hk
  calm := h.calm
  retried front n rest hs := by
    rcases split_append hs with ⟨more, rfl, rfl⟩ | ⟨more, -, hs⟩
    · exact (h.retried front n more (List.append_nil _)).append _
    · obtain ⟨-, rfl, rfl⟩ : more = [] ∧ n = m ∧ rest = [] := by
        simpa [List.singleton_eq_append_iff] using hs
      exact hr

theorem settle (h : Stretch kind ms [m]) (hm : ∀ held, m.failure held = none) :
    Stretch kind (ms ++ [m]) [] where
  kind n hn := h.kind n ((List.append_nil (ms ++ [m])) ▸ hn)
  calm n hn := by
    rcases List.mem_append.mp hn with hn | hn
    · exact h.calm n hn
    · exact List.mem_singleton.mp hn ▸ hm
  retried front n rest hs := h.retried front n rest ((List.append_nil (ms ++ [m])).symm.trans hs)

end Stretch

/-- Bytes are taken only where those that have come before are too few. -/
def Wanted (few : Bytes → Prop) (ms : List Move) : Prop :=
  ∀ front n came rest, ms = front ++ .take n came :: rest → few (received front)

namespace Wanted

variable {few few' : Bytes → Prop} {ms ns : List Move}

theorem nil (few : Bytes → Prop) : Wanted few [] :=
  fun front n came rest hs => absurd hs (by simp)

theorem mono (h : Wanted few ms) (hfew : ∀ bs, few bs → few' bs) : Wanted few' ms :=
  fun front n came rest hs => hfew _ (h front n came rest hs)

theorem of_append (h : Wanted few (ms ++ ns)) : Wanted few ms :=
  fun front n came rest hs => h front n came (rest ++ ns) (by rw [hs]; simp)

theorem append (h : Wanted few ms) (h' : Wanted (fun bs => few (received ms ++ bs)) ns) :
    Wanted few (ms ++ ns) := by
  intro front n came rest hs
  rcases split_append hs with ⟨more, hms, -⟩ | ⟨more, rfl, hns⟩
  · exact h front n came more hms
  · rw [received_append]
    exact h' more n came rest hns

end Wanted

/-! ## Attempts -/

def Interrupted {α : Type} (attempt : Except Fault α → Move) (ms : List Move) : Prop :=
  ∀ m ∈ ms, ∃ e, m = attempt (.error e) ∧ e.kind = .interrupted

/-- Moves that are attempted again when they are interrupted. -/
structure Attempt (kind : Move → Prop) {α : Type} (attempt : Except Fault α → Move) : Prop where
  kind : ∀ a, kind (attempt a)
  calm : ∀ e held, e.kind = .interrupted → (attempt (.error e)).failure held = none
  again : ∀ a b rest, (attempt a).Retried (attempt b :: rest)
  last : ∀ a, (∀ e, a = .error e → e.kind ≠ .interrupted) → (attempt a).Retried []

theorem attempt_take (n : Nat) : Attempt Move.Opens (.take n) where
  kind _ := trivial
  calm _ _ hk := if_pos hk
  again a b rest := by
    cases a with
    | error e => exact fun _ => ⟨b, rest, rfl⟩
    | ok bs => trivial
  last a ha := by
    cases a with
    | error e => exact fun hk => absurd hk (ha e rfl)
    | ok bs => trivial

theorem attempt_offer (bs : Bytes) : Attempt Move.Closes (.offer bs) where
  kind _ := trivial
  calm _ _ hk := if_pos hk
  again a b rest := by
    cases a with
    | error e => exact fun _ => ⟨b, rest, rfl⟩
    | ok n => trivial
  last a ha := by
    cases a with
    | error e => exact fun hk => absurd hk (ha e rfl)
    | ok n => trivial

theorem Attempt.stretch {kind : Move → Prop} {α : Type} {attempt : Except Fault α → Move}
    (hf : Attempt kind attempt) {ms : List Move} {a : Except Fault α}
    (hms : Interrupted attempt ms) (ha : ∀ e, a = .error e → e.kind ≠ .interrupted) :
    Stretch kind ms [attempt a] := by
  have hmem : ∀ m ∈ ms ++ [attempt a], ∃ b, m = attempt b := by
    intro m hm
    rcases List.mem_append.mp hm with hm | hm
    · obtain ⟨e, he, -⟩ := hms m hm
      exact ⟨_, he⟩
    · exact ⟨a, List.mem_singleton.mp hm⟩
  refine ⟨?_, ?_, ?_⟩
  · intro m hm
    obtain ⟨b, rfl⟩ := hmem m hm
    exact hf.kind b
  · intro m hm held
    obtain ⟨e, rfl, hk⟩ := hms m hm
    exact hf.calm e held hk
  · intro front m rest hs
    rcases rest with _ | ⟨n, rest⟩
    · obtain ⟨-, hm⟩ := List.append_inj' hs rfl
      rw [← (List.cons.inj hm).1]
      exact hf.last a ha
    · obtain ⟨b, rfl⟩ := hmem m (hs ▸ by simp)
      obtain ⟨c, rfl⟩ := hmem n (hs ▸ by simp)
      exact hf.again b c rest

theorem flatMap_interrupted {α β : Type} {attempt : Except Fault α → Move} {ms : List Move}
    (hms : Interrupted attempt ms) {f : Move → List β} (hf : ∀ e, f (attempt (.error e)) = []) :
    ms.flatMap f = [] := by
  refine List.flatMap_eq_nil_iff.mpr fun m hm => ?_
  obtain ⟨e, rfl, -⟩ := hms m hm
  exact hf e

/-- An interrupted attempt has brought nothing, so the next one is wanted as well. -/
theorem Interrupted.wanted {n : Nat} {ms : List Move} (hms : Interrupted (.take n) ms)
    (came : Except Fault Bytes) {few : Bytes → Prop} (hfew : few []) :
    Wanted few (ms ++ [.take n came]) := by
  intro front k came' rest hs
  have hfront : front ⊆ ms := by
    rcases split_append hs with ⟨more, rfl, -⟩ | ⟨more, rfl, hlast⟩
    · exact List.subset_append_left ..
    · obtain ⟨rfl, -⟩ : more = [] ∧ _ := by
        simpa [List.singleton_eq_append_iff] using hlast
      rw [List.append_nil]
      exact List.Subset.refl ms
  have hnone : received front = [] :=
    flatMap_interrupted (fun m hm => hms m (hfront hm)) fun _ => rfl
  rwa [hnone]

end Serving
end RemoteCall
