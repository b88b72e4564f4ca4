import RemoteCall.Proofs.Stream.Delivery

/-!
Sources by their events.

A reading loop tries again after interruptions and asks for more after a short chunk.
Seen through it, a source is a list of events: the bytes that it brings, the ends that it
reports on the way, which may be momentary, and the faults.  Where the bytes are cut and
where the interruptions fall is not in the list.  `Source.Plays src s evs` says that from
the state `s` on the source plays `evs`, and every reading loop is a function of the
events; so two sources that play the same events cannot be told apart
(`Source.Alike`).  `Source.Delivers` is the case of a list of bytes.
-/

namespace RemoteCall

/-- What a source brings next. -/
inductive Event where
  | byte (b : UInt8)
  /-- An end, for this once. -/
  | pause
  | fault (cause : Fault)

namespace Event

/-- How a read that is not interrupted takes events off a list: a run of bytes, an end or
a fault.  Behind the last event there is an end for ever. -/
inductive Yields : List Event → Except Fault Bytes → List Event → Prop where
  | bytes (b : UInt8) (bs : Bytes) (rest : List Event) :
      Yields ((b :: bs).map byte ++ rest) (.ok (b :: bs)) rest
  | pause (rest : List Event) : Yields (pause :: rest) (.ok []) rest
  | fault (e : Fault) (rest : List Event) (h : e.kind ≠ .interrupted) :
      Yields (fault e :: rest) (.error e) rest
  | ended : Yields [] (.ok []) []

/-- What a read of at most one byte comes to. -/
def first : List Event → Except Fault Bytes × List Event
  | [] => (.ok [], [])
  | byte b :: rest => (.ok [b], rest)
  | pause :: rest => (.ok [], rest)
  | fault e :: rest => (.error e, rest)

/-- What a demand for exactly `n` bytes comes to. -/
def demand : Nat → List Event → Except Fault Bytes × List Event
  | 0, evs => (.ok [], evs)
  | _ + 1, [] => (.error .endedEarly, [])
  | n + 1, byte b :: rest =>
    match demand n rest with
    | (.ok bs, left) => (.ok (b :: bs), left)
    | (.error e, left) => (.error e, left)
  | _ + 1, pause :: rest => (.error .endedEarly, rest)
  | _ + 1, fault e :: rest => (.error e, rest)

theorem demand_bytes {n : Nat} (bs : Bytes) (rest : List Event) (h : bs.length ≤ n) :
    demand n (bs.map byte ++ rest) =
      match demand (n - bs.length) rest with
      | (.ok more, left) => (.ok (bs ++ more), left)
      | (.error e, left) => (.error e, left) := by
  induction bs generalizing n with
  | nil =>
    show demand n rest = match demand n rest with
      | (.ok more, left) => (.ok more, left)
      | (.error e, left) => (.error e, left)
    match demand n rest with
    | (.ok more, left) => rfl
    | (.error e, left) => rfl
  | cons b bs ih =>
    rw [List.length_cons] at h
    obtain ⟨k, rfl⟩ : ∃ k, n = k + 1 := ⟨n - 1, by omega⟩
    rw [List.map_cons, List.cons_append, demand, ih (by omega), List.length_cons,
      Nat.add_sub_add_right]
    match demand (k - bs.length) rest with
    | (.ok more, left) => rfl
    | (.error e, left) => rfl

theorem yields_take {n : Nat} (hn : 0 < n) {bs : Bytes} (hb : bs ≠ []) (rest : List Event) :
    Yields (bs.map byte ++ rest) (.ok (bs.take n)) ((bs.drop n).map byte ++ rest) := by
  have hsplit : bs.map byte ++ rest
      = (bs.take n).map byte ++ ((bs.drop n).map byte ++ rest) := by
    rw [← List.append_assoc, ← List.map_append, List.take_append_drop]
  rw [hsplit]
  match bs, n with
  | b :: bs, n + 1 => exact .bytes b (bs.take n) _

end Event

namespace Source

variable {σ τ : Type}

/-- A relation between states and the events still to come that every read obeys. -/
structure Playing (src : Source σ) (holds : σ → List Event → Prop) : Prop where
  read : ∀ {n s evs}, 0 < n → holds s evs →
    (∃ e t, src.read n s = (.error e, t) ∧ e.kind = .interrupted ∧ holds t evs) ∨
    (∃ answer t rest, src.read n s = (answer, t) ∧ Event.Yields evs answer rest ∧ holds t rest)

/-- From `s` on, the source plays `evs`. -/
def Plays (src : Source σ) (s : σ) (evs : List Event) : Prop :=
  ∃ holds, src.Playing holds ∧ holds s evs

theorem Delivers.plays {src : Source σ} {s : σ} {bs : Bytes} (h : src.Delivers s bs) :
    src.Plays s (bs.map .byte) := by
  obtain ⟨holds, hd, hs⟩ := h
  refine ⟨fun t evs => ∃ cs, evs = cs.map .byte ∧ holds t cs, ⟨?_⟩, bs, rfl, hs⟩
  rintro n s' evs hn ⟨cs, rfl, hcs⟩
  rcases hd.read hn hcs with ⟨e, t, hr, hk, ht⟩ | ⟨chunk, rest, t, hr, rfl, hnil, ht⟩
  · exact Or.inl ⟨e, t, hr, hk, cs, rfl, ht⟩
  · refine Or.inr ⟨.ok chunk, t, rest.map .byte, hr, ?_, rest, rfl, ht⟩
    match chunk with
    | [] =>
      rw [hnil rfl]
      exact .ended
    | c :: chunk =>
      rw [List.map_append]
      exact .bytes c chunk _

/-! ## The reading loops -/

theorem readSome_plays {src : Source σ} {n : Nat} {s : σ} {evs : List Event} (hn : 0 < n)
    (h : src.Plays s evs) :
    ∃ answer t rest, src.readSome n s = (answer, t) ∧ Event.Yields evs answer rest ∧
      src.Plays t rest := by
  obtain ⟨holds, hp, hs⟩ := h
  fun_induction readSome src n s with
  | case1 s chunk t' hr =>
    rcases hp.read hn hs with ⟨e, t, hr', -, -⟩ | ⟨answer, t, rest, hr', hy, ht⟩
    · rw [hr] at hr'
      simp at hr'
    · rw [hr] at hr'
      simp only [Prod.mk.injEq] at hr'
      obtain ⟨rfl, rfl⟩ := hr'
      exact ⟨.ok chunk, t', rest, rfl, hy, holds, hp, ht⟩
  | case2 s e t' hr hk _ ih =>
    rcases hp.read hn hs with ⟨e', t, hr', -, ht⟩ | ⟨answer, t, rest, hr', hy, -⟩
    · rw [hr] at hr'
      simp only [Prod.mk.injEq] at hr'
      obtain ⟨-, rfl⟩ := hr'
      exact ih ht
    · rw [hr] at hr'
      simp only [Prod.mk.injEq] at hr'
      rw [← hr'.1] at hy
      cases hy with
      | fault _ _ hne => exact absurd hk hne
  | case3 s e t' hr hk =>
    rcases hp.read hn hs with ⟨e', t, hr', hk', -⟩ | ⟨answer, t, rest, hr', hy, ht⟩
    · rw [hr] at hr'
      simp only [Prod.mk.injEq, Except.error.injEq] at hr'
      exact absurd (hr'.1 ▸ hk') hk
    · rw [hr] at hr'
      simp only [Prod.mk.injEq] at hr'
      obtain ⟨rfl, rfl⟩ := hr'
      exact ⟨.error e, t', rest, rfl, hy, holds, hp, ht⟩

theorem readSome_one_plays {src : Source σ} {s : σ} {evs : List Event} (h : src.Plays s evs) :
    ∃ t, src.readSome 1 s = ((Event.first evs).1, t) ∧ src.Plays t (Event.first evs).2 := by
  obtain ⟨answer, t, rest, hr, hy, ht⟩ := readSome_plays Nat.one_pos h
  refine ⟨t, ?_⟩
  cases hy with
  | bytes b bs rest =>
    have hlen := src.length_readSome_le hr
    obtain rfl : bs = [] := List.length_eq_zero_iff.mp (by
      rw [List.length_cons] at hlen
      omega)
    exact ⟨hr, ht⟩
  | pause rest => exact ⟨hr, ht⟩
  | fault e rest => exact ⟨hr, ht⟩
  | ended => exact ⟨hr, ht⟩

theorem readExact_plays {src : Source σ} (n : Nat) {s : σ} {evs : List Event}
    (h : src.Plays s evs) :
    ∃ t, src.readExact n s = ((Event.demand n evs).1, t) ∧
      src.Plays t (Event.demand n evs).2 := by
  induction n using Nat.strongRecOn generalizing s evs with
  | ind n ih =>
    rw [readExact]
    cases n with
    | zero => exact ⟨s, by rw [if_pos rfl]; rfl, h⟩
    | succ n =>
      rw [if_neg (by omega)]
      obtain ⟨answer, t, rest, hr, hy, ht⟩ := readSome_plays (Nat.succ_pos n) h
      cases hy with
      | bytes b bs rest =>
        -- The chunk is at most what was asked for; the rest is asked for next.
        have hlen := src.length_readSome_le hr
        obtain ⟨u, hu, hrest⟩ := ih (n + 1 - (bs.length + 1)) (by omega) ht
        rw [hr, Event.demand_bytes (b :: bs) rest hlen, List.length_cons]
        dsimp only
        rw [hu]
        generalize Event.demand (n + 1 - (bs.length + 1)) rest = d at hrest ⊢
        obtain ⟨answer, left⟩ := d
        cases answer with
        | error e => exact ⟨u, rfl, hrest⟩
        | ok more => exact ⟨u, rfl, hrest⟩
      | pause rest => exact ⟨t, by rw [hr]; rfl, ht⟩
      | fault e rest => exact ⟨t, by rw [hr]; rfl, ht⟩
      | ended => exact ⟨t, by rw [hr]; rfl, ht⟩

/-! ## Sources that cannot be told apart -/

def Alike (src : Source σ) (s : σ) (src' : Source τ) (t : τ) : Prop :=
  ∃ evs, src.Plays s evs ∧ src'.Plays t evs

theorem Alike.of_delivers {src : Source σ} {src' : Source τ} {s : σ} {t : τ} {bs : Bytes}
    (h : src.Delivers s bs) (h' : src'.Delivers t bs) : src.Alike s src' t :=
  ⟨_, h.plays, h'.plays⟩

variable {src : Source σ} {src' : Source τ} {s : σ} {t : τ}

theorem Alike.readSome_one (h : src.Alike s src' t) :
    ∃ answer s' t', src.readSome 1 s = (answer, s') ∧ src'.readSome 1 t = (answer, t') ∧
      src.Alike s' src' t' := by
  obtain ⟨evs, hs, ht⟩ := h
  obtain ⟨s', hr, hs'⟩ := readSome_one_plays hs
  obtain ⟨t', hr', ht'⟩ := readSome_one_plays ht
  exact ⟨_, s', t', hr, hr', _, hs', ht'⟩

theorem Alike.readExact (h : src.Alike s src' t) (n : Nat) :
    ∃ answer s' t', src.readExact n s = (answer, s') ∧ src'.readExact n t = (answer, t') ∧
      src.Alike s' src' t' := by
  obtain ⟨evs, hs, ht⟩ := h
  obtain ⟨s', hr, hs'⟩ := readExact_plays n hs
  obtain ⟨t', hr', ht'⟩ := readExact_plays n ht
  exact ⟨_, s', t', hr, hr', _, hs', ht'⟩

end Source

namespace Script

/-- The events of a list of arrivals. -/
def events : List Arrival → List Event
  | [] => []
  | .fault e :: rest => if e.kind = .interrupted then events rest else .fault e :: events rest
  | .chunk [] :: rest => .pause :: events rest
  | .chunk (b :: bs) :: rest => (b :: bs).map .byte ++ events rest

theorem source_plays (as : List Arrival) : source.Plays as (events as) := by
  refine ⟨fun as evs => evs = events as, ⟨?_⟩, rfl⟩
  rintro n as evs hn rfl
  match as with
  | [] => exact Or.inr ⟨.ok [], [], [], rfl, .ended, rfl⟩
  | .fault e :: rest =>
    rw [events]
    by_cases hk : e.kind = .interrupted
    · rw [if_pos hk]
      exact Or.inl ⟨e, rest, rfl, hk, rfl⟩
    · rw [if_neg hk]
      exact Or.inr ⟨.error e, rest, events rest, rfl, .fault e _ hk, rfl⟩
  | .chunk [] :: rest =>
    refine Or.inr ⟨.ok [], rest, events rest, ?_, .pause _, rfl⟩
    show read n (.chunk [] :: rest) = (.ok [], rest)
    rw [read_chunk, List.take_nil, List.drop_nil, if_pos rfl]
  | .chunk (b :: bs) :: rest =>
    refine Or.inr ⟨_, _, _, read_chunk n (b :: bs) rest,
      Event.yields_take hn (List.cons_ne_nil b bs) (events rest), ?_⟩
    match (b :: bs).drop n with
    | [] => rfl
    | c :: cs => rfl

end Script
end RemoteCall
