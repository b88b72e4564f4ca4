import RemoteCall.Stream.Source
import RemoteCall.Stream.Script

/-!
Sources that deliver a byte string.

`Source.Delivers src s bs` says that from the state `s` on the source brings exactly
`bs` and then its end: in chunks of any size, with interruptions anywhere between them,
and with no other fault.  How the bytes are cut is open, so what is proved of such a
source holds for every way they can arrive.  `readSome` and `readExact` are described
once, in terms of the bytes alone.
-/

namespace RemoteCall
namespace Source

variable {σ : Type}

/-- A relation between states and the bytes still to come that every read of some bytes
obeys.  A read is interrupted, or it brings some of them; it brings none only if none
are left. -/
structure Delivery (src : Source σ) (holds : σ → Bytes → Prop) : Prop where
  read : ∀ {n s bs}, 0 < n → holds s bs →
    (∃ e t, src.read n s = (.error e, t) ∧ e.kind = .interrupted ∧ holds t bs) ∨
    (∃ chunk rest t, src.read n s = (.ok chunk, t) ∧ bs = chunk ++ rest ∧
      (chunk = [] → rest = []) ∧ holds t rest)

/-- From `s` on, the source brings `bs` and then its end. -/
def Delivers (src : Source σ) (s : σ) (bs : Bytes) : Prop :=
  ∃ holds, src.Delivery holds ∧ holds s bs

/-- An interruption is waited out; what is read is what comes next. -/
theorem readSome_delivers {src : Source σ} {n : Nat} {s : σ} {bs : Bytes} (hn : 0 < n)
    (h : src.Delivers s bs) :
    ∃ chunk rest t, src.readSome n s = (.ok chunk, t) ∧ bs = chunk ++ rest ∧
      (chunk = [] → rest = []) ∧ src.Delivers t rest := by
  obtain ⟨holds, hd, hs⟩ := h
  fun_induction readSome src n s with
  | case1 s chunk' t' hr =>
    rcases hd.read hn hs with ⟨e, t, hr', -, -⟩ | ⟨chunk, rest, t, hr', hbs, hnil, ht⟩
    · rw [hr] at hr'
      simp at hr'
    · rw [hr] at hr'
      simp only [Prod.mk.injEq, Except.ok.injEq] at hr'
      obtain ⟨rfl, rfl⟩ := hr'
      exact ⟨chunk', rest, t', rfl, hbs, hnil, holds, hd, ht⟩
  | case2 s e t' hr hk _ ih =>
    rcases hd.read hn hs with ⟨e', t, hr', -, ht⟩ | ⟨chunk, rest, t, hr', -⟩
    · rw [hr] at hr'
      simp only [Prod.mk.injEq, Except.error.injEq] at hr'
      obtain ⟨-, rfl⟩ := hr'
      exact ih ht
    · rw [hr] at hr'
      simp at hr'
  | case3 s e t' hr hk =>
    rcases hd.read hn hs with ⟨e', t, hr', hk', -⟩ | ⟨chunk, rest, t, hr', -⟩
    · rw [hr] at hr'
      simp only [Prod.mk.injEq, Except.error.injEq] at hr'
      exact absurd (hr'.1 ▸ hk') hk
    · rw [hr] at hr'
      simp at hr'

theorem readSome_one {src : Source σ} {s : σ} {b : UInt8} {bs : Bytes}
    (h : src.Delivers s (b :: bs)) :
    ∃ t, src.readSome 1 s = (.ok [b], t) ∧ src.Delivers t bs := by
  obtain ⟨chunk, rest, t, hr, hbs, hnil, ht⟩ := readSome_delivers Nat.one_pos h
  have hlen := src.length_readSome_le hr
  match chunk, hlen with
  | [], _ =>
    rw [hnil rfl] at hbs
    exact absurd hbs (List.cons_ne_nil b bs)
  | [c], _ =>
    simp only [List.singleton_append, List.cons.injEq] at hbs
    obtain ⟨rfl, rfl⟩ := hbs
    exact ⟨t, hr, ht⟩

theorem readSome_end {src : Source σ} {n : Nat} {s : σ} (hn : 0 < n) (h : src.Delivers s []) :
    ∃ t, src.readSome n s = (.ok [], t) ∧ src.Delivers t [] := by
  obtain ⟨chunk, rest, t, hr, hbs, -, ht⟩ := readSome_delivers hn h
  obtain ⟨rfl, rfl⟩ := List.append_eq_nil_iff.mp hbs.symm
  exact ⟨t, hr, ht⟩

theorem readExact_delivers {src : Source σ} {s : σ} {bs rest : Bytes}
    (h : src.Delivers s (bs ++ rest)) :
    ∃ t, src.readExact bs.length s = (.ok bs, t) ∧ src.Delivers t rest := by
  generalize hn : bs.length = n
  induction n using Nat.strongRecOn generalizing s bs with
  | ind n ih =>
    rw [readExact]
    by_cases h0 : n = 0
    · rw [if_pos h0]
      obtain rfl : bs = [] := List.length_eq_zero_iff.mp (by omega)
      exact ⟨s, rfl, h⟩
    · rw [if_neg h0]
      obtain ⟨chunk, more, t, hr, hbs, hnil, ht⟩ := readSome_delivers (by omega : 0 < n) h
      have hle := src.length_readSome_le hr
      rw [hr]
      match chunk with
      | [] =>
        rw [hnil rfl] at hbs
        have := (List.append_eq_nil_iff.mp hbs).1
        rw [this] at hn
        exact absurd hn.symm h0
      | c :: cs =>
        -- What came is a prefix of what was asked for; the rest is asked for next.
        obtain ⟨bs', rfl, rfl⟩ : ∃ bs', bs = (c :: cs) ++ bs' ∧ more = bs' ++ rest := by
          refine ⟨bs.drop (c :: cs).length, ?_, ?_⟩
          · have htake := congrArg (List.take (c :: cs).length) hbs
            rw [List.take_append_of_le_length (by omega), List.take_left] at htake
            rw [← htake, List.length_take, Nat.min_eq_left (by omega)]
            exact (List.take_append_drop _ _).symm
          · have hdrop := congrArg (List.drop (c :: cs).length) hbs
            rw [List.drop_append_of_le_length (by omega), List.drop_left] at hdrop
            exact hdrop.symm
        rw [List.length_append, List.length_cons] at hn
        obtain ⟨u, hu, hrest⟩ := ih (n - (cs.length + 1)) (by omega) ht (by omega)
        exact ⟨u, by simp only [hu], hrest⟩

/-- If fewer bytes are to come than were asked for, all of them are used up in vain. -/
theorem readExact_short {src : Source σ} {n : Nat} {s : σ} {bs : Bytes}
    (h : src.Delivers s bs) (hlt : bs.length < n) :
    ∃ t, src.readExact n s = (.error .endedEarly, t) ∧ src.Delivers t [] := by
  induction n using Nat.strongRecOn generalizing s bs with
  | ind n ih =>
    rw [readExact, if_neg (by omega)]
    obtain ⟨chunk, rest, t, hr, rfl, hnil, ht⟩ := readSome_delivers (by omega : 0 < n) h
    rw [hr]
    match chunk with
    | [] =>
      rw [hnil rfl] at ht
      exact ⟨t, rfl, ht⟩
    | c :: cs =>
      rw [List.length_append, List.length_cons] at hlt
      obtain ⟨u, hu, hrest⟩ := ih (n - (cs.length + 1)) (by omega) ht (by omega)
      exact ⟨u, by simp only [hu], hrest⟩

/-! ## Sources that keep a log -/

def traced (src : Source σ) : Source (σ × List (Except Fault Bytes)) where
  read n s := ((src.read n s.1).1, (src.read n s.1).2, s.2 ++ [(src.read n s.1).1])
  supply s := src.supply s.1
  length_le {n s bs t} h := by
    obtain ⟨hanswer, -⟩ := Prod.mk.inj h
    exact src.length_le (Prod.ext hanswer rfl)
  supply_read {n s bs t} h := by
    obtain ⟨hanswer, rfl⟩ := Prod.mk.inj h
    exact src.supply_read (Prod.ext hanswer rfl)
  supply_interrupted {n s e t} h hk := by
    obtain ⟨hanswer, rfl⟩ := Prod.mk.inj h
    exact src.supply_interrupted (Prod.ext hanswer rfl) hk

def brought (answers : List (Except Fault Bytes)) : Bytes :=
  answers.flatMap fun
    | .ok bs => bs
    | .error _ => []

@[simp] theorem brought_nil : brought [] = [] := rfl

@[simp] theorem brought_append (answers more : List (Except Fault Bytes)) :
    brought (answers ++ more) = brought answers ++ brought more := List.flatMap_append

theorem brought_read {waits : List (Except Fault Bytes)} (h : brought waits = []) (bs : Bytes) :
    brought (waits ++ [.ok bs]) = bs := by
  rw [brought_append, h]
  exact List.append_nil bs

theorem traced_delivers {src : Source σ} {s : σ × List (Except Fault Bytes)} {bs : Bytes} :
    src.traced.Delivers s bs ↔ src.Delivers s.1 bs := by
  constructor
  · rintro ⟨holds, hd, hs⟩
    refine ⟨fun t bs => ∃ log, holds (t, log) bs, ⟨?_⟩, s.2, hs⟩
    rintro n t bs hn ⟨log, ht⟩
    rcases hd.read hn ht with ⟨e, u, hr, hk, hu⟩ | ⟨chunk, rest, u, hr, hbs, hnil, hu⟩
    · obtain ⟨hanswer, rfl⟩ := Prod.mk.inj hr
      exact .inl ⟨e, _, Prod.ext hanswer rfl, hk, _, hu⟩
    · obtain ⟨hanswer, rfl⟩ := Prod.mk.inj hr
      exact .inr ⟨chunk, rest, _, Prod.ext hanswer rfl, hbs, hnil, _, hu⟩
  · rintro ⟨holds, hd, hs⟩
    refine ⟨fun t bs => holds t.1 bs, ⟨?_⟩, hs⟩
    intro n t bs hn ht
    rcases hd.read hn ht with ⟨e, u, hr, hk, hu⟩ | ⟨chunk, rest, u, hr, hbs, hnil, hu⟩
    · refine .inl ⟨e, (u, t.2 ++ [.error e]), ?_, hk, hu⟩
      show (_, _, _) = _
      rw [hr]
    · refine .inr ⟨chunk, rest, (u, t.2 ++ [.ok chunk]), ?_, hbs, hnil, hu⟩
      show (_, _, _) = _
      rw [hr]

/-- The last answer is the one that is handed on; the ones before it brought nothing. -/
theorem traced_readSome {src : Source σ} {n : Nat} {s t : σ × List (Except Fault Bytes)}
    {bs : Bytes} (h : src.traced.readSome n s = (.ok bs, t)) :
    ∃ waits, t.2 = s.2 ++ (waits ++ [.ok bs]) ∧ brought waits = [] := by
  fun_induction readSome src.traced n s with
  | case1 s bs' t' hr =>
    obtain ⟨hbs, rfl⟩ := Prod.mk.inj h
    obtain ⟨hanswer, rfl⟩ := Prod.mk.inj hr
    exact ⟨[], by rw [hanswer, Except.ok.inj hbs]; rfl, rfl⟩
  | case2 s e t' hr _ _ ih =>
    obtain ⟨hanswer, rfl⟩ := Prod.mk.inj hr
    obtain ⟨waits, hlog, hwaits⟩ := ih h
    refine ⟨.error e :: waits, ?_, hwaits⟩
    rw [hlog, ← hanswer]
    exact List.append_assoc ..
  | case3 => cases h

end Source

namespace Script

/-- Arrivals that bring their bytes and nothing else: no empty chunk, which would be an
end, and no fault but interruptions. -/
def Clean (as : List Arrival) : Prop :=
  ∀ a ∈ as, match a with
    | .chunk bs => bs ≠ []
    | .fault e => e.kind = .interrupted

theorem source_delivery : source.Delivery fun as bs => Clean as ∧ bytes as = bs where
  read {n as bs} hn h := by
    obtain ⟨hc, rfl⟩ := h
    match as with
    | [] => exact Or.inr ⟨[], [], [], rfl, rfl, fun _ => rfl, hc, rfl⟩
    | .fault e :: rest =>
      exact Or.inl ⟨e, rest, rfl, hc (.fault e) List.mem_cons_self,
        fun a ha => hc a (List.mem_cons_of_mem _ ha), rfl⟩
    | .chunk cs :: rest =>
      have hcs : cs ≠ [] := hc (.chunk cs) List.mem_cons_self
      have hrest : Clean rest := fun a ha => hc a (List.mem_cons_of_mem _ ha)
      have hne : cs.take n ≠ [] := by
        intro e
        rcases List.take_eq_nil_iff.mp e with e | e
        · omega
        · exact hcs e
      refine Or.inr ⟨cs.take n, cs.drop n ++ bytes rest, _, read_chunk n cs rest, ?_,
        fun e => absurd e hne, ?_⟩
      · rw [← List.append_assoc, List.take_append_drop]
        rfl
      · by_cases hd : cs.drop n = []
        · rw [if_pos hd, hd]
          exact ⟨hrest, rfl⟩
        · rw [if_neg hd]
          refine ⟨fun a ha => ?_, rfl⟩
          rcases List.mem_cons.mp ha with rfl | ha
          · exact hd
          · exact hrest a ha

theorem source_delivers {as : List Arrival} (h : Clean as) : source.Delivers as (bytes as) :=
  ⟨_, source_delivery, h, rfl⟩

theorem source_delivers_chunk {bs : Bytes} (h : 0 < bs.length) :
    source.Delivers [.chunk bs] bs := by
  have hc : Clean [.chunk bs] := by
    intro a ha
    rw [List.mem_singleton.mp ha]
    exact List.length_pos_iff.mp h
  have := source_delivers hc
  rwa [bytes, bytes, List.append_nil] at this

theorem exists_source_delivers (bs : Bytes) : ∃ as, source.Delivers as bs := by
  by_cases h : bs = []
  · subst h
    exact ⟨[], source_delivers fun a ha => absurd ha List.not_mem_nil⟩
  · exact ⟨_, source_delivers_chunk (List.length_pos_iff.mpr h)⟩

end Script
end RemoteCall
