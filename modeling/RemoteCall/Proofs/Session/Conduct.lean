import RemoteCall.Proofs.Frame.Alike
import RemoteCall.Proofs.Frame.Flags
import RemoteCall.Proofs.Session.Agreement

/-!
What a session does on any stream.

A stream of calls may be followed by bytes that are no frame.  A session on it answers the
calls up to the first that ends it and leaves everything behind that one on the stream; if
there is no such call, the bytes behind the last call decide how it ends.  What these bytes
are read as does not depend on how they arrive, so it is taken from `Bytes.source`, which
holds them all.
-/

namespace RemoteCall

/-! ## Bytes that are all there -/

def Bytes.source : Source Bytes where
  read n bs := (.ok (bs.take n), bs.drop n)
  supply := List.length
  length_le {n s bs t} h := by
    simp only [Prod.mk.injEq, Except.ok.injEq] at h
    rw [← h.1, List.length_take]
    omega
  supply_read {n s bs t} h := by
    simp only [Prod.mk.injEq, Except.ok.injEq] at h
    rw [← h.1, ← h.2, List.length_take, List.length_drop]
    omega
  supply_interrupted h := by simp at h

theorem Bytes.source_delivers (bs : Bytes) : Bytes.source.Delivers bs bs := by
  refine ⟨fun held left => held = left, ⟨?_⟩, rfl⟩
  rintro n held left hn rfl
  refine Or.inr ⟨held.take n, held.drop n, held.drop n, rfl, (List.take_append_drop n held).symm,
    ?_, rfl⟩
  intro h
  rcases List.take_eq_nil_iff.mp h with h | h
  · omega
  · rw [h, List.drop_nil]

namespace Frame

variable {σ : Type} {src : Source σ} {s : σ}

theorem readBody_ne_none {b : UInt8} {bs : Bytes} (h : src.Delivers s (b :: bs)) :
    (readBody src s).1 ≠ .ok none := by
  obtain ⟨t, hr, -⟩ := Source.readSome_one h
  rw [readBody, hr]
  dsimp only
  by_cases hv : b ≠ version
  · rw [if_pos hv]
    simp
  · rw [if_neg hv]
    rcases readInside src 4 t with ⟨e | size, u⟩
    · simp
    · dsimp only
      by_cases hs : maxBody < Bytes.readLE size
      · rw [if_pos hs]
        simp
      · rw [if_neg hs]
        rcases readInside src (Bytes.readLE size) u with ⟨e | body, w⟩
        · simp
        · simp

theorem readCall_ne_none {bs : Bytes} (hbs : bs ≠ []) (h : src.Delivers s bs) :
    (readCall src s).1 ≠ .ok none := by
  obtain ⟨b, bs, rfl⟩ := List.exists_cons_of_ne_nil hbs
  have hbody := readBody_ne_none h
  rw [readCall, readWith]
  generalize readBody src s = w at hbody ⊢
  rcases w with ⟨e | _ | body, t⟩
  · simp
  · exact absurd rfl hbody
  · dsimp only
    cases decodeCall body with
    | error e => simp [Functor.map, Except.map]
    | ok c => simp [Functor.map, Except.map]

theorem readCall_refused {tail : Bytes} (hne : tail ≠ [])
    (htail : ∀ c, (readCall Bytes.source tail).1 ≠ .ok (some c)) (h : src.Delivers s tail) :
    ∃ e t, (readCall Bytes.source tail).1 = .error e ∧ readCall src s = (.error e, t) := by
  obtain ⟨came, i, t, hr, hr', -⟩ :=
    readWith_alike decodeCall (.of_delivers (Bytes.source_delivers tail) h)
  have hnone := readCall_ne_none hne (Bytes.source_delivers tail)
  rw [readCall, hr] at htail hnone
  rw [readCall, readCall, hr, hr']
  rcases came with e | _ | c
  · exact ⟨e, t, rfl, rfl⟩
  · exact absurd rfl hnone
  · exact absurd rfl (htail c)

end Frame

namespace Service

variable {η : Type} (running : Bool) (process : CallFrame → η → ReturnFrame × η)

/-- The calls that are answered are all of them, unless one ends the session. -/
theorem answered_eq (calls : List CallFrame) :
    answered running calls = match calls.findIdx? (fun c => !(c.isKeepAlive && running)) with
      | some k => calls.take (k + 1)
      | none => calls := by
  induction calls with
  | nil => rfl
  | cons c cs ih =>
    rw [answered, List.findIdx?_cons, ih]
    by_cases hk : (c.isKeepAlive && running) = true
    · rw [if_pos hk, hk, Bool.not_true]
      cases cs.findIdx? fun c => !(c.isKeepAlive && running) with
      | none => rfl
      | some k => rfl
    · rw [if_neg hk, Bool.eq_false_iff.mpr hk, Bool.not_false]
      rfl

theorem all_eq (calls : List CallFrame) : calls.all (fun c => c.isKeepAlive && running)
    = (calls.findIdx? fun c => !(c.isKeepAlive && running)).isNone := by
  rw [← Option.not_isSome, List.findIdx?_isSome, ← List.not_all_eq_any_not, Bool.not_not]

theorem replies_eq (calls : List CallFrame) (h : η) :
    (steady running process).replies calls h
      = ((calls.zip (answers process calls h)).filter fun x => x.1.isInOut).map
        fun x => x.2.setKeepAlive (x.1.isKeepAlive && running) := by
  induction calls generalizing h with
  | nil => rfl
  | cons c cs ih =>
    rw [replies_steady, answers, List.zip_cons_cons, List.filter_cons, replyTo, answer_steady, ih]
    by_cases hc : c.isInOut = true
    · rw [if_pos hc, if_pos hc]
      rfl
    · rw [if_neg hc, if_neg hc]
      rfl

end Service

namespace Serving

variable {ι ω η : Type} {src : Source ι} {snk : Sink ω} {taken : ω → Bytes}

/-- What follows the calls decides how a session ends that none of them ends. -/
theorem run_tail {running : Bool} {tail : Bytes} {s : Serving ι ω η} (snk : Sink ω)
    (process : CallFrame → η → ReturnFrame × η) (hstart : s.served = 0 ∨ running = true)
    (htail : ∀ c, (Frame.readCall Bytes.source tail).1 ≠ .ok (some c))
    (hi : src.Delivers s.input tail) :
    ∃ result i, s.run (.steady running process) src snk = (result, { s with input := i }) ∧
      (tail = [] → result = .ok s.served) ∧
      (tail ≠ [] → ∃ e, (Frame.readCall Bytes.source tail).1 = .error e ∧
        result = .error (.codec e)) := by
  by_cases hne : tail = []
  · subst hne
    obtain ⟨i, hrec⟩ := receive_end (.steady running process) snk hi
    rw [← round_steady hstart] at hrec
    exact ⟨_, i, run_of_stop hrec, fun _ => rfl, fun h => absurd rfl h⟩
  · obtain ⟨e, i, he, hr⟩ := Frame.readCall_refused hne htail hi
    have hrec : s.receive (.steady running process) src snk
        = .stop (.error (.codec e)) { s with input := i } := by
      rw [receive, hr]
    rw [← round_steady hstart] at hrec
    exact ⟨_, i, run_of_stop hrec, fun h => absurd h hne, fun _ => ⟨e, he, rfl⟩⟩

/-- The server loop does just what the protocol says.  On any stream of calls, whatever
comes behind them that is no frame, the calls up to the first that ends the session are
processed, once and in order, by a service that may keep a record of them.  Nothing behind
that call is taken off the stream; if there is none, a session on a stream that ends behind
the calls ends well, and any other with the error that the rest of the stream is refused
with.  Just the in-out calls among those processed are answered, in order, with what the
service made of them, and in its flags only keep-alive is changed: it says whether the call
asked for it and the service is running. -/
theorem serves_exactly (running : Bool) (process : CallFrame → η → ReturnFrame × η) (h : η)
    (calls : List CallFrame) (tail : Bytes) (input : ι) (output : ω)
    (hs : Service.Sendable running process calls h)
    (htail : ∀ c, (Frame.readCall Bytes.source tail).1 ≠ .ok (some c))
    (hi : src.Delivers input (calls.flatMap Frame.callWire ++ tail))
    (ho : snk.Accepts taken output) :
    ∃ result t processed,
      serve (.steady running process) src snk input output h = (result, t) ∧
      (∀ k, calls.findIdx? (fun c => !(c.isKeepAlive && running)) = some k →
        result = .ok (k + 1) ∧ processed = calls.take (k + 1) ∧
        src.Delivers t.input ((calls.drop (k + 1)).flatMap Frame.callWire ++ tail)) ∧
      (calls.findIdx? (fun c => !(c.isKeepAlive && running)) = none →
        processed = calls ∧ (tail = [] → result = .ok calls.length) ∧
        (tail ≠ [] → ∃ e, (Frame.readCall Bytes.source tail).1 = .error e ∧
          result = .error (.codec e))) ∧
      t.service = Service.after process processed h ∧
      taken t.output = taken output
        ++ ((processed.zip (Service.answers process processed h)).filter
          fun x => x.1.isInOut).flatMap
            (fun x => Frame.returnWire (x.2.setKeepAlive (x.1.isKeepAlive && running))) ∧
      (∀ (r : ReturnFrame) (keep : Bool), (r.setKeepAlive keep).isKeepAlive = keep ∧
        (r.setKeepAlive keep).flags &&& ~~~Flags.keepAliveBit
          = r.flags &&& ~~~Flags.keepAliveBit ∧
        (r.setKeepAlive keep).result = r.result ∧
        (r.setKeepAlive keep).userData = r.userData) := by
  have hsplit : calls.flatMap Frame.callWire ++ tail
      = (Service.answered running calls).flatMap Frame.callWire
        ++ ((calls.drop (Service.answered running calls).length).flatMap Frame.callWire ++ tail) := by
    rw [← List.append_assoc, ← List.flatMap_append,
      List.prefix_iff_eq_append.mp (Service.answered_prefix running calls)]
  rw [hsplit] at hi
  obtain ⟨t, hrun, hcount, hit, hot, htaken, hafter⟩ :=
    run_calls (s := ⟨input, output, h, 0⟩) (Or.inl rfl) hs hi ho
  rw [Service.replies_eq, List.flatMap_map] at htaken
  rw [Service.all_eq] at hrun
  rw [Nat.zero_add] at hcount
  have hanswered := Service.answered_eq running calls
  cases hf : calls.findIdx? fun c => !(c.isKeepAlive && running) with
  | some k =>
    rw [hf] at hrun hanswered
    dsimp only at hanswered
    rw [hanswered] at hcount htaken hafter hit
    refine ⟨.ok t.served, t, calls.take (k + 1), hrun, ?_, ?_, hafter, htaken,
      ReturnFrame.setKeepAlive_only⟩
    · intro j hj
      obtain rfl := Option.some.inj hj
      obtain ⟨hlt, -⟩ := List.findIdx?_eq_some_iff_getElem.mp hf
      have hlen : (calls.take (k + 1)).length = k + 1 := by
        rw [List.length_take]
        omega
      rw [hlen] at hcount hit
      exact ⟨congrArg Except.ok hcount, rfl, hit⟩
    · intro hn
      cases hn
  | none =>
    rw [hf] at hrun hanswered
    dsimp only at hanswered
    rw [hanswered] at hcount htaken hafter hit
    rw [List.drop_length, List.flatMap_nil, List.nil_append] at hit
    obtain ⟨hstart, hrun⟩ := hrun
    obtain ⟨result, i, htailrun, hend, hrefused⟩ := run_tail snk process hstart htail hit
    refine ⟨result, { t with input := i }, calls, hrun.trans htailrun, ?_, ?_, hafter, htaken,
      ReturnFrame.setKeepAlive_only⟩
    · intro k hk
      cases hk
    · intro _
      exact ⟨rfl, fun hn => hcount ▸ hend hn, hrefused⟩

/-- A greeting that waits for no reply and one that does, and then a byte that is no
version. -/
theorem serves_exactly_greetings :
    let calls := [Link.greeting 0x201, Link.greeting 0x101]
    let record (c : CallFrame) (seen : List CallFrame) : ReturnFrame × List CallFrame :=
      (⟨.value .null, 0x10000, none⟩, seen ++ [c])
    Service.Sendable true record calls [] ∧
    (∀ c, (Frame.readCall Bytes.source [2]).1 ≠ .ok (some c)) ∧
    ∃ t, serve (.steady true record) Script.source Script.sink
        [.chunk (calls.flatMap Frame.callWire ++ [2])] .empty []
      = (.error (.codec (.unsupportedVersion 2)), t) ∧ t.service = calls ∧
      t.output.taken = Frame.returnWire ⟨.value .null, 0x10001, none⟩ := by
  intro calls record
  have hs : Service.Sendable true record calls [] :=
    ⟨by decide, by decide +kernel, by decide +kernel⟩
  have hread : (Frame.readCall Bytes.source [2]).1 = .error (.unsupportedVersion 2) := by cbv
  have htail : ∀ c, (Frame.readCall Bytes.source [2]).1 ≠ .ok (some c) := by
    intro c
    rw [hread]
    simp
  have hi : Script.source.Delivers [.chunk (calls.flatMap Frame.callWire ++ [2])]
      (calls.flatMap Frame.callWire ++ [2]) := Script.source_delivers_chunk (by simp)
  obtain ⟨result, t, processed, hserve, -, hnone, hservice, htaken, -⟩ :=
    serves_exactly true record [] calls [2] _ _ hs htail hi Script.sink_accepts_empty
  obtain ⟨rfl, -, hrefused⟩ := hnone (by decide)
  obtain ⟨e, he, rfl⟩ := hrefused (by decide)
  obtain rfl : CodecError.unsupportedVersion 2 = e := Except.error.inj (hread.symm.trans he)
  have hpicked : (calls.zip (Service.answers record calls [])).filter (fun x => x.1.isInOut)
      = [(Link.greeting 0x101, ⟨.value .null, 0x10000, none⟩)] := by decide
  have hreply : (⟨.value .null, 0x10000, none⟩ : ReturnFrame).setKeepAlive
      ((Link.greeting 0x101).isKeepAlive && true) = ⟨.value .null, 0x10001, none⟩ := by decide
  rw [hpicked, List.flatMap_singleton, hreply] at htaken
  exact ⟨hs, htail, t, hserve, hservice, htaken⟩

end Serving
end RemoteCall
