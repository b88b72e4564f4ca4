import RemoteCall.Proofs.Frame.Framing

/-!
Reading a stream of frames again and again.

The stream is a list of framed bodies, cut off anywhere.  Reading goes on after every
outcome.  Each body that lies wholly before the cut is taken off to its last byte and
comes to what it comes to alone, whether it decodes or not; behind the last of them the
stream has ended cleanly if the cut is between two frames, and is truncated if it is
inside one.  `InStep` is this as one predicate, and `inStep_readWith` proves it by
induction on the bodies.
-/

namespace RemoteCall
namespace Frame

variable {σ α β : Type}

def readTimes (read : σ → β × σ) : Nat → σ → List β × σ
  | 0, s => ([], s)
  | n + 1, s =>
    let (b, t) := read s
    let (bs, u) := readTimes read n t
    (b :: bs, u)

/-- Where the frames of the first `j` bodies end. -/
def boundary (bodies : List Bytes) (j : Nat) : Nat := ((bodies.take j).flatMap framed).length

/-- A stream of framed bodies that is cut off after `k` bytes ends between two frames. -/
def CutBetween (bodies : List Bytes) (k : Nat) : Prop :=
  ∃ j, j ≤ bodies.length ∧ boundary bodies j = ((bodies.flatMap framed).take k).length

/-- How many bodies lie wholly before a cut after `k` bytes. -/
def wholeBefore : Nat → List Bytes → Nat
  | _, [] => 0
  | k, b :: bodies =>
    if (framed b).length ≤ k then wholeBefore (k - (framed b).length) bodies + 1 else 0

/-- What reading again and again makes of a stream of framed bodies that is cut off
after `k` bytes; `m` of them lie wholly before the cut. -/
structure InStep (src : Source σ) (read : σ → Except CodecError (Option α) × σ)
    (decode : Bytes → Except CodecError α) (bodies : List Bytes) (k : Nat) (s : σ) (m : Nat) :
    Prop where
  le_length : m ≤ bodies.length
  /-- The bodies that lie wholly before the cut are the first `m`. -/
  boundary_le_iff : ∀ j, j ≤ bodies.length → (boundary bodies j ≤ k ↔ j ≤ m)
  /-- Each of them comes to what it comes to alone. -/
  outcomes : (readTimes read m s).1 = (bodies.take m).map fun b => some <$> decode b
  /-- Each of them is taken off to its last byte, and nothing behind it is. -/
  consumed : ∀ j, j ≤ m → src.Delivers (readTimes read j s).2
    (((bodies.flatMap framed).take k).drop (boundary bodies j))
  ended : CutBetween bodies k → (read (readTimes read m s).2).1 = .ok none
  truncated : ¬ CutBetween bodies k → (read (readTimes read m s).2).1 = .error .truncated

theorem boundary_zero (bodies : List Bytes) : boundary bodies 0 = 0 := rfl

theorem boundary_cons (b : Bytes) (bodies : List Bytes) (j : Nat) :
    boundary (b :: bodies) (j + 1) = (framed b).length + boundary bodies j := by
  rw [boundary, List.take_succ_cons, List.flatMap_cons, List.length_append, boundary]

theorem readTimes_succ (read : σ → β × σ) (n : Nat) (s : σ) :
    readTimes read (n + 1) s
      = ((read s).1 :: (readTimes read n (read s).2).1, (readTimes read n (read s).2).2) := rfl

theorem take_framed_of_le {b : Bytes} {k : Nat} (h : (framed b).length ≤ k) (rest : Bytes) :
    (framed b ++ rest).take k = framed b ++ rest.take (k - (framed b).length) := by
  rw [List.take_append, List.take_of_length_le h]

/-- A cut behind the first frame is between two frames just when it is so for the
bodies behind the first. -/
theorem cutBetween_cons_of_le {b : Bytes} (bodies : List Bytes) {k : Nat}
    (h : (framed b).length ≤ k) :
    CutBetween (b :: bodies) k ↔ CutBetween bodies (k - (framed b).length) := by
  have hpos : 0 < (framed b).length := List.length_pos_iff.mpr (framed_ne_nil b)
  have hlen : (((b :: bodies).flatMap framed).take k).length
      = (framed b).length + ((bodies.flatMap framed).take (k - (framed b).length)).length := by
    rw [List.flatMap_cons, take_framed_of_le h, List.length_append]
  unfold CutBetween
  rw [hlen]
  constructor
  · intro ⟨j, hj, e⟩
    match j with
    | 0 =>
      rw [boundary_zero] at e
      omega
    | j + 1 =>
      rw [boundary_cons] at e
      rw [List.length_cons] at hj
      exact ⟨j, by omega, by omega⟩
  · intro ⟨j, hj, e⟩
    refine ⟨j + 1, by rw [List.length_cons]; omega, ?_⟩
    rw [boundary_cons, e]

theorem cutBetween_cons_of_lt {b : Bytes} (bodies : List Bytes) {k : Nat}
    (h : k < (framed b).length) : CutBetween (b :: bodies) k ↔ k = 0 := by
  have hlen : (((b :: bodies).flatMap framed).take k).length = k := by
    rw [List.flatMap_cons, List.length_take, List.length_append]
    omega
  unfold CutBetween
  rw [hlen]
  constructor
  · intro ⟨j, hj, e⟩
    match j with
    | 0 => exact e.symm
    | j + 1 =>
      rw [boundary_cons] at e
      omega
  · intro e
    exact ⟨0, Nat.zero_le _, e.symm⟩

variable {src : Source σ} {decode : Bytes → Except CodecError α} {s : σ} {k : Nat}

theorem inStep_nil (h : src.Delivers s []) : InStep src (readWith decode src) decode [] k s 0 where
  le_length := Nat.le_refl 0
  boundary_le_iff := by
    intro j hj
    obtain rfl : j = 0 := Nat.le_zero.mp hj
    exact ⟨fun _ => Nat.le_refl 0, fun _ => Nat.zero_le k⟩
  outcomes := rfl
  consumed := by
    intro j hj
    obtain rfl : j = 0 := Nat.le_zero.mp hj
    rw [List.flatMap_nil, List.take_nil, List.drop_nil]
    exact h
  ended := by
    intro _
    obtain ⟨t, hr, -⟩ := readWith_end decode h
    show (readWith decode src s).1 = .ok none
    rw [hr]
  truncated := by
    intro hn
    exact absurd ⟨0, Nat.le_refl 0, by simp [boundary]⟩ hn

theorem inStep_of_lt {b : Bytes} {bodies : List Bytes} (hb : b.length ≤ maxBody)
    (hlt : k < (framed b).length) (h : src.Delivers s ((framed b).take k)) :
    InStep src (readWith decode src) decode (b :: bodies) k s 0 where
  le_length := Nat.zero_le _
  boundary_le_iff := by
    intro j _
    match j with
    | 0 => exact ⟨fun _ => Nat.le_refl 0, fun _ => Nat.zero_le k⟩
    | j + 1 =>
      rw [boundary_cons]
      omega
  outcomes := rfl
  consumed := by
    intro j hj
    obtain rfl : j = 0 := Nat.le_zero.mp hj
    rw [List.flatMap_cons, boundary_zero, List.drop_zero, List.take_append_of_le_length (by omega)]
    exact h
  ended := by
    intro hc
    rw [(cutBetween_cons_of_lt bodies hlt).mp hc, List.take_zero] at h
    obtain ⟨t, hr, -⟩ := readWith_end decode h
    show (readWith decode src s).1 = .ok none
    rw [hr]
  truncated := by
    intro hn
    have hpos : 0 < k := Nat.pos_of_ne_zero fun e => hn ((cutBetween_cons_of_lt bodies hlt).mpr e)
    obtain ⟨t, hr, -⟩ := readWith_cut decode h hb hpos hlt
    show (readWith decode src s).1 = .error .truncated
    rw [hr]

theorem inStep_of_le {b : Bytes} {bodies : List Bytes} {t : σ} {m : Nat}
    (hge : (framed b).length ≤ k) (h : src.Delivers s (((b :: bodies).flatMap framed).take k))
    (hr : readWith decode src s = (some <$> decode b, t))
    (hin : InStep src (readWith decode src) decode bodies (k - (framed b).length) t m) :
    InStep src (readWith decode src) decode (b :: bodies) k s (m + 1) where
  le_length := Nat.succ_le_succ hin.le_length
  boundary_le_iff := by
    intro j hj
    match j with
    | 0 => exact ⟨fun _ => Nat.zero_le _, fun _ => Nat.zero_le k⟩
    | j + 1 =>
      have := hin.boundary_le_iff j (Nat.le_of_succ_le_succ hj)
      rw [boundary_cons]
      omega
  outcomes := by
    rw [readTimes_succ, hr, List.take_succ_cons, List.map_cons, hin.outcomes]
  consumed := by
    intro j hj
    match j with
    | 0 => exact h
    | j + 1 =>
      have := hin.consumed j (Nat.le_of_succ_le_succ hj)
      rw [readTimes_succ, hr, boundary_cons, List.flatMap_cons, take_framed_of_le hge,
        List.drop_length_add_append]
      exact this
  ended := by
    intro hc
    rw [readTimes_succ, hr]
    exact hin.ended ((cutBetween_cons_of_le bodies hge).mp hc)
  truncated := by
    intro hn
    rw [readTimes_succ, hr]
    exact hin.truncated (mt (cutBetween_cons_of_le bodies hge).mpr hn)

theorem inStep_readWith {bodies : List Bytes} (hsize : ∀ b ∈ bodies, b.length ≤ maxBody)
    (h : src.Delivers s ((bodies.flatMap framed).take k)) :
    InStep src (readWith decode src) decode bodies k s (wholeBefore k bodies) := by
  induction bodies generalizing k s with
  | nil =>
    rw [List.flatMap_nil, List.take_nil] at h
    exact inStep_nil h
  | cons b bodies ih =>
    obtain ⟨hb, hbodies⟩ := List.forall_mem_cons.mp hsize
    have hstream := h
    rw [List.flatMap_cons] at hstream
    rw [wholeBefore]
    rcases Nat.lt_or_ge k (framed b).length with hlt | hge
    · rw [if_neg (by omega)]
      rw [List.take_append_of_le_length (by omega)] at hstream
      exact inStep_of_lt hb hlt hstream
    · rw [if_pos hge]
      rw [take_framed_of_le hge] at hstream
      obtain ⟨t, hr, ht⟩ := readWith_framed decode hstream hb
      exact inStep_of_le hge h hr (ih hbodies ht)

/-- Reading never falls out of step with the frames: the bodies before the cut come out
one by one, good or bad, and the end of the stream is told from a frame cut short. -/
theorem reads_stay_in_step (src : Source σ) (bodies : List Bytes)
    (hsize : ∀ b ∈ bodies, b.length ≤ maxBody) (k : Nat) (s : σ)
    (h : src.Delivers s ((bodies.flatMap framed).take k)) :
    InStep src (readCall src) decodeCall bodies k s (wholeBefore k bodies) ∧
    InStep src (readReturn src) decodeReturn bodies k s (wholeBefore k bodies) ∧
    (∀ b ∈ bodies, (∃ c, decodeCall b = .ok c) ∨ ∃ reason, decodeCall b = .error (.malformed reason)) ∧
    (∀ b ∈ bodies, (∃ r, decodeReturn b = .ok r) ∨
      ∃ reason, decodeReturn b = .error (.malformed reason)) := by
  refine ⟨inStep_readWith hsize h, inStep_readWith hsize h, ?_, ?_⟩
  · intro b _
    cases hd : decodeCall b with
    | ok c => exact Or.inl ⟨c, rfl⟩
    | error e =>
      obtain ⟨reason, rfl⟩ := malformed_of_decodeCall hd
      exact Or.inr ⟨reason, rfl⟩
  · intro b _
    cases hd : decodeReturn b with
    | ok r => exact Or.inl ⟨r, rfl⟩
    | error e =>
      obtain ⟨reason, rfl⟩ := malformed_of_decodeReturn hd
      exact Or.inr ⟨reason, rfl⟩

/-- Two bad bodies, the second cut off behind its second byte, with interruptions. -/
theorem reads_stay_in_step_sample :
    let bodies : List Bytes := [[255], []]
    let arrivals : List Script.Arrival := [.fault ⟨.interrupted, ""⟩, .chunk [1, 1, 0],
      .chunk [0, 0, 255], .fault ⟨.interrupted, ""⟩, .chunk [1, 0]]
    (∀ b ∈ bodies, b.length ≤ maxBody) ∧
    Script.source.Delivers arrivals ((bodies.flatMap framed).take 8) ∧
    (readTimes (readCall Script.source) 1 arrivals).1 = [.error (.malformed notPacked)] ∧
    (readCall Script.source (readTimes (readCall Script.source) 1 arrivals).2).1
      = .error .truncated := by
  intro bodies arrivals
  have hsize : ∀ b ∈ bodies, b.length ≤ maxBody := by decide
  have hclean : Script.Clean arrivals := by simp [Script.Clean, arrivals]
  have hd : Script.source.Delivers arrivals ((bodies.flatMap framed).take 8) :=
    Script.source_delivers hclean
  obtain ⟨hcall, -⟩ := reads_stay_in_step Script.source bodies hsize 8 arrivals hd
  have hm : wholeBefore 8 bodies = 1 := by decide
  rw [hm] at hcall
  refine ⟨hsize, hd, ?_, hcall.truncated ?_⟩
  · rw [hcall.outcomes]
    rfl
  · rw [cutBetween_cons_of_le _ (by decide), cutBetween_cons_of_lt _ (by decide)]
    decide

end Frame
end RemoteCall
