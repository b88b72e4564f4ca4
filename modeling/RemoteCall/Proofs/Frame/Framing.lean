import RemoteCall.Frame.Codec
import RemoteCall.Proofs.Frame.Body
import RemoteCall.Proofs.Stream.Acceptance
import RemoteCall.Proofs.Stream.Delivery

/-!
Frames on a stream.

Written into a sink that takes everything, a frame is its framed body
(`writeBody_accepts`).  Read from a source that delivers a framed body, it is taken off
to its last byte and no further (`readBody_framed`).  A stream that ends before a frame
has ended cleanly (`readBody_end`), and one that ends inside a frame is truncated
(`readBody_cut`), wherever in its three parts the end lies.
-/

namespace RemoteCall
namespace Frame

variable {σ : Type}

/-! ## Writing -/

theorem length_framed (body : Bytes) : (framed body).length = 5 + body.length := by
  rw [framed, header, List.length_append, List.length_cons, Bytes.length_writeLE]

theorem framed_ne_nil (body : Bytes) : framed body ≠ [] := by
  rw [framed, header]
  exact List.cons_ne_nil _ _

def callWire (c : CallFrame) : Bytes := framed (Body.writeCall c)

def returnWire (r : ReturnFrame) : Bytes := framed (Body.writeReturn r)

theorem writeBody_accepts {snk : Sink σ} {taken : σ → Bytes} {s : σ} {body : Bytes}
    (h : snk.Accepts taken s) (hs : body.length ≤ maxBody) :
    ∃ t, writeBody snk body s = (.ok (), t) ∧ snk.Accepts taken t ∧
      taken t = taken s ++ framed body := by
  obtain ⟨t, hw, ht, htaken⟩ := Sink.writeAll_accepts (header body.length) h
  obtain ⟨u, hw', hu, htaken'⟩ := Sink.writeAll_accepts body ht
  refine ⟨u, ?_, hu, ?_⟩
  · rw [writeBody, if_neg (by omega), hw]
    dsimp only
    rw [hw']
  · rw [htaken', htaken, framed, List.append_assoc]

/-- Whether or not the body is within the limit, a sink that takes everything goes on
doing so, and keeps what it had. -/
theorem writeBody_grows {snk : Sink σ} {taken : σ → Bytes} {s : σ} (h : snk.Accepts taken s)
    (body : Bytes) : snk.Grows taken s (writeBody snk body s).2 := by
  rcases Nat.lt_or_ge maxBody body.length with hlt | hle
  · rw [writeBody, if_pos hlt]
    exact .refl h
  · obtain ⟨t, hw, ht, htaken⟩ := writeBody_accepts h hle
    rw [hw]
    exact ⟨ht, framed body, htaken.symm⟩

/-! ## Reading -/

theorem readInside_delivers {src : Source σ} {s : σ} {n : Nat} {bs rest : Bytes}
    (h : src.Delivers s (bs ++ rest)) (hn : bs.length = n) :
    ∃ t, readInside src n s = (.ok bs, t) ∧ src.Delivers t rest := by
  subst hn
  obtain ⟨t, hr, ht⟩ := Source.readExact_delivers h
  exact ⟨t, by rw [readInside, hr], ht⟩

theorem readInside_short {src : Source σ} {s : σ} {n : Nat} {bs : Bytes}
    (h : src.Delivers s bs) (hlt : bs.length < n) :
    ∃ t, readInside src n s = (.error .truncated, t) ∧ src.Delivers t [] := by
  obtain ⟨t, hr, ht⟩ := Source.readExact_short h hlt
  refine ⟨t, ?_, ht⟩
  rw [readInside, hr]
  rfl

theorem readLE_size {body : Bytes} (hs : body.length ≤ maxBody) :
    Bytes.readLE (Bytes.writeLE 4 body.length) = body.length :=
  Bytes.readLE_writeLE (Nat.lt_of_le_of_lt hs (by decide))

theorem readBody_framed {src : Source σ} {s : σ} {body rest : Bytes}
    (h : src.Delivers s (framed body ++ rest)) (hs : body.length ≤ maxBody) :
    ∃ t, readBody src s = (.ok (some body), t) ∧ src.Delivers t rest := by
  rw [framed, header, List.cons_append, List.cons_append, List.append_assoc] at h
  obtain ⟨t, hv, ht⟩ := Source.readSome_one h
  obtain ⟨u, hl, hu⟩ := readInside_delivers ht (Bytes.length_writeLE 4 body.length)
  obtain ⟨w, hb, hw⟩ := readInside_delivers hu rfl
  refine ⟨w, ?_, hw⟩
  rw [readBody, hv]
  dsimp only
  rw [if_neg (by simp), hl]
  dsimp only
  rw [readLE_size hs, if_neg (by omega), hb]

theorem readBody_end {src : Source σ} {s : σ} (h : src.Delivers s []) :
    ∃ t, readBody src s = (.ok none, t) ∧ src.Delivers t [] := by
  obtain ⟨t, hr, ht⟩ := Source.readSome_end Nat.one_pos h
  exact ⟨t, by rw [readBody, hr], ht⟩

/-- A stream that ends inside a frame, behind its first byte and before its last. -/
theorem readBody_cut {src : Source σ} {s : σ} {body : Bytes} {k : Nat}
    (h : src.Delivers s ((framed body).take k)) (hs : body.length ≤ maxBody) (hpos : 0 < k)
    (hlt : k < (framed body).length) :
    ∃ t, readBody src s = (.error .truncated, t) ∧ src.Delivers t [] := by
  rw [length_framed] at hlt
  obtain ⟨j, rfl⟩ : ∃ j, k = j + 1 := ⟨k - 1, by omega⟩
  rw [framed, header, List.cons_append, List.take_succ_cons] at h
  obtain ⟨t, hv, ht⟩ := Source.readSome_one h
  have hl4 := Bytes.length_writeLE 4 body.length
  rcases Nat.lt_or_ge j 4 with hj | hj
  · -- The end lies in the length.
    obtain ⟨u, hl, hu⟩ := readInside_short (n := 4) ht (by
      rw [List.length_take]
      omega)
    refine ⟨u, ?_, hu⟩
    rw [readBody, hv]
    dsimp only
    rw [if_neg (by simp), hl]
  · -- The end lies in the body.
    rw [List.take_append, List.take_of_length_le (by omega), hl4] at ht
    obtain ⟨u, hl, hu⟩ := readInside_delivers ht hl4
    obtain ⟨w, hb, hw⟩ := readInside_short (n := body.length) hu (by
      rw [List.length_take]
      omega)
    refine ⟨w, ?_, hw⟩
    rw [readBody, hv]
    dsimp only
    rw [if_neg (by simp), hl]
    dsimp only
    rw [readLE_size hs, if_neg (by omega), hb]

/-! ## Decoding -/

variable {α : Type} (decode : Bytes → Except CodecError α)

theorem readWith_framed {src : Source σ} {s : σ} {body rest : Bytes}
    (h : src.Delivers s (framed body ++ rest)) (hs : body.length ≤ maxBody) :
    ∃ t, readWith decode src s = (some <$> decode body, t) ∧ src.Delivers t rest := by
  obtain ⟨t, hr, ht⟩ := readBody_framed h hs
  exact ⟨t, by rw [readWith, hr], ht⟩

theorem readWith_end {src : Source σ} {s : σ} (h : src.Delivers s []) :
    ∃ t, readWith decode src s = (.ok none, t) ∧ src.Delivers t [] := by
  obtain ⟨t, hr, ht⟩ := readBody_end h
  exact ⟨t, by rw [readWith, hr], ht⟩

theorem readWith_cut {src : Source σ} {s : σ} {body : Bytes} {k : Nat}
    (h : src.Delivers s ((framed body).take k)) (hs : body.length ≤ maxBody) (hpos : 0 < k)
    (hlt : k < (framed body).length) :
    ∃ t, readWith decode src s = (.error .truncated, t) ∧ src.Delivers t [] := by
  obtain ⟨t, hr, ht⟩ := readBody_cut h hs hpos hlt
  exact ⟨t, by rw [readWith, hr], ht⟩

theorem fits_of_le_maxBody {body : Bytes} (h : body.length ≤ maxBody) :
    8 * body.length < Packing.Lengths.totalLimit := by
  have : 8 * maxBody < Packing.Lengths.totalLimit := by decide
  omega

theorem decodeCall_writeCall {c : CallFrame} (h : (Body.writeCall c).length ≤ maxBody)
    (ha : c.types.length = c.arguments.length) : decodeCall (Body.writeCall c) = .ok c := by
  have hr := (Body.reads_writeCall (fits_of_le_maxBody h)).complete
  rw [decodeCall, hr]
  dsimp only [Body.fieldsOf]
  rw [CallFrame.new, dif_neg c.interface_ne, dif_neg c.method_ne, if_neg (by simpa using ha)]

/-- A frame whose arguments were taken away is written, and refused when it is read. -/
theorem decodeCall_writeCall_of_ne {c : CallFrame} (h : (Body.writeCall c).length ≤ maxBody)
    (ha : c.types.length ≠ c.arguments.length) :
    decodeCall (Body.writeCall c) = .error (.malformed
      (ConfigurationError.arityMismatch c.types.length c.arguments.length).message) := by
  have hr := (Body.reads_writeCall (fits_of_le_maxBody h)).complete
  rw [decodeCall, hr]
  dsimp only [Body.fieldsOf]
  rw [CallFrame.new, dif_neg c.interface_ne, dif_neg c.method_ne, if_pos ha]

theorem decodeReturn_writeReturn {r : ReturnFrame} (h : (Body.writeReturn r).length ≤ maxBody) :
    decodeReturn (Body.writeReturn r) = .ok r := by
  rw [decodeReturn, (Body.reads_writeReturn (fits_of_le_maxBody h)).complete]

theorem malformed_of_decodeCall {body : Bytes} {e : CodecError} (h : decodeCall body = .error e) :
    ∃ reason, e = .malformed reason := by
  unfold decodeCall at h
  split at h
  · exact ⟨_, (Except.error.inj h).symm⟩
  · split at h
    · exact ⟨_, (Except.error.inj h).symm⟩
    · exact absurd h (by simp)

theorem readCall_callWire {src : Source σ} {s : σ} {c : CallFrame} {rest : Bytes}
    (h : src.Delivers s (callWire c ++ rest)) (hs : (Body.writeCall c).length ≤ maxBody)
    (ha : c.types.length = c.arguments.length) :
    ∃ t, readCall src s = (.ok (some c), t) ∧ src.Delivers t rest := by
  obtain ⟨t, hr, ht⟩ := readWith_framed decodeCall h hs
  rw [decodeCall_writeCall hs ha] at hr
  exact ⟨t, hr, ht⟩

theorem readReturn_returnWire {src : Source σ} {s : σ} {r : ReturnFrame} {rest : Bytes}
    (h : src.Delivers s (returnWire r ++ rest)) (hs : (Body.writeReturn r).length ≤ maxBody) :
    ∃ t, readReturn src s = (.ok (some r), t) ∧ src.Delivers t rest := by
  obtain ⟨t, hr, ht⟩ := readWith_framed decodeReturn h hs
  rw [decodeReturn_writeReturn hs] at hr
  exact ⟨t, hr, ht⟩

theorem malformed_of_decodeReturn {body : Bytes} {e : CodecError}
    (h : decodeReturn body = .error e) : ∃ reason, e = .malformed reason := by
  unfold decodeReturn at h
  split at h
  · exact ⟨_, (Except.error.inj h).symm⟩
  · exact absurd h (by simp)

end Frame
end RemoteCall
