import RemoteCall.Proofs.Frame.Framing

/-!
Frames survive the wire.

What is written for a frame is read back as that frame, with every field as it was,
floating-point numbers by their bits and absent user data apart from empty user data.
A call frame is refused instead if it has another number of arguments than of parameter
types.
-/

namespace RemoteCall
namespace Frame

/-- A frame is written as a prefix of five bytes and its body, and read back from
exactly these bytes, in whatever chunks they come. -/
theorem written_is_read {ι ω : Type} (src : Source ι) (snk : Sink ω) {taken : ω → Bytes} {o : ω}
    (ho : snk.Accepts taken o) :
    (∀ c : CallFrame, (Body.writeCall c).length ≤ maxBody →
      ∃ p wire, writeCall snk c o = (.ok (), p) ∧ taken p = taken o ++ wire ∧
        wire.length = 5 + (Body.writeCall c).length ∧
        ∀ i, src.Delivers i wire → ∃ j, src.Delivers j [] ∧
          (readCall src i = (.ok (some c), j) ↔ c.types.length = c.arguments.length) ∧
          (c.types.length ≠ c.arguments.length →
            ∃ reason, readCall src i = (.error (.malformed reason), j))) ∧
    (∀ r : ReturnFrame, (Body.writeReturn r).length ≤ maxBody →
      ∃ p wire, writeReturn snk r o = (.ok (), p) ∧ taken p = taken o ++ wire ∧
        wire.length = 5 + (Body.writeReturn r).length ∧
        ∀ i, src.Delivers i wire → ∃ j, src.Delivers j [] ∧
          readReturn src i = (.ok (some r), j)) := by
  constructor
  · intro c hs
    obtain ⟨p, hw, -, htaken⟩ := writeBody_accepts ho hs
    refine ⟨p, framed (Body.writeCall c), hw, htaken, length_framed _, fun i hi => ?_⟩
    rw [← List.append_nil (framed _)] at hi
    obtain ⟨j, hr, hj⟩ := readWith_framed decodeCall hi hs
    refine ⟨j, hj, ⟨fun h => ?_, fun ha => ?_⟩, fun ha => ?_⟩
    · -- Had the counts differed, the frame would have been refused.
      by_cases ha : c.types.length = c.arguments.length
      · exact ha
      · rw [decodeCall_writeCall_of_ne hs ha] at hr
        have hbad : readCall src i = (.error (.malformed _), j) := hr
        rw [hbad] at h
        simp at h
    · rw [decodeCall_writeCall hs ha] at hr
      exact hr
    · rw [decodeCall_writeCall_of_ne hs ha] at hr
      exact ⟨_, hr⟩
  · intro r hs
    obtain ⟨p, hw, -, htaken⟩ := writeBody_accepts ho hs
    refine ⟨p, framed (Body.writeReturn r), hw, htaken, length_framed _, fun i hi => ?_⟩
    rw [← List.append_nil (framed _)] at hi
    obtain ⟨j, hr, hj⟩ := readWith_framed decodeReturn hi hs
    rw [decodeReturn_writeReturn hs] at hr
    exact ⟨j, hj, hr⟩

/-- A call with a value of every type, among them the least integer, a number with a
payload, empty members, and user data that is empty but there. -/
def sampleCall : CallFrame where
  interface := "example.Echo"
  method := "übung"
  types := [.null, .bool, .int, .float, .str, .bytes, .floatList, .strList]
  arguments := [.null, .bool true, .int (-9223372036854775808), .float ⟨0x7FF800000000BEEF⟩,
    .str "", .bytes [0, 255], .floatList [⟨0x8000000000000000⟩, ⟨0xFFF0000000000001⟩],
    .strList ["", "grün"]]
  flags := 0xFFFF0301
  userData := some []
  interface_ne := by decide
  method_ne := by decide

/-- The sample call comes back, and does not once its arguments are gone. -/
theorem written_is_read_sample :
    Script.sink.Accepts Script.Uptake.taken Script.Uptake.empty ∧
    (∃ p wire, writeCall Script.sink sampleCall .empty = (.ok (), p) ∧ p.taken = wire ∧
      (readCall Script.source [.chunk wire]).1 = .ok (some sampleCall)) ∧
    (∃ p wire, writeCall Script.sink sampleCall.withoutArguments .empty = (.ok (), p) ∧
      p.taken = wire ∧
      ∃ reason, (readCall Script.source [.chunk wire]).1 = .error (.malformed reason)) := by
  have key := written_is_read Script.source Script.sink Script.sink_accepts_empty
  refine ⟨Script.sink_accepts_empty, ?_, ?_⟩
  · obtain ⟨p, wire, hw, htaken, hl, hr⟩ := key.1 sampleCall (by decide +kernel)
    obtain ⟨j, -, hiff, -⟩ := hr _ (Script.source_delivers_chunk (by omega))
    refine ⟨p, wire, hw, htaken, ?_⟩
    rw [hiff.mpr rfl]
  · obtain ⟨p, wire, hw, htaken, hl, hr⟩ := key.1 sampleCall.withoutArguments (by decide +kernel)
    obtain ⟨j, -, -, hne⟩ := hr _ (Script.source_delivers_chunk (by omega))
    obtain ⟨reason, he⟩ := hne (by decide)
    exact ⟨p, wire, hw, htaken, reason, by rw [he]⟩

end Frame
end RemoteCall
