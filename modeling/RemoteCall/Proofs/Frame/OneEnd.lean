import RemoteCall.Proofs.Frame.RoundTrip
import RemoteCall.Proofs.Packing.Locality

/-!
A frame body has one end.

The parses of both bodies are local, field by field, so a body that stands for a frame is
no longer one when bytes are put behind it or taken off its end.  The frame around such a
body is read to its last byte and refused (`EndsOnce`).  This holds of every byte string
that the decoders accept, tightly packed or not.

A call frame that is read has passed the checks on its fields: whatever the bytes were, its
names are not empty and it has as many arguments as parameter types.
-/

namespace RemoteCall
namespace Body

open Packing

/-! ## Bodies are read locally -/

theorem local_types : types.Local := Radix.sixteen.local_column.refine _ _

theorem local_binaries : binaries.Local := local_words64.refine _ _

/-- The tags come first; they say how many values each of the other columns holds. -/
theorem local_values : values.Local := by
  intro n
  refine (local_types n).bind fun ts => ?_
  refine (local_bools _).bind fun bs => ?_
  refine (local_signed64 _).bind fun is => ?_
  refine (local_binaries _).bind fun fs => ?_
  refine (local_strings _).bind fun ss => ?_
  refine (local_octets.list _).bind fun os => ?_
  refine (local_binaries.list _).bind fun gs => ?_
  refine (local_strings.list _).bind fun ls => ?_
  exact Parse.Local.check _

theorem local_origins : origins.Local := local_bools.refine _ _

theorem local_failures : failures.Local := by
  intro n
  refine (local_strings n).bind fun kinds => ?_
  refine (local_strings.list n).bind fun supertypes => ?_
  refine (local_strings n).bind fun messages => ?_
  refine (local_strings.list n).bind fun traces => ?_
  refine (local_origins n).bind fun origins => ?_
  exact Parse.Local.pure _

theorem local_userData : userData.Local := local_octets.list.option

theorem local_readCall : readCall.Local := by
  refine local_strings.readOne.bind fun interface => ?_
  refine local_strings.readOne.bind fun method => ?_
  refine local_types.list.readOne.bind fun types => ?_
  refine local_values.list.readOne.bind fun arguments => ?_
  refine local_words32.readOne.bind fun flags => ?_
  refine local_userData.readOne.bind fun userData => ?_
  exact Parse.Local.pure _

theorem local_readOutcome : readOutcome.Local := by
  refine local_bools.readOne.bind fun failed => ?_
  refine (local_values _).bind fun vs => ?_
  refine (local_failures _).bind fun fs => ?_
  split
  · exact Parse.Local.pure _
  · exact Parse.Local.pure _
  · exact Parse.Local.failure

theorem local_readReturn : readReturn.Local := by
  refine local_readOutcome.bind fun result => ?_
  refine local_words32.readOne.bind fun flags => ?_
  refine local_userData.readOne.bind fun userData => ?_
  exact Parse.Local.pure _

end Body

namespace Frame

variable {σ α β : Type}

/-! ## What the decoders accept -/

theorem fieldsOf_of_new {f : Body.CallFields} {c : CallFrame}
    (h : CallFrame.new f.interface f.method f.types f.arguments = .ok c) :
    Body.fieldsOf { c with flags := f.flags, userData := f.userData } = f ∧ f.interface ≠ "" ∧
      f.method ≠ "" ∧ f.types.length = f.arguments.length := by
  unfold CallFrame.new at h
  by_cases hi : f.interface = ""
  · rw [dif_pos hi] at h
    cases h
  rw [dif_neg hi] at h
  by_cases hm : f.method = ""
  · rw [dif_pos hm] at h
    cases h
  rw [dif_neg hm] at h
  by_cases ha : f.types.length ≠ f.arguments.length
  · rw [if_pos ha] at h
    cases h
  rw [if_neg ha] at h
  cases h
  exact ⟨rfl, hi, hm, Decidable.not_not.mp ha⟩

/-- A body is accepted if its fields are read and pass the checks; they are the fields of
the frame. -/
theorem decodeCall_eq_ok {body : Bytes} {c : CallFrame} (h : decodeCall body = .ok c) :
    Body.readCall.complete body = some (Body.fieldsOf c) ∧ c.interface ≠ "" ∧ c.method ≠ "" ∧
      c.types.length = c.arguments.length := by
  unfold decodeCall at h
  split at h
  · cases h
  · next f hf =>
    split at h
    · cases h
    · next d hd =>
      obtain ⟨hfields, hi, hm, ha⟩ := fieldsOf_of_new hd
      obtain rfl := Except.ok.inj h
      rw [hf]
      rw [← hfields] at hi hm ha
      exact ⟨congrArg some hfields.symm, hi, hm, ha⟩

theorem decodeReturn_eq_ok {body : Bytes} {r : ReturnFrame} (h : decodeReturn body = .ok r) :
    Body.readReturn.complete body = some r := by
  unfold decodeReturn at h
  split at h
  · cases h
  · next hr => exact hr.trans (congrArg some (Except.ok.inj h))

theorem decodeCall_of_none {body : Bytes} (h : Body.readCall.complete body = none) :
    decodeCall body = .error (.malformed notPacked) := by
  rw [decodeCall, h]

theorem decodeReturn_of_none {body : Bytes} (h : Body.readReturn.complete body = none) :
    decodeReturn body = .error (.malformed notPacked) := by
  rw [decodeReturn, h]

theorem exists_decode_of_readWith {decode : Bytes → Except CodecError α} {src : Source σ}
    {s t : σ} {a : α} (h : readWith decode src s = (.ok (some a), t)) :
    ∃ body, decode body = .ok a := by
  unfold readWith at h
  split at h
  · cases h
  · cases h
  · next body u hbody =>
    obtain ⟨hdecode, -⟩ := Prod.mk.inj h
    cases hd : decode body with
    | error e =>
      rw [hd] at hdecode
      cases hdecode
    | ok b =>
      rw [hd] at hdecode
      exact ⟨body, hd.trans (congrArg Except.ok (Option.some.inj (Except.ok.inj hdecode)))⟩

/-! ## One end -/

/-- No other byte string that begins with `body`, or that `body` begins with, is accepted.
Framed with its own length, it is read off the stream to its last byte and refused. -/
structure EndsOnce (src : Source σ) (decode : Bytes → Except CodecError α) (body : Bytes) :
    Prop where
  refused : ∀ other, other ≠ body → (body <+: other ∨ other <+: body) →
    decode other = .error (.malformed notPacked)
  apart : ∀ other a, decode other = .ok a → (body <+: other ∨ other <+: body) → other = body
  read : ∀ other, other ≠ body → (body <+: other ∨ other <+: body) → other.length ≤ maxBody →
    ∀ s rest, src.Delivers s (framed other ++ rest) →
      ∃ t, readWith decode src s = (.error (.malformed notPacked), t) ∧ src.Delivers t rest

theorem endsOnce_of_local (src : Source σ) {decode : Bytes → Except CodecError α}
    {p : Packing.Parse β} (hp : p.Local)
    (hnone : ∀ {bs}, p.complete bs = none → decode bs = .error (.malformed notPacked))
    {body : Bytes} {b : β} (hbody : p.complete body = some b) : EndsOnce src decode body := by
  have hrefused : ∀ other, other ≠ body → (body <+: other ∨ other <+: body) →
      decode other = .error (.malformed notPacked) :=
    fun other hne hcut => hnone (hp.complete_eq_none hbody hne hcut)
  refine ⟨hrefused, ?_, ?_⟩
  · intro other a ha hcut
    refine Decidable.byContradiction fun hne => ?_
    rw [hrefused other hne hcut] at ha
    cases ha
  · intro other hne hcut hsize s rest hs
    obtain ⟨t, hr, ht⟩ := readWith_framed decode hs hsize
    rw [hrefused other hne hcut] at hr
    exact ⟨t, hr, ht⟩

/-- An accepted body has one end, and an accepted call has its names and an argument for
every parameter type. -/
theorem bodies_end_once (src : Source σ) :
    (∀ body c, decodeCall body = .ok c → EndsOnce src decodeCall body) ∧
    (∀ body r, decodeReturn body = .ok r → EndsOnce src decodeReturn body) ∧
    (∀ s c t, readCall src s = (.ok (some c), t) →
      (∃ body, Body.readCall.complete body = some (Body.fieldsOf c)) ∧
      c.interface ≠ "" ∧ c.method ≠ "" ∧ c.types.length = c.arguments.length) := by
  refine ⟨?_, ?_, ?_⟩
  · intro body c hc
    exact endsOnce_of_local src Body.local_readCall decodeCall_of_none (decodeCall_eq_ok hc).1
  · intro body r hr
    exact endsOnce_of_local src Body.local_readReturn decodeReturn_of_none (decodeReturn_eq_ok hr)
  · intro s c t h
    obtain ⟨body, hc⟩ := exists_decode_of_readWith h
    obtain ⟨hfields, hchecked⟩ := decodeCall_eq_ok hc
    exact ⟨⟨body, hfields⟩, hchecked⟩

/-- The body of the sample call with a byte behind it, and without its last byte. -/
theorem bodies_end_once_sample :
    let body := Body.writeCall sampleCall
    decodeCall body = .ok sampleCall ∧
    (readCall Script.source [.chunk (framed (body ++ [0]))]).1 = .error (.malformed notPacked) ∧
    (readCall Script.source [.chunk (framed body.dropLast)]).1 = .error (.malformed notPacked) := by
  intro body
  have hbody : decodeCall body = .ok sampleCall := decodeCall_writeCall (by decide +kernel) rfl
  have hend := (bodies_end_once Script.source).1 body sampleCall hbody
  have hread (other : Bytes) (hne : other ≠ body) (hcut : body <+: other ∨ other <+: body)
      (hsize : other.length ≤ maxBody) :
      (readCall Script.source [.chunk (framed other)]).1 = .error (.malformed notPacked) := by
    have hframe : 0 < (framed other).length := List.length_pos_iff.mpr (framed_ne_nil other)
    have hs := Script.source_delivers_chunk hframe
    rw [← List.append_nil (framed other)] at hs
    obtain ⟨t, hr, -⟩ := hend.read other hne hcut hsize _ [] hs
    rw [List.append_nil] at hr
    exact congrArg Prod.fst hr
  refine ⟨hbody, hread _ (by simp) (Or.inl (List.prefix_append body [0])) (by decide +kernel), ?_⟩
  exact hread _ (by decide +kernel) (Or.inr (List.dropLast_prefix body)) (by decide +kernel)

end Frame
end RemoteCall
