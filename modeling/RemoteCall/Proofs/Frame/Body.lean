import RemoteCall.Frame.Body
import RemoteCall.Proofs.Packing.Lists

/-!
Frame bodies are given back.

Each column of a body is faithful, so a body is read field by field
(`reads_writeCall`, `reads_writeReturn`).  A column of values is put together again by
`Pools.draw_ofValues`: the tags say which pool each value comes from, and every pool
holds its values in order.
-/

namespace RemoteCall
namespace Body

open Packing

/-! ## Values -/

theorem types_faithful : types.Faithful :=
  Radix.sixteen.column_faithfulOn.refine (fun t => Nat.lt_trans t.tag_lt (by decide))
    ValueType.ofTag?_tag

theorem binaries_faithful : binaries.Faithful :=
  words64_faithful.refine (fun _ => trivial) fun _ => rfl

theorem Pools.ofValues_cons (v : Value) (vs : List Value) :
    Pools.ofValues (v :: vs) = (Pools.ofValues vs).push v := rfl

/-- How many values each pool holds. -/
structure Pools.Counts (p : Pools) (ts : List ValueType) : Prop where
  bools : ts.count .bool = p.bools.length
  ints : ts.count .int = p.ints.length
  floats : ts.count .float = p.floats.length
  strs : ts.count .str = p.strs.length
  bytes : ts.count .bytes = p.bytes.length
  floatLists : ts.count .floatList = p.floatLists.length
  strLists : ts.count .strList = p.strLists.length

theorem Pools.counts_ofValues (vs : List Value) :
    (Pools.ofValues vs).Counts (vs.map Value.type) := by
  induction vs with
  | nil => exact ⟨rfl, rfl, rfl, rfl, rfl, rfl, rfl⟩
  | cons v vs ih =>
    obtain ⟨hb, hi, hf, hs, hy, hg, hl⟩ := ih
    rw [Pools.ofValues_cons, List.map_cons]
    cases v <;> constructor <;> simp [Value.type, Pools.push, *]

/-- The values come out of their pools in the order their tags say. -/
theorem Pools.draw_ofValues (vs : List Value) :
    Pools.draw (Pools.ofValues vs) (vs.map Value.type) = some vs := by
  induction vs with
  | nil => rw [List.map_nil, Pools.draw]
  | cons v vs ih =>
    rw [Pools.ofValues_cons, List.map_cons]
    cases v <;> simp [Value.type, Pools.push, Pools.draw, ih]

theorem values_faithful : values.Faithful where
  reads vs _ hf := by
    have hc := Pools.counts_ofValues vs
    have hlen : (values.write vs).length = (types.write (vs.map Value.type)).length
        + (bools.write (Pools.ofValues vs).bools).length
        + (signed64.write (Pools.ofValues vs).ints).length
        + (binaries.write (Pools.ofValues vs).floats).length
        + (strings.write (Pools.ofValues vs).strs).length
        + (octets.list.write (Pools.ofValues vs).bytes).length
        + (binaries.list.write (Pools.ofValues vs).floatLists).length
        + (strings.list.write (Pools.ofValues vs).strLists).length := by
      show List.length (_ ++ _ ++ _ ++ _ ++ _ ++ _ ++ _ ++ _) = _
      simp only [List.length_append]
    have ht := types_faithful.reads_write (vs.map Value.type) (Column.fits_of_le hf (by omega))
    have hb := bools_faithful.reads_write ((Pools.ofValues vs).bools)
      (Column.fits_of_le hf (by omega))
    have hi := signed64_faithful.reads_write ((Pools.ofValues vs).ints)
      (Column.fits_of_le hf (by omega))
    have hx := binaries_faithful.reads_write ((Pools.ofValues vs).floats)
      (Column.fits_of_le hf (by omega))
    have hs := strings_faithful.reads_write ((Pools.ofValues vs).strs)
      (Column.fits_of_le hf (by omega))
    have hy := octets_faithful.list.reads_write ((Pools.ofValues vs).bytes)
      (Column.fits_of_le hf (by omega))
    have hg := binaries_faithful.list.reads_write ((Pools.ofValues vs).floatLists)
      (Column.fits_of_le hf (by omega))
    have hl := strings_faithful.list.reads_write ((Pools.ofValues vs).strLists)
      (Column.fits_of_le hf (by omega))
    rw [List.length_map] at ht
    rw [← hc.bools] at hb
    rw [← hc.ints] at hi
    rw [← hc.floats] at hx
    rw [← hc.strs] at hs
    rw [← hc.bytes] at hy
    rw [← hc.floatLists] at hg
    rw [← hc.strLists] at hl
    have hd : (Parse.check (Pools.draw (Pools.ofValues vs) (vs.map Value.type))).Reads [] vs :=
      Parse.Reads.check (Pools.draw_ofValues vs)
    show (values.read vs.length).Reads (_ ++ _ ++ _ ++ _ ++ _ ++ _ ++ _ ++ _) vs
    simp only [List.append_assoc]
    exact ht.bind (hb.bind (hi.bind (hx.bind (hs.bind (hy.bind (hg.bind (hl.bind_nil hd)))))))
  length_le vs := by
    have := types_faithful.length_le (vs.map Value.type)
    rw [List.length_map] at this
    show _ ≤ 8 * List.length (_ ++ _ ++ _ ++ _ ++ _ ++ _ ++ _ ++ _)
    simp only [List.length_append]
    omega

/-! ## Failures and user data -/

theorem origins_faithful : origins.Faithful :=
  bools_faithful.refine (fun _ => trivial) fun o => by cases o <;> rfl

theorem zipFailures_map (fs : List RemoteFailure) :
    zipFailures (fs.map (·.kind)) (fs.map (·.supertypes)) (fs.map (·.message))
      (fs.map (·.trace)) (fs.map (·.origin)) = fs := by
  induction fs with
  | nil => rfl
  | cons f fs ih =>
    simp only [List.map_cons, zipFailures, ih]

theorem failures_faithful : failures.Faithful where
  reads fs _ hf := by
    have hlen : (failures.write fs).length = (strings.write (fs.map (·.kind))).length
        + (strings.list.write (fs.map (·.supertypes))).length
        + (strings.write (fs.map (·.message))).length
        + (strings.list.write (fs.map (·.trace))).length
        + (origins.write (fs.map (·.origin))).length := by
      show List.length (_ ++ _ ++ _ ++ _ ++ _) = _
      simp only [List.length_append]
    have hk := strings_faithful.reads_write (fs.map (·.kind))
      (Column.fits_of_le hf (by omega))
    have hs := strings_faithful.list.reads_write (fs.map (·.supertypes))
      (Column.fits_of_le hf (by omega))
    have hm := strings_faithful.reads_write (fs.map (·.message))
      (Column.fits_of_le hf (by omega))
    have ht := strings_faithful.list.reads_write (fs.map (·.trace))
      (Column.fits_of_le hf (by omega))
    have ho := origins_faithful.reads_write (fs.map (·.origin))
      (Column.fits_of_le hf (by omega))
    rw [List.length_map] at hk hs hm ht ho
    show (failures.read fs.length).Reads (_ ++ _ ++ _ ++ _ ++ _) fs
    simp only [List.append_assoc]
    refine hk.bind (hs.bind (hm.bind (ht.bind (ho.bind_nil ?_))))
    rw [zipFailures_map]
    exact Parse.Reads.pure fs
  length_le fs := by
    have := strings_faithful.length_le (fs.map (·.kind))
    rw [List.length_map] at this
    show _ ≤ 8 * List.length (_ ++ _ ++ _ ++ _ ++ _)
    simp only [List.length_append]
    omega

theorem userData_faithful : userData.Faithful := octets_faithful.list.option

/-! ## Bodies -/

def fieldsOf (c : CallFrame) : CallFields :=
  ⟨c.interface, c.method, c.types, c.arguments, c.flags, c.userData⟩

theorem reads_writeCall {c : CallFrame} (h : 8 * (writeCall c).length < Lengths.totalLimit) :
    readCall.Reads (writeCall c) (fieldsOf c) := by
  have hlen : (writeCall c).length = (strings.write [c.interface]).length
      + (strings.write [c.method]).length + (types.list.write [c.types]).length
      + (values.list.write [c.arguments]).length + (words32.write [c.flags]).length
      + (userData.write [c.userData]).length := by
    unfold writeCall
    simp only [List.length_append]
  have hi := strings_faithful.readOne (a := c.interface) (Column.fits_of_le h (by omega))
  have hm := strings_faithful.readOne (a := c.method) (Column.fits_of_le h (by omega))
  have ht := types_faithful.list.readOne (a := c.types) (Column.fits_of_le h (by omega))
  have ha := values_faithful.list.readOne (a := c.arguments) (Column.fits_of_le h (by omega))
  have hf := words32_faithful.readOne (a := c.flags) (Column.fits_of_le h (by omega))
  have hu := userData_faithful.readOne (a := c.userData) (Column.fits_of_le h (by omega))
  unfold writeCall
  simp only [List.append_assoc]
  exact hi.bind (hm.bind (ht.bind (ha.bind (hf.bind (hu.bind_nil (Parse.Reads.pure _))))))

theorem reads_writeOutcome {o : Outcome} (h : 8 * (writeOutcome o).length < Lengths.totalLimit) :
    readOutcome.Reads (writeOutcome o) o := by
  cases o with
  | value v =>
    have hlen : (writeOutcome (.value v)).length = (bools.write [false]).length
        + (values.write [v]).length + (failures.write []).length := by
      unfold writeOutcome
      simp only [List.length_append]
    have ht := bools_faithful.readOne (a := false) (Column.fits_of_le h (by omega))
    have hv := values_faithful.reads_write [v] (Column.fits_of_le h (by omega))
    have hf := failures_faithful.reads_write [] (Column.fits_of_le h (by omega))
    unfold writeOutcome
    simp only [List.append_assoc]
    exact ht.bind (hv.bind (hf.bind_nil (Parse.Reads.pure _)))
  | failure f =>
    have hlen : (writeOutcome (.failure f)).length = (bools.write [true]).length
        + (values.write []).length + (failures.write [f]).length := by
      unfold writeOutcome
      simp only [List.length_append]
    have ht := bools_faithful.readOne (a := true) (Column.fits_of_le h (by omega))
    have hv := values_faithful.reads_write [] (Column.fits_of_le h (by omega))
    have hf := failures_faithful.reads_write [f] (Column.fits_of_le h (by omega))
    unfold writeOutcome
    simp only [List.append_assoc]
    exact ht.bind (hv.bind (hf.bind_nil (Parse.Reads.pure _)))

theorem reads_writeReturn {r : ReturnFrame} (h : 8 * (writeReturn r).length < Lengths.totalLimit) :
    readReturn.Reads (writeReturn r) r := by
  have hlen : (writeReturn r).length = (writeOutcome r.result).length
      + (words32.write [r.flags]).length + (userData.write [r.userData]).length := by
    unfold writeReturn
    simp only [List.length_append]
  have ho := reads_writeOutcome (o := r.result) (by omega)
  have hf := words32_faithful.readOne (a := r.flags) (Column.fits_of_le h (by omega))
  have hu := userData_faithful.readOne (a := r.userData) (Column.fits_of_le h (by omega))
  unfold writeReturn
  simp only [List.append_assoc]
  exact ho.bind (hf.bind (hu.bind_nil (Parse.Reads.pure _)))

end Body
end RemoteCall
