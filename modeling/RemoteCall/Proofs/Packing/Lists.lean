import RemoteCall.Proofs.Packing.Words

/-!
Columns of lists, strings and options are given back.

The lengths in front of a list column must add up to less than the reader's limit.
They do when the members behind them are few enough, and a column of members that take
at least a bit each cannot hold many (`Column.FaithfulOn.length_le`).
-/

namespace RemoteCall
namespace Packing
namespace Lengths

/-- A length, as the octet in front. -/
theorem short_eq_iff (l : Nat) : UInt8.ofNat (min l 255) = 255 ↔ 255 ≤ l := by
  have h : (UInt8.ofNat (min l 255)).toNat = min l 255 := by
    rw [UInt8.toNat_ofNat']
    omega
  constructor
  · intro e
    rw [e] at h
    have : (255 : UInt8).toNat = 255 := rfl
    omega
  · intro hl
    rw [Nat.min_eq_right hl]
    rfl

theorem count_short (ls : List Nat) :
    (ls.map fun l => UInt8.ofNat (min l 255)).count 255 = (ls.filter (255 ≤ ·)).length := by
  induction ls with
  | nil => rfl
  | cons l ls ih =>
    rw [List.map_cons, List.count_cons, ih]
    by_cases h : 255 ≤ l
    · rw [if_pos (beq_iff_eq.mpr ((short_eq_iff l).mpr h)), List.filter_cons_of_pos (by simpa using h),
        List.length_cons]
    · rw [if_neg (fun e => h ((short_eq_iff l).mp (beq_iff_eq.mp e))),
        List.filter_cons_of_neg (by simpa using h), Nat.add_zero]

theorem fillIn_short (ls : List Nat) :
    fillIn (ls.map fun l => UInt8.ofNat (min l 255)) (ls.filter (255 ≤ ·)) = ls := by
  induction ls with
  | nil => rfl
  | cons l ls ih =>
    rw [List.map_cons]
    by_cases h : 255 ≤ l
    · rw [List.filter_cons_of_pos (by simpa using h), fillIn,
        if_pos ((short_eq_iff l).mpr h)]
      show l :: fillIn _ (ls.filter (255 ≤ ·)) = l :: ls
      rw [ih]
    · have hl : (UInt8.ofNat (min l 255)).toNat = l := by
        rw [UInt8.toNat_ofNat']
        omega
      rw [List.filter_cons_of_neg (by simpa using h), fillIn.eq_def]
      dsimp only
      rw [if_neg (fun e => h ((short_eq_iff l).mp e)), hl, ih]

theorem le_total {l : Nat} {ls : List Nat} (h : l ∈ ls) : l ≤ total ls := by
  induction ls with
  | nil => exact absurd h List.not_mem_nil
  | cons m ls ih =>
    show l ≤ m + total ls
    rcases List.mem_cons.mp h with rfl | h
    · exact Nat.le_add_right _ _
    · exact Nat.le_trans (ih h) (Nat.le_add_left _ _)

theorem total_map_length {α : Type} (ass : List (List α)) :
    total (ass.map List.length) = ass.flatten.length := by
  induction ass with
  | nil => rfl
  | cons as ass ih =>
    show as.length + total (ass.map List.length) = _
    rw [ih, List.flatten_cons, List.length_append]

theorem length_le_write (ls : List Nat) : ls.length ≤ 8 * (write ls).length := by
  have := Octets.length_le_write (ls.map fun l => UInt8.ofNat (min l 255))
  rw [List.length_map] at this
  rw [write, List.length_append]
  omega

theorem reads_write {ls : List Nat} (h : total ls < totalLimit) :
    (read ls.length).Reads (write ls) ls := by
  have hshort := Octets.reads_write (ls.map fun l => UInt8.ofNat (min l 255))
  rw [List.length_map] at hshort
  have hlong := WordKind.reads_write (k := .u64) (.inr rfl) (ls.filter (255 ≤ ·))
    (fun l hl => by
      have hle := le_total (List.mem_filter.mp hl).1
      have hlim : totalLimit < WordKind.u64.modulus := by decide
      omega)
  rw [← count_short] at hlong
  refine hshort.bind (hlong.bind_nil ?_)
  dsimp only
  rw [fillIn_short, if_pos h]
  exact Parse.Reads.pure ls

end Lengths

theorem splitLengths_flatten {α : Type} (ass : List (List α)) :
    splitLengths (ass.map List.length) ass.flatten = ass := by
  induction ass with
  | nil => rfl
  | cons as ass ih =>
    rw [List.map_cons, List.flatten_cons, splitLengths, List.take_left, List.drop_left, ih]

namespace Column

variable {α : Type}

theorem fits_of_le {c : Column α} {as : List α} {bs : Bytes}
    (h : 8 * bs.length < Lengths.totalLimit) (hle : (c.write as).length ≤ bs.length) : c.Fits as := by
  unfold Fits
  omega

theorem Faithful.list {c : Column α} (h : c.Faithful) : c.list.Faithful where
  reads ass _ hf := by
    have hc : c.Fits ass.flatten := fits_of_le hf (by
      show _ ≤ (Lengths.write (ass.map List.length) ++ c.write ass.flatten).length
      rw [List.length_append]
      omega)
    have htotal : Lengths.total (ass.map List.length) < Lengths.totalLimit := by
      have := h.length_le ass.flatten
      rw [Lengths.total_map_length]
      exact Nat.lt_of_le_of_lt this hc
    have hls := Lengths.reads_write htotal
    rw [List.length_map] at hls
    have has := h.reads_write ass.flatten hc
    rw [← Lengths.total_map_length] at has
    refine hls.bind (has.bind_nil ?_)
    rw [splitLengths_flatten]
    exact Parse.Reads.pure ass
  length_le ass := by
    have := Lengths.length_le_write (ass.map List.length)
    rw [List.length_map] at this
    show _ ≤ 8 * (Lengths.write (ass.map List.length) ++ c.write ass.flatten).length
    rw [List.length_append]
    omega

theorem fillPresent_some (os : List (Option α)) :
    fillPresent (os.map Option.isSome) (os.filterMap id) = os := by
  induction os with
  | nil => rfl
  | cons o os ih =>
    cases o with
    | none =>
      show none :: fillPresent (os.map Option.isSome) (os.filterMap id) = none :: os
      rw [ih]
    | some a =>
      show some a :: fillPresent (os.map Option.isSome) (os.filterMap id) = some a :: os
      rw [ih]

theorem count_isSome (os : List (Option α)) :
    (os.map Option.isSome).count true = (os.filterMap id).length := by
  induction os with
  | nil => rfl
  | cons o os ih =>
    cases o with
    | none => simpa using ih
    | some a => simpa using ih

theorem Faithful.option {c : Column α} (h : c.Faithful) : c.option.Faithful where
  reads os _ hf := by
    have hlen : (c.option.write os).length
        = (bools.write (os.map Option.isSome)).length + (c.write (os.filterMap id)).length :=
      List.length_append
    have hb := bools_faithful.reads_write (os.map Option.isSome) (fits_of_le hf (by omega))
    rw [List.length_map] at hb
    have hc := h.reads_write (os.filterMap id) (fits_of_le hf (by omega))
    rw [← count_isSome] at hc
    refine hb.bind (hc.bind_nil ?_)
    rw [fillPresent_some]
    exact Parse.Reads.pure os
  length_le os := by
    have := bools_faithful.length_le (os.map Option.isSome)
    rw [List.length_map] at this
    show _ ≤ 8 * (bools.write (os.map Option.isSome) ++ c.write (os.filterMap id)).length
    rw [List.length_append]
    omega

end Column

theorem strings_faithful : strings.Faithful :=
  Column.rawBytes_faithful.list.refine (fun _ => trivial) Bytes.toString?_ofString

end Packing
end RemoteCall
