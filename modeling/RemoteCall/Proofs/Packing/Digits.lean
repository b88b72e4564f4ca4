import RemoteCall.Proofs.Packing.Reading

/-!
Digits and octets are given back.

A byte of a radix column holds a number, and `digits_value` recovers its digits, with
zeros where the last byte holds fewer than it could.  An octet column is a radix column
behind a header; the level the writer picks is wide enough for every byte it packs,
which is all that `Octets.reads_write` needs of it.
-/

namespace RemoteCall
namespace Packing
namespace Radix

theorem value_lt {base : Nat} {ds : List Nat} (h : ∀ d ∈ ds, d < base) :
    value base ds < Nat.pow base ds.length := by
  induction ds with
  | nil => exact Nat.one_pos
  | cons d ds ih =>
    have hd : d < base := h d List.mem_cons_self
    have hds : value base ds + 1 ≤ Nat.pow base ds.length :=
      ih fun e he => h e (List.mem_cons_of_mem d he)
    have hm : base * (value base ds + 1) ≤ base * Nat.pow base ds.length :=
      Nat.mul_le_mul_left base hds
    rw [Nat.mul_add, Nat.mul_one, Nat.mul_comm base (Nat.pow base ds.length)] at hm
    show d + base * value base ds < Nat.pow base ds.length * base
    omega

/-- The digits of a number are those it was made of; missing ones are zero. -/
theorem digits_value {base k : Nat} {ds : List Nat} (h : ∀ d ∈ ds, d < base)
    (hk : ds.length ≤ k) :
    digits base k (value base ds) = ds ++ digits base (k - ds.length) 0 := by
  induction ds generalizing k with
  | nil => rfl
  | cons d ds ih =>
    have hd : d < base := h d List.mem_cons_self
    have hpos : 0 < base := by omega
    obtain ⟨j, rfl⟩ : ∃ j, k = j + 1 := ⟨k - 1, by rw [List.length_cons] at hk; omega⟩
    rw [List.length_cons] at hk
    have hmod : (d + base * value base ds) % base = d := by
      rw [Nat.add_mul_mod_self_left, Nat.mod_eq_of_lt hd]
    have hdiv : (d + base * value base ds) / base = value base ds := by
      rw [Nat.add_mul_div_left _ _ hpos, Nat.div_eq_of_lt hd, Nat.zero_add]
    rw [value, digits, hmod, hdiv, ih (fun e he => h e (List.mem_cons_of_mem d he)) (by omega),
      List.length_cons, Nat.succ_sub_succ, List.cons_append]

/-- No byte holds more than eight digits. -/
theorem perByte_le (r : Radix) : r.perByte ≤ 8 := by
  have hb : 2 ^ r.perByte ≤ r.base ^ r.perByte := Nat.pow_le_pow_left r.base_pos r.perByte
  have hf : r.base ^ r.perByte ≤ 256 := r.fits
  have h8 : 2 ^ r.perByte ≤ 2 ^ 8 := Nat.le_trans hb hf
  exact (Nat.pow_le_pow_iff_right (by decide)).mp h8

/-- The digits of one byte. -/
theorem digits_byte (r : Radix) {ds : List Nat} (h : ∀ d ∈ ds, d < r.base)
    (hl : ds.length ≤ r.perByte) :
    digits r.base r.perByte (UInt8.ofNat (value r.base ds)).toNat
      = ds ++ digits r.base (r.perByte - ds.length) 0 := by
  have hv : value r.base ds < r.base ^ ds.length := value_lt h
  have hp : r.base ^ ds.length ≤ r.base ^ r.perByte :=
    Nat.pow_le_pow_right (Nat.lt_trans Nat.one_pos r.base_pos) hl
  have hf : r.base ^ r.perByte ≤ 256 := r.fits
  have hm : (UInt8.ofNat (value r.base ds)).toNat = value r.base ds := by
    rw [UInt8.toNat_ofNat']
    omega
  rw [hm, digits_value h hl]

theorem unpack_cons (r : Radix) (n : Nat) (b : UInt8) (bs : Bytes) :
    r.unpack n (b :: bs)
      = (digits r.base r.perByte b.toNat
        ++ bs.flatMap fun b => digits r.base r.perByte b.toNat).take n := by
  rw [unpack, List.flatMap_cons]

theorem unpack_pack (r : Radix) {ds : List Nat} (h : ∀ d ∈ ds, d < r.base) :
    r.unpack ds.length (r.pack ds) = ds := by
  fun_induction pack r ds with
  | case1 => rfl
  | case2 ds hne _ _ ih =>
    have htake : ∀ d ∈ ds.take r.perByte, d < r.base := fun d hd => h d (List.mem_of_mem_take hd)
    have hdrop : ∀ d ∈ ds.drop r.perByte, d < r.base := fun d hd => h d (List.mem_of_mem_drop hd)
    have hlen : (ds.take r.perByte).length ≤ r.perByte := List.length_take_le ..
    have hrest := ih hdrop
    rw [unpack_cons, digits_byte r htake hlen]
    rcases Nat.lt_or_ge ds.length r.perByte with hlt | hge
    · -- The last byte, not filled: what it holds behind the digits is cut off.
      rw [List.take_of_length_le (Nat.le_of_lt hlt), List.append_assoc, List.take_left]
    · have hfull : (ds.take r.perByte).length = r.perByte := by
        rw [List.length_take]
        omega
      rw [hfull, Nat.sub_self, digits, List.append_nil, List.take_append, hfull,
        List.take_of_length_le (by omega)]
      rw [unpack, List.length_drop] at hrest
      rw [hrest, List.take_append_drop]

theorem length_pack (r : Radix) (ds : List Nat) : (r.pack ds).length = r.byteCount ds.length := by
  have hp := r.perByte_pos
  fun_induction pack r ds with
  | case1 =>
    rw [byteCount, List.length_nil, List.length_nil, Nat.zero_add, Nat.div_eq_of_lt (by omega)]
  | case2 ds hne hpos _ ih =>
    rw [List.length_cons, ih, byteCount, byteCount, List.length_drop]
    rcases Nat.lt_or_ge ds.length r.perByte with hlt | hge
    · rw [show ds.length - r.perByte + r.perByte - 1 = r.perByte - 1 by omega,
        Nat.div_eq_of_lt (by omega),
        show ds.length + r.perByte - 1 = r.perByte + (ds.length - 1) by omega,
        Nat.add_div_left _ hp, Nat.div_eq_of_lt (by omega)]
    · rw [show ds.length + r.perByte - 1 = ds.length - r.perByte + r.perByte - 1 + r.perByte by omega,
        Nat.add_div_right _ hp]

/-- A packed digit takes at least a bit. -/
theorem length_le_pack (r : Radix) (ds : List Nat) : ds.length ≤ 8 * (r.pack ds).length := by
  have hp := r.perByte_le
  fun_induction pack r ds with
  | case1 => exact Nat.zero_le _
  | case2 ds hne hpos _ ih =>
    rw [List.length_cons]
    rw [List.length_drop] at ih
    omega

theorem reads_pack (r : Radix) {ds : List Nat} (h : ∀ d ∈ ds, d < r.base) :
    (r.column.read ds.length).Reads (r.pack ds) ds := by
  have hr : (r.column.read ds.length).Reads (r.pack ds) (r.unpack ds.length (r.pack ds)) :=
    (Parse.Reads.take_of_length (r.length_pack ds)).bind_nil (Parse.Reads.pure _)
  rwa [unpack_pack r h] at hr

theorem column_faithfulOn (r : Radix) : r.column.FaithfulOn (· < r.base) where
  reads _ h _ := r.reads_pack h
  length_le := r.length_le_pack

end Radix

theorem bools_faithful : bools.Faithful :=
  Radix.two.column_faithfulOn.refine (fun b => by cases b <;> decide) fun b => by cases b <;> rfl

/-- A running minimum and maximum bound what they ran over, in any measure that takes
the one to the other. -/
theorem foldl_range_bounds {α : Type} [Min α] [Max α] (f : α → Int)
    (hmin : ∀ a b, f (min a b) = min (f a) (f b)) (hmax : ∀ a b, f (max a b) = max (f a) (f b))
    (as : List α) (r : α × α) :
    let s := as.foldl (fun r x => (min r.1 x, max r.2 x)) r
    f s.1 ≤ f r.1 ∧ f r.2 ≤ f s.2 ∧ ∀ a ∈ as, f s.1 ≤ f a ∧ f a ≤ f s.2 := by
  induction as generalizing r with
  | nil =>
    refine ⟨Int.le_refl _, Int.le_refl _, fun a ha => ?_⟩
    exact absurd ha List.not_mem_nil
  | cons a as ih =>
    obtain ⟨hl, hh, hm⟩ := ih (min r.1 a, max r.2 a)
    rw [hmin] at hl
    rw [hmax] at hh
    rw [List.foldl_cons]
    refine ⟨by omega, by omega, fun b hb => ?_⟩
    rcases List.mem_cons.mp hb with rfl | hb
    · constructor <;> omega
    · exact hm b hb

namespace Octets

theorem le_range {bs : Bytes} {b : UInt8} (hb : b ∈ bs) :
    (range bs).1.toNat ≤ b.toNat ∧ b.toNat ≤ (range bs).2.toNat := by
  have hmin : ∀ a b : UInt8, ((min a b).toNat : Int) = min (a.toNat : Int) b.toNat := by
    intro a b
    show (((if a ≤ b then a else b).toNat : Nat) : Int) = _
    by_cases h : a ≤ b
    · have := UInt8.le_iff_toNat_le.mp h
      rw [if_pos h]
      omega
    · have := mt UInt8.le_iff_toNat_le.mpr h
      rw [if_neg h]
      omega
  have hmax : ∀ a b : UInt8, ((max a b).toNat : Int) = max (a.toNat : Int) b.toNat := by
    intro a b
    show (((if a ≤ b then b else a).toNat : Nat) : Int) = _
    by_cases h : a ≤ b
    · have := UInt8.le_iff_toNat_le.mp h
      rw [if_pos h]
      omega
    · have := mt UInt8.le_iff_toNat_le.mpr h
      rw [if_neg h]
      omega
  cases bs with
  | nil => exact absurd hb List.not_mem_nil
  | cons c cs =>
    obtain ⟨hl, hh, hm⟩ := foldl_range_bounds (fun x : UInt8 => (x.toNat : Int)) hmin hmax cs (c, c)
    dsimp only at hl hh
    rw [range]
    rcases List.mem_cons.mp hb with rfl | hb
    · constructor <;> omega
    · have := hm b hb
      constructor <;> omega

/-- The level for bytes up to `top` is one of the six, and its radix exceeds `top`. -/
theorem lt_base_level {top : Nat} (h : top < 256) :
    level top ≤ 5 ∧ radices[level top]? = some (radix (level top)) ∧
      top < (radix (level top)).base := by
  unfold level
  split
  · exact ⟨by decide, rfl, by show top < 2; omega⟩
  · split
    · exact ⟨by decide, rfl, by show top < 3; omega⟩
    · split
      · exact ⟨by decide, rfl, by show top < 4; omega⟩
      · split
        · exact ⟨by decide, rfl, by show top < 6; omega⟩
        · split
          · exact ⟨by decide, rfl, by show top < 16; omega⟩
          · exact ⟨by decide, rfl, by show top < 256; omega⟩

theorem length_le_pack (l : Nat) (bs : Bytes) : bs.length ≤ 8 * (pack l bs).length := by
  have := (radix l).length_le_pack (bs.map UInt8.toNat)
  rwa [List.length_map] at this

theorem length_le_write (bs : Bytes) : bs.length ≤ 8 * (write bs).length := by
  unfold write
  split
  · omega
  · dsimp only
    split
    · have := length_le_pack (level ((range bs).2 - (range bs).1).toNat) (bs.map (· - (range bs).1))
      rw [List.length_map] at this
      rw [List.length_cons, List.length_cons]
      omega
    · have := length_le_pack (level (range bs).2.toNat) bs
      rw [List.length_cons]
      omega

/-- What is packed at the level of a bound is unpacked again. -/
theorem reads_pack {top : Nat} (ht : top < 256) {bs : Bytes} (h : ∀ b ∈ bs, b.toNat ≤ top) :
    ((radix (level top)).column.read bs.length).Reads (pack (level top) bs)
      (bs.map UInt8.toNat) := by
  have hd : ∀ d ∈ bs.map UInt8.toNat, d < (radix (level top)).base := by
    intro d hd
    obtain ⟨b, hb, rfl⟩ := List.mem_map.mp hd
    exact Nat.lt_of_le_of_lt (h b hb) (lt_base_level ht).2.2
  have := (radix (level top)).reads_pack hd
  rwa [List.length_map] at this

/-- The bytes behind a header, read back: the digits of each, and what was taken off. -/
theorem reads_body {n l : Nat} {ds : List Nat} {packed : Bytes} (header : UInt8) (low : Bytes)
    (offset : UInt8) (hn : ¬ n ≤ 2) (hl : radices[l]? = some (radix l))
    (hh : (header.toNat + 1) / 2 = l)
    (ho : (if header.toNat % 2 = 1 then Parse.byte else pure 0).Reads low offset)
    (hp : ((radix l).column.read n).Reads packed ds) :
    (read n).Reads (header :: (low ++ packed)) (ds.map fun d => UInt8.ofNat d + offset) := by
  rw [read, if_neg hn]
  refine (Parse.Reads.byte header).bind ?_
  rw [hh, hl]
  refine (Parse.Reads.pure (radix l)).nil_bind ?_
  have hrest : (do
      let ds ← (radix l).column.read n
      pure (ds.map fun d => UInt8.ofNat d + offset)).Reads packed
        (ds.map fun d => UInt8.ofNat d + offset) := hp.bind_nil (Parse.Reads.pure _)
  by_cases hodd : header.toNat % 2 = 1
  · rw [if_pos hodd] at ho
    rw [if_pos hodd]
    exact ho.bind hrest
  · rw [if_neg hodd] at ho
    rw [if_neg hodd]
    exact ho.bind hrest

/-- Bytes packed at the level of a bound, behind the header of the level. -/
theorem reads_plain {bs : Bytes} (hn : ¬ bs.length ≤ 2) {top : Nat} (ht : top < 256)
    (h : ∀ b ∈ bs, b.toNat ≤ top) :
    (read bs.length).Reads (UInt8.ofNat (2 * level top) :: pack (level top) bs) bs := by
  obtain ⟨hl5, hl, -⟩ := lt_base_level ht
  have hp := reads_pack ht h
  have hheader : (UInt8.ofNat (2 * level top)).toNat = 2 * level top := by
    rw [UInt8.toNat_ofNat']
    omega
  have hr := reads_body (UInt8.ofNat (2 * level top)) [] 0 hn hl (by rw [hheader]; omega)
    (by rw [if_neg (by rw [hheader]; omega)]; exact Parse.Reads.pure 0) hp
  have hback : (bs.map UInt8.toNat).map (fun d => UInt8.ofNat d + 0) = bs := by
    rw [List.map_map]
    refine (List.map_congr_left fun b _ => ?_).trans (List.map_id bs)
    simp
  rwa [hback] at hr

/-- Bytes with the least of them taken off; what is left is at most the spread. -/
theorem reads_shifted {bs : Bytes} (hn : ¬ bs.length ≤ 2) {low high : UInt8}
    (h : ∀ b ∈ bs, low.toNat ≤ b.toNat ∧ b.toNat ≤ high.toNat)
    (hpos : 0 < level (high - low).toNat) :
    (read bs.length).Reads (UInt8.ofNat (2 * level (high - low).toNat - 1) :: low ::
      pack (level (high - low).toNat) (bs.map (· - low))) bs := by
  obtain ⟨hl5, hl, -⟩ := lt_base_level (UInt8.toNat_lt (high - low))
  have hheader : (UInt8.ofNat (2 * level (high - low).toNat - 1)).toNat
      = 2 * level (high - low).toNat - 1 := by
    rw [UInt8.toNat_ofNat']
    omega
  have hle : ∀ b ∈ bs.map (· - low), b.toNat ≤ (high - low).toNat := by
    intro b hb
    obtain ⟨c, hc, rfl⟩ := List.mem_map.mp hb
    obtain ⟨hlc, hch⟩ := h c hc
    rw [UInt8.toNat_sub_of_le _ _ (UInt8.le_iff_toNat_le.mpr hlc),
      UInt8.toNat_sub_of_le _ _ (UInt8.le_iff_toNat_le.mpr (by omega))]
    omega
  have hp := reads_pack (UInt8.toNat_lt (high - low)) hle
  rw [List.length_map] at hp
  have hr := reads_body (UInt8.ofNat (2 * level (high - low).toNat - 1)) [low] low hn hl
    (by rw [hheader]; omega)
    (by rw [if_pos (by rw [hheader]; omega)]; exact Parse.Reads.byte low) hp
  have hback : ((bs.map (· - low)).map UInt8.toNat).map (fun d => UInt8.ofNat d + low) = bs := by
    rw [List.map_map, List.map_map]
    refine (List.map_congr_left fun b _ => ?_).trans (List.map_id bs)
    simp
  rwa [hback] at hr

theorem reads_write (bs : Bytes) : (read bs.length).Reads (write bs) bs := by
  have hrange := fun b (hb : b ∈ bs) => le_range hb
  unfold write
  split
  · next hn =>
    rw [read, if_pos hn]
    exact Parse.Reads.take bs
  · next hn =>
    dsimp only
    split
    · next hs => exact reads_shifted hn hrange (by omega)
    · exact reads_plain hn (UInt8.toNat_lt _) fun b hb => (hrange b hb).2

end Octets

theorem octets_faithful : octets.Faithful where
  reads bs _ _ := Octets.reads_write bs
  length_le := Octets.length_le_write

end Packing
end RemoteCall
