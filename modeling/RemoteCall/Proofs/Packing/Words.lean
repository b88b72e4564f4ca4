import RemoteCall.Proofs.Packing.Digits

/-!
Words are given back.

At every level a word column holds the low bytes of its words, so what is written at a
level wide enough for all of them is read back (`reads_writeAt`).  The level the writer
picks is wide enough (`lt_pow_level`), with an offset or without one; with one, the
words are restored modulo the size of a word (`number_sub_add`).
-/

namespace RemoteCall
namespace Packing
namespace WordKind

/-- The widths in use: words of four bytes and words of eight. -/
def Standard (k : WordKind) : Prop := k.levels = 2 ∨ k.levels = 3

theorem width_pos (k : WordKind) (l : Nat) : 0 < k.width l := Nat.two_pow_pos _

/-! ## Words at one level -/

theorem length_flatMap_writeLE (w : Nat) (ws : List Nat) :
    (ws.flatMap (Bytes.writeLE w)).length = ws.length * w := by
  induction ws with
  | nil => exact (Nat.zero_mul w).symm
  | cons v ws ih =>
    rw [List.flatMap_cons, List.length_append, ih, Bytes.length_writeLE, List.length_cons,
      Nat.succ_mul, Nat.add_comm]

theorem splitLE_flatMap {w : Nat} {ws : List Nat} (h : ∀ v ∈ ws, v < Nat.pow 256 w) :
    splitLE w ws.length (ws.flatMap (Bytes.writeLE w)) = ws := by
  induction ws with
  | nil => rfl
  | cons v ws ih =>
    have hl : (Bytes.writeLE w v).length = w := Bytes.length_writeLE w v
    have hv : v < Nat.pow 256 w := h v List.mem_cons_self
    rw [List.flatMap_cons, List.length_cons, splitLE, List.take_append_of_le_length (by omega),
      List.take_of_length_le (by omega), Bytes.readLE_writeLE hv,
      List.drop_append_of_le_length (by omega),
      List.drop_of_length_le (by omega), List.nil_append,
      ih fun u hu => h u (List.mem_cons_of_mem v hu)]

theorem reads_writeAt (k : WordKind) (l : Nat) (ws : List Nat)
    (h : ∀ v ∈ ws, v < Nat.pow 256 (k.width l)) :
    (k.readAt l ws.length).Reads (k.writeAt l ws) ws := by
  unfold readAt writeAt
  by_cases hw : k.width l = 1
  · rw [if_pos hw, if_pos hw]
    have hr := Octets.reads_write (ws.map UInt8.ofNat)
    rw [List.length_map] at hr
    have hback : (ws.map UInt8.ofNat).map UInt8.toNat = ws := by
      rw [List.map_map]
      refine (List.map_congr_left fun v hv => ?_).trans (List.map_id ws)
      have hv' : v < 256 := by
        have := h v hv
        rw [hw] at this
        exact this
      show (UInt8.ofNat v).toNat = v
      rw [UInt8.toNat_ofNat']
      omega
    have := hr.bind_nil (f := fun bs => pure (bs.map UInt8.toNat)) (Parse.Reads.pure _)
    rwa [hback] at this
  · rw [if_neg hw, if_neg hw]
    have := (Parse.Reads.take_of_length (length_flatMap_writeLE (k.width l) ws)).bind_nil
      (f := fun bs => pure (splitLE (k.width l) ws.length bs)) (Parse.Reads.pure _)
    rwa [splitLE_flatMap h] at this

theorem length_le_writeAt (k : WordKind) (l : Nat) (ws : List Nat) :
    ws.length ≤ 8 * (k.writeAt l ws).length := by
  unfold writeAt
  by_cases hw : k.width l = 1
  · rw [if_pos hw]
    have := Octets.length_le_write (ws.map UInt8.ofNat)
    rwa [List.length_map] at this
  · rw [if_neg hw, length_flatMap_writeLE]
    have := Nat.le_mul_of_pos_right ws.length (k.width_pos l)
    omega

/-! ## The level the writer picks -/

/-- A level is wide enough for the numbers it is picked for. -/
theorem lt_pow_level {k : WordKind} (hk : k.Standard) {top : Nat} (h : top < k.modulus) :
    k.level top ≤ k.levels ∧ top < Nat.pow 256 (k.width (k.level top)) := by
  have hmod : k.width 0 = Nat.pow 2 k.levels := rfl
  unfold modulus at h
  unfold level
  by_cases h1 : top < 256
  · rw [if_pos h1]
    have : k.width k.levels = 1 := by
      rw [width, Nat.sub_self, Nat.pow_eq, Nat.pow_zero]
    rw [this]
    exact ⟨Nat.le_refl _, h1⟩
  · rw [if_neg h1]
    by_cases h2 : top < 65536
    · rw [if_pos h2]
      refine ⟨Nat.sub_le _ _, ?_⟩
      rcases hk with hk | hk <;> rw [width, hk] <;> exact h2
    · rw [if_neg h2]
      by_cases h4 : top < 4294967296
      · rw [if_pos h4]
        refine ⟨Nat.sub_le _ _, ?_⟩
        rcases hk with hk | hk <;> rw [width, hk] <;> exact h4
      · rw [if_neg h4]
        exact ⟨Nat.zero_le _, h⟩

/-! ## Words as numbers -/

theorem number_eq (k : WordKind) (w : Nat) :
    k.number w = w ∨ k.number w = (w : Int) - k.modulus := by
  unfold number
  split
  · exact Or.inr rfl
  · exact Or.inl rfl

theorem two_mul_half_modulus (k : WordKind) : 2 * (k.modulus / 2) = k.modulus := by
  obtain ⟨n, hn⟩ : ∃ n, k.width 0 = n + 1 := ⟨k.width 0 - 1, by have := k.width_pos 0; omega⟩
  have : k.modulus = 256 ^ n * 256 := by rw [modulus, hn, Nat.pow_eq, Nat.pow_succ]
  omega

/-- The least number that a word stands for. -/
def least (k : WordKind) : Int := if k.signed then -((k.modulus / 2 : Nat) : Int) else 0

/-- The numbers of all words lie less than a modulus apart. -/
theorem number_within (k : WordKind) {w : Nat} (h : w < k.modulus) :
    k.least ≤ k.number w ∧ k.number w ≤ k.least + k.modulus - 1 := by
  have heven := k.two_mul_half_modulus
  unfold number least
  cases k.signed with
  | false =>
    rw [if_neg (by simp), if_neg (by simp)]
    omega
  | true =>
    rw [if_pos rfl]
    by_cases hw : k.modulus / 2 ≤ w
    · rw [if_pos ⟨rfl, hw⟩]
      omega
    · rw [if_neg (fun h => hw h.2)]
      omega

theorem least_nonpos (k : WordKind) : k.least ≤ 0 := by
  unfold least
  split <;> omega

/-- Taking an offset off a word and adding it again, modulo the size of a word. -/
theorem number_sub_add (k : WordKind) {w : Nat} {low : Int} (hw : w < k.modulus)
    (hl : low ≤ k.number w) :
    ((k.number w - low).toNat + k.word low) % k.modulus = w := by
  have hpos : (0 : Int) < k.modulus := by omega
  have hword : (k.word low : Int) = low % k.modulus := by
    rw [word, Int.toNat_of_nonneg (Int.emod_nonneg low (by omega))]
  have hint : (((k.number w - low).toNat + k.word low : Nat) : Int) % k.modulus = w := by
    rw [Int.natCast_add, hword, Int.toNat_of_nonneg (by omega), Int.add_emod_emod, Int.sub_add_cancel]
    rcases k.number_eq w with e | e
    · rw [e, Int.emod_eq_of_lt (by omega) (by omega)]
    · rw [e, Int.sub_emod_right, Int.emod_eq_of_lt (by omega) (by omega)]
  omega

theorem word_lt (k : WordKind) (hpos : 0 < k.modulus) (n : Int) : k.word n < k.modulus := by
  have h0 := Int.emod_nonneg n (b := k.modulus) (by omega)
  have h1 := Int.emod_lt_of_pos n (b := k.modulus) (by omega)
  rw [word]
  omega

theorem le_range {ns : List Int} {n : Int} (hn : n ∈ ns) :
    (range ns).1 ≤ n ∧ n ≤ (range ns).2 := by
  cases ns with
  | nil => exact absurd hn List.not_mem_nil
  | cons m ms =>
    obtain ⟨hl, hh, hm⟩ := foldl_range_bounds id (fun _ _ => rfl) (fun _ _ => rfl) ms (m, m)
    dsimp only [id] at hl hh hm
    rw [range]
    rcases List.mem_cons.mp hn with rfl | hn
    · exact ⟨hl, hh⟩
    · exact hm n hn

theorem range_within {ns : List Int} {a b : Int} (hne : ns ≠ [])
    (h : ∀ n ∈ ns, a ≤ n ∧ n ≤ b) : a ≤ (range ns).1 ∧ (range ns).2 ≤ b := by
  have key : ∀ (ms : List Int) (r : Int × Int), a ≤ r.1 ∧ r.2 ≤ b → (∀ n ∈ ms, a ≤ n ∧ n ≤ b) →
      let s := ms.foldl (fun r x => (min r.1 x, max r.2 x)) r
      a ≤ s.1 ∧ s.2 ≤ b := by
    intro ms
    induction ms with
    | nil => exact fun r hr _ => hr
    | cons m ms ih =>
      intro r hr hm
      have := hm m List.mem_cons_self
      rw [List.foldl_cons]
      refine ih _ ⟨?_, ?_⟩ fun n hn => hm n (List.mem_cons_of_mem m hn)
      · show a ≤ min r.1 m
        omega
      · show max r.2 m ≤ b
        omega
  cases ns with
  | nil => exact absurd rfl hne
  | cons m ms =>
    exact key ms (m, m) (h m List.mem_cons_self) fun n hn => h n (List.mem_cons_of_mem m hn)

/-! ## The column -/

theorem length_le_write (k : WordKind) (ws : List Nat) : ws.length ≤ 8 * (k.write ws).length := by
  unfold write
  split
  · next h =>
    rw [h]
    exact Nat.zero_le _
  · dsimp only
    split
    · have := k.length_le_writeAt 0 ws
      rw [List.length_cons]
      omega
    · generalize (if 0 ≤ (range (ws.map k.number)).1 then _ else 0) = plain
      split
      · have := k.length_le_writeAt (k.level (spread (ws.map k.number)))
          ((ws.map k.number).map fun n => (n - (range (ws.map k.number)).1).toNat)
        rw [List.length_map, List.length_map] at this
        rw [List.cons_append, List.length_cons, List.length_append]
        omega
      · have := k.length_le_writeAt plain ws
        rw [List.length_cons]
        omega

/-- The words behind a header, read back: the low bytes of each, and what was taken
off. -/
theorem reads_body {k : WordKind} {n l : Nat} {ws : List Nat} {body : Bytes}
    (header : UInt8) (low : Bytes) (offset : Nat) (hn : n ≠ 0) (hl : l ≤ k.levels)
    (hh : (header.toNat + 1) / 2 = l)
    (ho : (if header.toNat % 2 = 1 then Bytes.readLE <$> Parse.take (k.width 0) else pure 0).Reads
      low offset)
    (hb : (k.readAt l n).Reads body ws) :
    (k.read n).Reads (header :: (low ++ body)) (ws.map fun w => (w + offset) % k.modulus) := by
  rw [read, if_neg hn]
  refine (Parse.Reads.byte header).bind ?_
  rw [hh]
  dsimp only
  rw [if_neg (by omega)]
  have hrest : (do
      let ws ← k.readAt l n
      pure (ws.map fun w => (w + offset) % k.modulus)).Reads body
        (ws.map fun w => (w + offset) % k.modulus) := hb.bind_nil (Parse.Reads.pure _)
  by_cases hodd : header.toNat % 2 = 1
  · rw [if_pos hodd] at ho
    rw [if_pos hodd]
    exact ho.bind hrest
  · rw [if_neg hodd] at ho
    rw [if_neg hodd]
    exact ho.bind hrest

/-- Words written at a level without an offset, behind the header of the level. -/
theorem reads_plain {k : WordKind} (hk : k.Standard) {l : Nat} {ws : List Nat} (hne : ws ≠ [])
    (h : ∀ w ∈ ws, w < k.modulus) (hl : l ≤ k.levels)
    (hw : ∀ w ∈ ws, w < Nat.pow 256 (k.width l)) :
    (k.read ws.length).Reads (UInt8.ofNat (2 * l) :: k.writeAt l ws) ws := by
  have hheader : (UInt8.ofNat (2 * l)).toNat = 2 * l := by
    rw [UInt8.toNat_ofNat']
    rcases hk with hk | hk <;> omega
  have hr := reads_body (k := k) (n := ws.length) (UInt8.ofNat (2 * l)) [] 0
    (mt List.length_eq_zero_iff.mp hne) hl
    (by rw [hheader]; omega)
    (by rw [if_neg (by rw [hheader]; omega)]; exact Parse.Reads.pure 0)
    (k.reads_writeAt l ws hw)
  have hback : ws.map (fun w => (w + 0) % k.modulus) = ws := by
    refine (List.map_congr_left fun w hw => ?_).trans (List.map_id ws)
    exact Nat.mod_eq_of_lt (h w hw)
  rwa [hback] at hr

/-- Words written at a level with an offset taken off, behind the header of the level and
the offset. -/
theorem reads_shifted {k : WordKind} (hk : k.Standard) {l : Nat} {low : Int} {ws : List Nat}
    (hne : ws ≠ []) (h : ∀ w ∈ ws, w < k.modulus) (hlow : ∀ w ∈ ws, low ≤ k.number w)
    (hpos : 0 < l) (hl : l ≤ k.levels)
    (hw : ∀ w ∈ ws, (k.number w - low).toNat < Nat.pow 256 (k.width l)) :
    (k.read ws.length).Reads
      (UInt8.ofNat (2 * l - 1) :: Bytes.writeLE (k.width 0) (k.word low)
        ++ k.writeAt l ((ws.map k.number).map fun n => (n - low).toNat)) ws := by
  have hheader : (UInt8.ofNat (2 * l - 1)).toNat = 2 * l - 1 := by
    rw [UInt8.toNat_ofNat']
    rcases hk with hk | hk <;> omega
  have hmod : 0 < k.modulus := by
    obtain ⟨w, hw⟩ := List.exists_mem_of_ne_nil ws hne
    have := h w hw
    omega
  have hoffset : (Bytes.readLE <$> Parse.take (k.width 0)).Reads
      (Bytes.writeLE (k.width 0) (k.word low)) (k.word low) := by
    have := (Parse.Reads.take_of_length (Bytes.length_writeLE (k.width 0) (k.word low))).map
      Bytes.readLE
    rwa [Bytes.readLE_writeLE (k.word_lt hmod low)] at this
  have hbody := k.reads_writeAt l ((ws.map k.number).map fun n => (n - low).toNat)
    (fun v hv => by
      rw [List.map_map] at hv
      obtain ⟨w, hws, rfl⟩ := List.mem_map.mp hv
      exact hw w hws)
  rw [List.length_map, List.length_map] at hbody
  have hr := reads_body (k := k) (n := ws.length) (UInt8.ofNat (2 * l - 1))
    (Bytes.writeLE (k.width 0) (k.word low)) (k.word low) (mt List.length_eq_zero_iff.mp hne) hl
    (by rw [hheader]; omega)
    (by rw [if_pos (by rw [hheader]; omega)]; exact hoffset) hbody
  have hback : ((ws.map k.number).map fun n => (n - low).toNat).map
      (fun w => (w + k.word low) % k.modulus) = ws := by
    rw [List.map_map, List.map_map]
    refine (List.map_congr_left fun w hw => ?_).trans (List.map_id ws)
    exact k.number_sub_add (h w hw) (hlow w hw)
  rwa [hback] at hr

theorem reads_write {k : WordKind} (hk : k.Standard) (ws : List Nat)
    (h : ∀ w ∈ ws, w < k.modulus) : (k.read ws.length).Reads (k.write ws) ws := by
  unfold write
  by_cases hne : ws = []
  · subst hne
    exact Parse.Reads.pure []
  rw [if_neg hne]
  dsimp only
  split
  · exact reads_plain hk hne h (Nat.zero_le _) h
  -- Every number lies between the least and the greatest, and those less than a modulus apart.
  have hrange : ∀ w ∈ ws, (range (ws.map k.number)).1 ≤ k.number w
      ∧ k.number w ≤ (range (ws.map k.number)).2 :=
    fun w hw => le_range (List.mem_map_of_mem hw)
  have hwithin := range_within (a := k.least) (b := k.least + k.modulus - 1)
    (mt List.map_eq_nil_iff.mp hne) (fun n hn => by
      obtain ⟨w, hw, rfl⟩ := List.mem_map.mp hn
      exact k.number_within (h w hw))
  have hleast := k.least_nonpos
  unfold spread
  generalize range (ws.map k.number) = r at hrange hwithin ⊢
  obtain ⟨low, high⟩ := r
  dsimp only at hrange hwithin ⊢
  have hplain : (if 0 ≤ low then k.level high.toNat else 0) ≤ k.levels ∧ ∀ w ∈ ws,
      w < Nat.pow 256 (k.width (if 0 ≤ low then k.level high.toNat else 0)) := by
    by_cases h0 : 0 ≤ low
    · rw [if_pos h0]
      have htop : high.toNat < k.modulus := by
        obtain ⟨w, hw⟩ := List.exists_mem_of_ne_nil ws hne
        have := h w hw
        omega
      obtain ⟨hl, hlt⟩ := lt_pow_level hk htop
      refine ⟨hl, fun w hw => Nat.lt_of_le_of_lt ?_ hlt⟩
      have := hrange w hw
      have := h w hw
      rcases k.number_eq w with e | e <;> omega
    · rw [if_neg h0]
      exact ⟨Nat.zero_le _, h⟩
  generalize (if 0 ≤ low then k.level high.toNat else 0) = plain at hplain ⊢
  split
  · next hs =>
    have hspread : (high - low).toNat < k.modulus := by
      obtain ⟨w, hw⟩ := List.exists_mem_of_ne_nil ws hne
      have := h w hw
      omega
    obtain ⟨hl, hlt⟩ := lt_pow_level hk hspread
    refine reads_shifted hk hne h (fun w hw => (hrange w hw).1) (by omega) hl fun w hw => ?_
    refine Nat.lt_of_le_of_lt ?_ hlt
    have := hrange w hw
    omega
  · exact reads_plain hk hne h hplain.1 hplain.2

theorem column_faithfulOn {k : WordKind} (hk : k.Standard) :
    k.column.FaithfulOn (· < k.modulus) where
  reads ws h _ := reads_write hk ws h
  length_le := k.length_le_write

end WordKind

theorem words32_faithful : words32.Faithful :=
  (WordKind.column_faithfulOn (k := .u32) (.inl rfl)).refine (fun w => w.toNat_lt) fun w => by simp

theorem words64_faithful : words64.Faithful :=
  (WordKind.column_faithfulOn (k := .u64) (.inr rfl)).refine (fun w => w.toNat_lt) fun w => by simp

theorem signed64_faithful : signed64.Faithful :=
  (WordKind.column_faithfulOn (k := .i64) (.inr rfl)).refine (fun w => w.toUInt64.toNat_lt)
    fun w => by simp

end Packing
end RemoteCall
