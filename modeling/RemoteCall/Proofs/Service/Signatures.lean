import Mathlib.Data.List.Basic
import Mathlib.Data.List.Induction
import Mathlib.Tactic.SplitIfs
import RemoteCall.Service.Method

/-!
Signature ids and the text that they hash.

An overload is hashed as the UTF-8 bytes of its name, a terminator, and one tag for each
parameter type.  Every byte of UTF-8 is below `0xF8` and every tag below 8, so the terminator
`0xFF` stands behind the name and nowhere else: whatever the name holds and however many types
there are, the text says where the one ends and the others start.  Overloads that share an id
are therefore two texts on which the hash collides.
-/

namespace RemoteCall

namespace Bytes

theorem ofString_injective : Function.Injective ofString := by
  intro s t h
  apply Option.some.inj
  rw [← toString?_ofString s, h, toString?_ofString]

theorem ofString_eq_flatMap (s : String) :
    ofString s = s.toList.flatMap String.utf8EncodeChar := by
  conv => lhs; rw [← String.ofList_toList (s := s)]
  rw [ofString, String.toUTF8_eq_toByteArray, String.toByteArray_ofList]
  simp [List.utf8Encode]

/-- No byte of a character starts with five ones. -/
theorem lt_of_mem_utf8EncodeChar {c : Char} {b : UInt8} (h : b ∈ String.utf8EncodeChar c) :
    b.toNat < 0xF8 := by
  unfold String.utf8EncodeChar at h
  dsimp only at h
  split_ifs at h <;> simp only [List.mem_cons, List.not_mem_nil, or_false] at h
  · subst h
    rw [UInt8.toNat_ofNat']
    omega
  · rcases h with rfl | rfl <;> rw [UInt8.toNat_ofNat'] <;> omega
  · rcases h with rfl | rfl | rfl <;> rw [UInt8.toNat_ofNat'] <;> omega
  · rcases h with rfl | rfl | rfl | rfl <;> rw [UInt8.toNat_ofNat'] <;> omega

theorem lt_of_mem_ofString {s : String} {b : UInt8} (h : b ∈ ofString s) : b.toNat < 0xF8 := by
  rw [ofString_eq_flatMap, List.mem_flatMap] at h
  obtain ⟨c, -, hb⟩ := h
  exact lt_of_mem_utf8EncodeChar hb

end Bytes

/-- Two texts that are not the same and have the same hash. -/
def Hash.Collide (bs cs : Bytes) : Prop := bs ≠ cs ∧ xxh3 bs = xxh3 cs

namespace Signature

def tagByte (t : ValueType) : UInt8 := UInt8.ofNat t.tag

theorem toNat_tagByte (t : ValueType) : (tagByte t).toNat = t.tag := by
  have ht : t.tag < 8 := t.tag_lt
  rw [tagByte, UInt8.toNat_ofNat']
  omega

theorem tagByte_injective : Function.Injective tagByte := by
  intro t u h
  have htag : t.tag = u.tag := by rw [← toNat_tagByte, h, toNat_tagByte]
  apply Option.some.inj
  rw [← ValueType.ofTag?_tag t, htag, ValueType.ofTag?_tag]

theorem nameTerminator_not_mem_ofString (name : String) :
    nameTerminator ∉ Bytes.ofString name :=
  fun h => absurd (Bytes.lt_of_mem_ofString h) (by decide)

theorem nameTerminator_not_mem_tags (types : List ValueType) :
    nameTerminator ∉ types.map tagByte := by
  intro h
  obtain ⟨t, -, ht⟩ := List.mem_map.mp h
  have htag : t.tag < 8 := t.tag_lt
  rw [← toNat_tagByte, ht] at htag
  exact absurd htag (by decide)

/-- What a hasher has been given once it was given a name, the terminator and then the types
one by one. -/
def fed (name : String) (types : List ValueType) : Bytes :=
  types.foldl (fun text t => text ++ [tagByte t]) (Bytes.ofString name ++ [nameTerminator])

theorem fed_concat (name : String) (types : List ValueType) (t : ValueType) :
    fed name (types ++ [t]) = fed name types ++ [tagByte t] := by
  rw [fed, List.foldl_append]
  rfl

theorem fed_eq_preimage (name : String) (types : List ValueType) :
    fed name types = preimage name types := by
  induction types using List.reverseRecOn with
  | nil => rfl
  | append_singleton types t ih =>
    rw [fed_concat, ih, preimage, preimage, List.map_append, List.append_assoc]
    rfl

theorem preimage_inj {name other : String} {types others : List ValueType} :
    preimage name types = preimage other others ↔ name = other ∧ types = others := by
  have hparts : preimage name types = preimage other others ↔
      Bytes.ofString name = Bytes.ofString other ∧ nameTerminator = nameTerminator ∧
        types.map tagByte = others.map tagByte :=
    List.append_cons_inj_of_notMem (nameTerminator_not_mem_ofString name)
      (nameTerminator_not_mem_tags types)
  rw [hparts, Bytes.ofString_injective.eq_iff, tagByte_injective.list_map.eq_iff,
    and_iff_right rfl]

/-- The text that is hashed for an overload belongs to no other: whatever characters the names
hold and however many types there are, a hasher that is given the name, the terminator and the
types is given the same bytes for two overloads only if their names and their types are the
same.  So two overloads share an id only if they are the same or their texts are a collision
of the hash. -/
theorem hashes_unambiguous_text (name other : String) (types others : List ValueType) :
    (fed name types = fed other others ↔ name = other ∧ types = others) ∧
    id name types = Hash.xxh3 (fed name types) ∧
    (id name types = id other others ↔
      (name = other ∧ types = others) ∨
        Hash.Collide (fed name types) (fed other others)) := by
  have hfed : fed name types = fed other others ↔ name = other ∧ types = others := by
    rw [fed_eq_preimage, fed_eq_preimage, preimage_inj]
  have hid (n : String) (ts : List ValueType) : id n ts = Hash.xxh3 (fed n ts) :=
    congrArg Hash.xxh3 (fed_eq_preimage n ts).symm
  refine ⟨hfed, hid name types, ?_⟩
  rw [hid, hid, Hash.Collide, ← hfed]
  constructor
  · intro hsame
    by_cases htext : fed name types = fed other others
    · exact .inl htext
    · exact .inr ⟨htext, hsame⟩
  · rintro (htext | ⟨-, hsame⟩)
    · rw [htext]
    · exact hsame

/-- Without the terminator a name runs into its types. -/
example : Bytes.ofString "a" ++ [tagByte .float] = Bytes.ofString "a\x03" ++ [] := by decide

end Signature
end RemoteCall
