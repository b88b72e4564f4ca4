import Mathlib.Data.List.Dedup
import Mathlib.Data.List.Induction
import RemoteCall.Example.Services

/-!
Overloads: which of the methods that were put into a table it finds.

A table has room for one entry under each hash, so a method takes the place of whatever was
there before it, be it an earlier implementation of the same signature or another signature
with the same hash.  What a table holds is therefore said hash by hash: under each it has the
last method that was put there (`entryAt?_ofBindings`).  What it finds is confirmed by name and
types, and so it is the last method of the signature that was asked for, if it is anything.
-/

namespace RemoteCall

variable {σ : Type}

/-! ## Bindings -/

structure Binding (σ : Type) where
  {α β : Type}
  method : Method α β
  run : Implementation σ α β

namespace Binding

def signature (b : Binding σ) : String × List ValueType := (b.method.name, b.method.types)

def entry (b : Binding σ) : MethodEntry σ := .ofMethod b.method b.run

/-- The last binding among `bs` that has a property. -/
def IsLast (p : Binding σ → Prop) (bs : List (Binding σ)) (b : Binding σ) : Prop :=
  ∃ front rest, bs = front ++ b :: rest ∧ p b ∧ ∀ c ∈ rest, ¬ p c

variable {p q : Binding σ → Prop} {bs : List (Binding σ)} {b c : Binding σ}

theorem IsLast.holds (h : IsLast p bs b) : p b := by
  obtain ⟨-, -, -, hb, -⟩ := h
  exact hb

theorem IsLast.mem (h : IsLast p bs b) : b ∈ bs := by
  obtain ⟨front, rest, rfl, -, -⟩ := h
  exact List.mem_append_right front List.mem_cons_self

/-- The last one with a property is the last one with any other that it has too, if this one
holds of nothing else. -/
theorem IsLast.of_imp (h : IsLast p bs b) (hb : q b) (hqp : ∀ c ∈ bs, q c → p c) :
    IsLast q bs b := by
  obtain ⟨front, rest, rfl, -, hrest⟩ := h
  refine ⟨front, rest, rfl, hb, fun c hc hq => hrest c hc (hqp c ?_ hq)⟩
  exact List.mem_append_right front (List.mem_cons_of_mem b hc)

theorem not_isLast_nil : ¬ IsLast p [] b := by
  intro h
  exact List.not_mem_nil h.mem

theorem isLast_concat (p : Binding σ → Prop) (bs : List (Binding σ)) (b c : Binding σ) :
    IsLast p (bs ++ [c]) b ↔ (p c ∧ b = c) ∨ (¬ p c ∧ IsLast p bs b) := by
  constructor
  · rintro ⟨front, rest, hbs, hb, hrest⟩
    rcases List.eq_nil_or_concat rest with rfl | ⟨rest, d, rfl⟩
    · obtain ⟨-, hbc⟩ := List.append_inj' hbs rfl
      obtain rfl := (List.cons.inj hbc).1
      exact Or.inl ⟨hb, rfl⟩
    · rw [List.concat_eq_append, ← List.cons_append, ← List.append_assoc] at hbs
      obtain ⟨hfront, hcd⟩ := List.append_inj' hbs rfl
      obtain rfl := (List.cons.inj hcd).1
      rw [List.concat_eq_append] at hrest
      refine Or.inr ⟨hrest c (List.mem_append_right rest List.mem_cons_self), front, rest, hfront,
        hb, fun d hd => hrest d (List.mem_append_left _ hd)⟩
  · rintro (⟨hc, rfl⟩ | ⟨hc, front, rest, rfl, hb, hrest⟩)
    · exact ⟨bs, [], rfl, hc, fun d hd => absurd hd List.not_mem_nil⟩
    · refine ⟨front, rest ++ [c], by simp, hb, fun d hd => ?_⟩
      rcases List.mem_append.mp hd with hd | hd
      · exact hrest d hd
      · exact List.mem_singleton.mp hd ▸ hc

theorem exists_isLast (hb : b ∈ bs) (hp : p b) : ∃ c, IsLast p bs c := by
  induction bs using List.reverseRecOn with
  | nil => exact absurd hb List.not_mem_nil
  | append_singleton bs d ih =>
    by_cases hd : p d
    · exact ⟨d, (isLast_concat p bs d d).mpr (Or.inl ⟨hd, rfl⟩)⟩
    · rcases List.mem_append.mp hb with hb | hb
      · obtain ⟨c, hc⟩ := ih hb
        exact ⟨c, (isLast_concat p bs c d).mpr (Or.inr ⟨hd, hc⟩)⟩
      · exact absurd (List.mem_singleton.mp hb ▸ hp) hd

theorem IsLast.unique (h : IsLast p bs b) (h' : IsLast p bs c) : b = c := by
  induction bs using List.reverseRecOn with
  | nil => exact absurd h not_isLast_nil
  | append_singleton bs d ih =>
    rcases (isLast_concat p bs b d).mp h with ⟨-, rfl⟩ | ⟨hd, hb⟩
    · exact ((isLast_concat p bs c b).mp h').elim (fun hc => hc.2.symm)
        fun hc => absurd h.holds hc.1
    · exact ((isLast_concat p bs c d).mp h').elim (fun hc => absurd hc.1 hd) fun hc => ih hb hc.2

/-- Where no signature comes twice, each binding is the last one of its signature. -/
theorem isLast_of_mem (hnodup : (bs.map signature).Nodup) (hb : b ∈ bs) :
    IsLast (fun c => c.signature = b.signature) bs b := by
  obtain ⟨c, hc⟩ := exists_isLast (p := fun c => c.signature = b.signature) hb rfl
  obtain rfl := List.inj_on_of_nodup_map hnodup hc.mem hb hc.holds
  exact hc

end Binding

/-! ## What a table holds -/

namespace InterfaceTable

open Binding (IsLast)

theorem mem_of_entryAt? {t : InterfaceTable σ} {key : UInt64} {e : MethodEntry σ}
    (h : t.entryAt? key = some e) : (key, e) ∈ t.entries := by
  obtain ⟨p, hp, rfl⟩ := Option.map_eq_some_iff.mp h
  have hkey : p.1 = key := by simpa using List.find?_some hp
  subst hkey
  exact List.mem_of_find?_eq_some hp

theorem entryAt?_of_mem {t : InterfaceTable σ} {key : UInt64} {e : MethodEntry σ}
    (h : (key, e) ∈ t.entries) : t.entryAt? key = some e := by
  have hsome : (t.entryAt? key).isSome := by
    rw [entryAt?, Option.isSome_map]
    exact List.find?_isSome.mpr ⟨(key, e), h, beq_self_eq_true key⟩
  obtain ⟨f, hf⟩ := Option.isSome_iff_exists.mp hsome
  have hnodup : (t.entries.map Prod.fst).Nodup := List.pairwise_map.mpr t.distinct
  have hsame : (key, f) = (key, e) :=
    List.inj_on_of_nodup_map hnodup (mem_of_entryAt? hf) h rfl
  rw [hf, (Prod.mk.inj hsame).2]

/-- The table that methods and their implementations are put into, one after the other. -/
def ofBindings (hash : String → List ValueType → UInt64) (id : String) (bs : List (Binding σ)) :
    InterfaceTable σ :=
  bs.foldl (fun t b => t.method b.method b.run) (withHash hash id)

variable (hash : String → List ValueType → UInt64) (id : String) (bs : List (Binding σ))

theorem ofBindings_concat (b : Binding σ) :
    ofBindings hash id (bs ++ [b]) = (ofBindings hash id bs).insert b.entry := by
  rw [ofBindings, List.foldl_append]
  rfl

@[simp] theorem hash_ofBindings : (ofBindings hash id bs).hash = hash := by
  induction bs using List.reverseRecOn with
  | nil => rfl
  | append_singleton bs b ih => rw [ofBindings_concat, hash_insert, ih]

@[simp] theorem id_ofBindings : (ofBindings hash id bs).id = id := by
  induction bs using List.reverseRecOn with
  | nil => rfl
  | append_singleton bs b ih => rw [ofBindings_concat, id_insert, ih]

/-- Under each hash, a table has the last method that was put there. -/
theorem entryAt?_ofBindings (key : UInt64) (e : MethodEntry σ) :
    (ofBindings hash id bs).entryAt? key = some e ↔
      ∃ b, IsLast (fun b => hash b.method.name b.method.types = key) bs b ∧ b.entry = e := by
  induction bs using List.reverseRecOn with
  | nil =>
    constructor
    · intro h
      cases h
    · rintro ⟨b, hb, -⟩
      exact absurd hb Binding.not_isLast_nil
  | append_singleton bs c ih =>
    rw [ofBindings_concat, entryAt?_insert, hash_ofBindings]
    show (if hash c.method.name c.method.types = key then _ else _) = some e ↔ _
    simp only [Binding.isLast_concat]
    by_cases hc : hash c.method.name c.method.types = key
    · simp [hc]
    · simp [hc, ih]

/-- What is found lies under the hash of its signature, and has just this signature. -/
theorem find?_eq_some_iff (name : String) (types : List ValueType) (e : MethodEntry σ) :
    (ofBindings hash id bs).find? name types = some e ↔
      ∃ b, IsLast (fun b => hash b.method.name b.method.types = hash name types) bs b ∧
        b.signature = (name, types) ∧ b.entry = e := by
  constructor
  · intro h
    have hat := (Option.filter_eq_some_iff.mp h).1
    rw [hash_ofBindings] at hat
    obtain ⟨b, hb, rfl⟩ := (entryAt?_ofBindings hash id bs _ e).mp hat
    obtain ⟨hname, htypes⟩ := name_types_of_find? h
    exact ⟨b, hb, Prod.ext hname htypes, rfl⟩
  · rintro ⟨b, hb, hs, rfl⟩
    obtain ⟨rfl, rfl⟩ := Prod.mk.inj hs
    refine Option.filter_eq_some_iff.mpr ⟨?_, ?_⟩
    · rw [hash_ofBindings]
      exact (entryAt?_ofBindings hash id bs _ _).mpr ⟨b, hb, rfl⟩
    · simp [Binding.entry, MethodEntry.ofMethod]

theorem find?_eq_none_iff (name : String) (types : List ValueType) :
    (ofBindings hash id bs).find? name types = none ↔
      ∀ m ∈ (ofBindings hash id bs).methods, ¬ (m.name = name ∧ m.types = types) := by
  constructor
  · rintro h m hm ⟨rfl, rfl⟩
    obtain ⟨⟨key, m⟩, hp, rfl⟩ := List.mem_map.mp hm
    obtain ⟨b, hb, rfl⟩ := (entryAt?_ofBindings hash id bs key m).mp (entryAt?_of_mem hp)
    obtain rfl := hb.holds
    have hfound := (find?_eq_some_iff hash id bs _ _ _).mpr ⟨b, hb, rfl, rfl⟩
    exact absurd (h.symm.trans hfound) (by simp)
  · intro h
    refine Option.eq_none_iff_forall_ne_some.mpr fun m hm => ?_
    have hat := (Option.filter_eq_some_iff.mp hm).1
    exact h m (List.mem_map_of_mem (mem_of_entryAt? hat)) (name_types_of_find? hm)

/-! ## What is found -/

variable {hash id bs}

theorem isLast_of_find? {name : String} {types : List ValueType} {e : MethodEntry σ}
    (h : (ofBindings hash id bs).find? name types = some e) :
    ∃ b, IsLast (fun b => b.signature = (name, types)) bs b ∧ b.entry = e := by
  obtain ⟨b, hb, hs, rfl⟩ := (find?_eq_some_iff hash id bs name types e).mp h
  refine ⟨b, hb.of_imp hs fun c _ hc => ?_, rfl⟩
  obtain ⟨rfl, rfl⟩ := Prod.mk.inj hc
  rfl

/-- No two different signatures have the same hash. -/
def Apart (hash : String → List ValueType → UInt64) (ss : List (String × List ValueType)) : Prop :=
  ∀ s ∈ ss, ∀ s' ∈ ss, hash s.1 s.2 = hash s'.1 s'.2 → s = s'

instance (ss : List (String × List ValueType)) : Decidable (Apart hash ss) :=
  inferInstanceAs (Decidable (∀ s ∈ ss, ∀ s' ∈ ss, _ → _))

/-- If no two signatures have the same hash, none takes the place of another. -/
theorem Apart.isLast (hapart : Apart hash (bs.map Binding.signature))
    {s : String × List ValueType} {b : Binding σ}
    (hb : IsLast (fun b => b.signature = s) bs b) :
    IsLast (fun b => hash b.method.name b.method.types = hash s.1 s.2) bs b := by
  obtain rfl := hb.holds
  exact hb.of_imp rfl fun c hc heq =>
    hapart _ (List.mem_map_of_mem hc) _ (List.mem_map_of_mem hb.mem) heq

theorem find?_of_isLast (hapart : Apart hash (bs.map Binding.signature))
    {s : String × List ValueType} {b : Binding σ}
    (hb : IsLast (fun b => b.signature = s) bs b) :
    (ofBindings hash id bs).find? s.1 s.2 = some b.entry :=
  (find?_eq_some_iff hash id bs _ _ _).mpr ⟨b, hapart.isLast hb, hb.holds, rfl⟩

theorem key_of_mem {key : UInt64} {e : MethodEntry σ}
    (h : (key, e) ∈ (ofBindings hash id bs).entries) : hash e.name e.types = key := by
  obtain ⟨b, hb, rfl⟩ := (entryAt?_ofBindings hash id bs key e).mp (entryAt?_of_mem h)
  exact hb.holds

def signatures (t : InterfaceTable σ) : List (String × List ValueType) :=
  t.entries.map fun p => (p.2.name, p.2.types)

theorem nodup_signatures : (ofBindings hash id bs).signatures.Nodup := by
  have hkeys : ((ofBindings hash id bs).entries.map Prod.fst).Nodup :=
    List.pairwise_map.mpr (ofBindings hash id bs).distinct
  refine List.Nodup.map_on ?_ hkeys.of_map
  rintro ⟨key, e⟩ he ⟨key', f⟩ hf hsame
  obtain ⟨hname, htypes⟩ := Prod.mk.inj hsame
  have hkey : key = key' := by rw [← key_of_mem he, ← key_of_mem hf, hname, htypes]
  exact List.inj_on_of_nodup_map hkeys he hf hkey

theorem mem_signatures (hapart : Apart hash (bs.map Binding.signature))
    (s : String × List ValueType) :
    s ∈ (ofBindings hash id bs).signatures ↔ s ∈ bs.map Binding.signature := by
  constructor
  · intro h
    obtain ⟨⟨key, e⟩, hmem, rfl⟩ := List.mem_map.mp h
    obtain ⟨b, hb, rfl⟩ := (entryAt?_ofBindings hash id bs key e).mp (entryAt?_of_mem hmem)
    exact List.mem_map.mpr ⟨b, hb.mem, rfl⟩
  · intro h
    obtain ⟨b, hmem, hsig⟩ := List.mem_map.mp h
    obtain ⟨c, hc⟩ := Binding.exists_isLast (p := fun b => b.signature = s) hmem hsig
    have hfound : (ofBindings hash id bs).find? s.1 s.2 = some c.entry := find?_of_isLast hapart hc
    have hat := (Option.filter_eq_some_iff.mp hfound).1
    exact List.mem_map.mpr ⟨_, mem_of_entryAt? hat, hc.holds⟩

theorem size_ofBindings (hapart : Apart hash (bs.map Binding.signature)) :
    (ofBindings hash id bs).size = (bs.map Binding.signature).dedup.length := by
  have hperm : (ofBindings hash id bs).signatures.Perm (bs.map Binding.signature).dedup := by
    refine (List.perm_ext_iff_of_nodup nodup_signatures (List.nodup_dedup _)).mpr fun s => ?_
    rw [mem_signatures hapart, List.mem_dedup]
  rw [← hperm.length_eq, signatures, List.length_map, size]

/-- Looking up an overload never leads to the wrong method.  Whatever the hash does, what is
found under a name and types is the last method that was put into the table under just this
name and these types.  If the hash tells the signatures in the table from each other, each of
them is found, no other signature is, and there are as many methods as signatures. -/
theorem finds_last_of_signature (hash : String → List ValueType → UInt64) (id : String)
    (bs : List (Binding σ)) :
    (∀ name types e, (ofBindings hash id bs).find? name types = some e →
      ∃ b, IsLast (fun b => b.signature = (name, types)) bs b ∧
        e = .ofMethod b.method b.run) ∧
    (Apart hash (bs.map Binding.signature) →
      (∀ b ∈ bs, ∃ c, IsLast (fun c => c.signature = b.signature) bs c ∧
        (ofBindings hash id bs).find? b.method.name b.method.types
          = some (.ofMethod c.method c.run)) ∧
      (∀ name types, (∀ b ∈ bs, b.signature ≠ (name, types)) →
        (ofBindings hash id bs).find? name types = none) ∧
      (ofBindings hash id bs).size = (bs.map Binding.signature).dedup.length) := by
  have hsound : ∀ name types e, (ofBindings hash id bs).find? name types = some e →
      ∃ b, IsLast (fun b => b.signature = (name, types)) bs b ∧ e = .ofMethod b.method b.run := by
    intro name types e h
    obtain ⟨b, hb, rfl⟩ := isLast_of_find? h
    exact ⟨b, hb, rfl⟩
  refine ⟨hsound, fun hapart => ⟨?_, ?_, size_ofBindings hapart⟩⟩
  · intro b hb
    obtain ⟨c, hc⟩ := Binding.exists_isLast (p := fun c => c.signature = b.signature) hb rfl
    exact ⟨c, hc, find?_of_isLast hapart hc⟩
  · intro name types hnone
    refine Option.eq_none_iff_forall_ne_some.mpr fun e he => ?_
    obtain ⟨b, hb, -⟩ := hsound name types e he
    exact hnone b hb.mem hb.holds

/-- Another implementation for the first of two overloads. -/
def echoAgain : Binding σ := ⟨Example.echoText, Example.answering fun s => .ok ("second: " ++ s)⟩

/-- Two overloads, the first of them put in again. -/
def echoTwice : List (Binding σ) :=
  [⟨Example.echoText, Example.answering fun s => .ok ("first: " ++ s)⟩,
   ⟨Example.echoBytes, Example.answering .ok⟩, echoAgain]

/-- A hash that only looks at the types. -/
def hashOfTypes (_ : String) (types : List ValueType) : UInt64 :=
  UInt64.ofNat (types.foldl (fun n type => n + type.tag) 0)

/-- The second implementation is found; a method that is not in the table is not found, though
it shares its hash with one that is. -/
theorem finds_last_of_signature_echoTwice :
    let table : InterfaceTable Unit := ofBindings hashOfTypes Example.echo echoTwice
    Apart hashOfTypes ((echoTwice : List (Binding Unit)).map Binding.signature) ∧
    table.find? "echo" [.str] = some (.ofMethod echoAgain.method echoAgain.run) ∧
    hashOfTypes "log" [.str] = hashOfTypes "echo" [.str] ∧ table.find? "log" [.str] = none ∧
    table.size = 2 := by
  intro table
  have hapart : Apart hashOfTypes ((echoTwice : List (Binding Unit)).map Binding.signature) := by
    decide
  obtain ⟨-, hall⟩ := finds_last_of_signature hashOfTypes Example.echo
    (echoTwice : List (Binding Unit))
  obtain ⟨hfound, hnone, hsize⟩ := hall hapart
  refine ⟨hapart, ?_, rfl, hnone "log" [.str] (by decide), hsize⟩
  · obtain ⟨c, hc, hfind⟩ := hfound echoAgain (by simp [echoTwice])
    rcases (Binding.isLast_concat _ (echoTwice.take 2) c echoAgain).mp hc with ⟨-, rfl⟩ | ⟨hne, -⟩
    · exact hfind
    · exact absurd rfl hne

end InterfaceTable
end RemoteCall
