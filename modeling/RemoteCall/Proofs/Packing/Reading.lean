import RemoteCall.Packing.Lists

/-!
Faithful columns: reading gives back what was written.

`Parse.Reads p bs a` says that `p` turns `bs` into `a` whatever bytes follow.  It
composes along the steps of a parse, so a parse of several columns needs one lemma for
each of them.  `Column.FaithfulOn` asks it of a column for all values of a kind, and
asks further that no value is free: eight of them fill at least a byte.  That bound is
what keeps the lengths in front of a list below the limit the reader puts on them.
-/

namespace RemoteCall
namespace Packing
namespace Parse

variable {α β : Type}

/-- Turns `bs` into `a`, whatever follows. -/
def Reads (p : Parse α) (bs : Bytes) (a : α) : Prop :=
  ∀ rest, p (bs ++ rest) = some (a, rest)

theorem Reads.pure (a : α) : Reads (Pure.pure a) [] a := fun _ => rfl

theorem Reads.bind {p : Parse α} {f : α → Parse β} {bs cs : Bytes} {a : α} {b : β}
    (hp : p.Reads bs a) (hf : (f a).Reads cs b) : (p >>= f).Reads (bs ++ cs) b := by
  intro rest
  show (p (bs ++ cs ++ rest)).bind (fun x => f x.1 x.2) = some (b, rest)
  rw [List.append_assoc, hp]
  exact hf rest

/-- A parse whose last step takes no bytes. -/
theorem Reads.bind_nil {p : Parse α} {f : α → Parse β} {bs : Bytes} {a : α} {b : β}
    (hp : p.Reads bs a) (hf : (f a).Reads [] b) : (p >>= f).Reads bs b := by
  rw [← List.append_nil bs]
  exact hp.bind hf

/-- A parse whose first step takes no bytes. -/
theorem Reads.nil_bind {p : Parse α} {f : α → Parse β} {bs : Bytes} {a : α} {b : β}
    (hp : p.Reads [] a) (hf : (f a).Reads bs b) : (p >>= f).Reads bs b :=
  hp.bind hf

theorem Reads.map {p : Parse α} {bs : Bytes} {a : α} (f : α → β) (hp : p.Reads bs a) :
    (f <$> p).Reads bs (f a) := by
  intro rest
  show (p (bs ++ rest)).bind (fun x => some (f x.1, x.2)) = some (f a, rest)
  rw [hp]
  rfl

theorem Reads.check {o : Option α} {a : α} (h : o = some a) : (Parse.check o).Reads [] a := by
  subst h
  exact Reads.pure a

theorem Reads.take (bs : Bytes) : (Parse.take bs.length).Reads bs bs :=
  fun rest => take_append bs rest

theorem Reads.take_of_length {bs : Bytes} {n : Nat} (h : bs.length = n) :
    (Parse.take n).Reads bs bs := by
  subst h
  exact Reads.take bs

theorem Reads.byte (b : UInt8) : Parse.byte.Reads [b] b := fun _ => rfl

theorem Reads.complete {p : Parse α} {bs : Bytes} {a : α} (h : p.Reads bs a) :
    p.complete bs = some a := by
  have h' : p bs = some (a, []) := by simpa using h []
  simp [Parse.complete, h']

end Parse

namespace Column

variable {α β : Type}

/-- The lengths in front of what was written pass the limit. -/
def Fits (c : Column α) (as : List α) : Prop :=
  8 * (c.write as).length < Lengths.totalLimit

/-- Gives back values of the kind `p`, and spends at least a bit on each. -/
structure FaithfulOn (c : Column α) (p : α → Prop) : Prop where
  reads : ∀ as, (∀ a ∈ as, p a) → c.Fits as → (c.read as.length).Reads (c.write as) as
  length_le : ∀ as, as.length ≤ 8 * (c.write as).length

/-- Gives back all values. -/
abbrev Faithful (c : Column α) : Prop := c.FaithfulOn fun _ => True

theorem Faithful.reads_write {c : Column α} (h : c.Faithful) (as : List α) (hf : c.Fits as) :
    (c.read as.length).Reads (c.write as) as :=
  h.reads as (fun _ _ => trivial) hf

theorem Faithful.readOne {c : Column α} (h : c.Faithful) {a : α} (hf : c.Fits [a]) :
    c.readOne.Reads (c.write [a]) a :=
  (h.reads_write [a] hf).bind_nil (Parse.Reads.pure a)

theorem mapM_map {encode : β → α} {decode : α → Option β}
    (hd : ∀ b, decode (encode b) = some b) (bs : List β) :
    (bs.map encode).mapM decode = some bs := by
  induction bs with
  | nil => rfl
  | cons b bs ih => simp [hd, ih]

/-- What is laid out as values that are given back is given back itself. -/
theorem FaithfulOn.refine {c : Column α} {p : α → Prop} (h : c.FaithfulOn p)
    {encode : β → α} {decode : α → Option β} (hp : ∀ b, p (encode b))
    (hd : ∀ b, decode (encode b) = some b) : (c.refine encode decode).Faithful where
  reads bs _ hf := by
    have hr : (c.read bs.length).Reads (c.write (bs.map encode)) (bs.map encode) := by
      have hm : ∀ a ∈ bs.map encode, p a := by
        intro a ha
        obtain ⟨b, -, rfl⟩ := List.mem_map.mp ha
        exact hp b
      have := h.reads (bs.map encode) hm hf
      rwa [List.length_map] at this
    exact hr.bind_nil (Parse.Reads.check (mapM_map hd bs))
  length_le bs := by
    have := h.length_le (bs.map encode)
    rwa [List.length_map] at this

theorem rawBytes_faithful : rawBytes.Faithful where
  reads bs _ _ := Parse.Reads.take bs
  length_le bs := by
    show bs.length ≤ 8 * bs.length
    omega

end Column
end Packing
end RemoteCall
