import RemoteCall.Proofs.Packing.Reading

/-!
Local parses: what a parse does depends only on the bytes it takes.

Whatever a local parse accepts, it accepts again in front of any other rest, with the same
outcome and up to the same end (`Parse.Local`).  So a byte string that it reads completely
has one end: no string that goes on behind it and none that stops before it is read
completely as well (`Parse.Local.eq_of_prefix`).

Locality passes along the steps of a parse, so every column is local.  Nothing is asked of
the bytes; they need not have been written by anything.
-/

namespace RemoteCall
namespace Packing
namespace Parse

variable {α β : Type}

def Local (p : Parse α) : Prop :=
  ∀ ⦃bs a rest⦄, p bs = some (a, rest) → ∃ used, bs = used ++ rest ∧ p.Reads used a

theorem Local.pure (a : α) : (Pure.pure a : Parse α).Local := by
  intro bs b rest h
  obtain ⟨rfl, rfl⟩ := Prod.mk.inj (Option.some.inj h)
  exact ⟨[], rfl, Reads.pure a⟩

theorem Local.failure : (failure : Parse α).Local := by
  intro bs a rest h
  cases h

/-- The second step is local whatever the first one read. -/
theorem Local.bind {p : Parse α} {f : α → Parse β} (hp : p.Local) (hf : ∀ a, (f a).Local) :
    (p >>= f).Local := by
  intro bs b rest h
  change (p bs).bind (fun x => f x.1 x.2) = some (b, rest) at h
  obtain ⟨⟨a, middle⟩, ha, hb⟩ := Option.bind_eq_some_iff.mp h
  obtain ⟨front, rfl, hfront⟩ := hp ha
  obtain ⟨back, rfl, hback⟩ := hf a hb
  exact ⟨front ++ back, (List.append_assoc front back rest).symm, hfront.bind hback⟩

theorem Local.map {p : Parse α} (f : α → β) (hp : p.Local) : (f <$> p).Local := by
  intro bs b rest h
  change (p bs).bind (fun x => some (f x.1, x.2)) = some (b, rest) at h
  obtain ⟨⟨a, left⟩, ha, hb⟩ := Option.bind_eq_some_iff.mp h
  obtain ⟨rfl, rfl⟩ := Prod.mk.inj (Option.some.inj hb)
  obtain ⟨used, rfl, hused⟩ := hp ha
  exact ⟨used, rfl, hused.map f⟩

theorem Local.ite {c : Prop} [Decidable c] {p q : Parse α} (hp : p.Local) (hq : q.Local) :
    (if c then p else q).Local := by
  by_cases hc : c
  · rw [if_pos hc]
    exact hp
  · rw [if_neg hc]
    exact hq

theorem Local.check (o : Option α) : (Parse.check o).Local := by
  cases o with
  | none => exact Local.failure
  | some a => exact Local.pure a

theorem Local.take (n : Nat) : (Parse.take n).Local := by
  intro bs a rest h
  unfold Parse.take at h
  by_cases hn : (bs.take n).length = n
  · rw [if_pos hn] at h
    obtain ⟨rfl, rfl⟩ := Prod.mk.inj (Option.some.inj h)
    exact ⟨bs.take n, (List.take_append_drop n bs).symm, Reads.take_of_length hn⟩
  · rw [if_neg hn] at h
    cases h

theorem Local.byte : Parse.byte.Local := by
  intro bs a rest h
  cases bs with
  | nil => cases h
  | cons b bs =>
    obtain ⟨rfl, rfl⟩ := Prod.mk.inj (Option.some.inj h)
    exact ⟨[b], rfl, Reads.byte b⟩

/-! ## The end of what is read -/

theorem complete_eq_some {p : Parse α} {bs : Bytes} {a : α} (h : p.complete bs = some a) :
    p bs = some (a, []) := by
  unfold complete at h
  split at h
  · next hp => exact Option.some.inj h ▸ hp
  · cases h

/-- Bytes behind a string that is read completely are left over. -/
theorem Local.complete_append {p : Parse α} (hp : p.Local) {bs more : Bytes} {a : α}
    (h : p.complete bs = some a) (hmore : more ≠ []) : p.complete (bs ++ more) = none := by
  obtain ⟨used, hused, hreads⟩ := hp (complete_eq_some h)
  rw [List.append_nil] at hused
  have hrest : p (bs ++ more) = some (a, more) := hused ▸ hreads more
  obtain ⟨b, more, rfl⟩ := List.exists_cons_of_ne_nil hmore
  rw [complete, hrest]

/-- Of two strings that are both read completely, neither goes on behind the other. -/
theorem Local.eq_of_prefix {p : Parse α} (hp : p.Local) {bs cs : Bytes} {a b : α}
    (hbs : p.complete bs = some a) (hcs : p.complete cs = some b) (h : bs <+: cs) : bs = cs := by
  obtain ⟨more, rfl⟩ := h
  by_cases hmore : more = []
  · rw [hmore, List.append_nil]
  · rw [hp.complete_append hbs hmore] at hcs
    cases hcs

/-- What goes on behind a string that is read completely, or stops before its end, is not
read completely. -/
theorem Local.complete_eq_none {p : Parse α} (hp : p.Local) {bs cs : Bytes} {a : α}
    (h : p.complete bs = some a) (hne : cs ≠ bs) (hcs : bs <+: cs ∨ cs <+: bs) :
    p.complete cs = none := by
  cases hc : p.complete cs with
  | none => rfl
  | some b =>
    rcases hcs with hcs | hcs
    · exact absurd (hp.eq_of_prefix h hc hcs).symm hne
    · exact absurd (hp.eq_of_prefix hc h hcs) hne

end Parse

/-! ## Columns -/

namespace Column

variable {α β : Type}

def Local (c : Column α) : Prop := ∀ n, (c.read n).Local

theorem Local.readOne {c : Column α} (h : c.Local) : c.readOne.Local := by
  refine (h 1).bind fun as => ?_
  split
  · exact Parse.Local.pure _
  · exact Parse.Local.failure

theorem Local.refine {c : Column α} (h : c.Local) (encode : β → α) (decode : α → Option β) :
    (c.refine encode decode).Local :=
  fun n => (h n).bind fun as => Parse.Local.check (as.mapM decode)

theorem local_rawBytes : rawBytes.Local := Parse.Local.take

end Column

theorem Radix.local_column (r : Radix) : r.column.Local :=
  fun n => (Parse.Local.take (r.byteCount n)).bind fun _ => Parse.Local.pure _

theorem local_bools : bools.Local := Radix.two.local_column.refine _ _

theorem Octets.local_read (n : Nat) : (Octets.read n).Local := by
  unfold Octets.read
  refine Parse.Local.ite (Parse.Local.take n) ?_
  refine Parse.Local.byte.bind fun header => ?_
  refine (Parse.Local.check _).bind fun radix => ?_
  have hdigits (low : UInt8) := (radix.local_column n).bind
    fun ds => Parse.Local.pure (ds.map fun d => UInt8.ofNat d + low)
  -- An odd header announces the least of the bytes, an even one that it is zero.
  exact Parse.Local.ite (Parse.Local.byte.bind hdigits) ((Parse.Local.pure 0).bind hdigits)

theorem local_octets : octets.Local := Octets.local_read

namespace WordKind

theorem local_readAt (k : WordKind) (level n : Nat) : (k.readAt level n).Local := by
  unfold readAt
  refine Parse.Local.ite ?_ ?_
  · exact (Octets.local_read n).bind fun bs => Parse.Local.pure _
  · exact (Parse.Local.take _).bind fun bs => Parse.Local.pure _

theorem local_read (k : WordKind) (n : Nat) : (k.read n).Local := by
  unfold read
  refine Parse.Local.ite (Parse.Local.pure []) ?_
  refine Parse.Local.byte.bind fun header => ?_
  have hwords (low : Nat) := (k.local_readAt ((header.toNat + 1) / 2) n).bind
    fun ws => Parse.Local.pure (ws.map fun w => (w + low) % k.modulus)
  have hlow := ((Parse.Local.take (k.width 0)).map Bytes.readLE).bind hwords
  have hplain := (Parse.Local.pure 0).bind hwords
  exact Parse.Local.ite (Parse.Local.failure.bind fun _ => Parse.Local.ite hlow hplain)
    (Parse.Local.ite hlow hplain)

theorem local_column (k : WordKind) : k.column.Local := k.local_read

end WordKind

theorem local_words32 : words32.Local := WordKind.u32.local_column.refine _ _

theorem local_words64 : words64.Local := WordKind.u64.local_column.refine _ _

theorem local_signed64 : signed64.Local := WordKind.i64.local_column.refine _ _

theorem Lengths.local_read (n : Nat) : (Lengths.read n).Local := by
  unfold Lengths.read
  refine (Octets.local_read n).bind fun short => ?_
  refine (WordKind.u64.local_read _).bind fun longs => ?_
  exact Parse.Local.ite (Parse.Local.pure _) Parse.Local.failure

namespace Column

variable {α : Type}

/-- How many members are read is known from the lengths, which were read before. -/
theorem Local.list {c : Column α} (h : c.Local) : c.list.Local :=
  fun n => (Lengths.local_read n).bind fun ls =>
    (h (Lengths.total ls)).bind fun as => Parse.Local.pure (splitLengths ls as)

theorem Local.option {c : Column α} (h : c.Local) : c.option.Local :=
  fun n => (local_bools n).bind fun present =>
    (h (present.count true)).bind fun as => Parse.Local.pure (fillPresent present as)

end Column

theorem local_strings : strings.Local := Column.local_rawBytes.list.refine _ _

end Packing
end RemoteCall
