import Mathlib.Data.List.Induction
import RemoteCall.Frame.Call
import RemoteCall.Proofs.Frame.Flags

/-!
Flag words after any updates.

A flag word falls into three parts: keep-alive, the pattern, and all other bits.  An update of
one kind writes its own part and leaves the other two.  So after any number of updates of both
kinds each part is what the last update of its kind wrote, or what it was at first if there was
none (`Updated`).  The three parts make up the word, and nothing else of the updates is left
in it: neither the order in which the two kinds came nor what was overwritten.
-/

namespace RemoteCall

inductive FlagUpdate where
  | keepAlive (keep : Bool)
  | pattern (p : Pattern)
  deriving DecidableEq, Repr

def Flags.update (f : Flags) : FlagUpdate → Flags
  | .keepAlive keep => f.withKeepAlive keep
  | .pattern p => f.withPattern p

def CallFrame.update (c : CallFrame) : FlagUpdate → CallFrame
  | .keepAlive keep => c.setKeepAlive keep
  | .pattern p => c.setPattern p

namespace FlagUpdate

def keepSet? : FlagUpdate → Option Bool
  | keepAlive keep => some keep
  | pattern _ => none

def patternSet? : FlagUpdate → Option Pattern
  | keepAlive _ => none
  | pattern p => some p

/-- What was set last by updates of one kind. -/
def last? {α : Type} (kind : FlagUpdate → Option α) (us : List FlagUpdate) : Option α :=
  (us.filterMap kind).getLast?

theorem last?_concat {α : Type} {kind : FlagUpdate → Option α} {u : FlagUpdate}
    {us : List FlagUpdate} : last? kind (us ++ [u]) = (kind u).or (last? kind us) := by
  rw [last?, List.filterMap_append]
  cases hu : kind u <;> simp [last?, hu]

theorem last?_keepSet?_keepAlives (keeps : List Bool) :
    last? keepSet? (keeps.map keepAlive) = keeps.getLast? := by
  have h : (keeps.map keepAlive).filterMap keepSet? = keeps := by
    rw [List.filterMap_map]
    exact List.filterMap_some
  rw [last?, h]

theorem last?_patternSet?_keepAlives (keeps : List Bool) :
    last? patternSet? (keeps.map keepAlive) = none := by
  have h : (keeps.map keepAlive).filterMap patternSet? = [] := by
    rw [List.filterMap_map, List.filterMap_eq_nil_iff]
    exact fun keep _ => rfl
  rw [last?, h]
  rfl

end FlagUpdate

namespace Flags

open FlagUpdate

variable {f g h : Flags} {us vs : List FlagUpdate}

/-! ## The parts of a word -/

theorem eq_of_parts (hkeep : f &&& keepAliveBit = g &&& keepAliveBit)
    (hpattern : f &&& patternMask = g &&& patternMask)
    (hother : f &&& otherMask = g &&& otherMask) : f = g := by
  have hmasks : keepAliveBit ||| patternMask ||| otherMask = -1 := by decide
  have hsplit (w : Flags) :
      w = w &&& keepAliveBit ||| w &&& patternMask ||| w &&& otherMask := by
    rw [← and_or, ← and_or, hmasks, UInt32.and_neg_one]
  rw [hsplit f, hsplit g, hkeep, hpattern, hother]

/-! ## Runs of updates -/

/-- `g` is `f` after the updates: each part is what the last update of its kind wrote. -/
structure Updated (f : Flags) (us : List FlagUpdate) (g : Flags) : Prop where
  keepAlive : g &&& keepAliveBit = ((last? keepSet? us).map keepBit).getD (f &&& keepAliveBit)
  pattern : g &&& patternMask = ((last? patternSet? us).map bitOf).getD (f &&& patternMask)
  other : g &&& otherMask = f &&& otherMask

theorem Updated.snoc (h : Updated f us g) (u : FlagUpdate) :
    Updated f (us ++ [u]) (g.update u) := by
  cases u with
  | keepAlive keep =>
    refine ⟨?_, ?_, ?_⟩
    · rw [last?_concat]
      exact withKeepAlive_and_keepAliveBit g keep
    · rw [last?_concat]
      exact (withKeepAlive_and_patternMask g keep).trans h.pattern
    · exact (withKeepAlive_and_otherMask g keep).trans h.other
  | pattern p =>
    refine ⟨?_, ?_, ?_⟩
    · rw [last?_concat]
      exact (withPattern_and_keepAliveBit g p).trans h.keepAlive
    · rw [last?_concat]
      exact withPattern_and_patternMask g p
    · exact (withPattern_and_otherMask g p).trans h.other

theorem updated_foldl (f : Flags) (us : List FlagUpdate) :
    Updated f us (us.foldl update f) := by
  -- From the end, since it is the last update of a kind that stays.
  induction us using List.reverseRecOn with
  | nil => exact ⟨rfl, rfl, rfl⟩
  | append_singleton us u ih =>
    rw [List.foldl_append]
    exact ih.snoc u

theorem Updated.isKeepAlive_eq (h : Updated f us g) :
    g.isKeepAlive = (last? keepSet? us).getD f.isKeepAlive := by
  unfold isKeepAlive
  rw [h.keepAlive]
  cases last? keepSet? us with
  | none => rfl
  | some keep => cases keep <;> rfl

theorem Updated.pattern?_eq (h : Updated f us g) :
    g.pattern? = (last? patternSet? us).or f.pattern? := by
  unfold pattern?
  rw [h.pattern]
  cases last? patternSet? us with
  | none => rfl
  | some p => cases p <;> rfl

theorem and_bitOf (f : Flags) (p : Pattern) : f &&& bitOf p = f &&& patternMask &&& bitOf p := by
  rw [UInt32.and_assoc]
  cases p <;> rfl

/-- Of the two pattern bits the one of the last pattern is set, and no other. -/
theorem Updated.bit_ne_zero_iff (h : Updated f us g) {p : Pattern}
    (hp : last? patternSet? us = some p) (q : Pattern) : g &&& bitOf q ≠ 0 ↔ q = p := by
  rw [and_bitOf, h.pattern, hp]
  show bitOf p &&& bitOf q ≠ 0 ↔ q = p
  cases p <;> cases q <;> decide

theorem and_not_keepAliveBit (f : Flags) :
    f &&& ~~~keepAliveBit = f &&& patternMask ||| f &&& otherMask := by
  rw [← and_or]
  rfl

theorem custom_eq (f : Flags) : f.custom = f &&& otherMask &&& customMask := by
  rw [UInt32.and_assoc]
  rfl

theorem Updated.eq_of_last (hg : Updated f us g) (hh : Updated f vs h)
    (hkeep : last? keepSet? vs = last? keepSet? us)
    (hpattern : last? patternSet? vs = last? patternSet? us) : h = g := by
  refine eq_of_parts ?_ ?_ (hh.other.trans hg.other.symm)
  · rw [hh.keepAlive, hg.keepAlive, hkeep]
  · rw [hh.pattern, hg.pattern, hpattern]

end Flags

open Flags FlagUpdate

theorem CallFrame.foldl_update (c : CallFrame) (us : List FlagUpdate) :
    us.foldl update c = { c with flags := us.foldl Flags.update c.flags } := by
  induction us generalizing c with
  | nil => rfl
  | cons u us ih =>
    rw [List.foldl_cons, ih]
    cases u <;> rfl

namespace ReturnFrame

theorem foldl_setKeepAlive (r : ReturnFrame) (keeps : List Bool) :
    keeps.foldl setKeepAlive r =
      { r with flags := (keeps.map .keepAlive).foldl Flags.update r.flags } := by
  induction keeps generalizing r with
  | nil => rfl
  | cons keep keeps ih =>
    rw [List.foldl_cons, ih]
    rfl

/-- However often keep-alive is set, nothing else changes. -/
theorem foldl_setKeepAlive_only (r : ReturnFrame) (keeps : List Bool) :
    let s := keeps.foldl setKeepAlive r
    s.isKeepAlive = keeps.getLast?.getD r.isKeepAlive ∧
    s.flags &&& ~~~keepAliveBit = r.flags &&& ~~~keepAliveBit ∧
    { s with flags := r.flags } = r := by
  intro s
  have hs : s = { r with flags := (keeps.map .keepAlive).foldl Flags.update r.flags } :=
    r.foldl_setKeepAlive keeps
  have h : Updated r.flags (keeps.map .keepAlive) s.flags := by
    rw [hs]
    exact updated_foldl r.flags (keeps.map .keepAlive)
  have hpattern : s.flags &&& patternMask = r.flags &&& patternMask := by
    rw [h.pattern, last?_patternSet?_keepAlives]
    rfl
  refine ⟨?_, ?_, ?_⟩
  · rw [← last?_keepSet?_keepAlives]
    exact h.isKeepAlive_eq
  · rw [and_not_keepAliveBit, hpattern, h.other, ← and_not_keepAliveBit]
  · rw [hs]

end ReturnFrame

namespace CallFrame

/-- Keep-alive and the pattern of a frame are set any number of times, in any order, from any
flags.  Then keep-alive and the pattern are read as they were set last, or as they were if they
were never set.  Once a pattern was set, its bit is set and that of the other pattern is not,
also if at first both were or neither was.  All bits that belong to neither kind are as they
were, those of extensions included, and so is the rest of the frame.  Any other updates with
the same last ones end in the same frame.  On an answer, where keep-alive alone can be set, it
is the same. -/
theorem updates_keep_to_their_bits (c : CallFrame) (us : List FlagUpdate) :
    let d := us.foldl update c
    d.isKeepAlive = (last? keepSet? us).getD c.isKeepAlive ∧
    d.pattern? = (last? patternSet? us).or c.pattern? ∧
    (∀ p, last? patternSet? us = some p → ∀ q, d.flags &&& bitOf q ≠ 0 ↔ q = p) ∧
    (last? patternSet? us = none → d.flags &&& patternMask = c.flags &&& patternMask) ∧
    d.flags &&& otherMask = c.flags &&& otherMask ∧
    d.flags.custom = c.flags.custom ∧
    { d with flags := c.flags } = c ∧
    (∀ vs, last? keepSet? vs = last? keepSet? us → last? patternSet? vs = last? patternSet? us →
      vs.foldl update c = d) ∧
    ∀ (r : ReturnFrame) (keeps : List Bool),
      let s := keeps.foldl ReturnFrame.setKeepAlive r
      s.isKeepAlive = keeps.getLast?.getD r.isKeepAlive ∧
      s.flags &&& ~~~keepAliveBit = r.flags &&& ~~~keepAliveBit ∧
      { s with flags := r.flags } = r := by
  intro d
  have hd : d = { c with flags := us.foldl Flags.update c.flags } := c.foldl_update us
  have h : Updated c.flags us d.flags := by
    rw [hd]
    exact updated_foldl c.flags us
  refine ⟨h.isKeepAlive_eq, h.pattern?_eq, fun p hp => h.bit_ne_zero_iff hp, ?_, h.other, ?_, ?_,
    ?_, ReturnFrame.foldl_setKeepAlive_only⟩
  · intro hnone
    rw [h.pattern, hnone]
    rfl
  · rw [custom_eq, h.other, ← custom_eq]
  · rw [hd]
  · intro vs hkeep hpattern
    have hword : vs.foldl Flags.update c.flags = us.foldl Flags.update c.flags :=
      (updated_foldl c.flags us).eq_of_last (updated_foldl c.flags vs) hkeep hpattern
    rw [foldl_update, hword, hd]

/-- At first both pattern bits are set, and the two kinds of updates come in two orders. -/
theorem updates_keep_to_their_bits_both_at_first :
    let c : CallFrame :=
      ⟨"example.Greeting", "greet", [], [], 0xABCD0301, none, by decide, by decide⟩
    let us : List FlagUpdate := [.pattern .inOut, .keepAlive false, .pattern .inOnly]
    let vs : List FlagUpdate := [.keepAlive true, .pattern .inOnly, .keepAlive false]
    c.pattern? = none ∧ last? patternSet? us = some .inOnly ∧
      (us.foldl update c).pattern? = some .inOnly ∧
      (us.foldl update c).isKeepAlive = false ∧
      (us.foldl update c).flags &&& inOutBit = 0 ∧
      (us.foldl update c).flags.custom = 0xABCD0000 ∧
      vs.foldl update c = us.foldl update c := by
  intro c us vs
  have hlast : last? patternSet? us = some .inOnly := rfl
  obtain ⟨hkeep, hpattern, hbits, -, -, hcustom, -, horder, -⟩ := updates_keep_to_their_bits c us
  refine ⟨by decide, hlast, ?_, ?_, ?_, ?_, horder vs rfl rfl⟩
  · rw [hpattern]
    rfl
  · rw [hkeep]
    rfl
  · exact not_not.mp fun h => absurd ((hbits .inOnly hlast .inOut).mp h) (by decide)
  · rw [hcustom]
    decide

end CallFrame
end RemoteCall
