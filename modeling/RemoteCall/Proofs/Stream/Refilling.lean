import Mathlib.Algebra.Group.Nat.Defs
import Mathlib.Control.Monad.Basic
import RemoteCall.Proofs.Steps
import RemoteCall.Stream.Script
import RemoteCall.Stream.Socket

/-!
What a buffered input does with the bytes its refills supply.

Five operations share one window.  Each comes down to acts: the refill is called, or bytes
leave the window because they are handed out, skipped, consumed or discarded.
`BufferedInput.Does` says what an act does, and that a refill is called on an empty window
only.  Every act keeps the balance of what was supplied, what was used and what is in the
window (`Does.balance`), hence so does every run, at every moment of it.  Which acts stand
behind an answer is `Operation.Lawful`; an answer that falls short has an end of input
behind it, and a fault is the one its last refill met.
-/

namespace RemoteCall

/-- A refill that keeps its contract: a count is that of the bytes it put into the window,
at least one, and the window is turned for reading.  When it fails or is at the end of
input, it supplies nothing. -/
structure Refill.Honest {ρ : Type} (r : Refill ρ) : Prop where
  capacity_eq : ∀ (w : Window) s, (r w.clear s).2.1.capacity = w.capacity
  puts : ∀ {w : Window} {s count v t}, r w.clear s = (.ok (some count), v, t) →
    ∃ bs : Bytes, 0 < bs.length ∧ bs.length ≤ w.capacity ∧ count = bs.length ∧
      v = (w.clear.put bs).flip

namespace Window

theorem advance_eq_skip {w : Window} {count : UInt64} (h : count.toNat ≤ w.remaining)
    (hw : w.capacity < 2 ^ 64) : w.advance count = w.skip count.toNat := by
  have hfit : w.position + count.toNat < 2 ^ 64 := by
    simp only [remaining, capacity, position] at *
    omega
  have hsum : (UInt64.ofNat w.position + count).toNat = w.before.length + count.toNat := by
    rw [UInt64.toNat_add, UInt64.toNat_ofNat', Nat.mod_add_mod, Nat.mod_eq_of_lt hfit]
    rfl
  rw [advance, hsum, seek, List.take_length_add_append, List.drop_length_add_append]
  rfl

end Window

namespace BufferedInput

variable {ρ : Type} {r : Refill ρ} {b c : BufferedInput ρ}

/-! ## Acts -/

/-- What happens at one time. -/
inductive Act where
  | refill (answer : Except Fault (Option Nat)) (supplied : Bytes)
  /-- Bytes leave the window. -/
  | use (bs : Bytes)

namespace Act

def supplied : Act → Bytes
  | .refill _ bs => bs
  | .use _ => []

def used : Act → Bytes
  | .refill _ _ => []
  | .use bs => bs

def isRefill : Act → Bool
  | .refill _ _ => true
  | .use _ => false

/-- If the act is a refill, it brings bytes. -/
def Brings : Act → Prop
  | .refill answer bs => 0 < bs.length ∧ answer = .ok (some bs.length)
  | .use _ => True

end Act

def supplied (acts : List Act) : Bytes := acts.flatMap Act.supplied

def used (acts : List Act) : Bytes := acts.flatMap Act.used

def refillCount (acts : List Act) : Nat := acts.countP Act.isRefill

@[simp] theorem supplied_append (as bs : List Act) :
    supplied (as ++ bs) = supplied as ++ supplied bs := List.flatMap_append

@[simp] theorem used_append (as bs : List Act) : used (as ++ bs) = used as ++ used bs :=
  List.flatMap_append

@[simp] theorem refillCount_append (as bs : List Act) :
    refillCount (as ++ bs) = refillCount as + refillCount bs := List.countP_append

/-- One act.  Whatever a refill that brings nothing leaves in the window is dropped. -/
inductive Does (r : Refill ρ) : BufferedInput ρ → Act → BufferedInput ρ → Prop where
  | filled {b : BufferedInput ρ} {count : Nat} {w : Window} {s : ρ} (hdry : b.window.span = [])
      (h : r b.window.clear b.refills = (.ok (some count), w, s)) :
      Does r b (.refill (.ok (some count)) w.span) ⟨w, s⟩
  | ended {b : BufferedInput ρ} {w : Window} {s : ρ} (hdry : b.window.span = [])
      (h : r b.window.clear b.refills = (.ok none, w, s)) :
      Does r b (.refill (.ok none) []) (discard ⟨w, s⟩)
  | failed {b : BufferedInput ρ} {e : Fault} {w : Window} {s : ρ} (hdry : b.window.span = [])
      (h : r b.window.clear b.refills = (.error e, w, s)) :
      Does r b (.refill (.error e) []) (discard ⟨w, s⟩)
  | skip (n : Nat) (b : BufferedInput ρ) :
      Does r b (.use (b.window.peek n)) { b with window := b.window.skip n }
  | discard (b : BufferedInput ρ) : Does r b (.use b.window.span) b.discard

theorem Does.balance {a : Act} (h : Does r b a c) :
    b.window.span ++ a.supplied = a.used ++ c.window.span := by
  cases h with
  | filled hdry _ => rw [hdry]; rfl
  | ended hdry _ => rw [hdry]; rfl
  | failed hdry _ => rw [hdry]; rfl
  | skip n => exact (List.append_nil _).trans (List.take_append_drop n b.window.span).symm
  | discard => rfl

theorem Does.capacity_eq (honest : r.Honest) {a : Act} (h : Does r b a c) :
    c.window.capacity = b.window.capacity := by
  have hcap := honest.capacity_eq b.window b.refills
  cases h with
  | filled _ h => rwa [h] at hcap
  | ended _ h =>
    rw [h] at hcap
    exact (capacity_discard _).trans hcap
  | failed _ h =>
    rw [h] at hcap
    exact (capacity_discard _).trans hcap
  | skip n => exact Window.capacity_skip b.window n
  | discard => exact capacity_discard b

theorem balance_of_acts {acts : List Act} (h : Steps (Does r) b acts c) :
    b.window.span ++ supplied acts = used acts ++ c.window.span := by
  induction h with
  | refl => exact List.append_nil _
  | @snoc acts a t u _ ha ih =>
    rw [supplied_append, used_append, ← List.append_assoc, ih, List.append_assoc,
      List.append_assoc]
    congr 1
    simpa [supplied, used] using ha.balance

theorem capacity_eq_of_acts (honest : r.Honest) {acts : List Act}
    (h : Steps (Does r) b acts c) : c.window.capacity = b.window.capacity := by
  induction h with
  | refl => rfl
  | snoc _ ha ih => exact (ha.capacity_eq honest).trans ih

/-! ## Operations and what stands behind their answers -/

/-- What is asked of a buffered input and what it answers. -/
inductive Operation where
  | read (n : Nat) (answer : Except Fault Bytes)
  | readByte (answer : Except Fault (Option UInt8))
  | skip (count : Nat) (answer : Except Fault Nat)
  | peek (answer : Except Fault Bytes)
  | consume (count : UInt64)
  | discard

/-- One operation.  No more is consumed than what `peek` shows. -/
inductive Operates (r : Refill ρ) : BufferedInput ρ → Operation → BufferedInput ρ → Prop where
  | read {n : Nat} {b c : BufferedInput ρ} {answer : Except Fault Bytes}
      (h : b.read r n = (answer, c)) : Operates r b (.read n answer) c
  | readByte {b c : BufferedInput ρ} {answer : Except Fault (Option UInt8)}
      (h : b.readByte r = (answer, c)) : Operates r b (.readByte answer) c
  | skip {count : Nat} {b c : BufferedInput ρ} {answer : Except Fault Nat}
      (h : b.skip r count = (answer, c)) : Operates r b (.skip count answer) c
  | peek {b c : BufferedInput ρ} {answer : Except Fault Bytes} (h : b.peek r = (answer, c)) :
      Operates r b (.peek answer) c
  | consume {count : UInt64} {b : BufferedInput ρ} (h : count.toNat ≤ b.window.remaining) :
      Operates r b (.consume count) (b.consume count)
  | discard (b : BufferedInput ρ) : Operates r b .discard b.discard

/-- What the refills of an operation met. -/
inductive Ending where
  | smooth
  | ended
  | failed (e : Fault)

/-- All refills but the last bring bytes, and the last one does too if all goes smoothly. -/
def Ending.Holds : Ending → List Act → Prop
  | .smooth, acts => ∀ a ∈ acts, a.Brings
  | .ended, acts => ∃ front, acts = front ++ [.refill (.ok none) []] ∧ ∀ a ∈ front, a.Brings
  | .failed e, acts => ∃ front, acts = front ++ [.refill (.error e) []] ∧ ∀ a ∈ front, a.Brings

namespace Operation

/-- What the refills met, told by the answer alone. -/
def ending : Operation → Ending
  | .read n (.ok bs) => if 0 < n ∧ bs = [] then .ended else .smooth
  | .readByte (.ok byte) => if byte = none then .ended else .smooth
  | .skip count (.ok skipped) => if skipped < count then .ended else .smooth
  | .peek (.ok shown) => if shown = [] then .ended else .smooth
  | .read _ (.error e) | .readByte (.error e) | .skip _ (.error e) | .peek (.error e) => .failed e
  | .consume _ | .discard => .smooth

def mostRefills : Operation → Nat
  | .read _ _ | .readByte _ | .peek _ => 1
  | .skip count _ => count
  | .consume _ | .discard => 0

/-- How the answer fits the bytes that were used and those left in the window. -/
def Fits : Operation → Bytes → Bytes → Prop
  | .read n (.ok bs), used, _ => used = bs ∧ bs.length ≤ n
  | .readByte (.ok byte), used, _ => used = byte.toList
  | .skip count (.ok skipped), used, _ => used.length = skipped ∧ skipped ≤ count
  | .peek (.ok shown), used, left => used = [] ∧ left = shown
  | .skip count (.error _), used, left => used.length < count ∧ left = []
  | .read _ (.error _), used, left | .readByte (.error _), used, left
  | .peek (.error _), used, left => used = [] ∧ left = []
  | .consume count, used, _ => used.length = count.toNat
  | .discard, _, left => left = []

/-- The acts that may stand behind an operation with its answer, and the bytes that are in
the window when it is over. -/
structure Lawful (op : Operation) (acts : List Act) (left : Bytes) : Prop where
  fits : op.Fits (used acts) left
  refills_le : refillCount acts ≤ op.mostRefills
  ending : op.ending.Holds acts

end Operation

/-! ## What a fill comes to -/

inductive Fills (r : Refill ρ) (b : BufferedInput ρ) :
    Except Fault Bool → BufferedInput ρ → Prop where
  | ready {acts : List Act} {c : BufferedInput ρ} (hacts : Steps (Does r) b acts c)
      (hbring : ∀ a ∈ acts, a.Brings) (hused : used acts = []) (hcount : refillCount acts ≤ 1)
      (hspan : c.window.span ≠ []) : Fills r b (.ok true) c
  | ended {c : BufferedInput ρ} (h : Does r b (.refill (.ok none) []) c)
      (hspan : c.window.span = []) : Fills r b (.ok false) c
  | failed {e : Fault} {c : BufferedInput ρ} (h : Does r b (.refill (.error e) []) c)
      (hspan : c.window.span = []) : Fills r b (.error e) c

theorem fills (honest : r.Honest) (b : BufferedInput ρ) :
    Fills r b (b.fill r).1 (b.fill r).2 := by
  rw [fill]
  by_cases hheld : b.window.remaining > 0
  · rw [if_pos hheld]
    exact .ready .refl (List.forall_mem_nil _) rfl (Nat.zero_le 1) (List.length_pos_iff.mp hheld)
  · have hdry : b.window.span = [] := by simpa [Window.remaining] using hheld
    rw [if_neg hheld]
    rcases h : r b.window.clear b.refills with ⟨e | _ | count, w, s⟩
    · exact .failed (.failed hdry h) rfl
    · exact .ended (.ended hdry h) rfl
    · obtain ⟨bs, hpos, hfit, rfl, rfl⟩ := honest.puts h
      have hdoes := Does.filled hdry h
      have hspan := Window.span_refilled hfit
      rw [hspan] at hdoes
      have hfull : bs.length > 0 ∧ (b.window.clear.put bs).flip.remaining > 0 := by
        rw [Window.remaining, hspan]
        exact ⟨hpos, hpos⟩
      dsimp only
      rw [if_pos hfull]
      have hbring : ∀ a ∈ [Act.refill (.ok (some bs.length)) bs], a.Brings :=
        List.forall_mem_singleton.mpr ⟨hpos, rfl⟩
      exact .ready (.single hdoes) hbring rfl (Nat.le_refl 1) (List.length_pos_iff.mp hfull.2)

/-! ## The operations are lawful -/

theorem forall_brings_use {acts : List Act} (h : ∀ a ∈ acts, a.Brings) (bs : Bytes) :
    ∀ a ∈ acts ++ [.use bs], a.Brings :=
  List.forall_mem_append.mpr ⟨h, List.forall_mem_singleton.mpr trivial⟩

theorem used_use {acts : List Act} (h : used acts = []) (bs : Bytes) :
    used (acts ++ [.use bs]) = bs := by
  rw [used_append, h]
  exact List.append_nil bs

theorem refillCount_use (acts : List Act) (bs : Bytes) :
    refillCount (acts ++ [.use bs]) = refillCount acts := refillCount_append acts [.use bs]

theorem Ending.Holds.after {e : Ending} {front acts : List Act}
    (hfront : ∀ a ∈ front, a.Brings) (h : e.Holds acts) : e.Holds (front ++ acts) := by
  cases e with
  | smooth => exact List.forall_mem_append.mpr ⟨hfront, h⟩
  | ended =>
    obtain ⟨more, rfl, hmore⟩ := h
    exact ⟨_, (List.append_assoc ..).symm, List.forall_mem_append.mpr ⟨hfront, hmore⟩⟩
  | failed e =>
    obtain ⟨more, rfl, hmore⟩ := h
    exact ⟨_, (List.append_assoc ..).symm, List.forall_mem_append.mpr ⟨hfront, hmore⟩⟩

namespace Operation

theorem lawful_use (op : Operation) {acts : List Act} (hbring : ∀ a ∈ acts, a.Brings)
    (hused : used acts = []) (hcount : refillCount acts ≤ op.mostRefills) {bs left : Bytes}
    (hend : op.ending = .smooth) (hfits : op.Fits bs left) :
    op.Lawful (acts ++ [.use bs]) left where
  fits := (used_use hused bs).symm ▸ hfits
  refills_le := (refillCount_use acts bs).symm ▸ hcount
  ending := by
    rw [hend]
    exact forall_brings_use hbring bs

theorem lawful_ended (op : Operation) (hmost : 1 ≤ op.mostRefills) (hend : op.ending = .ended)
    (hfits : op.Fits [] []) : op.Lawful [.refill (.ok none) []] [] where
  fits := hfits
  refills_le := hmost
  ending := by
    rw [hend]
    exact ⟨[], rfl, by simp⟩

theorem lawful_failed (op : Operation) {e : Fault} (hmost : 1 ≤ op.mostRefills)
    (hend : op.ending = .failed e) (hfits : op.Fits [] []) :
    op.Lawful [.refill (.error e) []] [] where
  fits := hfits
  refills_le := hmost
  ending := by
    rw [hend]
    exact ⟨[], rfl, by simp⟩

theorem Lawful.skip_more {front acts : List Act} (hbring : ∀ a ∈ front, a.Brings)
    {bs left : Bytes} (hused : used front = bs) (hone : refillCount front ≤ 1)
    (hbs : 0 < bs.length) {count : Nat} {answer : Except Fault Nat}
    (h : (skip count answer).Lawful acts left) :
    (skip (bs.length + count) (answer.map (bs.length + ·))).Lawful (front ++ acts) left := by
  have hcount : refillCount acts ≤ count := h.refills_le
  have hsum : (used (front ++ acts)).length = bs.length + (used acts).length := by
    rw [used_append, hused, List.length_append]
  have hmost : refillCount (front ++ acts) ≤ bs.length + count := by
    rw [refillCount_append]
    omega
  cases answer with
  | ok k =>
    obtain ⟨hlen, hle⟩ : (used acts).length = k ∧ k ≤ count := h.fits
    refine ⟨⟨by rw [hsum, hlen], Nat.add_le_add_left hle _⟩, hmost, ?_⟩
    have hend := h.ending.after hbring
    simp only [Operation.ending, Except.map, Nat.add_lt_add_iff_left] at hend ⊢
    exact hend
  | error e =>
    obtain ⟨hlt, hleft⟩ : (used acts).length < count ∧ left = [] := h.fits
    exact ⟨⟨by rw [hsum]; omega, hleft⟩, hmost, h.ending.after hbring⟩

end Operation

theorem read_lawful (honest : r.Honest) {n : Nat} {answer : Except Fault Bytes}
    (h : b.read r n = (answer, c)) :
    ∃ acts, Steps (Does r) b acts c ∧ (Operation.read n answer).Lawful acts c.window.span := by
  rw [read] at h
  by_cases hn : n = 0
  · rw [if_pos hn] at h
    cases h
    subst hn
    exact ⟨[], .refl, ⟨rfl, Nat.le_refl 0⟩, Nat.zero_le 1, List.forall_mem_nil _⟩
  · rw [if_neg hn] at h
    have hfill := fills honest b
    generalize b.fill r = w at h hfill
    obtain ⟨filled, d⟩ := w
    cases hfill with
    | ready hacts hbring hused hcount hspan =>
      cases h
      have htaken : d.window.peek n ≠ [] := by simpa [Window.peek, hn] using hspan
      have hlen : (d.window.peek n).length ≤ n := by
        rw [Window.length_peek]
        exact Nat.min_le_left ..
      exact ⟨_, hacts.snoc (.skip n d), Operation.lawful_use (.read n _) hbring hused hcount
        (if_neg fun hshort => htaken hshort.2) ⟨rfl, hlen⟩⟩
    | ended hd hspan =>
      cases h
      rw [hspan]
      exact ⟨_, .single hd, Operation.lawful_ended (.read n (.ok [])) (Nat.le_refl 1)
        (if_pos ⟨Nat.pos_of_ne_zero hn, rfl⟩) ⟨rfl, Nat.zero_le n⟩⟩
    | failed hd hspan =>
      cases h
      rw [hspan]
      exact ⟨_, .single hd, Operation.lawful_failed (.read n _) (Nat.le_refl 1) rfl ⟨rfl, rfl⟩⟩

theorem readByte_lawful (honest : r.Honest) {answer : Except Fault (Option UInt8)}
    (h : b.readByte r = (answer, c)) :
    ∃ acts, Steps (Does r) b acts c ∧ (Operation.readByte answer).Lawful acts c.window.span := by
  rw [readByte] at h
  have hfill := fills honest b
  generalize b.fill r = w at h hfill
  obtain ⟨filled, d⟩ := w
  cases hfill with
  | ready hacts hbring hused hcount hspan =>
    cases h
    have hpeek : d.window.peek 1 = (d.window.peek 1).head?.toList := by
      rw [Window.peek]
      cases d.window.span <;> rfl
    have hsome : (d.window.peek 1).head? ≠ none := by
      rw [Window.peek]
      simpa using hspan
    exact ⟨_, hacts.snoc (.skip 1 d),
      Operation.lawful_use (.readByte (.ok _)) hbring hused hcount (if_neg hsome) hpeek⟩
  | ended hd hspan =>
    cases h
    rw [hspan]
    exact ⟨_, .single hd, Operation.lawful_ended (.readByte (.ok none)) (Nat.le_refl 1) rfl rfl⟩
  | failed hd hspan =>
    cases h
    rw [hspan]
    exact ⟨_, .single hd, Operation.lawful_failed (.readByte _) (Nat.le_refl 1) rfl ⟨rfl, rfl⟩⟩

theorem peek_lawful (honest : r.Honest) {answer : Except Fault Bytes}
    (h : b.peek r = (answer, c)) :
    ∃ acts, Steps (Does r) b acts c ∧ (Operation.peek answer).Lawful acts c.window.span := by
  rw [peek] at h
  have hfill := fills honest b
  generalize b.fill r = w at h hfill
  obtain ⟨filled, d⟩ := w
  cases hfill with
  | @ready acts _ hacts hbring hused hcount hspan =>
    cases h
    refine ⟨acts, hacts, ⟨hused, rfl⟩, hcount, ?_⟩
    rw [Operation.ending, if_neg hspan]
    exact hbring
  | ended hd hspan =>
    cases h
    rw [hspan]
    exact ⟨_, .single hd, Operation.lawful_ended (.peek (.ok [])) (Nat.le_refl 1) rfl ⟨rfl, rfl⟩⟩
  | failed hd hspan =>
    cases h
    rw [hspan]
    exact ⟨_, .single hd, Operation.lawful_failed (.peek _) (Nat.le_refl 1) rfl ⟨rfl, rfl⟩⟩

/-- The induction is on the rounds of the loop; what is skipped in one round is added in
front of what the later ones skip. -/
theorem skip_go_lawful (honest : r.Honest) (left skipped : Nat) (b : BufferedInput ρ) :
    ∃ acts answer, (skip.go r left skipped b).1 = answer.map (skipped + ·) ∧
      Steps (Does r) b acts (skip.go r left skipped b).2 ∧
      (Operation.skip left answer).Lawful acts (skip.go r left skipped b).2.window.span := by
  induction left using Nat.strongRecOn generalizing skipped b with
  | ind left ih =>
    rw [skip.go]
    by_cases hleft : left = 0
    · rw [if_pos hleft]
      subst hleft
      exact ⟨[], .ok 0, rfl, .refl, ⟨rfl, Nat.le_refl 0⟩, Nat.le_refl 0,
        by simp [Operation.ending, Ending.Holds]⟩
    · rw [if_neg hleft]
      have hpos : 0 < left := Nat.pos_of_ne_zero hleft
      have hfill := fills honest b
      generalize b.fill r = w at hfill ⊢
      obtain ⟨filled, d⟩ := w
      cases hfill with
      | @ready acts _ hacts hbring hused hcount hspan =>
        have hheld : 0 < d.window.remaining := List.length_pos_iff.mpr hspan
        have hlen := Window.length_peek d.window (min left d.window.remaining)
        rw [Nat.min_eq_left (Nat.min_le_right ..)] at hlen
        have hstep : min left d.window.remaining ≠ 0 := by omega
        have hle : min left d.window.remaining ≤ left := Nat.min_le_left ..
        dsimp only
        rw [if_neg hstep]
        generalize min left d.window.remaining = step at hlen hstep hle ⊢
        obtain ⟨more, answer, hgo, hmore, hlaw⟩ := ih (left - step) (by omega) (skipped + step)
          { d with window := d.window.skip step }
        have hall := hlaw.skip_more (forall_brings_use hbring _) (used_use hused _)
          ((refillCount_use acts _).symm ▸ hcount) (by rw [hlen]; omega)
        rw [hlen, Nat.add_sub_cancel' hle] at hall
        refine ⟨_, answer.map (step + ·), ?_, (hacts.snoc (.skip step d)).trans hmore, hall⟩
        rw [hgo]
        cases answer with
        | ok k => exact congrArg Except.ok (Nat.add_assoc ..)
        | error e => rfl
      | ended hd hspan =>
        dsimp only
        rw [hspan]
        exact ⟨_, .ok 0, rfl, .single hd, Operation.lawful_ended (.skip left (.ok 0)) hpos
          (if_pos hpos) ⟨rfl, Nat.zero_le left⟩⟩
      | @failed e _ hd hspan =>
        dsimp only
        rw [hspan]
        exact ⟨_, .error e, rfl, .single hd, Operation.lawful_failed (.skip left _) hpos rfl
          ⟨hpos, rfl⟩⟩

theorem skip_lawful (honest : r.Honest) {count : Nat} {answer : Except Fault Nat}
    (h : b.skip r count = (answer, c)) :
    ∃ acts, Steps (Does r) b acts c ∧ (Operation.skip count answer).Lawful acts c.window.span := by
  obtain ⟨acts, answer', hanswer, hacts, hlaw⟩ := skip_go_lawful honest count 0 b
  rw [skip] at h
  rw [h] at hanswer hacts hlaw
  obtain rfl : answer = answer' := by
    cases answer' <;> simpa [Except.map] using hanswer
  exact ⟨acts, hacts, hlaw⟩

/-- Every operation comes down to acts that its answer may stand for. -/
theorem Operates.lawful (honest : r.Honest) (hcap : b.window.capacity < 2 ^ 64) {op : Operation}
    (h : Operates r b op c) : ∃ acts, Steps (Does r) b acts c ∧ op.Lawful acts c.window.span := by
  cases h with
  | read h => exact read_lawful honest h
  | readByte h => exact readByte_lawful honest h
  | skip h => exact skip_lawful honest h
  | peek h => exact peek_lawful honest h
  | @consume count _ hshown =>
    have hlen : (b.window.peek count.toNat).length = count.toNat := by
      rw [Window.length_peek, Nat.min_eq_left hshown]
    have hstep := Does.skip (r := r) count.toNat b
    rw [← Window.advance_eq_skip hshown hcap] at hstep
    exact ⟨_, .single hstep,
      Operation.lawful_use (.consume count) (List.forall_mem_nil _) rfl (Nat.zero_le 0) rfl hlen⟩
  | discard =>
    exact ⟨_, .single (.discard b),
      Operation.lawful_use .discard (List.forall_mem_nil _) rfl (Nat.zero_le 0) rfl rfl⟩

/-! ## Runs -/

/-- One operation, with the acts that stand behind it. -/
structure Obeys (r : Refill ρ) (b : BufferedInput ρ) (entry : Operation × List Act)
    (c : BufferedInput ρ) : Prop where
  operates : Operates r b entry.1 c
  acts : Steps (Does r) b entry.2 c
  lawful : entry.1.Lawful entry.2 c.window.span

theorem acts_of_story {story : List (Operation × List Act)} (h : Steps (Obeys r) b story c) :
    Steps (Does r) b (story.flatMap Prod.snd) c := by
  induction h with
  | refl => exact .refl
  | snoc _ hentry ih =>
    rw [List.flatMap_append, List.flatMap_singleton]
    exact ih.trans hentry.acts

theorem exists_story (honest : r.Honest) (hcap : b.window.capacity < 2 ^ 64)
    {ops : List Operation} (h : Steps (Operates r) b ops c) :
    ∃ story : List (Operation × List Act), story.map Prod.fst = ops ∧
      Steps (Obeys r) b story c := by
  induction h with
  | refl => exact ⟨[], rfl, .refl⟩
  | @snoc ops op d c _ hop ih =>
    obtain ⟨story, hops, hstory⟩ := ih
    have hsame := capacity_eq_of_acts honest (acts_of_story hstory)
    obtain ⟨acts, hacts, hlaw⟩ := hop.lawful honest (hsame ▸ hcap)
    refine ⟨story ++ [(op, acts)], ?_, hstory.snoc ⟨hop, hacts, hlaw⟩⟩
    rw [List.map_append, hops]
    rfl

/-- Whatever a buffered input is asked, and however its honest refill answers, every
operation comes down to acts that its answer stands for.  At every moment, what was used,
followed by what is in the window, is what was supplied. -/
theorem supply_accounted (honest : r.Honest) {n : UInt64} (hn : 0 < n) (s : ρ) :
    ∃ start, new n.toNat s = .ok start ∧ ∀ {ops : List Operation} {q : BufferedInput ρ},
      Steps (Operates r) start ops q →
      ∃ story : List (Operation × List Act), story.map Prod.fst = ops ∧
        Steps (Obeys r) start story q ∧
        ∀ front rest, story.flatMap Prod.snd = front ++ rest →
          ∃ b, Steps (Does r) start front b ∧ Steps (Does r) b rest q ∧
            used front ++ b.window.span = supplied front := by
  have hpos : n.toNat ≠ 0 := Nat.pos_iff_ne_zero.mp (UInt64.lt_iff_toNat_lt.mp hn)
  refine ⟨⟨(Window.new n.toNat).flip, s⟩, if_neg hpos, ?_⟩
  intro ops q hrun
  have hcap : (Window.new n.toNat).flip.capacity < 2 ^ 64 := by
    rw [Window.capacity_flip, Window.capacity_new]
    exact n.toNat_lt
  obtain ⟨story, hops, hstory⟩ := exists_story honest hcap hrun
  refine ⟨story, hops, hstory, ?_⟩
  intro front rest hcut
  have hacts := acts_of_story hstory
  rw [hcut] at hacts
  obtain ⟨b, hfront, hrest⟩ := hacts.exists_of_append
  -- Nothing is in the window at the start.
  exact ⟨b, hfront, hrest, (balance_of_acts hfront).symm⟩

end BufferedInput

namespace Socket

/-- Refilling from a source keeps the contract, however the source behaves. -/
theorem refill_honest {σ : Type} (src : Source σ) : (refill src).Honest where
  capacity_eq w s := (capacity_refill src w.clear s).trans (Window.capacity_clear w)
  puts {w s count v t} h := by
    rw [refill] at h
    split at h
    · cases h
    · cases h
    · next b bs u hr =>
      cases h
      have hlen := src.length_readSome_le hr
      rw [Window.remaining_clear] at hlen
      exact ⟨b :: bs, Nat.succ_pos _, hlen, rfl, rfl⟩

end Socket

namespace BufferedInput

/-- A skip meets a fault on its way.  What it skipped until then is gone, and reading goes
on behind it. -/
theorem supply_accounted_fault_while_skipping :
    ∃ (story : List (Operation × List Act)) (q : BufferedInput (List Script.Arrival)),
      story.map Prod.fst
        = [.read 2 (.ok [1, 2]), .skip 5 (.error ⟨.wouldBlock, "later"⟩), .readByte (.ok (some 7)),
            .peek (.ok [8]), .consume 1, .readByte (.ok none), .discard] ∧
      Steps (Obeys (Socket.refill Script.source))
        ⟨(Window.new 4).flip, [.chunk [1, 2, 3, 4, 5, 6], .fault ⟨.wouldBlock, "later"⟩,
          .chunk [7, 8]]⟩ story q := by
  obtain ⟨start, hnew, hruns⟩ := supply_accounted (Socket.refill_honest Script.source)
    (n := 4) (by decide)
    [.chunk [1, 2, 3, 4, 5, 6], .fault ⟨.wouldBlock, "later"⟩, .chunk [7, 8]]
  obtain rfl := Except.ok.inj hnew
  let r := Socket.refill Script.source
  let b₀ : BufferedInput (List Script.Arrival) := ⟨(Window.new 4).flip,
    [.chunk [1, 2, 3, 4, 5, 6], .fault ⟨.wouldBlock, "later"⟩, .chunk [7, 8]]⟩
  let b₁ := (b₀.read r 2).2
  let b₂ := (b₁.skip r 5).2
  let b₃ := (b₂.readByte r).2
  let b₄ := (b₃.peek r).2
  let b₅ := b₄.consume 1
  have h₁ : (b₀.read r 2).1 = .ok [1, 2] := by decide +kernel
  have h₂ : (b₁.skip r 5).1 = .error ⟨.wouldBlock, "later"⟩ := by decide +kernel
  have h₃ : (b₂.readByte r).1 = .ok (some 7) := by decide +kernel
  have h₄ : (b₃.peek r).1 = .ok [8] := by decide +kernel
  have h₅ : (1 : UInt64).toNat ≤ b₄.window.remaining := by decide +kernel
  have h₆ : (b₅.readByte r).1 = .ok none := by decide +kernel
  obtain ⟨story, hops, hstory, -⟩ := hruns <| .cons (.read (Prod.ext h₁ rfl)) <|
    .cons (.skip (Prod.ext h₂ rfl)) <| .cons (.readByte (Prod.ext h₃ rfl)) <|
    .cons (.peek (Prod.ext h₄ rfl)) <| .cons (.consume h₅) <|
    .cons (.readByte (Prod.ext h₆ rfl)) <| .single (.discard _)
  exact ⟨story, _, hops, hstory⟩

end BufferedInput
end RemoteCall
