import RemoteCall.Frame.Return

/-!
Flag words, read after they were written.

Keep-alive and the pattern lie in different bits, so each can be set without a change
to the other.  Every reading goes through a mask, and the masks are constants: what a
mask leaves of a word that was written is one of the laws below.
-/

namespace RemoteCall
namespace Flags

theorem or_and (f g mask : Flags) : (f ||| g) &&& mask = f &&& mask ||| g &&& mask := by
  apply UInt32.toBitVec_inj.mp
  apply BitVec.eq_of_getLsbD_eq
  intro i _
  simp only [UInt32.toBitVec_and, UInt32.toBitVec_or, BitVec.getLsbD_and, BitVec.getLsbD_or,
    Bool.and_or_distrib_right]

theorem and_or (f g mask : Flags) : mask &&& (f ||| g) = mask &&& f ||| mask &&& g := by
  rw [UInt32.and_comm, or_and, UInt32.and_comm f, UInt32.and_comm g]

/-- The part of a word that holds keep-alive. -/
def keepBit (keep : Bool) : Flags := if keep then keepAliveBit else 0

theorem withKeepAlive_and_keepAliveBit (f : Flags) (keep : Bool) :
    f.withKeepAlive keep &&& keepAliveBit = keepBit keep := by
  unfold withKeepAlive keepBit
  cases keep with
  | false =>
    rw [if_neg (by simp), if_neg (by simp), UInt32.and_assoc, UInt32.not_and_self,
      UInt32.and_zero]
  | true =>
    calc (f ||| keepAliveBit) &&& keepAliveBit
        = (f ||| -1) &&& keepAliveBit := by
          rw [or_and, or_and, UInt32.and_self, UInt32.neg_one_and]
      _ = keepAliveBit := by rw [UInt32.or_neg_one, UInt32.neg_one_and]

@[simp] theorem isKeepAlive_withKeepAlive (f : Flags) (keep : Bool) :
    (f.withKeepAlive keep).isKeepAlive = keep := by
  unfold isKeepAlive
  rw [withKeepAlive_and_keepAliveBit]
  cases keep <;> rfl

theorem withKeepAlive_and_not (f : Flags) (keep : Bool) :
    f.withKeepAlive keep &&& ~~~keepAliveBit = f &&& ~~~keepAliveBit := by
  unfold withKeepAlive
  cases keep with
  | false => rw [if_neg (by simp), UInt32.and_assoc, UInt32.and_self]
  | true =>
    rw [if_pos rfl, or_and]
    exact UInt32.or_zero

theorem withKeepAlive_and_patternMask (f : Flags) (keep : Bool) :
    f.withKeepAlive keep &&& patternMask = f &&& patternMask := by
  unfold withKeepAlive
  cases keep with
  | false =>
    rw [if_neg (by simp), UInt32.and_assoc]
    rfl
  | true =>
    rw [if_pos rfl, or_and]
    exact UInt32.or_zero

theorem withPattern_and_keepAliveBit (f : Flags) (p : Pattern) :
    f.withPattern p &&& keepAliveBit = f &&& keepAliveBit := by
  unfold withPattern
  rw [or_and, UInt32.and_assoc]
  cases p <;> exact UInt32.or_zero

theorem withPattern_and_patternMask (f : Flags) (p : Pattern) :
    f.withPattern p &&& patternMask = bitOf p := by
  unfold withPattern
  rw [or_and, UInt32.and_assoc, UInt32.not_and_self, UInt32.and_zero, UInt32.zero_or]
  cases p <;> rfl

theorem withPattern_and_not (f : Flags) (p : Pattern) :
    f.withPattern p &&& ~~~patternMask = f &&& ~~~patternMask := by
  unfold withPattern
  rw [or_and, UInt32.and_assoc, UInt32.and_self]
  cases p <;> exact UInt32.or_zero

/-- The bits that are neither keep-alive nor pattern. -/
def otherMask : Flags := ~~~keepAliveBit &&& ~~~patternMask

theorem withKeepAlive_and_otherMask (f : Flags) (keep : Bool) :
    f.withKeepAlive keep &&& otherMask = f &&& otherMask := by
  rw [otherMask, ← UInt32.and_assoc, withKeepAlive_and_not, UInt32.and_assoc]

theorem withPattern_and_otherMask (f : Flags) (p : Pattern) :
    f.withPattern p &&& otherMask = f &&& otherMask := by
  rw [otherMask, UInt32.and_comm (~~~keepAliveBit), ← UInt32.and_assoc, withPattern_and_not,
    UInt32.and_assoc]

@[simp] theorem pattern?_withKeepAlive (f : Flags) (keep : Bool) :
    (f.withKeepAlive keep).pattern? = f.pattern? := by
  unfold pattern?
  rw [withKeepAlive_and_patternMask]

@[simp] theorem pattern?_withPattern (f : Flags) (p : Pattern) :
    (f.withPattern p).pattern? = some p := by
  unfold pattern?
  rw [withPattern_and_patternMask]
  cases p <;> rfl

end Flags

@[simp] theorem ReturnFrame.isKeepAlive_setKeepAlive (r : ReturnFrame) (keep : Bool) :
    (r.setKeepAlive keep).isKeepAlive = keep := Flags.isKeepAlive_withKeepAlive r.flags keep

theorem ReturnFrame.setKeepAlive_only (r : ReturnFrame) (keep : Bool) :
    (r.setKeepAlive keep).isKeepAlive = keep ∧
      (r.setKeepAlive keep).flags &&& ~~~Flags.keepAliveBit = r.flags &&& ~~~Flags.keepAliveBit ∧
      (r.setKeepAlive keep).result = r.result ∧ (r.setKeepAlive keep).userData = r.userData :=
  ⟨isKeepAlive_setKeepAlive r keep, r.flags.withKeepAlive_and_not keep, rfl, rfl⟩

end RemoteCall
