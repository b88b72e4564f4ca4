/-!
Byte strings, and numbers written as little-endian bytes.

`readLE_writeLE` says that a number below `256 ^ k` survives being written as `k`
bytes.
-/

namespace RemoteCall

abbrev Bytes := List UInt8

namespace Bytes

/-- The `k` low bytes of `n`, least significant first. -/
def writeLE : Nat → Nat → Bytes
  | 0, _ => []
  | k + 1, n => UInt8.ofNat n :: writeLE k (n / 256)

/-- The number a little-endian byte string stands for. -/
def readLE : Bytes → Nat
  | [] => 0
  | b :: bs => b.toNat + 256 * readLE bs

def ofString (s : String) : Bytes := s.toUTF8.data.toList

/-- The string whose UTF-8 bytes these are, if they are the bytes of one. -/
def toString? (bs : Bytes) : Option String := String.fromUTF8? ⟨bs.toArray⟩

@[simp] theorem length_writeLE (k n : Nat) : (writeLE k n).length = k := by
  induction k generalizing n with
  | zero => rfl
  | succ k ih => simp [writeLE, ih]

theorem readLE_writeLE {k n : Nat} (h : n < Nat.pow 256 k) : readLE (writeLE k n) = n := by
  induction k generalizing n with
  | zero =>
    have : n < 1 := h
    simp only [writeLE, readLE]
    omega
  | succ k ih =>
    have hk : n / 256 < Nat.pow 256 k := by
      have : n < Nat.pow 256 k * 256 := h
      exact Nat.div_lt_of_lt_mul (by omega)
    simp only [writeLE, readLE, ih hk, UInt8.toNat_ofNat']
    omega

/-- Written with as many bytes as it was read from, a number is written as these bytes. -/
theorem writeLE_readLE {bs : Bytes} {k : Nat} (h : bs.length = k) :
    writeLE k (readLE bs) = bs := by
  induction bs generalizing k with
  | nil =>
    subst h
    rfl
  | cons b bs ih =>
    subst h
    have hb := b.toNat_lt
    have hlow : UInt8.ofNat (b.toNat + 256 * readLE bs) = b := by
      apply UInt8.toNat_inj.mp
      rw [UInt8.toNat_ofNat']
      omega
    have hhigh : (b.toNat + 256 * readLE bs) / 256 = readLE bs := by omega
    rw [readLE, List.length_cons, writeLE, hlow, hhigh, ih rfl]

theorem toString?_ofString (s : String) : toString? (ofString s) = some s := by
  have h : (ByteArray.mk (ofString s).toArray) = s.toUTF8 := by simp [ofString]
  unfold toString?
  rw [h, String.fromUTF8?, String.toUTF8_eq_toByteArray, dif_pos s.isValidUTF8]
  rfl

end Bytes

end RemoteCall
