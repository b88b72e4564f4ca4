import RemoteCall.Packing.Parse

/-!
Radix packing: several small digits in one byte.

The digits of a byte are those of one number, the first digit least significant.  The
last byte may hold fewer digits than fit; what else it holds is ignored.
-/

namespace RemoteCall
namespace Packing

/-- A base, and how many digits of it fit into a byte. -/
structure Radix where
  base : Nat
  perByte : Nat
  base_pos : 1 < base := by decide
  perByte_pos : 0 < perByte := by decide
  fits : Nat.pow base perByte ≤ 256 := by decide

namespace Radix

def two : Radix := { base := 2, perByte := 8 }
def three : Radix := { base := 3, perByte := 5 }
def four : Radix := { base := 4, perByte := 4 }
def six : Radix := { base := 6, perByte := 3 }
def sixteen : Radix := { base := 16, perByte := 2 }
def whole : Radix := { base := 256, perByte := 1 }

/-- The number whose digits these are, the first least significant. -/
def value (base : Nat) : List Nat → Nat
  | [] => 0
  | d :: ds => d + base * value base ds

/-- The `k` low digits of a number, the least significant first. -/
def digits (base : Nat) : Nat → Nat → List Nat
  | 0, _ => []
  | k + 1, n => n % base :: digits base k (n / base)

/-- How many bytes `n` digits take. -/
def byteCount (r : Radix) (n : Nat) : Nat := (n + r.perByte - 1) / r.perByte

def pack (r : Radix) (ds : List Nat) : Bytes :=
  if h : ds = [] then []
  else
    have := List.length_pos_iff.mpr h
    have := r.perByte_pos
    UInt8.ofNat (value r.base (ds.take r.perByte)) :: r.pack (ds.drop r.perByte)
termination_by ds.length
decreasing_by simp only [List.length_drop]; omega

/-- The first `n` digits packed into bytes. -/
def unpack (r : Radix) (n : Nat) (bs : Bytes) : List Nat :=
  (bs.flatMap fun b => digits r.base r.perByte b.toNat).take n

def column (r : Radix) : Column Nat where
  write := r.pack
  read n := do
    let bs ← Parse.take (r.byteCount n)
    pure (r.unpack n bs)

end Radix

/-- Truth values, eight to a byte. -/
def bools : Column Bool :=
  Radix.two.column.refine Bool.toNat fun d => some (d == 1)

end Packing
end RemoteCall
