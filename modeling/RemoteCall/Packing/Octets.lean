import RemoteCall.Packing.Radix

/-!
Octets: columns of bytes, packed more tightly when they are all small.

Up to two bytes stand as they are.  In front of more stands a header that names a
level: the radix the bytes are packed in, and whether the least of them was taken off
all of them first.  The writer takes the tightest level that fits, and the offset only
where it wins a level and there are more than five bytes.  The reader takes any.
-/

namespace RemoteCall
namespace Packing
namespace Octets

/-- The radices, widest first. -/
def radices : List Radix :=
  [Radix.whole, Radix.sixteen, Radix.six, Radix.four, Radix.three, Radix.two]

def level (top : Nat) : Nat :=
  if top < 2 then 5
  else if top < 3 then 4
  else if top < 4 then 3
  else if top < 6 then 2
  else if top < 16 then 1
  else 0

/-- The radix of a level; there are six. -/
def radix (l : Nat) : Radix := radices.getD l Radix.whole

def pack (l : Nat) (bs : Bytes) : Bytes := (radix l).pack (bs.map UInt8.toNat)

def range : Bytes → UInt8 × UInt8
  | [] => (0, 0)
  | b :: bs => bs.foldl (fun r x => (min r.1 x, max r.2 x)) (b, b)

def write (bs : Bytes) : Bytes :=
  if bs.length ≤ 2 then bs
  else
    let (low, high) := range bs
    let plain := level high.toNat
    let shifted := level (high - low).toNat
    if 5 < bs.length ∧ plain < shifted then
      UInt8.ofNat (2 * shifted - 1) :: low :: pack shifted (bs.map (· - low))
    else UInt8.ofNat (2 * plain) :: pack plain bs

def read (n : Nat) : Parse Bytes := do
  if n ≤ 2 then Parse.take n
  else
    let header ← Parse.byte
    let radix ← Parse.check (radices[(header.toNat + 1) / 2]?)
    let low ← if header.toNat % 2 = 1 then Parse.byte else pure 0
    let ds ← radix.column.read n
    pure (ds.map fun d => UInt8.ofNat d + low)

end Octets

def octets : Column UInt8 := ⟨Octets.write, Octets.read⟩

end Packing
end RemoteCall
