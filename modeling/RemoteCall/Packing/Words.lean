import RemoteCall.Packing.Octets

/-!
Words: columns of machine words, written in fewer bytes when they are small.

A header names a level, as it does for octets.  At level 0 a word has its full width,
and every level halves it; at the last level the words are octets, packed once more.
Words may be signed, which decides what the least and the greatest of them are, but
they are always written as their bits.
-/

namespace RemoteCall
namespace Packing

/-- A kind of machine words: `2 ^ levels` bytes wide, signed or not. -/
structure WordKind where
  levels : Nat
  signed : Bool

namespace WordKind

def u32 : WordKind := ⟨2, false⟩
def u64 : WordKind := ⟨3, false⟩
def i64 : WordKind := ⟨3, true⟩

def width (k : WordKind) (level : Nat) : Nat := Nat.pow 2 (k.levels - level)

/-- One more than the greatest word. -/
def modulus (k : WordKind) : Nat := Nat.pow 256 (k.width 0)

/-- The number that a word stands for. -/
def number (k : WordKind) (w : Nat) : Int :=
  if k.signed ∧ k.modulus / 2 ≤ w then (w : Int) - k.modulus else w

/-- The word that stands for a number. -/
def word (k : WordKind) (n : Int) : Nat := (n % k.modulus).toNat

/-- The tightest level for numbers from 0 up to `top`. -/
def level (k : WordKind) (top : Nat) : Nat :=
  if top < 256 then k.levels
  else if top < 65536 then k.levels - 1
  else if top < 4294967296 then k.levels - 2
  else 0

def range : List Int → Int × Int
  | [] => (0, 0)
  | n :: ns => ns.foldl (fun r x => (min r.1 x, max r.2 x)) (n, n)

/-- How far apart the least and the greatest of some numbers are. -/
def spread (ns : List Int) : Nat := ((range ns).2 - (range ns).1).toNat

def writeAt (k : WordKind) (level : Nat) (ws : List Nat) : Bytes :=
  if k.width level = 1 then Octets.write (ws.map UInt8.ofNat)
  else ws.flatMap (Bytes.writeLE (k.width level))

/-- Numbers from little-endian bytes, `w` bytes each. -/
def splitLE (w : Nat) : Nat → Bytes → List Nat
  | 0, _ => []
  | n + 1, bs => Bytes.readLE (bs.take w) :: splitLE w n (bs.drop w)

def readAt (k : WordKind) (level n : Nat) : Parse (List Nat) := do
  if k.width level = 1 then
    let bs ← Octets.read n
    pure (bs.map UInt8.toNat)
  else
    let bs ← Parse.take (n * k.width level)
    pure (splitLE (k.width level) n bs)

/-- Writes words.  If the first sixteen are too far apart for a tighter level, no other
is tried. -/
def write (k : WordKind) (ws : List Nat) : Bytes :=
  if ws = [] then []
  else
    let ns := ws.map k.number
    if k.level (spread (ns.take 16)) = 0 then 0 :: k.writeAt 0 ws
    else
      let (low, high) := range ns
      let plain := if 0 ≤ low then k.level high.toNat else 0
      let shifted := k.level (spread ns)
      if 5 < ws.length ∧ plain < shifted then
        UInt8.ofNat (2 * shifted - 1) :: Bytes.writeLE (k.width 0) (k.word low)
          ++ k.writeAt shifted (ns.map fun n => (n - low).toNat)
      else UInt8.ofNat (2 * plain) :: k.writeAt plain ws

/-- Reads `n` words.  An offset is added modulo the size of a word. -/
def read (k : WordKind) (n : Nat) : Parse (List Nat) := do
  if n = 0 then pure []
  else
    let header ← Parse.byte
    let level := (header.toNat + 1) / 2
    if k.levels < level then failure
    let low ← if header.toNat % 2 = 1 then Bytes.readLE <$> Parse.take (k.width 0) else pure 0
    let ws ← k.readAt level n
    pure (ws.map fun w => (w + low) % k.modulus)

def column (k : WordKind) : Column Nat := ⟨k.write, k.read⟩

end WordKind

def words32 : Column UInt32 :=
  WordKind.u32.column.refine UInt32.toNat fun n => some (UInt32.ofNat n)

def words64 : Column UInt64 :=
  WordKind.u64.column.refine UInt64.toNat fun n => some (UInt64.ofNat n)

def signed64 : Column Int64 :=
  WordKind.i64.column.refine (fun n => n.toUInt64.toNat) fun n => some (UInt64.ofNat n).toInt64

end Packing
end RemoteCall
