import RemoteCall.Packing.Words

/-!
Columns of lists, strings and options.

The lengths of all the lists stand in front; behind them stand the members of all the
lists as one column.  A length below 255 is an octet, any other is the octet 255 and a
word in a column behind the octets.  Options are laid out likewise, with truth values
for lengths.
-/

namespace RemoteCall
namespace Packing
namespace Lengths

/-- Lengths must add up to less than this. -/
def totalLimit : Nat := (Nat.pow 2 63 - 1) / 4096

def total (ls : List Nat) : Nat := ls.foldr (· + ·) 0

def write (ls : List Nat) : Bytes :=
  Octets.write (ls.map fun l => UInt8.ofNat (min l 255))
    ++ WordKind.u64.write (ls.filter (255 ≤ ·))

/-- Puts the long lengths where the octets leave their place. -/
def fillIn : Bytes → List Nat → List Nat
  | [], _ => []
  | b :: bs, longs =>
    if b = 255 then
      match longs with
      | [] => 255 :: fillIn bs []
      | l :: ls => l :: fillIn bs ls
    else b.toNat :: fillIn bs longs

def read (n : Nat) : Parse (List Nat) := do
  let short ← Octets.read n
  let longs ← WordKind.u64.read (short.count 255)
  let ls := fillIn short longs
  if total ls < totalLimit then pure ls else failure

end Lengths

def splitLengths {α : Type} : List Nat → List α → List (List α)
  | [], _ => []
  | l :: ls, as => as.take l :: splitLengths ls (as.drop l)

namespace Column

variable {α : Type}

/-- Lists, laid out as their lengths and all their members. -/
def list (c : Column α) : Column (List α) where
  write ass := Lengths.write (ass.map List.length) ++ c.write ass.flatten
  read n := do
    let ls ← Lengths.read n
    let as ← c.read (Lengths.total ls)
    pure (splitLengths ls as)

/-- Puts the present values where a truth value says that there is one. -/
def fillPresent : List Bool → List α → List (Option α)
  | [], _ => []
  | false :: bs, as => none :: fillPresent bs as
  | true :: bs, [] => none :: fillPresent bs []
  | true :: bs, a :: as => some a :: fillPresent bs as

/-- Options, laid out as what is present and the values that are. -/
def option (c : Column α) : Column (Option α) where
  write os := bools.write (os.map Option.isSome) ++ c.write (os.filterMap id)
  read n := do
    let present ← bools.read n
    let as ← c.read (present.count true)
    pure (fillPresent present as)

def rawBytes : Column UInt8 := ⟨id, Parse.take⟩

end Column

/-- Strings, laid out as their lengths and all their UTF-8 bytes. -/
def strings : Column String := Column.rawBytes.list.refine Bytes.ofString Bytes.toString?

end Packing
end RemoteCall
