import RemoteCall.Bytes

/-!
Parses: reading packed values off the front of a byte string.

A parse takes what it needs off the front and leaves the rest, or refuses.  What it
does depends only on the bytes it takes, so a string that starts with an accepted one
is read the same way, up to the same end.
-/

namespace RemoteCall
namespace Packing

/-- Reads a value off the front of a byte string; `none` if the bytes are missing or
stand for nothing. -/
abbrev Parse := StateT Bytes Option

namespace Parse

def take (n : Nat) : Parse Bytes := fun bs =>
  if (bs.take n).length = n then some (bs.take n, bs.drop n) else none

def byte : Parse UInt8
  | [] => none
  | b :: bs => some (b, bs)

/-- A value that may turn out not to stand for anything. -/
def check {α : Type} : Option α → Parse α
  | none => failure
  | some a => pure a

/-- Reads a whole byte string: nothing may be left over. -/
def complete {α : Type} (p : Parse α) (bs : Bytes) : Option α :=
  match p bs with
  | some (a, []) => some a
  | _ => none

theorem take_append (bs rest : Bytes) : take bs.length (bs ++ rest) = some (bs, rest) := by
  simp [take]

end Parse

/-- How values of one kind are laid out one after the other.  The number of values is
not part of the layout; the reader knows it beforehand. -/
structure Column (α : Type) where
  write : List α → Bytes
  read : Nat → Parse (List α)

namespace Column

variable {α β : Type}

def readOne (c : Column α) : Parse α := do
  match ← c.read 1 with
  | [a] => pure a
  | _ => failure

/-- Values that are laid out as values of another kind; not all of those need stand for
one. -/
def refine (c : Column α) (encode : β → α) (decode : α → Option β) : Column β where
  write bs := c.write (bs.map encode)
  read n := do
    let as ← c.read n
    Parse.check (as.mapM decode)

end Column

end Packing
end RemoteCall
