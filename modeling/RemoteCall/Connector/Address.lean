import RemoteCall.Text

/-!
Internet addresses in their textual form.

An address with four numbers is written with dots, one with eight groups with colons.
The longest run of zero groups is left out, and an embedded address with dots is read in
the last two groups.
-/

namespace RemoteCall

inductive IpAddress where
  | v4 (a b c d : UInt8)
  | v6 (groups : Vector UInt16 8)
  deriving DecidableEq, Repr

namespace IpAddress

def isV4 : IpAddress → Bool
  | v4 .. => true
  | v6 _ => false

/-! ### Writing -/

def dotted (a b c d : UInt8) : String :=
  ".".intercalate ([a, b, c, d].map fun n => toString n.toNat)

def colons (groups : List UInt16) : String :=
  ":".intercalate (groups.map fun g => String.ofList (Nat.toDigits 16 g.toNat))

def zerosAt (groups : List UInt16) (i : Nat) : Nat :=
  ((groups.drop i).takeWhile (· == 0)).length

/-- The first of the longest runs of zero groups: where it starts, and its length. -/
def longestZeros (groups : List UInt16) : Nat × Nat :=
  (List.range groups.length).foldl
    (fun best i => if best.2 < zerosAt groups i then (i, zerosAt groups i) else best) (0, 0)

/-- An address with colons.  A single zero group is not worth leaving out, and an address
that stands for one with dots shows that one. -/
def coloned (groups : List UInt16) : String :=
  match groups with
  | [0, 0, 0, 0, 0, 0xFFFF, high, low] =>
    "::ffff:" ++ dotted (high >>> 8).toUInt8 high.toUInt8 (low >>> 8).toUInt8 low.toUInt8
  | _ =>
    let (start, count) := longestZeros groups
    if 1 < count then
      colons (groups.take start) ++ "::" ++ colons (groups.drop (start + count))
    else colons groups

def text : IpAddress → String
  | v4 a b c d => dotted a b c d
  | v6 groups => coloned groups.toList

/-! ### Reading -/

/-- The digits at the front of a text, and what follows them. -/
def digits (base : Nat) : List Char → List Nat × List Char
  | [] => ([], [])
  | c :: cs =>
    match Text.digit? base c with
    | none => ([], c :: cs)
    | some d => (d :: (digits base cs).1, (digits base cs).2)

/-- Reads a number of at most `max` digits. -/
def number (base max : Nat) (cs : List Char) : Option (Nat × List Char) :=
  match digits base cs with
  | ([], _) => none
  | (ds, rest) =>
    if max < ds.length then none else some (Text.ofDigits base ds, rest)

/-- Reads one of the four numbers of an address with dots, which has no leading zero. -/
def octet (cs : List Char) : Option (UInt8 × List Char) := do
  let (n, rest) ← number 10 3 cs
  let written := cs.length - rest.length
  if 256 ≤ n ∨ cs.head? = some '0' ∧ 1 < written then none else some (UInt8.ofNat n, rest)

def after {α : Type} (c : Char) (read : List Char → Option (α × List Char)) :
    List Char → Option (α × List Char)
  | [] => none
  | d :: cs => if d = c then read cs else none

structure Octets where
  first : UInt8
  second : UInt8
  third : UInt8
  fourth : UInt8

def readDotted (cs : List Char) : Option (Octets × List Char) := do
  let (a, cs) ← octet cs
  let (b, cs) ← after '.' octet cs
  let (c, cs) ← after '.' octet cs
  let (d, cs) ← after '.' octet cs
  some (⟨a, b, c, d⟩, cs)

def joined (high low : UInt8) : UInt16 := high.toUInt16 <<< 8 ||| low.toUInt16

/-- Groups that have been read, whether they end in an address with dots, and the text
that follows. -/
structure Groups where
  groups : List UInt16
  dotted : Bool
  rest : List Char

/-- Reads one group, or two that are written with dots where there is room for two. -/
def readGroup (room : Nat) (cs : List Char) : Option (Groups × List Char) :=
  match if 1 < room then readDotted cs else none with
  | some (o, rest) => some (⟨[joined o.first o.second, joined o.third o.fourth], true, rest⟩, rest)
  | none => do
    let (n, rest) ← number 16 4 cs
    some (⟨[UInt16.ofNat n], false, rest⟩, rest)

/-- Reads groups between colons while there is room; an address with dots ends them. -/
def readGroups : Nat → Bool → List Char → Groups
  | 0, _, cs => ⟨[], false, cs⟩
  | room + 1, isFirst, cs =>
    match if isFirst then readGroup (room + 1) cs else after ':' (readGroup (room + 1)) cs with
    | none => ⟨[], false, cs⟩
    | some (g, rest) =>
      if g.dotted then g
      else
        let more := readGroups room false rest
        ⟨g.groups ++ more.groups, more.dotted, more.rest⟩

/-- Eight groups, and the text that follows, if there are eight. -/
def eight? (groups : List UInt16) (rest : List Char) : Option (IpAddress × List Char) :=
  if h : groups.toArray.size = 8 then some (v6 ⟨groups.toArray, h⟩, rest) else none

/-- Reads an address with colons.  Two colons stand for at least one zero group, and no
address with dots comes before them. -/
def readColoned (cs : List Char) : Option (IpAddress × List Char) :=
  let head := readGroups 8 true cs
  if head.groups.length = 8 then eight? head.groups head.rest
  else if head.dotted then none
  else
    match head.rest with
    | ':' :: ':' :: rest =>
      let tail := readGroups (7 - head.groups.length) true rest
      let zeros := List.replicate (8 - head.groups.length - tail.groups.length) 0
      eight? (head.groups ++ zeros ++ tail.groups) tail.rest
    | _ => none

/-- The address that a whole text is the form of. -/
def ofText? (s : String) : Option IpAddress :=
  let read :=
    match readDotted s.toList with
    | some (o, rest) => some (v4 o.first o.second o.third o.fourth, rest)
    | none => readColoned s.toList
  match read with
  | some (ip, []) => some ip
  | _ => none

end IpAddress

structure SocketAddress where
  ip : IpAddress
  port : UInt16
  deriving DecidableEq, Repr

/-- An address with colons stands in brackets before its port. -/
def SocketAddress.text (a : SocketAddress) : String :=
  let host := if a.ip.isV4 then a.ip.text else "[" ++ a.ip.text ++ "]"
  host ++ ":" ++ toString a.port.toNat

end RemoteCall
