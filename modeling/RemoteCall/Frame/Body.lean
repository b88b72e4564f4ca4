import RemoteCall.Frame.Call
import RemoteCall.Frame.Return
import RemoteCall.Packing.Lists

/-!
Frame bodies: call and return frames as columns of bytes.

The fields of a frame stand one behind the other, each a column of its own.  A column
of values holds the tags of all of them and then, for each variant that carries
something, a column of what those values carry.
-/

namespace RemoteCall
namespace Body

open Packing

/-- Types, two to a byte. -/
def types : Column ValueType := Radix.sixteen.column.refine ValueType.tag ValueType.ofTag?

/-- Floating-point numbers, as their bits. -/
def binaries : Column Binary64 := words64.refine Binary64.bits fun w => some ⟨w⟩

/-- What the values of a column carry, apart by variant, each in order. -/
structure Pools where
  bools : List Bool
  ints : List Int64
  floats : List Binary64
  strs : List String
  bytes : List Bytes
  floatLists : List (List Binary64)
  strLists : List (List String)

/-- Adds what a value carries to the front of its pool. -/
def Pools.push (p : Pools) : Value → Pools
  | .null => p
  | .bool b => { p with bools := b :: p.bools }
  | .int n => { p with ints := n :: p.ints }
  | .float x => { p with floats := x :: p.floats }
  | .str s => { p with strs := s :: p.strs }
  | .bytes bs => { p with bytes := bs :: p.bytes }
  | .floatList xs => { p with floatLists := xs :: p.floatLists }
  | .strList ss => { p with strLists := ss :: p.strLists }

/-- Sorts what values carry into pools. -/
def Pools.ofValues (vs : List Value) : Pools :=
  vs.foldr (fun v p => p.push v) ⟨[], [], [], [], [], [], []⟩

/-- Takes the next value of each type out of the pools. -/
def Pools.draw : Pools → List ValueType → Option (List Value)
  | _, [] => some []
  | p, .null :: ts => (.null :: ·) <$> draw p ts
  | ⟨b :: bs, is, fs, ss, os, gs, ls⟩, .bool :: ts =>
    (.bool b :: ·) <$> draw ⟨bs, is, fs, ss, os, gs, ls⟩ ts
  | ⟨bs, i :: is, fs, ss, os, gs, ls⟩, .int :: ts =>
    (.int i :: ·) <$> draw ⟨bs, is, fs, ss, os, gs, ls⟩ ts
  | ⟨bs, is, f :: fs, ss, os, gs, ls⟩, .float :: ts =>
    (.float f :: ·) <$> draw ⟨bs, is, fs, ss, os, gs, ls⟩ ts
  | ⟨bs, is, fs, s :: ss, os, gs, ls⟩, .str :: ts =>
    (.str s :: ·) <$> draw ⟨bs, is, fs, ss, os, gs, ls⟩ ts
  | ⟨bs, is, fs, ss, o :: os, gs, ls⟩, .bytes :: ts =>
    (.bytes o :: ·) <$> draw ⟨bs, is, fs, ss, os, gs, ls⟩ ts
  | ⟨bs, is, fs, ss, os, g :: gs, ls⟩, .floatList :: ts =>
    (.floatList g :: ·) <$> draw ⟨bs, is, fs, ss, os, gs, ls⟩ ts
  | ⟨bs, is, fs, ss, os, gs, l :: ls⟩, .strList :: ts =>
    (.strList l :: ·) <$> draw ⟨bs, is, fs, ss, os, gs, ls⟩ ts
  | _, _ => none

/-- Values, as their tags and what they carry. -/
def values : Column Value where
  write vs :=
    let p := Pools.ofValues vs
    types.write (vs.map Value.type) ++ bools.write p.bools ++ signed64.write p.ints
      ++ binaries.write p.floats ++ strings.write p.strs ++ octets.list.write p.bytes
      ++ binaries.list.write p.floatLists ++ strings.list.write p.strLists
  read n := do
    let ts ← types.read n
    let bs ← bools.read (ts.count .bool)
    let is ← signed64.read (ts.count .int)
    let fs ← binaries.read (ts.count .float)
    let ss ← strings.read (ts.count .str)
    let os ← octets.list.read (ts.count .bytes)
    let gs ← binaries.list.read (ts.count .floatList)
    let ls ← strings.list.read (ts.count .strList)
    Parse.check (Pools.draw ⟨bs, is, fs, ss, os, gs, ls⟩ ts)

def origins : Column Origin :=
  bools.refine (· == .framework) fun b => some (if b then .framework else .endpoint)

/-- Rebuilds failures from the columns of their fields. -/
def zipFailures : List String → List (List String) → List String → List (List String) →
    List Origin → List RemoteFailure
  | k :: ks, s :: ss, m :: ms, t :: ts, o :: os => ⟨k, s, m, t, o⟩ :: zipFailures ks ss ms ts os
  | _, _, _, _, _ => []

/-- Failures, as the columns of their fields. -/
def failures : Column RemoteFailure where
  write fs :=
    strings.write (fs.map (·.kind)) ++ strings.list.write (fs.map (·.supertypes))
      ++ strings.write (fs.map (·.message)) ++ strings.list.write (fs.map (·.trace))
      ++ origins.write (fs.map (·.origin))
  read n := do
    let kinds ← strings.read n
    let supertypes ← strings.list.read n
    let messages ← strings.read n
    let traces ← strings.list.read n
    let origins ← origins.read n
    pure (zipFailures kinds supertypes messages traces origins)

def userData : Column (Option Bytes) := octets.list.option

def writeCall (c : CallFrame) : Bytes :=
  strings.write [c.interface] ++ strings.write [c.method] ++ types.list.write [c.types]
    ++ values.list.write [c.arguments] ++ words32.write [c.flags] ++ userData.write [c.userData]

/-- The fields of a call frame; whether they make one is not asked yet. -/
structure CallFields where
  interface : String
  method : String
  types : List ValueType
  arguments : List Value
  flags : Flags
  userData : Option Bytes
  deriving DecidableEq

def readCall : Parse CallFields := do
  let interface ← strings.readOne
  let method ← strings.readOne
  let types ← types.list.readOne
  let arguments ← values.list.readOne
  let flags ← words32.readOne
  let userData ← userData.readOne
  pure ⟨interface, method, types, arguments, flags, userData⟩

/-- What a call came to: a tag, then a column of values and one of failures, one of
them empty. -/
def writeOutcome : Outcome → Bytes
  | .value v => bools.write [false] ++ values.write [v] ++ failures.write []
  | .failure f => bools.write [true] ++ values.write [] ++ failures.write [f]

def readOutcome : Parse Outcome := do
  let failed ← bools.readOne
  let vs ← values.read (if failed then 0 else 1)
  let fs ← failures.read (if failed then 1 else 0)
  match vs, fs with
  | [v], [] => pure (.value v)
  | [], [f] => pure (.failure f)
  | _, _ => failure

def writeReturn (r : ReturnFrame) : Bytes :=
  writeOutcome r.result ++ words32.write [r.flags] ++ userData.write [r.userData]

def readReturn : Parse ReturnFrame := do
  let result ← readOutcome
  let flags ← words32.readOne
  let userData ← userData.readOne
  pure ⟨result, flags, userData⟩

end Body
end RemoteCall
