/-!
Flags: the 32-bit word that every frame carries.

Bit 0 asks to keep the connection, bits 8 and 9 name the exchange pattern, and the
upper half belongs to extensions.
-/

namespace RemoteCall

abbrev Flags := UInt32

/-- Whether the caller waits for a reply. -/
inductive Pattern where
  | inOut
  | inOnly
  deriving DecidableEq, Repr, Inhabited

namespace Flags

/-- Asks to keep the connection for the next call. -/
def keepAliveBit : Flags := 0x00000001

/-- The caller waits for a reply. -/
def inOutBit : Flags := 0x00000100

/-- The caller waits for no reply. -/
def inOnlyBit : Flags := 0x00000200

def patternMask : Flags := inOutBit ||| inOnlyBit

/-- The bits that belong to extensions. -/
def customMask : Flags := 0xFFFF0000

def bitOf : Pattern → Flags
  | .inOut => inOutBit
  | .inOnly => inOnlyBit

def isKeepAlive (f : Flags) : Bool := f &&& keepAliveBit != 0

def withKeepAlive (f : Flags) (keep : Bool) : Flags :=
  if keep then f ||| keepAliveBit else f &&& ~~~keepAliveBit

/-- The exchange pattern: none unless exactly one of the two bits is set. -/
def pattern? (f : Flags) : Option Pattern :=
  if f &&& patternMask = inOutBit then some .inOut
  else if f &&& patternMask = inOnlyBit then some .inOnly
  else none

/-- Replaces whatever pattern is set. -/
def withPattern (f : Flags) (p : Pattern) : Flags := f &&& ~~~patternMask ||| bitOf p

/-- The bits that belong to extensions. -/
def custom (f : Flags) : Flags := f &&& customMask

/-- A connection outlives a round trip only if the call and the reply both ask for
it. -/
def bothKeepAlive (call reply : Flags) : Bool := call.isKeepAlive && reply.isKeepAlive

end Flags

end RemoteCall
