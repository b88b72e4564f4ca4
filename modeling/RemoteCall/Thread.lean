import RemoteCall.Frame.Call
import RemoteCall.Frame.Return

/-!
Threads: what a call finds on the thread that processes it.

A thread holds a cookie, which implementations may read, set and clear, and whatever
they remember from one call to the next.
-/

namespace RemoteCall

/-- Bytes that a caller and a service hand to each other along with their calls. -/
abbrev Cookie := Option Bytes

structure Thread (σ : Type) where
  cookie : Cookie
  memory : σ
  deriving DecidableEq, Repr, Inhabited

namespace Thread

variable {σ : Type}

/-- A thread that no call has touched. -/
def fresh (memory : σ) : Thread σ := ⟨none, memory⟩

def setCookie (c : Cookie) (t : Thread σ) : Thread σ := { t with cookie := c }

end Thread

abbrev Processor (σ : Type) := CallFrame → Thread σ → ReturnFrame × Thread σ

end RemoteCall
