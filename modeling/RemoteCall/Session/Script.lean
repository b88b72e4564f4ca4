import RemoteCall.Thread

/-!
Scripted processors: what is done with each call is written down beforehand.
-/

namespace RemoteCall
namespace Script

/-- What a scripted processor does with one call: the cookie it leaves and the run flag
it sets, if it changes them, and its reply, which is an empty success by default. -/
structure Play where
  cookie : Option Cookie
  running : Option Bool
  reply : Option ReturnFrame
  deriving Inhabited

/-- The plays still to come, whether the service is running, and the calls seen so far. -/
structure Scene where
  plays : List Play
  running : Bool
  seen : List CallFrame

namespace Scene

/-- The next play; after the last one nothing changes any more. -/
def play (s : Scene) : Play := s.plays.headD ⟨none, none, none⟩

def next (c : CallFrame) (s : Scene) : Scene :=
  ⟨s.plays.tail, s.play.running.getD s.running, s.seen ++ [c]⟩

def process : Processor Scene := fun c t =>
  (t.memory.play.reply.getD (.success .null),
    ⟨t.memory.play.cookie.getD t.cookie, t.memory.next c⟩)

end Scene
end Script
end RemoteCall
