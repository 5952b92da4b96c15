import TableTalk.Model.Client
/-!
# Wires

A wire is a transport that is played. What comes back is there before anything is sent, a reply or
none, and each request takes the next of it, wherever it goes. Behind the last of it nothing comes
back. The requests are kept.
-/

namespace TableTalk

structure Wire where
  /-- The replies to come, with those that will be missing. -/
  outcomes : List (Option HttpReply)
  /-- What was sent so far. -/
  requests : List HttpRequest := []

namespace Wire

def next (w : Wire) : Option HttpReply := w.outcomes.head?.join

/-- The wire behind one more request. -/
def after (w : Wire) (r : HttpRequest) : Wire := ⟨w.outcomes.tail, w.requests ++ [r]⟩

def send {m : Type → Type} [Monad m] : Transport (StateT Wire m) := fun r => do
  let w ← get
  set (w.after r)
  pure w.next

end Wire

end TableTalk
