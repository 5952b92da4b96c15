import TableTalk.Model.Completion
/-!
# Dialogues

A dialogue is a language model that is played. Its replies are there before anything is asked, and
each request takes the next one, whatever it is. Behind the last reply there is no provider. The
requests are kept.
-/

namespace TableTalk

structure Dialogue where
  /-- The replies to come. -/
  replies : List (Except ModelError String)
  /-- What was asked so far. -/
  requests : List Completion := []

namespace Dialogue

def next (d : Dialogue) : Except ModelError String := d.replies.head?.getD (.error .noProvider)

/-- The dialogue behind one more request. -/
def after (d : Dialogue) (c : Completion) : Dialogue := ⟨d.replies.tail, d.requests ++ [c]⟩

def model {m : Type → Type} [Monad m] : Model (StateT Dialogue m) := fun c => do
  let d ← get
  set (d.after c)
  pure d.next

end Dialogue

end TableTalk
