import TableTalk.Decimal.Text
import TableTalk.Json.Basic
/-!
# Asking a language model

A completion is what a language model is asked: messages, and bounds on its answer. A model answers
in some monad, which may be a script that is played or the world outside.
-/

namespace TableTalk

structure Message where
  role : String
  content : String
deriving DecidableEq, Repr

def Message.toJson (m : Message) : Json := .obj [("role", .str m.role), ("content", .str m.content)]

structure Completion where
  messages : List Message
  maxTokens : Nat := 1024
  temperature : Float32 := 0.2
  /-- The answer has to be a JSON object. -/
  json : Bool := false

inductive ModelError where
  | noProvider
  /-- No answer came, or one that is no JSON. -/
  | http
  | status (code : Nat) (body : String)
  | malformed (reply : String)
  | emptyReply
deriving DecidableEq, Repr

def ModelError.message : ModelError → String
  | noProvider => "No LLM provider available"
  | http => "request failed"
  | status code body => s!"LLM HTTP {code}: {body}"
  | malformed reply => s!"Unexpected LLM response: {reply}"
  | emptyReply => "LLM returned an empty response"

/-- A language model. -/
abbrev Model (m : Type → Type) := Completion → m (Except ModelError String)

end TableTalk
