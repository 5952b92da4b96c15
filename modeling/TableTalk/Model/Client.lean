import TableTalk.Json.Parser
import TableTalk.Json.Printer
import TableTalk.Model.Completion
import TableTalk.Settings.Basic
/-!
# Providers of completions

A client has at most two providers: OpenRouter if there is a key for it, and a server nearby if
there is an address. It asks the first one, and if that fails in whatever way, the other. Both speak
the same protocol over HTTP, and the transport is a parameter: it takes a request and gives a reply,
or nothing.
-/

namespace TableTalk

structure HttpRequest where
  url : String
  headers : List (String × String)
  body : Json

structure HttpReply where
  status : Nat
  body : String

abbrev Transport (m : Type → Type) := HttpRequest → m (Option HttpReply)

inductive Provider where
  | openRouter (key model : String)
  | localServer (baseUrl model : String)
deriving DecidableEq, Repr

namespace Provider

def label : Provider → String
  | openRouter _ model => "OpenRouter/" ++ model
  | localServer _ model => "Local/" ++ model

def model : Provider → String
  | openRouter _ model => model
  | localServer _ model => model

def url : Provider → String
  | openRouter .. => "https://openrouter.ai/api/v1/chat/completions"
  | localServer base _ =>
    String.ofList (Text.dropWhileEnd (· == '/') base.toList) ++ "/chat/completions"

def authorization : Provider → String
  | openRouter key _ => "Bearer " ++ key
  | localServer .. => "Bearer local"

/-- Whether a text can stand in a header: it has no control characters but tabs. -/
def headerText (s : String) : Bool :=
  s.toList.all fun c => c == '\t' || (32 ≤ c.toNat && c.toNat != 127)

def body (p : Provider) (c : Completion) : Json :=
  .obj ([("model", .str p.model), ("messages", .arr (c.messages.map Message.toJson)),
    ("max_tokens", .int c.maxTokens), ("temperature", .ofFloat c.temperature.toFloat)]
    ++ if c.json then [("response_format", .obj [("type", .str "json_object")])] else [])

/-- The request for a completion, if its headers can be written. -/
def request? (p : Provider) (c : Completion) : Option HttpRequest :=
  if headerText p.authorization then
    some ⟨p.url, [("Authorization", p.authorization), ("Content-Type", "application/json"),
      ("HTTP-Referer", "https://github.com/wronai/askdata"), ("X-Title", "askdata")], p.body c⟩
  else none

/-- The longest part of a reply that an error shows. -/
def shownChars : Nat := 300

def shown (s : String) : String := String.ofList (s.toList.take shownChars)

/-- The content of the first choice of a reply. -/
def content? (reply : Json) : Option String := do
  let choices ← (← reply.member? "choices").asArray?
  let message ← (← choices.head?).member? "message"
  (← message.member? "content").asText?

def ofReply (reply : Json) : Except ModelError String :=
  match content? reply with
  | none => .error (.malformed (shown reply.compact))
  | some text => if Text.isBlank text then .error .emptyReply else .ok text

/-- What a reply means. -/
def ofHttp : Option HttpReply → Except ModelError String
  | none => .error .http
  | some r =>
    if 200 ≤ r.status ∧ r.status < 300 then
      match Json.read? r.body with
      | some reply => ofReply reply
      | none => .error .http
    else .error (.status r.status (shown r.body))

def ask {m : Type → Type} [Monad m] (p : Provider) (send : Transport m) : Model m := fun c =>
  match p.request? c with
  | none => pure (.error .http)
  | some request => do
    let reply ← send request
    pure (ofHttp reply)

end Provider

structure Client where
  primary : Option Provider
  fallback : Option Provider
deriving DecidableEq, Repr

namespace Client

def ofSettings (s : ModelSettings) : Client where
  primary := (s.openRouterKey.filter (!·.isEmpty)).map fun key => .openRouter key s.openRouterModel
  fallback := (s.localUrl.filter (!·.isEmpty)).map fun url => .localServer url s.localModel

/-- The provider that is asked first. -/
def label (c : Client) : String := ((c.primary.or c.fallback).map Provider.label).getD "none"

def askFallback {m : Type → Type} [Monad m] (c : Client) (send : Transport m) : Model m :=
  fun completion =>
    match c.fallback with
    | some p => p.ask send completion
    | none => pure (.error .noProvider)

def complete {m : Type → Type} [Monad m] (c : Client) (send : Transport m) : Model m :=
  fun completion =>
    match c.primary with
    | none => c.askFallback send completion
    | some p => do
      match ← p.ask send completion with
      | .ok text => pure (.ok text)
      | .error _ => c.askFallback send completion

end Client

end TableTalk
