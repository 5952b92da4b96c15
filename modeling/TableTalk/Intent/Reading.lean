import TableTalk.Intent.Valid
import TableTalk.Json.Parser
/-!
# Intents from text

`Intent.read` reads an intent from JSON text and checks it. The text after the value is looked at
only when the value is an intent. In a text that breaks off or is no JSON, a fault in the kind is
reported if it comes first: the kind is checked where it stands, all other fields once the whole
value has been read. `Intent.ofReply` finds the object in the reply of a language model, inside a
code fence or between other words.
-/

namespace TableTalk

inductive IntentError where
  | decode (e : DecodeError)
  | malformed
  | invalid (f : IntentFault)

namespace IntentError

/-- The message without its heading. -/
def detail : IntentError → String
  | decode e => e.message
  | malformed => "malformed JSON"
  | invalid f => f.message

def message : IntentError → String
  | invalid f => s!"invalid intent: {f.message}"
  | e => s!"invalid intent JSON: {e.detail}"

end IntentError

namespace Intent

open Json (skip string? value? steps depthLimit)

/-- What the kind is, looked at before the text behind it: only a text is read in full. -/
def kindFault? (cs : List Char) : Option DecodeError :=
  match skip cs with
  | '[' :: _ => some (.wrongType (.arr []) "variant identifier")
  | '\x7b' :: _ => some (.wrongType (.obj []) "variant identifier")
  | cs =>
    match value? (steps cs) depthLimit cs with
    | none => none
    | some (v, _) =>
      match Kind.decode v with
      | .error e => some e
      | .ok _ => none

/-- A fault in the kind among the members of an object that breaks off somewhere. -/
def membersFault? (fuel : Nat) (seen : Bool) (cs : List Char) : Option DecodeError :=
  match fuel with
  | 0 => none
  | fuel + 1 =>
    match string? (skip cs) with
    | none => none
    | some (name, rest) =>
      if name = "type" && seen then some (.duplicateField "type")
      else match skip rest with
        | ':' :: rest =>
          match if name = "type" then kindFault? rest else none with
          | some e => some e
          | none =>
            match value? (steps rest) (depthLimit - 1) rest with
            | none => none
            | some (_, rest) =>
              match skip rest with
              | ',' :: rest => membersFault? fuel (seen || name = "type") rest
              | _ => none
        | _ => none

/-- A fault in the kind of a text that is no JSON value. -/
def earlyFault? (cs : List Char) : Option DecodeError :=
  match skip cs with
  | '\x7b' :: rest => membersFault? rest.length false rest
  | '[' :: rest =>
    match skip rest with
    | ']' :: _ => none
    | rest => kindFault? rest
  | _ => none

/-- The intent that a JSON text spells, valid or not. -/
def parse (cs : List Char) : Except IntentError Intent :=
  match Json.first? cs with
  | none =>
    match earlyFault? cs with
    | some e => .error (.decode e)
    | none => .error .malformed
  | some (v, rest) =>
    match decode v with
    | .error e => .error (.decode e)
    | .ok i => if (skip rest).isEmpty then .ok i else .error .malformed

/-- The intent that a JSON text spells, if it is valid. -/
def readChars (cs : List Char) : Except IntentError Intent := do
  let i ← parse cs
  match i.fault? with
  | some f => .error (.invalid f)
  | none => .ok i

def read (text : String) : Except IntentError Intent := readChars text.toList

/-- A text without the copies of `p` in front of it. -/
def dropFences (fuel : Nat) (p cs : List Char) : List Char :=
  match fuel with
  | 0 => cs
  | fuel + 1 =>
    match Text.behind? p cs with
    | some rest => dropFences fuel p rest
    | none => cs

def fence : List Char := ['\u0060', '\u0060', '\u0060']

/-- A reply without blanks and code fences at its ends. -/
def unfenced (cs : List Char) : List Char :=
  let cs := Text.trimChars cs
  let cs := dropFences cs.length (fence ++ "json".toList) cs
  let cs := dropFences cs.length fence cs
  let cs := (dropFences cs.length fence cs.reverse).reverse
  Text.trimChars cs

/-- From the first opening brace to the last closing one, if that is a span; else the text. -/
def braced (cs : List Char) : List Char :=
  let behind := cs.dropWhile (· != '\x7b')
  let span := Text.dropWhileEnd (· != '\x7d') behind
  if behind.isEmpty || span.isEmpty then cs else span

def ofReplyChars (cs : List Char) : Except IntentError Intent := readChars (braced (unfenced cs))

def ofReply (reply : String) : Except IntentError Intent := ofReplyChars reply.toList

end Intent

end TableTalk
