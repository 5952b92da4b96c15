import TableTalk.Text.Blank
/-!
# The tokens of a query

A query is a list of tokens with blanks between them. A quoted name stands between double quotes and
a text between single ones; inside, the quote itself is written twice and nothing else is special,
line breaks and backslashes included. `Token.chars` writes a token, and `Token.lex` splits a text
into tokens, each with the text from its first character on, so that its place can be told. A `bad`
token is a character that starts none, or a quote that is never closed. The character U+0000 ends
the text.
-/

namespace TableTalk.Sql

inductive Keyword where
  | select
  | fromTable
  | whereTrue
  | group
  | order
  | byKey
  | limit
  | asc
  | desc
  | withName
  | as
  | and
  | like
  | ilike
  | overRows
  | true
  | false
deriving DecidableEq, Repr

namespace Keyword

def all : List Keyword :=
  [select, fromTable, whereTrue, group, order, byKey, limit, asc, desc, withName, as, and, like,
    ilike, overRows, true, false]

def name : Keyword → String
  | select => "SELECT"
  | fromTable => "FROM"
  | whereTrue => "WHERE"
  | group => "GROUP"
  | order => "ORDER"
  | byKey => "BY"
  | limit => "LIMIT"
  | asc => "ASC"
  | desc => "DESC"
  | withName => "WITH"
  | as => "AS"
  | and => "AND"
  | like => "LIKE"
  | ilike => "ILIKE"
  | overRows => "OVER"
  | true => "TRUE"
  | false => "FALSE"

/-- The keyword that a word spells in any case. -/
def ofWord? (s : String) : Option Keyword := all.find? fun k => Text.sameAscii k.name s

end Keyword

/-- Operators and punctuation. -/
inductive Mark where
  | lparen
  | rparen
  | comma
  | star
  | semicolon
  | eq
  | ne
  | lt
  | gt
  | le
  | ge
  | minus
  | slash
  /-- The member of a document as text. -/
  | arrow
  /-- The cast to a type. -/
  | cast
deriving DecidableEq, Repr

def Mark.chars : Mark → List Char
  | lparen => ['(']
  | rparen => [')']
  | comma => [',']
  | star => ['*']
  | semicolon => [';']
  | eq => ['=']
  | ne => ['!', '=']
  | lt => ['<']
  | gt => ['>']
  | le => ['<', '=']
  | ge => ['>', '=']
  | minus => ['-']
  | slash => ['/']
  | arrow => ['-', '>', '>']
  | cast => [':', ':']

inductive Token where
  | keyword (k : Keyword)
  | word (s : String)
  /-- A name between double quotes. -/
  | name (s : String)
  /-- A text between single quotes. -/
  | text (s : String)
  /-- Digits, and digits behind a point. -/
  | number (s : String)
  | mark (m : Mark)
  | bad (s : String)
deriving DecidableEq, Repr

/-- Each quote twice, all else once. -/
def double (quote : Char) : List Char → List Char
  | [] => []
  | c :: cs => if c = quote then quote :: quote :: double quote cs else c :: double quote cs

/-- A text between quotes. -/
def enclose (quote : Char) (s : String) : List Char := quote :: double quote s.toList ++ [quote]

namespace Token

def chars : Token → List Char
  | keyword k => k.name.toList
  | word s => s.toList
  | name s => enclose '"' s
  | text s => enclose '\'' s
  | number s => s.toList
  | mark m => m.chars
  | bad s => s.toList

/-- The text up to the quote that closes it, and what follows. -/
def closing? (quote : Char) : List Char → Option (List Char × List Char)
  | [] => none
  | [c] => if c = quote then some ([], []) else none
  | c :: d :: cs =>
    if c = quote then
      if d = quote then (closing? quote cs).map fun (s, rest) => (quote :: s, rest)
      else some ([], d :: cs)
    else if c = '\x00' then none
    else (closing? quote (d :: cs)).map fun (s, rest) => (c :: s, rest)

def blank (c : Char) : Bool := c == ' ' || c == '\n' || c == '\t' || c == '\r' || c == '\x0c'

def wordStart (c : Char) : Bool := c.isAlpha || c == '_' || 128 ≤ c.toNat

def wordChar (c : Char) : Bool := wordStart c || c.isDigit

/-- A word is a keyword if it spells one. -/
def ofWord (s : String) : Token :=
  match Keyword.ofWord? s with
  | some k => keyword k
  | none => word s

/-- A quoted token and what follows it; without a closing quote the rest is no token. -/
def quoted (quote : Char) (make : String → Token) (cs : List Char) : Token × List Char :=
  match closing? quote cs with
  | some (s, rest) => (make (String.ofList s), rest)
  | none => (bad (String.ofList (quote :: cs.takeWhile (· != '\x00'))), [])

def numeral (cs : List Char) : Token × List Char :=
  let whole := cs.takeWhile Char.isDigit
  match cs.dropWhile Char.isDigit with
  | '.' :: rest =>
    (number (String.ofList (whole ++ '.' :: rest.takeWhile Char.isDigit)),
      rest.dropWhile Char.isDigit)
  | rest => (number (String.ofList whole), rest)

/-- The text behind a comment that ends with the line. -/
def behindLine (cs : List Char) : List Char := (cs.dropWhile (· != '\n')).drop 1

/-- The text behind a comment that ends with a star and a slash. -/
def behindBlock : List Char → List Char
  | [] => []
  | '*' :: '/' :: rest => rest
  | _ :: rest => behindBlock rest

/-- What a text starts with, a token or nothing but a gap, and what follows. -/
def next (c : Char) (cs : List Char) : Option Token × List Char :=
  if blank c then (none, cs)
  else match c, cs with
    | '-', '-' :: rest => (none, behindLine rest)
    | '-', '>' :: '>' :: rest => (some (mark .arrow), rest)
    | '-', _ => (some (mark .minus), cs)
    | '/', '*' :: rest => (none, behindBlock rest)
    | '/', _ => (some (mark .slash), cs)
    | '(', _ => (some (mark .lparen), cs)
    | ')', _ => (some (mark .rparen), cs)
    | ',', _ => (some (mark .comma), cs)
    | '*', _ => (some (mark .star), cs)
    | ';', _ => (some (mark .semicolon), cs)
    | '=', '=' :: rest => (some (mark .eq), rest)
    | '=', _ => (some (mark .eq), cs)
    | '!', '=' :: rest => (some (mark .ne), rest)
    | '<', '=' :: rest => (some (mark .le), rest)
    | '<', '>' :: rest => (some (mark .ne), rest)
    | '<', _ => (some (mark .lt), cs)
    | '>', '=' :: rest => (some (mark .ge), rest)
    | '>', _ => (some (mark .gt), cs)
    | ':', ':' :: rest => (some (mark .cast), rest)
    | '"', _ => let (t, rest) := quoted '"' name cs; (some t, rest)
    | '\'', _ => let (t, rest) := quoted '\'' text cs; (some t, rest)
    | c, cs =>
      if c.isDigit then let (t, rest) := numeral (c :: cs); (some t, rest)
      else if wordStart c then
        (some (ofWord (String.ofList (c :: cs.takeWhile wordChar))), cs.dropWhile wordChar)
      else (some (bad c.toString), cs)

end Token

/-- A token where it stands. -/
structure Lexeme where
  token : Token
  /-- The text from the token on. -/
  text : List Char

namespace Token

/-- The tokens of a text, `fuel` of its characters at most being starts of one. -/
def lexemes (fuel : Nat) (cs : List Char) : List Lexeme :=
  match fuel, cs with
  | 0, _ => []
  | _, [] => []
  | fuel + 1, c :: cs =>
    if c = '\x00' then []
    else match next c cs with
      | (some t, rest) => ⟨t, c :: cs⟩ :: lexemes fuel rest
      | (none, rest) => lexemes fuel rest

def scan (cs : List Char) : List Lexeme := lexemes cs.length cs

/-- The tokens of a text. -/
def lex (s : String) : List Token := (scan s.toList).map Lexeme.token

end Token

end TableTalk.Sql
