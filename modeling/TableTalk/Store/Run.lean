import TableTalk.Sql.Parser
import TableTalk.Store.Property
/-!
# Running queries

A query selects from a table of the store, from its catalog, or from a table that the store answers
itself; names of tables that were loaded come first. A query can first name a selection and then
select from that. Running a query changes no table, but it can open the part of the store for tables
that do not last, which stays open (`Store.after`). A fault is reported with its place in the
statement if it has one.
-/

namespace TableTalk

open Sql

namespace Store

/-- The result of a selection as a table with a name. -/
def select (s : Store) (q : Select) (name : String) : Except Fault Table :=
  let source := q.source.text
  match (s.table? source).or (s.catalog? source) with
  | some t => t.select true q name
  | none => do
    let t ← s.ownTable source
    t.select q name

/-- The result of a query. -/
def run (s : Store) (q : Query) : Except Fault Table :=
  match q.common with
  | none => s.select q.main ""
  | some (name, common) =>
    if Text.sameAscii name common.source.text then .error (.circular name)
    else do
      let c ← s.select common name
      if Text.sameAscii name q.main.source.text then c.select false q.main ""
      else s.select q.main ""

/-- Whether an opening parenthesis comes next. -/
def opens : List Lexeme → Bool
  | ⟨.mark .lparen, _⟩ :: _ => true
  | _ => false

/-- The number of bytes in front of each of some lexemes that a test finds, given whether it is a
function that is called. A word that names an item or a table is passed over. -/
def offsets (size : Nat) (found : Token → Bool → Bool) : List Lexeme → List Nat
  | [] => []
  | ⟨.keyword .as, _⟩ :: _ :: rest => offsets size found rest
  | ⟨.keyword .fromTable, _⟩ :: _ :: rest => offsets size found rest
  | ⟨.keyword .withName, _⟩ :: _ :: rest => offsets size found rest
  | l :: rest =>
    if found l.token (opens rest) then
      (size - (String.ofList l.text).utf8ByteSize) :: offsets size found rest
    else offsets size found rest

/-- Whether a token, the name of a function or not, can have given rise to a fault. -/
def gaveRise : Fault → Token → Bool → Bool
  | .noColumn name _, .word s, call => !call && s == name
  | .noColumn name _, .name s, _ => s == name
  | .misplaced f, .word s, call => call && Text.sameAscii s (aggregateSpelling f)
  | _, _, _ => false

/-- How many of the tokens that could have given rise to a fault precede the one that did. -/
def passed : Fault → Nat
  | .noColumn _ before => before
  | _ => 0

/-- A fault with its place in a statement, if it has one. -/
def located (statement : String) (f : Fault) : StoreError :=
  let places := offsets statement.utf8ByteSize (gaveRise f) (Token.scan statement.toList)
  match places[passed f]? with
  | some offset => .refusedAt f statement offset
  | none => .refused f

/-- A statement that goes wrong in front of its last tokens, so many of them. -/
def stuckAt (statement : String) (left : Nat) : StoreError :=
  let lexemes := Token.scan statement.toList
  match lexemes.drop (lexemes.length - left) with
  | [] => .refused .incomplete
  | l :: _ =>
    let fault : Fault := match l.token with
      | .bad s => .unrecognized s
      | .mark .cast => .unrecognized ":"
      | t => .unexpected (String.ofList t.chars)
    .refusedAt fault statement (statement.utf8ByteSize - (String.ofList l.text).utf8ByteSize)

/-- A statement that is no query. -/
def unreadable (statement : String) : ReadError → StoreError
  | .tooDeep => .refused .tooDeep
  | .stuck left => stuckAt statement left

/-- The rows that a statement selects. -/
def execute (s : Store) (statement : String) : Except StoreError (List Row) :=
  match Query.ofTokens .directColumn (Token.lex statement) with
  | .error e => .error (unreadable statement e)
  | .ok q =>
    match s.run q with
    | .error f => .error (located statement f)
    | .ok t => .ok t.rows

/-- Whether a condition asks a column to have a value. -/
def fixes (q : Select) (n : Name) : Bool :=
  q.conditions.any fun
    | .compare .eq (.column m) (.text _) => Text.sameAscii m.text n.text
    | .compare .eq (.column m) (.truth _) => Text.sameAscii m.text n.text
    | _ => false

/-- Whether a selection gets as far as its table. A function of many rows that a condition names is
noticed only there, unless it is about no column whose value is still open. -/
def reaches (s : Scope) (q : Select) : Bool :=
  match s.plan q, q.items with
  | .ok _, _ => true
  | .error (.misplaced _), .list items =>
    items.all fun i => i.expr.aggregate?.isNone || i.expr.names.any (!fixes q ·)
  | .error _, _ => false

/-- Whether a selection opens the part for tables that do not last. One from the catalog of that
part does before it reads anything. -/
def opensFor (s : Store) (q : Select) : Bool :=
  let source := q.source.text
  if (s.table? source).isSome then false
  else match s.catalog? source with
    | some t => passingCatalog source && reaches ⟨t.columns, [], true⟩ q
    | none => (s.ownTable source).toOption.any (OwnTable.opensFor · q)

/-- Whether a query opens the part for tables that do not last. -/
def opensBy (s : Store) (q : Query) : Bool :=
  match q.common with
  | none => s.opensFor q.main
  | some (name, common) =>
    !Text.sameAscii name common.source.text
      && (s.opensFor common || !Text.sameAscii name q.main.source.text && s.opensFor q.main)

/-- The store behind a statement. -/
def after (s : Store) (statement : String) : Store :=
  match Query.ofTokens .directColumn (Token.lex statement) with
  | .ok q => { s with opened := s.opened || s.opensBy q }
  | .error _ => s

/-- All records of a table. -/
def selectAll (name : String) : Query :=
  ⟨none, ⟨.all, .quoted name, [], none, none, none⟩⟩

/-- The number of records of a table. -/
def countAll (name : String) : Query :=
  ⟨none, ⟨.list [⟨.countRows, none⟩], .quoted name, [], none, none, none⟩⟩

/-- The rows that a statement selects from a table of its own. -/
def executeOnce (name : String) (rows : List Row) (statement : String) :
    Except StoreError (List Row) := do
  let s ← Store.empty.load name rows
  s.execute statement

end Store

end TableTalk
