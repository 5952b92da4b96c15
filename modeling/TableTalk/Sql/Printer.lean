import TableTalk.Sql.Query
import TableTalk.Sql.Token
/-!
# Queries as text

A query is written as a list of pieces: tokens, and gaps where blanks stand between them. The
clauses of a selection stand on lines of their own. A selection with a name is indented inside its
parentheses, and the one that uses it has its items on lines of their own. `tokens` forgets the gaps
and `text` writes them out.
-/

namespace TableTalk.Sql

inductive Gap where
  | space
  | line
  /-- A line indented by four spaces. -/
  | indent
deriving DecidableEq, Repr

def Gap.chars : Gap → List Char
  | space => [' ']
  | line => ['\n']
  | indent => ['\n', ' ', ' ', ' ', ' ']

inductive Piece where
  | token (t : Token)
  | gap (g : Gap)
deriving DecidableEq, Repr

namespace Piece

def chars : Piece → List Char
  | token t => t.chars
  | gap g => g.chars

def token? : Piece → Option Token
  | token t => some t
  | gap _ => none

/-- Every gap becomes a space. -/
def flat : Piece → Piece
  | token t => token t
  | gap _ => gap .space

def mark (m : Mark) : Piece := token (.mark m)

def word (s : String) : Piece := token (.word s)

def key (k : Keyword) : Piece := token (.keyword k)

def space : Piece := gap .space

end Piece

def charsOf (ps : List Piece) : List Char := ps.flatMap Piece.chars

def tokensOf (ps : List Piece) : List Token := ps.filterMap Piece.token?

/-- The lists one after the other with something between each two. -/
def joinWith {α : Type} (between : List α) : List (List α) → List α
  | [] => []
  | [xs] => xs
  | xs :: rest => xs ++ between ++ joinWith between rest

open Piece (mark word key space)

def Name.piece : Name → Piece
  | bare s => word s
  | quoted s => .token (.name s)

def Comparison.mark : Comparison → Mark
  | eq => .eq
  | ne => .ne
  | lt => .lt
  | gt => .gt
  | le => .le
  | ge => .ge

def Arithmetic.mark : Arithmetic → Mark
  | minus => .minus
  | times => .star
  | divide => .slash

def Function.spelling : Function → String
  | tryCastDouble => "try_cast_double"
  | tryCastTimestamp => "try_cast_timestamp"
  | lower => "LOWER"

def Function2.spelling : Function2 → String
  | dateTrunc => "DATE_TRUNC"
  | nullif => "NULLIF"
  | round => "ROUND"

def aggregateSpelling : AggregateFunction → String
  | .sum => "SUM"
  | .avg => "AVG"
  | .count => "COUNT"
  | .min => "MIN"
  | .max => "MAX"

/-- Two operands with blanks around the operator. -/
def infixed (left : List Piece) (op : Piece) (right : List Piece) : List Piece :=
  left ++ [space, op, space] ++ right

namespace Expr

def pieces : Expr Name → List Piece
  | column n => [n.piece]
  | number s => [.token (.number s)]
  | text s => [.token (.text s)]
  | truth b => [key (if b then .true else .false)]
  | paren e => mark .lparen :: e.pieces ++ [mark .rparen]
  | negate e => mark .minus :: e.pieces
  | compare op l r => infixed l.pieces (mark op.mark) r.pieces
  | like l r => infixed l.pieces (key .like) r.pieces
  | ilike l r => infixed l.pieces (key .ilike) r.pieces
  | arithmetic op l r => infixed l.pieces (mark op.mark) r.pieces
  | member d k => d.pieces ++ mark .arrow :: k.pieces
  | cast e t => e.pieces ++ [mark .cast, word t]
  | call f e => word f.spelling :: mark .lparen :: e.pieces ++ [mark .rparen]
  | call2 f l r =>
    word f.spelling :: mark .lparen :: l.pieces ++ [mark .comma, space] ++ r.pieces
      ++ [mark .rparen]
  | aggregate f e => word (aggregateSpelling f) :: mark .lparen :: e.pieces ++ [mark .rparen]
  | countRows => [word (aggregateSpelling .count), mark .lparen, mark .star, mark .rparen]
  | lag e o =>
    word "LAG" :: mark .lparen :: e.pieces
      ++ [mark .rparen, space, key .overRows, space, mark .lparen]
      ++ [key .order, space, key .byKey, space]
      ++ o.pieces ++ [mark .rparen]

end Expr

def Item.pieces (i : Item Name) : List Piece :=
  i.expr.pieces ++ match i.alias? with
    | none => []
    | some a => [space, key .as, space, .token (.name a)]

def SortOrder.keyword : SortOrder → Keyword
  | .desc => .desc
  | .asc => .asc

/-- How a selection is laid out: what starts a line, and whether each item has one. -/
structure Layout where
  line : Gap
  stacked : Bool

namespace Items

def pieces (layout : Layout) : Items Name → List Piece
  | all => [space, mark .star]
  | list items =>
    if layout.stacked then
      .gap .indent :: joinWith [mark .comma, .gap .indent] (items.map Item.pieces)
    else space :: joinWith [mark .comma, space] (items.map Item.pieces)

end Items

/-- The digits of a natural number as one token. -/
def numeral (n : Nat) : Piece := .token (.number (String.ofList (Nat.toDigits 10 n)))

namespace Select

def conditionPieces (start : Gap) : List (Expr Name) → List Piece
  | [] => []
  | conditions =>
    [.gap start, key .whereTrue, space]
      ++ joinWith [space, key .and, space] (conditions.map Expr.pieces)

def groupPieces (start : Gap) : Option (Expr Name) → List Piece
  | none => []
  | some e => [.gap start, key .group, space, key .byKey, space] ++ e.pieces

def orderPieces (start : Gap) : Option (Expr Name × SortOrder) → List Piece
  | none => []
  | some (e, o) =>
    [.gap start, key .order, space, key .byKey, space] ++ e.pieces ++
      [space, key (SortOrder.keyword o)]

def limitPieces (start : Gap) : Option Nat → List Piece
  | none => []
  | some n => [.gap start, key .limit, space, numeral n]

def pieces (layout : Layout) (s : Select) : List Piece :=
  key .select :: s.items.pieces layout
    ++ [.gap layout.line, key .fromTable, space, s.source.piece]
    ++ conditionPieces layout.line s.conditions
    ++ groupPieces layout.line s.groupBy
    ++ orderPieces layout.line s.orderBy
    ++ limitPieces layout.line s.limit

end Select

namespace Query

def pieces (q : Query) : List Piece :=
  match q.common with
  | none => q.main.pieces ⟨.line, false⟩
  | some (name, s) =>
    [key .withName, space, word name, space, key .as, space, mark .lparen, .gap .indent]
      ++ s.pieces ⟨.indent, false⟩ ++ [.gap .line, mark .rparen, .gap .line]
      ++ q.main.pieces ⟨.line, true⟩

def tokens (q : Query) : List Token := tokensOf q.pieces

def text (q : Query) : String := String.ofList (charsOf q.pieces)

/-- The text on a single line. -/
def line (q : Query) : String := String.ofList (charsOf (q.pieces.map Piece.flat))

end Query

end TableTalk.Sql
