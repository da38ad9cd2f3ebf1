import SqlTree.Dialect.DateDifference
import SqlTree.Syntax.Page
import SqlTree.Token

/-!
# The tokens of small parts

The parts of a statement that contain no expression: operators, names, sort and group keys, and
the clause that limits rows.
-/

namespace SqlTree

/-- The token of a comparison that is an operator of its own. -/
def CompareOp.token : CompareOp → Token
  | equal => .symbol .equal
  | notEqual => .symbol .notEqual
  | greater => .symbol .greater
  | greaterOrEqual => .symbol .greaterOrEqual
  | less => .symbol .less
  | lessOrEqual => .symbol .lessOrEqual
  | like => .keyword .LIKE
  | notLike => .raw "NOT LIKE"
  | sharesBits => .symbol .bitAnd

/-- The token of an operation. -/
def ArithmeticOp.token : ArithmeticOp → Token
  | add => .symbol .plus
  | subtract => .symbol .minus
  | multiply => .symbol .times
  | divide => .symbol .divide

/-- The keyword of a connective. -/
def Connective.keyword : Connective → Keyword
  | .and => .AND
  | .or => .OR

/-- The words of a join type. -/
def JoinType.words : JoinType → List (List Token)
  | inner => [[.keyword .INNER]]
  | left => [[.keyword .LEFT]]
  | right => [[.keyword .RIGHT]]
  | full => [[.keyword .FULL], [.keyword .OUTER]]
  | cross => [[.keyword .CROSS]]

/-- The keyword of a direction. -/
def SortDirection.keyword : SortDirection → Keyword
  | asc => .ASC
  | desc => .DESC

/-- A sort key; its direction is always written. -/
def SortKey.tokens (k : SortKey) : List Token :=
  Token.words [Token.field k.table k.field, [.keyword k.direction.keyword]]

/-- A group key. -/
def GroupKey.tokens (k : GroupKey) : List Token := Token.field k.table k.field

/-- The keyword of a group modifier. -/
def GroupModifier.keyword? : GroupModifier → Option Keyword
  | .none => Option.none
  | .cube => some .CUBE
  | .rollup => some .ROLLUP

/-- A word that is there only under a condition. -/
def Token.wordIf (condition : Bool) (k : Keyword) : List (List Token) :=
  if condition then [[.keyword k]] else []

/-- A row count as a literal. -/
def Token.count (n : UInt64) : Token := .integer (countLiteral n)

namespace Dialect

/-- Two values of which the common bits are taken. -/
def bitAnd (d : Dialect) (left right : List Token) : List Token :=
  if d = oracle then Token.call "BITAND" [left, right]
  else Token.operation left (.symbol .bitAnd) right

/-- The words of a clause that names a limit and an offset. -/
def limitWords (limit offset : Option UInt64) : List (List Token) :=
  (match limit with
    | none => []
    | some n => [[.keyword .LIMIT], [.count n]]) ++
  match offset with
    | none => []
    | some m => [[.keyword .OFFSET], [.count m]]

/-- The words of a clause that skips rows and fetches the first or the next ones. -/
def fetchWords (limit offset : Option UInt64) : List (List Token) :=
  (match offset with
    | none => []
    | some m => [[.keyword .OFFSET], [.count m], [.keyword .ROWS]]) ++
  match limit with
    | none => []
    | some n =>
      [[.keyword .FETCH], [.keyword (if offset.isSome then .NEXT else .FIRST)], [.count n],
        [.keyword .ROWS], [.keyword .ONLY]]

/-- The words of the trailing clause that limits rows. -/
def rowWords (d : Dialect) (limit offset : Option UInt64) : List (List Token) :=
  if d = oracle then fetchWords limit offset else limitWords limit offset

/-- Group keys with a modifier. -/
def groupTokens (d : Dialect) (modifier : GroupModifier) (keys : List GroupKey) : List Token :=
  let list := Token.commaList (keys.map GroupKey.tokens)
  match modifier.keyword?, d.groupModifierStyle with
  | none, _ => list
  | some k, .suffix => Token.words [list, [.keyword .WITH], [.keyword k]]
  | some k, .wrapped => .keyword k :: Token.parens list

end Dialect

end SqlTree
