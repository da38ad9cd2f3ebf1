import SqlTree.Syntax.Expr
import SqlTree.Token.Clause

/-!
# The tokens of queries

Expressions, conditions, sources and queries as tokens. Every tree has tokens, whether or not it is
valid and whether or not the dialect has all its constructs; a construct that it lacks is written
as nothing or as another dialect would write it.
-/

namespace SqlTree

namespace Token

/-- A renamed column or a renamed source: the part, the word `AS` if wanted, and the alias. -/
def renamed (part : List Token) (withAs : Bool) (aliasName : Option String) : List Token :=
  match aliasName with
  | none => part
  | some a => words (part :: wordIf withAs .AS ++ [[ident a]])

/-- Equal fields of two sources, as one condition. -/
def fieldEquations (left right : String) (pairs : List (String × String)) : List Token :=
  [space, keyword .AND, space].intercalate <| pairs.map fun (l, r) =>
    words [field (some left) l, [symbol .equal], field (some right) r]

/-- A list of values; there is none that is in an empty list. -/
def inList (part : List Token) (values : List Constant) (negated : Bool) : List Token :=
  if values.isEmpty then
    words [[integer 1], [symbol .equal], [integer (if negated then 1 else 0)]]
  else
    words (part :: wordIf negated .NOT ++
      [[keyword .IN], parens (commaList (values.map fun c => [literal c]))])

/-- A condition after a keyword, or nothing if the condition is empty. -/
def phrase (k : Keyword) (isEmpty : Bool) (condition : List Token) : List (List Token) :=
  if isEmpty then [] else [[keyword k], condition]

/-- The words before the columns of a query. -/
def selectWords (d : Dialect) (distinct : Bool) (top : Option UInt64) : List (List Token) :=
  [[keyword .SELECT]] ++ wordIf distinct .DISTINCT ++
    match d.topPlace, top with
    | .afterSelect, some n => [[keyword .TOP], [count n]]
    | _, _ => []

/-- The words after a query that limit its rows. -/
def limitingWords (d : Dialect) (top : Option UInt64) (page : Option Page) :
    List (List Token) :=
  match d.pagingStyle, page, d.topPlace with
  | .trailingClause, some p, _ => d.rowWords (some (p.limit top)) (some p.offset)
  | _, _, .trailing => d.rowWords top none
  | _, _, .afterSelect => []

/-- The group keys of a query, after their keyword. -/
def groupWords (d : Dialect) (modifier : GroupModifier) (keys : List GroupKey) :
    List (List Token) :=
  if keys.isEmpty then [] else [[keyword .GROUP_BY], d.groupTokens modifier keys]

/-- The sort keys of a query, after their keyword. -/
def orderWords (keys : List SortKey) : List (List Token) :=
  if keys.isEmpty then [] else [[keyword .ORDER_BY], commaList (keys.map SortKey.tokens)]

end Token

open Token

mutual

/-- The tokens of an expression. -/
def Expr.tokens (d : Dialect) : Expr → List Token
  | .field table name => Token.field table name
  | .constant c => [literal c]
  | .parameter name => [parameter name]
  | .raw sql => [raw sql]
  | .function name args => call name (Expr.tokensOfAll d args)
  | .aggregate f none distinct =>
    Token.function f.keyword :: parens (words (wordIf distinct .DISTINCT ++ [[symbol .star]]))
  | .aggregate f (some arg) distinct =>
    Token.function f.keyword :: parens (words (wordIf distinct .DISTINCT ++ [arg.tokens d]))
  | .case arms none =>
    words ([keyword .CASE] :: CaseArm.wordsOfAll d arms ++ [[keyword .END]])
  | .case arms (some e) =>
    words ([keyword .CASE] :: CaseArm.wordsOfAll d arms ++
      [[keyword .ELSE], e.tokens d, [keyword .END]])
  | .arithmetic left op right => operation (left.tokens d) op.token (right.tokens d)
  | .dateDiff unit start finish =>
    match d.dateDifference? unit with
    | some formula => formula.tokens (start.tokens d) (finish.tokens d)
    | none => []
  | .ifNull value fallback => call d.ifNullFunction [value.tokens d, fallback.tokens d]
  | .subquery q => parens (q.tokens d)
  | .star none => [symbol .star]
  | .star (some table) => [ident table, symbol .dot, symbol .star]
  | .rowNumber orderBy =>
    words [Token.function "ROW_NUMBER" :: parens [], [keyword .OVER],
      parens (words [[keyword .ORDER_BY], commaList (orderBy.map SortKey.tokens)])]
  | .null => [Token.null]

/-- The tokens of each expression of a list. -/
def Expr.tokensOfAll (d : Dialect) : List Expr → List (List Token)
  | [] => []
  | e :: es => e.tokens d :: Expr.tokensOfAll d es

/-- The words of the arms of a case expression. -/
def CaseArm.wordsOfAll (d : Dialect) : List CaseArm → List (List Token)
  | [] => []
  | ⟨condition, result⟩ :: arms =>
    [[keyword .WHEN], condition.tokens d, [keyword .THEN], result.tokens d] ++
      CaseArm.wordsOfAll d arms

/-- The tokens of a subquery, without parentheses. -/
def Subquery.tokens (d : Dialect) : Subquery → List Token
  | .query q => q.tokens d
  | .text sql => [raw sql]

/-- The tokens of a predicate. -/
def Predicate.tokens (d : Dialect) : Predicate → List Token
  | .compare left .sharesBits right =>
    words [d.bitAnd (left.tokens d) (right.tokens d), [symbol .notEqual], [integer 0]]
  | .compare left op right => words [left.tokens d, [op.token], right.tokens d]
  | .between e low high negated =>
    words (e.tokens d :: wordIf negated .NOT ++
      [[keyword .BETWEEN], low.tokens d, [keyword .AND], high.tokens d])
  | .inList e values negated => Token.inList (e.tokens d) values negated
  | .inSubquery e s negated =>
    words (e.tokens d :: wordIf negated .NOT ++ [[keyword .IN], parens (s.tokens d)])
  | .isNull e negated =>
    words [e.tokens d, [keyword (if negated then .IS_NOT_NULL else .IS_NULL)]]
  | .exists s negated =>
    words (wordIf negated .NOT ++ [[keyword .EXISTS], parens (s.tokens d)])
  | .raw sql => [raw sql]

/-- The tokens of each predicate of a list. -/
def Predicate.tokensOfAll (d : Dialect) : List Predicate → List (List Token)
  | [] => []
  | p :: ps => p.tokens d :: Predicate.tokensOfAll d ps

/-- The tokens of a condition: its predicates and, in parentheses, its groups. -/
def Condition.tokens (d : Dialect) : Condition → List Token
  | ⟨connective, predicates, groups⟩ =>
    [space, keyword connective.keyword, space].intercalate
      (Predicate.tokensOfAll d predicates ++ Condition.tokensOfGroups d groups)

/-- The tokens of each group that has a predicate, in parentheses. -/
def Condition.tokensOfGroups (d : Dialect) : List Condition → List (List Token)
  | [] => []
  | g :: gs =>
    if g.isEmpty then Condition.tokensOfGroups d gs
    else parens (g.tokens d) :: Condition.tokensOfGroups d gs

/-- The tokens of a source. A table without a namespace is in the given one. -/
def Source.tokens (d : Dialect) (tableSpace : Option String) : Source → List Token
  | .table name namespaceName => [qualified (namespaceName <|> tableSpace) name]
  | .query q => parens (q.tokens d)
  | .queryText sql => parens [raw sql]
  | .aliasRef name => [ident name]

/-- The tokens of a source and its alias. -/
def TableRef.tokens (d : Dialect) (tableSpace : Option String) : TableRef → List Token
  | ⟨source, aliasName⟩ => renamed (source.tokens d tableSpace) d.hasSourceAs aliasName

/-- The words of a join condition; `right` is the name of the joined source. -/
def JoinCondition.words (d : Dialect) (right : String) : JoinCondition → List (List Token)
  | .fields left pairs => [[keyword .ON], fieldEquations left right pairs]
  | .condition c => [[keyword .ON], c.tokens d]
  | .none => []

/-- The words of joins. -/
def Join.wordsOfAll (d : Dialect) (tableSpace : Option String) : List Join → List (List Token)
  | [] => []
  | ⟨joinType, right, condition⟩ :: js =>
    joinType.words ++ [[keyword .JOIN], right.tokens d tableSpace] ++
      condition.words d (right.refName.getD "") ++ Join.wordsOfAll d tableSpace js

/-- The words of a base source and its joins; a missing base is an empty word. -/
def FromClause.words (d : Dialect) (tableSpace : Option String) : FromClause → List (List Token)
  | ⟨none, joins⟩ => [] :: Join.wordsOfAll d tableSpace joins
  | ⟨some base, joins⟩ => base.tokens d tableSpace :: Join.wordsOfAll d tableSpace joins

/-- The tokens of each output column. -/
def SelectItem.tokensOfAll (d : Dialect) : List SelectItem → List (List Token)
  | [] => []
  | ⟨e, aliasName⟩ :: is => renamed (e.tokens d) true aliasName :: SelectItem.tokensOfAll d is

/-- The tokens of a query. -/
def Select.tokens (d : Dialect) : Select → List Token
  | ⟨items, source, filter, groupBy, groupModifier, having, orderBy, distinct, top, page,
      tableSpace⟩ =>
    words <|
      selectWords d distinct top ++
      [if items.isEmpty then [symbol .star] else commaList (SelectItem.tokensOfAll d items)] ++
      (if source.isEmpty then [] else [keyword .FROM] :: source.words d tableSpace) ++
      phrase .WHERE filter.isEmpty (filter.tokens d) ++
      groupWords d groupModifier groupBy ++
      phrase .HAVING having.isEmpty (having.tokens d) ++
      orderWords orderBy ++
      limitingWords d top page

end

/-- The tokens of one output column. -/
def SelectItem.tokens (d : Dialect) (i : SelectItem) : List Token :=
  renamed (i.expr.tokens d) true i.aliasName

end SqlTree
