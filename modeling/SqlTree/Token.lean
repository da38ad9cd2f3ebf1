import SqlTree.Dialect.Basic
import SqlTree.Text.Upper

/-!
# Tokens

SQL text is first written as a list of tokens, which no longer depends on the tree it came from
and hardly on the dialect; the dialect then spells each token.

* `Token`: a keyword, a symbol, a space, a name, a literal or a piece of text;
* `Token.text`: the spelling of a token in a dialect;
* `Token.words`, `Token.commaList`, `Token.parens`: the ways in which parts are put together.
-/

namespace SqlTree

/-- The keywords of statements, spelled as their names with spaces for underscores. -/
inductive Keyword where
  | SELECT | FROM | WHERE | AND | OR | NOT | AS | ON | JOIN | INNER | LEFT | RIGHT | FULL | OUTER
  | CROSS | GROUP_BY | HAVING | ORDER_BY | ASC | DESC | LIMIT | OFFSET | FETCH | NEXT | FIRST
  | ROWS | ONLY | TOP | CASE | WHEN | THEN | ELSE | END | IN | BETWEEN | LIKE | IS_NULL
  | IS_NOT_NULL | EXISTS | DISTINCT | ALL | UNION | OVER | WITH | CUBE | ROLLUP | INSERT | INTO
  | VALUES | UPDATE | SET | DELETE | DUAL
deriving DecidableEq, Repr

/-- The spelling of a keyword. -/
def Keyword.text : Keyword → String
  | SELECT => "SELECT"
  | FROM => "FROM"
  | WHERE => "WHERE"
  | AND => "AND"
  | OR => "OR"
  | NOT => "NOT"
  | AS => "AS"
  | ON => "ON"
  | JOIN => "JOIN"
  | INNER => "INNER"
  | LEFT => "LEFT"
  | RIGHT => "RIGHT"
  | FULL => "FULL"
  | OUTER => "OUTER"
  | CROSS => "CROSS"
  | GROUP_BY => "GROUP BY"
  | HAVING => "HAVING"
  | ORDER_BY => "ORDER BY"
  | ASC => "ASC"
  | DESC => "DESC"
  | LIMIT => "LIMIT"
  | OFFSET => "OFFSET"
  | FETCH => "FETCH"
  | NEXT => "NEXT"
  | FIRST => "FIRST"
  | ROWS => "ROWS"
  | ONLY => "ONLY"
  | TOP => "TOP"
  | CASE => "CASE"
  | WHEN => "WHEN"
  | THEN => "THEN"
  | ELSE => "ELSE"
  | END => "END"
  | IN => "IN"
  | BETWEEN => "BETWEEN"
  | LIKE => "LIKE"
  | IS_NULL => "IS NULL"
  | IS_NOT_NULL => "IS NOT NULL"
  | EXISTS => "EXISTS"
  | DISTINCT => "DISTINCT"
  | ALL => "ALL"
  | UNION => "UNION"
  | OVER => "OVER"
  | WITH => "WITH"
  | CUBE => "CUBE"
  | ROLLUP => "ROLLUP"
  | INSERT => "INSERT"
  | INTO => "INTO"
  | VALUES => "VALUES"
  | UPDATE => "UPDATE"
  | SET => "SET"
  | DELETE => "DELETE"
  | DUAL => "DUAL"

/-- Punctuation and operators. -/
inductive Symbol where
  | comma
  | dot
  | star
  | openParen
  | closeParen
  | equal
  | notEqual
  | less
  | greater
  | lessOrEqual
  | greaterOrEqual
  | plus
  | minus
  | times
  | divide
  | bitAnd
deriving DecidableEq, Repr

/-- The spelling of a symbol. -/
def Symbol.text : Symbol → String
  | comma => ","
  | dot => "."
  | star => "*"
  | openParen => "("
  | closeParen => ")"
  | equal => "="
  | notEqual => "<>"
  | less => "<"
  | greater => ">"
  | lessOrEqual => "<="
  | greaterOrEqual => ">="
  | plus => "+"
  | minus => "-"
  | times => "*"
  | divide => "/"
  | bitAnd => "&"

/-- A piece of SQL text. -/
inductive Token where
  | keyword (k : Keyword)
  | symbol (s : Symbol)
  | space
  /-- The name of a table, a column or an alias. -/
  | ident (name : String)
  /-- The name of a table, possibly in a namespace. -/
  | qualified (namespaceName : Option String) (name : String)
  | literal (c : Constant)
  | null
  /-- A named parameter. -/
  | parameter (name : String)
  /-- The name of a function, written in capitals. -/
  | function (name : String)
  /-- SQL text that is written as it is. -/
  | raw (sql : String)
deriving DecidableEq

namespace Token

/-- The spelling of a token. -/
def text (d : Dialect) : Token → String
  | keyword k => k.text
  | symbol s => s.text
  | space => " "
  | ident name => d.nameText name
  | qualified none name => d.nameText name
  | qualified (some n) name => d.nameText n ++ "." ++ d.nameText name
  | literal c => d.constantText c
  | null => "NULL"
  | parameter name => d.parameterText name
  | function name => Text.toUpper name
  | raw sql => sql

/-- The text of a list of tokens: their spellings one after another. -/
def listText (d : Dialect) (ts : List Token) : String := String.join (ts.map (text d))

/-! ## Putting parts together -/

/-- An integer literal. -/
def integer (n : Int64) : Token := literal (.number (.int n))

/-- A string literal. -/
def string (s : String) : Token := literal (.string s)

/-- Parts with a space between each two. -/
def words (parts : List (List Token)) : List Token := [space].intercalate parts

/-- Parts with a comma and a space between each two. -/
def commaList (parts : List (List Token)) : List Token :=
  [symbol .comma, space].intercalate parts

/-- A part between parentheses. -/
def parens (part : List Token) : List Token :=
  symbol .openParen :: part ++ [symbol .closeParen]

/-- A function and its arguments. -/
def call (name : String) (args : List (List Token)) : List Token :=
  function name :: parens (commaList args)

/-- Two operands around an operator, between parentheses. -/
def operation (left : List Token) (op : Token) (right : List Token) : List Token :=
  parens (words [left, [op], right])

/-- A name, possibly of a named table. -/
def field (table : Option String) (name : String) : List Token :=
  match table with
  | none => [ident name]
  | some t => [ident t, symbol .dot, ident name]

@[simp] theorem words_nil : words [] = [] := rfl

@[simp] theorem words_singleton (p : List Token) : words [p] = p := by
  simp [words, List.intercalate]

theorem words_cons_cons (p q : List Token) (ps : List (List Token)) :
    words (p :: q :: ps) = p ++ space :: words (q :: ps) := by
  simp [words, List.intercalate]

@[simp] theorem commaList_nil : commaList [] = [] := rfl

@[simp] theorem commaList_singleton (p : List Token) : commaList [p] = p := by
  simp [commaList, List.intercalate]

theorem commaList_cons_cons (p q : List Token) (ps : List (List Token)) :
    commaList (p :: q :: ps) = p ++ symbol .comma :: space :: commaList (q :: ps) := by
  simp [commaList, List.intercalate]

end Token

end SqlTree
