import SqlTree.Stored.Constant
import SqlTree.Syntax.Expr

/-!
# Stored queries

The stored form of expressions, conditions, sources and queries. An alternative is an object with
one field, which names it; a record is an object with a field for each part. Parts with a default
may be left out when reading and are always written; optional names are left out when there are
none.

* `Expr.toValue`, `Select.toValue`, ...: the stored form of a tree;
* `Expr.ofValue?`, `Select.ofValue?`, ...: the tree of a stored form.
-/

namespace SqlTree

/-! ## Parts without expressions -/

/-- A sort key as an object. -/
def SortKey.toValue (k : SortKey) : Value :=
  .object ([("field", .string k.field)] ++ Value.fieldIfSome "table" .string k.table ++
    [("direction", .string k.direction.name)])

/-- Reads a stored sort key. -/
def SortKey.ofValue? (v : Value) : Option SortKey := do
  let ⟨r, _⟩ ← v.record? ["field", "table", "direction"]
  let field ← r.required "field" fun w _ => w.string?
  let table ← r.optional "table" fun w _ => w.string?
  let direction ← r.withDefault "direction" .asc fun w _ =>
    w.name?.bind SortDirection.ofName?
  return { field, table, direction }

/-- A group key as an object. -/
def GroupKey.toValue (k : GroupKey) : Value :=
  .object ([("field", .string k.field)] ++ Value.fieldIfSome "table" .string k.table)

/-- Reads a stored group key. -/
def GroupKey.ofValue? (v : Value) : Option GroupKey := do
  let ⟨r, _⟩ ← v.record? ["field", "table"]
  let field ← r.required "field" fun w _ => w.string?
  let table ← r.optional "table" fun w _ => w.string?
  return { field, table }

/-- A page as an object. -/
def Page.toValue (p : Page) : Value :=
  .object [("page_index", .ofCount p.index), ("page_size", .ofCount p.size)]

/-- Reads a stored page. -/
def Page.ofValue? (v : Value) : Option Page := do
  let ⟨r, _⟩ ← v.record? ["page_index", "page_size"]
  let index ← r.required "page_index" fun w _ => w.count?
  let size ← r.required "page_size" fun w _ => w.count?
  return { index, size }

/-- A pair of field names as a list. -/
def fieldPairToValue (p : String × String) : Value := .array [.string p.1, .string p.2]

/-- Reads a stored pair of field names. -/
def fieldPairOfValue? : Value → Option (String × String)
  | .array [.string l, .string r] => some (l, r)
  | _ => none

/-! ## Writing -/

mutual

/-- The stored form of an expression. -/
def Expr.toValue : Expr → Value
  | .field table name =>
    .tagged "field" (.object
      ([("name", .string name)] ++ Value.fieldIfSome "table" .string table))
  | .constant c => .tagged "constant" c.toValue
  | .parameter name => .tagged "parameter" (.string name)
  | .raw sql => .tagged "raw" (.string sql)
  | .function name args =>
    .tagged "function" (.object
      [("name", .string name), ("args", .array (Expr.toValuesOfAll args))])
  | .aggregate f none distinct =>
    .tagged "aggregate" (.object [("func", .string f.name), ("distinct", .bool distinct)])
  | .aggregate f (some arg) distinct =>
    .tagged "aggregate" (.object
      [("func", .string f.name), ("arg", arg.toValue), ("distinct", .bool distinct)])
  | .case arms none =>
    .tagged "case" (.object [("branches", .array (CaseArm.toValuesOfAll arms))])
  | .case arms (some e) =>
    .tagged "case" (.object
      [("branches", .array (CaseArm.toValuesOfAll arms)), ("else_expr", e.toValue)])
  | .arithmetic left op right =>
    .tagged "binary_op" (.object
      [("left", left.toValue), ("op", .string op.name), ("right", right.toValue)])
  | .dateDiff unit start finish =>
    .tagged "date_diff" (.object
      [("unit", .string unit.name), ("start", start.toValue), ("end", finish.toValue)])
  | .ifNull value fallback =>
    .tagged "if_null" (.object [("value", value.toValue), ("fallback", fallback.toValue)])
  | .subquery q => .tagged "sub_query" q.toValue
  | .star table => .tagged "star" (.object (Value.fieldIfSome "table" .string table))
  | .rowNumber orderBy =>
    .tagged "row_number" (.object [("order_by", .array (orderBy.map SortKey.toValue))])
  | .null => .string "null"

/-- The stored forms of the expressions of a list. -/
def Expr.toValuesOfAll : List Expr → List Value
  | [] => []
  | e :: es => e.toValue :: Expr.toValuesOfAll es

/-- The stored forms of the arms of a case expression. -/
def CaseArm.toValuesOfAll : List CaseArm → List Value
  | [] => []
  | ⟨condition, result⟩ :: arms =>
    .object [("when", condition.toValue), ("then", result.toValue)] ::
      CaseArm.toValuesOfAll arms

/-- The stored form of a subquery. -/
def Subquery.toValue : Subquery → Value
  | .query q => .tagged "query" q.toValue
  | .text sql => .tagged "text" (.string sql)

/-- The stored form of a predicate. -/
def Predicate.toValue : Predicate → Value
  | .compare left op right =>
    .tagged "compare" (.object
      [("left", left.toValue), ("op", .string op.name), ("right", right.toValue)])
  | .between e low high negated =>
    .tagged "between" (.object
      [("expr", e.toValue), ("low", low.toValue), ("high", high.toValue),
        ("negated", .bool negated)])
  | .inList e values negated =>
    .tagged "in_list" (.object
      [("expr", e.toValue), ("values", .array (values.map Constant.toValue)),
        ("negated", .bool negated)])
  | .inSubquery e s negated =>
    .tagged "in_sub_query" (.object
      [("expr", e.toValue), ("subquery", s.toValue), ("negated", .bool negated)])
  | .isNull e negated =>
    .tagged "is_null" (.object [("expr", e.toValue), ("negated", .bool negated)])
  | .exists s negated =>
    .tagged "exists" (.object [("subquery", s.toValue), ("negated", .bool negated)])
  | .raw sql => .tagged "raw" (.string sql)

/-- The stored forms of the predicates of a list. -/
def Predicate.toValuesOfAll : List Predicate → List Value
  | [] => []
  | p :: ps => p.toValue :: Predicate.toValuesOfAll ps

/-- The stored form of a condition. -/
def Condition.toValue : Condition → Value
  | ⟨connective, predicates, groups⟩ =>
    .object
      [("relationship", .string connective.name),
        ("terms", .array (Predicate.toValuesOfAll predicates)),
        ("clauses", .array (Condition.toValuesOfAll groups))]

/-- The stored forms of the conditions of a list. -/
def Condition.toValuesOfAll : List Condition → List Value
  | [] => []
  | g :: gs => g.toValue :: Condition.toValuesOfAll gs

/-- The stored form of what rows are read from. -/
def Source.toValue : Source → Value
  | .table name namespaceName =>
    .tagged "table" (.object
      ([("name", .string name)] ++ Value.fieldIfSome "namespace" .string namespaceName))
  | .query q => .tagged "sub_query" q.toValue
  | .queryText sql => .tagged "sub_query_text" (.string sql)
  | .aliasRef name => .tagged "alias_ref" (.string name)

/-- The stored form of a source. -/
def TableRef.toValue : TableRef → Value
  | ⟨source, aliasName⟩ =>
    .object ([("source", source.toValue)] ++ Value.fieldIfSome "alias" .string aliasName)

/-- The stored form of a join condition. -/
def JoinCondition.toValue : JoinCondition → Value
  | .fields left pairs =>
    .tagged "fields" (.object
      [("left", .string left), ("pairs", .array (pairs.map fieldPairToValue))])
  | .condition c => .tagged "clause" c.toValue
  | .none => .string "none"

/-- The stored forms of joins. -/
def Join.toValuesOfAll : List Join → List Value
  | [] => []
  | ⟨joinType, right, condition⟩ :: js =>
    .object
      [("join_type", .string joinType.name), ("right", right.toValue),
        ("condition", condition.toValue)] :: Join.toValuesOfAll js

/-- The stored form of the sources of a query. -/
def FromClause.toValue : FromClause → Value
  | ⟨none, joins⟩ => .object [("base", .null), ("joins", .array (Join.toValuesOfAll joins))]
  | ⟨some base, joins⟩ =>
    .object [("base", base.toValue), ("joins", .array (Join.toValuesOfAll joins))]

/-- The stored forms of output columns. -/
def SelectItem.toValuesOfAll : List SelectItem → List Value
  | [] => []
  | ⟨e, aliasName⟩ :: is =>
    .object ([("expr", e.toValue)] ++ Value.fieldIfSome "alias" .string aliasName) ::
      SelectItem.toValuesOfAll is

/-- The stored form of a query. -/
def Select.toValue : Select → Value
  | ⟨items, source, filter, groupBy, groupModifier, having, orderBy, distinct, top, page,
      tableSpace⟩ =>
    .object
      [("columns", .array (SelectItem.toValuesOfAll items)), ("from", source.toValue),
        ("where_clause", filter.toValue), ("group_by", .array (groupBy.map GroupKey.toValue)),
        ("group_modifier", .string groupModifier.name), ("having", having.toValue),
        ("order_by", .array (orderBy.map SortKey.toValue)), ("distinct", .bool distinct),
        ("top", .orNull .ofCount top), ("paging", .orNull Page.toValue page),
        ("table_space", .orNull .string tableSpace)]

end

/-- The stored form of an output column. -/
def SelectItem.toValue (i : SelectItem) : Value :=
  .object ([("expr", i.expr.toValue)] ++ Value.fieldIfSome "alias" .string i.aliasName)

/-! ## Reading -/

mutual

/-- Reads a stored expression. -/
def Expr.ofValue? (v : Value) : Option Expr :=
  match v.variant? with
  | some ("null", none) | some ("null", some ⟨.null, _⟩) => some .null
  | some ("field", some ⟨w, _⟩) =>
    if w.isRecord ["name", "table"] then do
      let name ← w.required "name" fun u _ => u.string?
      let table ← w.optional "table" fun u _ => u.string?
      return .field table name
    else none
  | some ("constant", some ⟨w, _⟩) => (Constant.ofValue? w).map .constant
  | some ("parameter", some ⟨w, _⟩) => w.string?.map .parameter
  | some ("raw", some ⟨w, _⟩) => w.string?.map .raw
  | some ("function", some ⟨w, _⟩) =>
    if w.isRecord ["name", "args"] then do
      let name ← w.required "name" fun u _ => u.string?
      let args ← w.required "args" fun u _ => u.list fun x _ => Expr.ofValue? x
      return .function name args
    else none
  | some ("aggregate", some ⟨w, _⟩) =>
    if w.isRecord ["func", "arg", "distinct"] then do
      let f ← w.required "func" fun u _ => u.name?.bind AggregateFunction.ofName?
      let arg ← w.optional "arg" fun u _ => Expr.ofValue? u
      let distinct ← w.withDefault "distinct" false fun u _ => u.bool?
      return .aggregate f arg distinct
    else none
  | some ("case", some ⟨w, _⟩) =>
    if w.isRecord ["branches", "else_expr"] then do
      let arms ← w.required "branches" fun u _ => u.list fun x _ => CaseArm.ofValue? x
      let otherwise ← w.optional "else_expr" fun u _ => Expr.ofValue? u
      return .case arms otherwise
    else none
  | some ("binary_op", some ⟨w, _⟩) =>
    if w.isRecord ["left", "op", "right"] then do
      let left ← w.required "left" fun u _ => Expr.ofValue? u
      let op ← w.required "op" fun u _ => u.name?.bind ArithmeticOp.ofName?
      let right ← w.required "right" fun u _ => Expr.ofValue? u
      return .arithmetic left op right
    else none
  | some ("date_diff", some ⟨w, _⟩) =>
    if w.isRecord ["unit", "start", "end"] then do
      let unit ← w.required "unit" fun u _ => u.name?.bind DateUnit.ofName?
      let start ← w.required "start" fun u _ => Expr.ofValue? u
      let finish ← w.required "end" fun u _ => Expr.ofValue? u
      return .dateDiff unit start finish
    else none
  | some ("if_null", some ⟨w, _⟩) =>
    if w.isRecord ["value", "fallback"] then do
      let value ← w.required "value" fun u _ => Expr.ofValue? u
      let fallback ← w.required "fallback" fun u _ => Expr.ofValue? u
      return .ifNull value fallback
    else none
  | some ("sub_query", some ⟨w, _⟩) => (Select.ofValue? w).map .subquery
  | some ("star", some ⟨w, _⟩) =>
    if w.isRecord ["table"] then (w.optional "table" fun u _ => u.string?).map .star else none
  | some ("row_number", some ⟨w, _⟩) =>
    if w.isRecord ["order_by"] then
      (w.required "order_by" fun u _ => u.list fun x _ => SortKey.ofValue? x).map .rowNumber
    else none
  | _ => none
termination_by v.size
decreasing_by all_goals omega

/-- Reads a stored arm of a case expression. -/
def CaseArm.ofValue? (v : Value) : Option CaseArm := do
  let ⟨r, _⟩ ← v.record? ["when", "then"]
  let condition ← r.required "when" fun w _ => Condition.ofValue? w
  let result ← r.required "then" fun w _ => Expr.ofValue? w
  return ⟨condition, result⟩
termination_by v.size
decreasing_by all_goals omega

/-- Reads a stored subquery. -/
def Subquery.ofValue? (v : Value) : Option Subquery :=
  match v.variant? with
  | some ("query", some ⟨w, _⟩) => (Select.ofValue? w).map .query
  | some ("text", some ⟨w, _⟩) => w.string?.map .text
  | _ => none
termination_by v.size
decreasing_by all_goals omega

/-- Reads a stored predicate. -/
def Predicate.ofValue? (v : Value) : Option Predicate :=
  match v.variant? with
  | some ("compare", some ⟨w, _⟩) =>
    if w.isRecord ["left", "op", "right"] then do
      let left ← w.required "left" fun u _ => Expr.ofValue? u
      let op ← w.required "op" fun u _ => u.name?.bind CompareOp.ofName?
      let right ← w.required "right" fun u _ => Expr.ofValue? u
      return .compare left op right
    else none
  | some ("between", some ⟨w, _⟩) =>
    if w.isRecord ["expr", "low", "high", "negated"] then do
      let e ← w.required "expr" fun u _ => Expr.ofValue? u
      let low ← w.required "low" fun u _ => Expr.ofValue? u
      let high ← w.required "high" fun u _ => Expr.ofValue? u
      let negated ← w.withDefault "negated" false fun u _ => u.bool?
      return .between e low high negated
    else none
  | some ("in_list", some ⟨w, _⟩) =>
    if w.isRecord ["expr", "values", "negated"] then do
      let e ← w.required "expr" fun u _ => Expr.ofValue? u
      let values ← w.required "values" fun u _ => u.list fun x _ => Constant.ofValue? x
      let negated ← w.withDefault "negated" false fun u _ => u.bool?
      return .inList e values negated
    else none
  | some ("in_sub_query", some ⟨w, _⟩) =>
    if w.isRecord ["expr", "subquery", "negated"] then do
      let e ← w.required "expr" fun u _ => Expr.ofValue? u
      let s ← w.required "subquery" fun u _ => Subquery.ofValue? u
      let negated ← w.withDefault "negated" false fun u _ => u.bool?
      return .inSubquery e s negated
    else none
  | some ("is_null", some ⟨w, _⟩) =>
    if w.isRecord ["expr", "negated"] then do
      let e ← w.required "expr" fun u _ => Expr.ofValue? u
      let negated ← w.withDefault "negated" false fun u _ => u.bool?
      return .isNull e negated
    else none
  | some ("exists", some ⟨w, _⟩) =>
    if w.isRecord ["subquery", "negated"] then do
      let s ← w.required "subquery" fun u _ => Subquery.ofValue? u
      let negated ← w.withDefault "negated" false fun u _ => u.bool?
      return .exists s negated
    else none
  | some ("raw", some ⟨w, _⟩) => w.string?.map .raw
  | _ => none
termination_by v.size
decreasing_by all_goals omega

/-- Reads a stored condition. -/
def Condition.ofValue? (v : Value) : Option Condition := do
  let ⟨r, _⟩ ← v.record? ["relationship", "terms", "clauses"]
  let connective ← r.withDefault "relationship" .and fun w _ =>
    w.name?.bind Connective.ofName?
  let predicates ← r.withDefault "terms" [] fun w _ => w.list fun x _ => Predicate.ofValue? x
  let groups ← r.withDefault "clauses" [] fun w _ => w.list fun x _ => Condition.ofValue? x
  return ⟨connective, predicates, groups⟩
termination_by v.size
decreasing_by all_goals omega

/-- Reads what rows are read from. -/
def Source.ofValue? (v : Value) : Option Source :=
  match v.variant? with
  | some ("table", some ⟨w, _⟩) =>
    if w.isRecord ["name", "namespace"] then do
      let name ← w.required "name" fun u _ => u.string?
      let namespaceName ← w.optional "namespace" fun u _ => u.string?
      return .table name namespaceName
    else none
  | some ("sub_query", some ⟨w, _⟩) => (Select.ofValue? w).map .query
  | some ("sub_query_text", some ⟨w, _⟩) => w.string?.map .queryText
  | some ("alias_ref", some ⟨w, _⟩) => w.string?.map .aliasRef
  | _ => none
termination_by v.size
decreasing_by all_goals omega

/-- Reads a stored source. -/
def TableRef.ofValue? (v : Value) : Option TableRef := do
  let ⟨r, _⟩ ← v.record? ["source", "alias"]
  let source ← r.required "source" fun w _ => Source.ofValue? w
  let aliasName ← r.optional "alias" fun w _ => w.string?
  return ⟨source, aliasName⟩
termination_by v.size
decreasing_by all_goals omega

/-- Reads a stored join condition. -/
def JoinCondition.ofValue? (v : Value) : Option JoinCondition :=
  match v.variant? with
  | some ("none", none) | some ("none", some ⟨.null, _⟩) => some .none
  | some ("fields", some ⟨w, _⟩) =>
    if w.isRecord ["left", "pairs"] then do
      let left ← w.required "left" fun u _ => u.string?
      let pairs ← w.required "pairs" fun u _ => u.list fun x _ => fieldPairOfValue? x
      return .fields left pairs
    else none
  | some ("clause", some ⟨w, _⟩) => (Condition.ofValue? w).map .condition
  | _ => none
termination_by v.size
decreasing_by all_goals omega

/-- Reads a stored join. -/
def Join.ofValue? (v : Value) : Option Join := do
  let ⟨r, _⟩ ← v.record? ["join_type", "right", "condition"]
  let joinType ← r.required "join_type" fun w _ => w.name?.bind JoinType.ofName?
  let right ← r.required "right" fun w _ => TableRef.ofValue? w
  let condition ← r.withDefault "condition" .none fun w _ => JoinCondition.ofValue? w
  return ⟨joinType, right, condition⟩
termination_by v.size
decreasing_by all_goals omega

/-- Reads the stored sources of a query. -/
def FromClause.ofValue? (v : Value) : Option FromClause := do
  let ⟨r, _⟩ ← v.record? ["base", "joins"]
  let base ← r.optional "base" fun w _ => TableRef.ofValue? w
  let joins ← r.withDefault "joins" [] fun w _ => w.list fun x _ => Join.ofValue? x
  return ⟨base, joins⟩
termination_by v.size
decreasing_by all_goals omega

/-- Reads a stored output column. -/
def SelectItem.ofValue? (v : Value) : Option SelectItem := do
  let ⟨r, _⟩ ← v.record? ["expr", "alias"]
  let expr ← r.required "expr" fun w _ => Expr.ofValue? w
  let aliasName ← r.optional "alias" fun w _ => w.string?
  return ⟨expr, aliasName⟩
termination_by v.size
decreasing_by all_goals omega

/-- Reads a stored query. -/
def Select.ofValue? (v : Value) : Option Select := do
  let ⟨r, _⟩ ← v.record?
    ["columns", "from", "where_clause", "group_by", "group_modifier",
      "having", "order_by", "distinct", "top", "paging", "table_space"]
  let items ← r.withDefault "columns" [] fun w _ => w.list fun x _ => SelectItem.ofValue? x
  let source ← r.withDefault "from" ⟨none, []⟩ fun w _ => FromClause.ofValue? w
  let filter ← r.withDefault "where_clause" .empty fun w _ => Condition.ofValue? w
  let groupBy ← r.withDefault "group_by" [] fun w _ => w.list fun x _ => GroupKey.ofValue? x
  let groupModifier ← r.withDefault "group_modifier" .none fun w _ =>
    w.name?.bind GroupModifier.ofName?
  let having ← r.withDefault "having" .empty fun w _ => Condition.ofValue? w
  let orderBy ← r.withDefault "order_by" [] fun w _ => w.list fun x _ => SortKey.ofValue? x
  let distinct ← r.withDefault "distinct" false fun w _ => w.bool?
  let top ← r.optional "top" fun w _ => w.count?
  let page ← r.optional "paging" fun w _ => Page.ofValue? w
  let tableSpace ← r.optional "table_space" fun w _ => w.string?
  return { items, source, filter, groupBy, groupModifier, having, orderBy, distinct, top, page,
           tableSpace }
termination_by v.size
decreasing_by all_goals omega

end

end SqlTree
