import SqlTree.Calendar.Reader
import SqlTree.Calendar.Timestamp
import SqlTree.Command.Arguments
import SqlTree.Command.Run
import SqlTree.Constant.Basic
import SqlTree.Constant.Guid
import SqlTree.Constant.Reader
import SqlTree.Data.Json
import SqlTree.Data.NumberReader
import SqlTree.Data.Toml.Document
import SqlTree.Data.Toml.Lexeme
import SqlTree.Data.Toml.Moment
import SqlTree.Data.Toml.Scalar
import SqlTree.Data.Toml.Table
import SqlTree.Data.Value
import SqlTree.Dialect.Basic
import SqlTree.Dialect.DateDifference
import SqlTree.Error
import SqlTree.Main
import SqlTree.Mapping.Alias
import SqlTree.Mapping.Basic
import SqlTree.Mapping.Registry
import SqlTree.Number.Decimal
import SqlTree.Number.FloatText
import SqlTree.Number.Range
import SqlTree.Number.Shortest
import SqlTree.Obstacle.Query
import SqlTree.Obstacle.Statement
import SqlTree.Paging.Expansion
import SqlTree.Paging.FreshName
import SqlTree.Paging.NumberedBlocks
import SqlTree.Pivot.Basic
import SqlTree.Pivot.Query
import SqlTree.Proofs.Conditions.Evaluation
import SqlTree.Proofs.Conditions.Reading
import SqlTree.Proofs.Conditions.RenderedConditions
import SqlTree.Proofs.Dates.Boundaries
import SqlTree.Proofs.Dates.Databases
import SqlTree.Proofs.Dates.DayNumbers
import SqlTree.Proofs.Dates.Differences
import SqlTree.Proofs.Dates.MySql
import SqlTree.Proofs.Dates.Oracle
import SqlTree.Proofs.Dates.Postgres
import SqlTree.Proofs.Mapping.DistinctAliases
import SqlTree.Proofs.Mapping.QueryAliases
import SqlTree.Proofs.Mapping.SelectLists
import SqlTree.Proofs.Mapping.WrittenColumns
import SqlTree.Proofs.Paging.Blocks
import SqlTree.Proofs.Paging.Bounds
import SqlTree.Proofs.Paging.CapturedNames
import SqlTree.Proofs.Paging.ColumnNames
import SqlTree.Proofs.Paging.Columns
import SqlTree.Proofs.Paging.DerivedTables
import SqlTree.Proofs.Paging.FreshNames
import SqlTree.Proofs.Paging.HiddenColumns
import SqlTree.Proofs.Paging.MappedColumns
import SqlTree.Proofs.Paging.NameSearch
import SqlTree.Proofs.Paging.NestedPages
import SqlTree.Proofs.Paging.PageRows
import SqlTree.Proofs.Paging.ResolvedKeys
import SqlTree.Proofs.Paging.RowNumberColumn
import SqlTree.Proofs.Paging.SortedNames
import SqlTree.Proofs.Paging.Strings
import SqlTree.Proofs.Paging.ValidExpansion
import SqlTree.Proofs.Pivot.Bands
import SqlTree.Proofs.Pivot.CellRows
import SqlTree.Proofs.Pivot.OutputNames
import SqlTree.Proofs.Pivot.ValidQueries
import SqlTree.Proofs.Rendering.Arithmetic
import SqlTree.Proofs.Rendering.BulkRows
import SqlTree.Proofs.Rendering.Clauses
import SqlTree.Proofs.Rendering.Features
import SqlTree.Proofs.Rendering.FieldJoins
import SqlTree.Proofs.Rendering.FiniteFloats
import SqlTree.Proofs.Rendering.ForeignTokens
import SqlTree.Proofs.Rendering.Infixes
import SqlTree.Proofs.Rendering.Nesting
import SqlTree.Proofs.Rendering.Pages
import SqlTree.Proofs.Rendering.Pieces
import SqlTree.Proofs.Rendering.Shape
import SqlTree.Proofs.Rendering.Spacing
import SqlTree.Proofs.Rendering.StatementPieces
import SqlTree.Proofs.Rendering.StringObstacles
import SqlTree.Proofs.Rendering.Strings
import SqlTree.Proofs.Rendering.UnionMembers
import SqlTree.Proofs.Rendering.ValidTokens
import SqlTree.Proofs.Rendering.Windows
import SqlTree.Proofs.Rows.Lookup
import SqlTree.Proofs.Rows.Order
import SqlTree.Proofs.Rows.Pages
import SqlTree.Proofs.Rows.Sorting
import SqlTree.Proofs.Rows.Table
import SqlTree.Proofs.Settings.Mappings
import SqlTree.Proofs.Settings.References
import SqlTree.Proofs.Stored.Constants
import SqlTree.Proofs.Stored.Queries
import SqlTree.Proofs.Stored.Records
import SqlTree.Proofs.Stored.Statements
import SqlTree.Proofs.Text.Decimals
import SqlTree.Proofs.Text.Digits
import SqlTree.Proofs.Text.Guids
import SqlTree.Proofs.Text.HexPairs
import SqlTree.Proofs.Text.Literals
import SqlTree.Proofs.Text.Quoting
import SqlTree.Proofs.Text.Timestamps
import SqlTree.Proofs.Text.Values
import SqlTree.Proofs.Tree.Constants
import SqlTree.Proofs.Tree.Expansion
import SqlTree.Proofs.Tree.Measures
import SqlTree.Proofs.Tree.Node
import SqlTree.Proofs.Tree.Obstacles
import SqlTree.Proofs.Tree.Rules
import SqlTree.Proofs.Tree.Strings
import SqlTree.Proofs.Tree.ValidStatements
import SqlTree.Proofs.Tree.Violations
import SqlTree.Proofs.Tree.Visits
import SqlTree.Rendering
import SqlTree.Settings.Basic
import SqlTree.Settings.Template
import SqlTree.Stored.Constant
import SqlTree.Stored.Mapping
import SqlTree.Stored.Pivot
import SqlTree.Stored.Query
import SqlTree.Stored.Settings
import SqlTree.Stored.Statement
import SqlTree.Syntax.Build
import SqlTree.Syntax.Expr
import SqlTree.Syntax.Page
import SqlTree.Syntax.Statement
import SqlTree.Syntax.Words
import SqlTree.Text.Alphanumeric
import SqlTree.Text.Blank
import SqlTree.Text.Digits
import SqlTree.Text.Hex
import SqlTree.Text.Quoted
import SqlTree.Text.Upper
import SqlTree.Token
import SqlTree.Token.Clause
import SqlTree.Token.Query
import SqlTree.Token.Statement
import SqlTree.Validity.Query
import SqlTree.Validity.Statement
