import TableSql.Argument
import TableSql.Bindings
import TableSql.Catalog
import TableSql.Compiled
import TableSql.Config
import TableSql.Decimal.Layout
import TableSql.Decimal.Shortest
import TableSql.Document
import TableSql.Error
import TableSql.Fragment
import TableSql.Json.Basic
import TableSql.Json.Decode
import TableSql.Json.Node
import TableSql.Json.Number
import TableSql.Json.Printer
import TableSql.Json.Reader
import TableSql.Json.Token
import TableSql.Lock
import TableSql.Members
import TableSql.Operation
import TableSql.Ordering
import TableSql.Result.Column
import TableSql.Result.Cursor
import TableSql.Result.Reply
import TableSql.Result.Row
import TableSql.ScriptedServer
import TableSql.Session
import TableSql.Sql.Identifier
import TableSql.Sql.Scan
import TableSql.Statement.Clause
import TableSql.Statement.Delete
import TableSql.Statement.Execution
import TableSql.Statement.Insert
import TableSql.Statement.Raw
import TableSql.Statement.Select
import TableSql.Statement.Update
import TableSql.Template
import TableSql.Text.Blank
import TableSql.Text.Bytes
import TableSql.Text.Split
import TableSql.Uri.Address
import TableSql.Uri.Domain
import TableSql.Uri.DottedAddress
import TableSql.Uri.Host
import TableSql.Uri.Parser
import TableSql.Uri.Path
import TableSql.Uri.Percent
import TableSql.Uri.Punycode
import TableSql.Value.Basic
import TableSql.Value.Conversion
import TableSql.Value.Printer
import TableSql.Value.Tagged
import TableSql.Proofs.Outcome
import TableSql.Proofs.Sql.Cut
import TableSql.Proofs.Text.Encoding
import TableSql.Proofs.Text.Weave
import TableSql.Proofs.Sql.Quoting
import TableSql.Proofs.Sql.Markers
import TableSql.Proofs.Fragment.Balance
import TableSql.Proofs.Statement.Markers
import TableSql.Proofs.Builder.Basic
import TableSql.Proofs.Builder.Statements
import TableSql.Proofs.Statement.Calls
import TableSql.Proofs.Bindings
import TableSql.Proofs.Statement.Placeholders
import TableSql.Proofs.Fragment.Rendering
import TableSql.Proofs.Statement.Gate
import TableSql.Proofs.Builder.Erasure
import TableSql.Proofs.Builder.Origin
import TableSql.Proofs.Statement.Erasure
import TableSql.Proofs.Fragment.Supply
import TableSql.Proofs.Statement.Origin
import TableSql.Proofs.Builder.TwoRuns
import TableSql.Proofs.Statement.TwoRuns
import TableSql.Proofs.Fragment.Values
import TableSql.Proofs.Sql.Positions
import TableSql.Proofs.Sql.Bare
import TableSql.Proofs.Argument
import TableSql.Proofs.Builder.History
import TableSql.Proofs.Builder.Grammar
import TableSql.Proofs.Builder.Recorded
import TableSql.Proofs.Statement.Grammar
import TableSql.Proofs.Statement.Outline
import TableSql.Proofs.Statement.Frozen
import TableSql.Proofs.Statement.OwnMarkers
import TableSql.Proofs.Statement.Recorded
import TableSql.Proofs.Builder.Attempts
import TableSql.Proofs.Statement.Attempts
import TableSql.Proofs.Statement.Cells
import TableSql.Proofs.Fragment.Fill
import TableSql.Proofs.Fragment.Parts
import TableSql.Proofs.Fragment.Substitution
import TableSql.Proofs.Statement.Uses
import TableSql.Proofs.Statement.Journal
import TableSql.Proofs.Statement.Parts
import TableSql.Proofs.Statement.BlankExpressions
import TableSql.Proofs.Builder.Lockstep
import TableSql.Proofs.Statement.Reassign
import TableSql.Proofs.Statement.Rows
import TableSql.Proofs.Statement.Documents
import TableSql.Proofs.Builder.Binding
import TableSql.Proofs.Statement.Binding
import TableSql.Proofs.Statement.RawRuns
import TableSql.Proofs.Result.Fetches
import TableSql.Proofs.Result.Lookup
import TableSql.Proofs.Text.Blank
import TableSql.Proofs.Ordering
import TableSql.Proofs.Text.Digits
import TableSql.Proofs.Json.Tokens
import TableSql.Proofs.Json.Trees
import TableSql.Proofs.Value.Tagged
import TableSql.Proofs.Uri.Percent
import TableSql.Proofs.Uri.Path
import TableSql.Proofs.Uri.Address
import TableSql.Proofs.Uri.Parser
import TableSql.Proofs.Config
import TableSql.Proofs.Sql.OpenQuotes
import TableSql.Proofs.Statement.ColumnLists
import TableSql.Proofs.Catalog
import TableSql.Proofs.Text.Slices
import TableSql.Proofs.Sql.Loops
import TableSql.Proofs.Fragment.Slicing
