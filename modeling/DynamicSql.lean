import DynamicSql.Decimal.Layout
import DynamicSql.Decimal.Reading
import DynamicSql.Decimal.Shortest
import DynamicSql.Error
import DynamicSql.Parameter.Class
import DynamicSql.Parameter.Converter
import DynamicSql.Parameter.Declaration
import DynamicSql.Parameter.Fragment
import DynamicSql.Parameter.Registry
import DynamicSql.Parameter.Schema
import DynamicSql.Settings
import DynamicSql.Sql.Dialect
import DynamicSql.Sql.Item
import DynamicSql.Sql.Keyword
import DynamicSql.Sql.Lexeme
import DynamicSql.Sql.Statement
import DynamicSql.Sql.Tables
import DynamicSql.Sql.Token
import DynamicSql.Template.Arena
import DynamicSql.Template.Condition
import DynamicSql.Template.Execution
import DynamicSql.Template.Frames
import DynamicSql.Template.Loop
import DynamicSql.Template.Node
import DynamicSql.Template.Outline
import DynamicSql.Template.Progress
import DynamicSql.Template.Render
import DynamicSql.Template.Substitution
import DynamicSql.Template.Tag
import DynamicSql.Text.Alphanumeric
import DynamicSql.Text.Blank
import DynamicSql.Text.Numeral
import DynamicSql.Text.Occurrence
import DynamicSql.Text.Span
import DynamicSql.Value.Basic
import DynamicSql.Value.Kind
import DynamicSql.Value.Order
import DynamicSql.Value.Path
import DynamicSql.Value.Store
import DynamicSql.Value.Text
import DynamicSql.Proofs.Grouping.Depth
import DynamicSql.Proofs.Grouping.Grouped
import DynamicSql.Proofs.Iteration.Indexes
import DynamicSql.Proofs.Iteration.Passes
import DynamicSql.Proofs.Iteration.Splicing
import DynamicSql.Proofs.Lexing.Cut
import DynamicSql.Proofs.Lexing.Legible
import DynamicSql.Proofs.Lexing.Tokens
import DynamicSql.Proofs.Lexing.Trailing
import DynamicSql.Proofs.Markers.Balance
import DynamicSql.Proofs.Markers.Substitution
import DynamicSql.Proofs.Nesting.Address
import DynamicSql.Proofs.Nesting.Binding
import DynamicSql.Proofs.Nesting.Filling
import DynamicSql.Proofs.Nesting.Iterations
import DynamicSql.Proofs.Nesting.Persistence
import DynamicSql.Proofs.Nesting.Placeholder
import DynamicSql.Proofs.Nesting.Recurrence
import DynamicSql.Proofs.Nesting.Rendering
import DynamicSql.Proofs.Outcome
import DynamicSql.Proofs.Rendering.Discipline
import DynamicSql.Proofs.Rendering.Run
import DynamicSql.Proofs.Rendering.Tree
import DynamicSql.Proofs.Statements.Count
import DynamicSql.Proofs.Statements.Leader
import DynamicSql.Proofs.Statements.Page
import DynamicSql.Proofs.Statements.Reading
import DynamicSql.Proofs.Tables.Names
import DynamicSql.Proofs.Tables.Nesting
import DynamicSql.Proofs.Tables.Stretches
import DynamicSql.Proofs.Tables.Changes
import DynamicSql.Proofs.Clauses.Pieces
import DynamicSql.Proofs.Clauses.Group
import DynamicSql.Proofs.Independence.Agreement
import DynamicSql.Proofs.Independence.Values
import DynamicSql.Proofs.Placeholders.Division
import DynamicSql.Proofs.Lexing.Partition
import DynamicSql.Proofs.Correspondence.Frames
import DynamicSql.Proofs.Correspondence.Outcomes
import DynamicSql.Proofs.Correspondence.Texts
import DynamicSql.Proofs.Correspondence.Tags
import DynamicSql.Proofs.Correspondence.Concatenation
import DynamicSql.Proofs.Correspondence.Wrapping
import DynamicSql.Proofs.Lexing.Seams
import DynamicSql.Proofs.Grouping.Padding
import DynamicSql.Proofs.Grouping.Content
import DynamicSql.Proofs.Placeholders.Escaping
import DynamicSql.Proofs.Arena.Numbering
import DynamicSql.Proofs.Arena.Writing
import DynamicSql.Proofs.Arena.Bodies
import DynamicSql.Proofs.Arena.Description
import DynamicSql.Proofs.Placeholders.Insertion
import DynamicSql.Proofs.Nesting.Lists
import DynamicSql.Proofs.Stages.Course
import DynamicSql.Proofs.Stages.Faults
import DynamicSql.Proofs.Stages.Lookups
import DynamicSql.Proofs.Stages.Policies
import DynamicSql.Proofs.Grouping.Partners
import DynamicSql.Proofs.Grouping.Levels
import DynamicSql.Proofs.Lexing.Quotes
import DynamicSql.Proofs.Lexing.Collapse
import DynamicSql.Proofs.Lexing.Relabelling
import DynamicSql.Proofs.Paths.Grammar
import DynamicSql.Proofs.Grouping.Places
import DynamicSql.Proofs.Statements.Rereading
import DynamicSql.Proofs.Statements.Ordering
import DynamicSql.Proofs.Tables.Compounds
import DynamicSql.Proofs.Paths.Leading
import DynamicSql.Proofs.Paths.Printing
import DynamicSql.Proofs.Declarations.Attributes
import DynamicSql.Proofs.Declarations.Styles
import DynamicSql.Proofs.Declarations.Printing
import DynamicSql.Proofs.Comparing.Rounding
import DynamicSql.Proofs.Comparing.Doubles
import DynamicSql.Proofs.Comparing.WholeNumbers
import DynamicSql.Proofs.Converters.Overrides
import DynamicSql.Proofs.Schemas.Shapes
import DynamicSql.Proofs.Progress.Agreement
import DynamicSql.Proofs.Progress.Rounds
import DynamicSql.Proofs.Progress.Stacks
