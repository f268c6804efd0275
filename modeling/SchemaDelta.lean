import SchemaDelta.Text.Blank
import SchemaDelta.Text.Pieces
import SchemaDelta.Text.Digits
import SchemaDelta.Decimal.Shortest
import SchemaDelta.Decimal.Layout
import SchemaDelta.Json.Basic
import SchemaDelta.Json.Number
import SchemaDelta.Json.Reader
import SchemaDelta.Json.Writer
import SchemaDelta.Json.Field
import SchemaDelta.Model.Typing
import SchemaDelta.Model.Key
import SchemaDelta.Model.Field
import SchemaDelta.Model.Entity
import SchemaDelta.Model.Table
import SchemaDelta.Model.View
import SchemaDelta.Model.UserType
import SchemaDelta.Sql.Name
import SchemaDelta.Sql.Comment
import SchemaDelta.Sql.Fragment
import SchemaDelta.Sql.Template
import SchemaDelta.Sql.Form
import SchemaDelta.Sql.Statement
import SchemaDelta.DataType.Equivalents
import SchemaDelta.DataType.Clause
import SchemaDelta.DataType.Release
import SchemaDelta.DataType.Resolve
import SchemaDelta.Column.Basic
import SchemaDelta.Column.Clause
import SchemaDelta.Key.Basic
import SchemaDelta.Key.Clause
import SchemaDelta.Table.Partition
import SchemaDelta.Table.Index
import SchemaDelta.Table.Basic
import SchemaDelta.Table.Clause
import SchemaDelta.View.Basic
import SchemaDelta.View.Clause
import SchemaDelta.UserType.Basic
import SchemaDelta.UserType.Clause
import SchemaDelta.Schema
import SchemaDelta.Delta.Item
import SchemaDelta.Delta.Basic
import SchemaDelta.Script.Step
import SchemaDelta.Script.Plan
import SchemaDelta.Script.Schemas
import SchemaDelta.Script.Tables
import SchemaDelta.Script.Views
import SchemaDelta.Script.Types
import SchemaDelta.Script.Basic
import SchemaDelta.Run.Split
import SchemaDelta.Run.Outcome
import SchemaDelta.Command.Arguments
import SchemaDelta.Command.Files
import SchemaDelta.Command.Run
import SchemaDelta.Proofs.Text.Ends
import SchemaDelta.Proofs.Text.Pairs
import SchemaDelta.Proofs.Text.Paragraphs
import SchemaDelta.Proofs.Text.Lines
import SchemaDelta.Proofs.Text.Words
import SchemaDelta.Proofs.Text.Parens
import SchemaDelta.Proofs.Text.Case
import SchemaDelta.Proofs.Sql.Forms
import SchemaDelta.Proofs.Sql.Steps
import SchemaDelta.Proofs.Sql.Sealed
import SchemaDelta.Proofs.Sql.Phrase
import SchemaDelta.Proofs.Sql.Lists
import SchemaDelta.Proofs.Sql.Unbroken
import SchemaDelta.Proofs.Sql.Marks
import SchemaDelta.Proofs.Sql.Parts
import SchemaDelta.Proofs.Sql.Live
import SchemaDelta.Proofs.Sql.Members
import SchemaDelta.Proofs.Sql.Lexemes
import SchemaDelta.Proofs.Sql.Written
import SchemaDelta.Proofs.Sql.Names
import SchemaDelta.Proofs.Sql.Identifiers
import SchemaDelta.Proofs.Sql.Guarded
import SchemaDelta.Proofs.Sql.TextClass
import SchemaDelta.Proofs.Sql.Parens
import SchemaDelta.Proofs.Sql.Seams
import SchemaDelta.Proofs.Sql.OneComment
import SchemaDelta.Proofs.Json.NumberText
import SchemaDelta.Proofs.Json.Grants
import SchemaDelta.Proofs.Json.Strings
import SchemaDelta.Proofs.Json.References
import SchemaDelta.Proofs.Json.Without
import SchemaDelta.Proofs.Model.Texts
import SchemaDelta.Proofs.Model.EntityTexts
import SchemaDelta.Proofs.Model.Malformed
import SchemaDelta.Proofs.Delta.Texts
import SchemaDelta.Proofs.Delta.Places
import SchemaDelta.Proofs.Delta.Shapes
import SchemaDelta.Proofs.Clause.DataType
import SchemaDelta.Proofs.Clause.Column
import SchemaDelta.Proofs.Clause.Partition
import SchemaDelta.Proofs.Clause.Options
import SchemaDelta.Proofs.Clause.Table
import SchemaDelta.Proofs.Clause.View
import SchemaDelta.Proofs.Clause.UserType
import SchemaDelta.Proofs.Clause.Check
import SchemaDelta.Proofs.Clause.Malformed
import SchemaDelta.Proofs.Script.Sealed
import SchemaDelta.Proofs.Script.Openings
import SchemaDelta.Proofs.Script.Existing
import SchemaDelta.Proofs.Script.Steps
import SchemaDelta.Proofs.Script.Plan
import SchemaDelta.Proofs.Script.Comments
import SchemaDelta.Proofs.Script.Parens
import SchemaDelta.Proofs.Script.Blocks
import SchemaDelta.Proofs.Script.Releases
import SchemaDelta.Proofs.Script.Malformed
import SchemaDelta.Proofs.Run.FirstWords
import SchemaDelta.Proofs.Run.Pieces
import SchemaDelta.Proofs.Run.Guarded
import SchemaDelta.Proofs.Run.Hidden
import SchemaDelta.Proofs.Run.Inactive
import SchemaDelta.Proofs.Run.Boundaries
import SchemaDelta.Proofs.Run.Cancellation
import SchemaDelta.Proofs.Run.Replacement
import SchemaDelta.Proofs.Run.Users
import SchemaDelta.Proofs.Run.Units
import SchemaDelta.Proofs.Catalogue.Basic
import SchemaDelta.Proofs.Catalogue.Statements
import SchemaDelta.Proofs.Catalogue.Sections
import SchemaDelta.Proofs.Alteration.Basic
import SchemaDelta.Proofs.Alteration.Statements
import SchemaDelta.Proofs.Alteration.Sections
import SchemaDelta.Proofs.Alteration.Types
import SchemaDelta.Proofs.Script.TypeNames
import SchemaDelta.Proofs.Activation.Hydration
import SchemaDelta.Proofs.Activation.Rendering
import SchemaDelta.Proofs.Activation.Deactivation
import SchemaDelta.Proofs.Activation.Body
import SchemaDelta.Proofs.Activation.LiveColumns
import SchemaDelta.Proofs.Activation.LiveKeys
import SchemaDelta.Proofs.Activation.Comments
import SchemaDelta.Proofs.Activation.Phases
import SchemaDelta.Proofs.Activation.ForeignKeys
import SchemaDelta.Proofs.Key.References
import SchemaDelta.Proofs.Key.Inline
import SchemaDelta.Proofs.Clause.Sources
import SchemaDelta.Proofs.Delta.Projection
import SchemaDelta.Proofs.Delta.Roles
import SchemaDelta.Proofs.Key.Sides
import SchemaDelta.Proofs.DataType.Qualifiers
import SchemaDelta.Proofs.DataType.Equivalents
import SchemaDelta.Main
