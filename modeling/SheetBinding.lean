import SheetBinding.Binding.Apply
import SheetBinding.Binding.Context
import SheetBinding.Binding.Pairing
import SheetBinding.Binding.Target
import SheetBinding.Binding.Write
import SheetBinding.Command
import SheetBinding.Command.Request
import SheetBinding.Decimal
import SheetBinding.Decimal.Rounding
import SheetBinding.Form
import SheetBinding.Format
import SheetBinding.Format.Expansion
import SheetBinding.Format.Fault
import SheetBinding.Format.Fractional
import SheetBinding.Format.Layout
import SheetBinding.Format.Plain
import SheetBinding.Format.Spec
import SheetBinding.Format.Subject
import SheetBinding.Format.Template
import SheetBinding.Grammar.Block
import SheetBinding.Grammar.Position
import SheetBinding.Grammar.Terminal
import SheetBinding.Lint
import SheetBinding.Literal
import SheetBinding.Load
import SheetBinding.Log
import SheetBinding.Main
import SheetBinding.Markup.Attributes
import SheetBinding.Markup.Document
import SheetBinding.Markup.Node
import SheetBinding.Markup.Piece
import SheetBinding.Markup.Place
import SheetBinding.Markup.Printer
import SheetBinding.Markup.Reader
import SheetBinding.Markup.Reference
import SheetBinding.Markup.Vocabulary
import SheetBinding.Proofs.Binding.AttributeEdits
import SheetBinding.Proofs.Binding.Edit
import SheetBinding.Proofs.Binding.FailedWrite
import SheetBinding.Proofs.Binding.Invariant
import SheetBinding.Proofs.Binding.Nesting
import SheetBinding.Proofs.Binding.OnePass
import SheetBinding.Proofs.Binding.Pairing
import SheetBinding.Proofs.Binding.PlainText
import SheetBinding.Proofs.Binding.Reapplied
import SheetBinding.Proofs.Binding.Write
import SheetBinding.Proofs.Decimal
import SheetBinding.Proofs.Form.Capture
import SheetBinding.Proofs.Form.Selection
import SheetBinding.Proofs.Format.Overreach
import SheetBinding.Proofs.Format.Pieces
import SheetBinding.Proofs.Format.Template
import SheetBinding.Proofs.Format.Way
import SheetBinding.Proofs.Grammar.Language
import SheetBinding.Proofs.Grammar.LineEnds
import SheetBinding.Proofs.Grammar.Reading
import SheetBinding.Proofs.Grammar.Stopping
import SheetBinding.Proofs.Literal
import SheetBinding.Proofs.Literal.Items
import SheetBinding.Proofs.Literal.Kinds
import SheetBinding.Proofs.Literal.LineEnds
import SheetBinding.Proofs.Literal.Rendering
import SheetBinding.Proofs.Markup.MaskedPlaces
import SheetBinding.Proofs.Markup.Masking
import SheetBinding.Proofs.Markup.Numbering
import SheetBinding.Proofs.Markup.Numbers
import SheetBinding.Proofs.Markup.Order
import SheetBinding.Proofs.Markup.Places
import SheetBinding.Proofs.Markup.Removal
import SheetBinding.Proofs.Markup.Renumbering
import SheetBinding.Proofs.Result
import SheetBinding.Proofs.Rule.Folding
import SheetBinding.Proofs.Rule.Formats
import SheetBinding.Proofs.Rule.LineEnds
import SheetBinding.Proofs.Rule.Literals
import SheetBinding.Proofs.Rule.Plan
import SheetBinding.Proofs.Rule.RoundTrip
import SheetBinding.Proofs.Selector.Attributes
import SheetBinding.Proofs.Selector.Cuts
import SheetBinding.Proofs.Selector.Escapes
import SheetBinding.Proofs.Selector.LineEnds
import SheetBinding.Proofs.Selector.Modes
import SheetBinding.Proofs.Selector.Nesting
import SheetBinding.Proofs.Selector.Readers
import SheetBinding.Proofs.Selector.Scope
import SheetBinding.Proofs.Selector.Strings
import SheetBinding.Proofs.Selector.Tests
import SheetBinding.Proofs.Selector.Tokens
import SheetBinding.Proofs.Selector.Union
import SheetBinding.Proofs.Settings
import SheetBinding.Proofs.Sheet.Completion
import SheetBinding.Proofs.Sheet.Composition
import SheetBinding.Proofs.Sheet.Failure
import SheetBinding.Proofs.Sheet.ObjectMode
import SheetBinding.Proofs.Sheet.Placement
import SheetBinding.Proofs.Sheet.Rejection
import SheetBinding.Proofs.Sheet.RoundTrip
import SheetBinding.Proofs.Sheet.Sources
import SheetBinding.Proofs.Sheet.Tokens
import SheetBinding.Proofs.Sheet.Unheeded
import SheetBinding.Proofs.Text.Blank
import SheetBinding.Proofs.Text.Encoding
import SheetBinding.Proofs.Text.LineEnds
import SheetBinding.Proofs.Text.Quotation
import SheetBinding.Rule
import SheetBinding.Rule.Plan
import SheetBinding.Scalar
import SheetBinding.Selector
import SheetBinding.Selector.Basic
import SheetBinding.Selector.Match
import SheetBinding.Selector.Mention
import SheetBinding.Selector.Names
import SheetBinding.Selector.Reader
import SheetBinding.Selector.Series
import SheetBinding.Selector.Token
import SheetBinding.Settings
import SheetBinding.Sheet
import SheetBinding.Text.Blank
import SheetBinding.Text.Digit
import SheetBinding.Text.Display
import SheetBinding.Text.Encoding
import SheetBinding.Text.Lowercase
import SheetBinding.Text.Printable
import SheetBinding.Text.Quotation
import SheetBinding.Text.Ranges
import SheetBinding.Text.Storable
import SheetBinding.Text.Word
import SheetBinding.Proofs.Grammar.Pattern
