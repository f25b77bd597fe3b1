import Quaked.CommandLine
import Quaked.Definition.Declaration
import Quaked.Definition.Entry
import Quaked.Definition.File
import Quaked.Definition.Grammar
import Quaked.Definition.Header
import Quaked.Definition.Model
import Quaked.Definition.Warning
import Quaked.Entity.Attribute
import Quaked.Entity.Basic
import Quaked.Entity.Bounds
import Quaked.Entity.Color
import Quaked.Error
import Quaked.Inspection
import Quaked.Main
import Quaked.Number.Basic
import Quaked.Number.Decimal
import Quaked.Number.Numeral
import Quaked.Number.Shortest
import Quaked.Number.Word
import Quaked.Positional
import Quaked.Report.Document
import Quaked.Report.Json
import Quaked.Report.Summary
import Quaked.Selector.Basic
import Quaked.Selector.Evaluation
import Quaked.Selector.Grammar
import Quaked.Selector.Lexer
import Quaked.Selector.Model
import Quaked.Selector.Source
import Quaked.Selector.Spelling
import Quaked.Selector.Token
import Quaked.Text.Blank
import Quaked.Text.Cursor
import Quaked.Text.Extent
import Quaked.Text.Letter
import Quaked.Text.Lookahead
import Quaked.Text.Quoted
import Quaked.Text.Reading
import Quaked.Token.Basic
import Quaked.Token.Lexer
import Quaked.Value
import Quaked.Proofs.Conversion
import Quaked.Proofs.Definition.Bases
import Quaked.Proofs.Definition.Blame
import Quaked.Proofs.Definition.Boxes
import Quaked.Proofs.Definition.Calls
import Quaked.Proofs.Definition.Corners
import Quaked.Proofs.Definition.DefaultColor
import Quaked.Proofs.Definition.Embedding
import Quaked.Proofs.Definition.EntryGrammar
import Quaked.Proofs.Definition.Exactness
import Quaked.Proofs.Definition.Fallback
import Quaked.Proofs.Definition.Flags
import Quaked.Proofs.Definition.FreeText
import Quaked.Proofs.Definition.Header
import Quaked.Proofs.Definition.HeaderGrammar
import Quaked.Proofs.Definition.InStep
import Quaked.Proofs.Definition.Inheritance
import Quaked.Proofs.Definition.Looking
import Quaked.Proofs.Definition.Parser
import Quaked.Proofs.Definition.Preface
import Quaked.Proofs.Definition.Replacement
import Quaked.Proofs.Definition.Single
import Quaked.Proofs.Definition.Termination
import Quaked.Proofs.Definition.Warnings
import Quaked.Proofs.Entity.Bounds
import Quaked.Proofs.InStep
import Quaked.Proofs.Inspection.Lookahead
import Quaked.Proofs.Inspection.Place
import Quaked.Proofs.Number.Extent
import Quaked.Proofs.Number.Integer
import Quaked.Proofs.Number.Nearest
import Quaked.Proofs.Number.Order
import Quaked.Proofs.Number.Pattern
import Quaked.Proofs.Number.Rounding
import Quaked.Proofs.Number.Spelling
import Quaked.Proofs.Number.TwosComplement
import Quaked.Proofs.Number.Whole
import Quaked.Proofs.Positional
import Quaked.Proofs.Positional.Exactness
import Quaked.Proofs.Positional.InStep
import Quaked.Proofs.Positional.Meaning
import Quaked.Proofs.Quoting
import Quaked.Proofs.Reading
import Quaked.Proofs.Report.Lines
import Quaked.Proofs.Selector.Bits
import Quaked.Proofs.Selector.Completeness
import Quaked.Proofs.Selector.Dependence
import Quaked.Proofs.Selector.Derivation
import Quaked.Proofs.Selector.Exactness
import Quaked.Proofs.Selector.HandOff
import Quaked.Proofs.Selector.InStep
import Quaked.Proofs.Selector.Layout
import Quaked.Proofs.Selector.Lexemes
import Quaked.Proofs.Selector.Lexing
import Quaked.Proofs.Selector.Longest
import Quaked.Proofs.Selector.Mismatch
import Quaked.Proofs.Selector.Movement
import Quaked.Proofs.Selector.Printable
import Quaked.Proofs.Selector.RoundTrip
import Quaked.Proofs.Selector.Soundness
import Quaked.Proofs.Selector.Source
import Quaked.Proofs.Selector.Spacing
import Quaked.Proofs.Selector.Spelling
import Quaked.Proofs.Selector.Termination
import Quaked.Proofs.Termination
import Quaked.Proofs.Text.Extent
import Quaked.Proofs.Text.Lookahead
import Quaked.Proofs.Text.Place
import Quaked.Proofs.Text.Quoted
import Quaked.Proofs.Token.Append
import Quaked.Proofs.Token.InStep
import Quaked.Proofs.Token.Lexing
import Quaked.Proofs.Token.Local
import Quaked.Proofs.Token.Looking
import Quaked.Proofs.Token.Movement
import Quaked.Proofs.Token.Runs
import Quaked.Proofs.Token.Scattered
import Quaked.Proofs.Token.Termination
import Quaked.Proofs.Token.Tiling
import Quaked.Proofs.Token.Words
