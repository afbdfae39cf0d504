import ArchDiagram.Data.Checked
import ArchDiagram.Data.Document
import ArchDiagram.Data.Report
import ArchDiagram.Data.Value
import ArchDiagram.Document
import ArchDiagram.Icon.Library
import ArchDiagram.Icon.Registry
import ArchDiagram.Layout
import ArchDiagram.Lint
import ArchDiagram.Number.Binary64
import ArchDiagram.Number.Decimal
import ArchDiagram.Number.Numeral
import ArchDiagram.Number.Spelling
import ArchDiagram.Proofs.Acceptance
import ArchDiagram.Proofs.Advice
import ArchDiagram.Proofs.Ancestry
import ArchDiagram.Proofs.AttributeOrder
import ArchDiagram.Proofs.AttributeTokens
import ArchDiagram.Proofs.Blocks
import ArchDiagram.Proofs.Calls
import ArchDiagram.Proofs.Climbs
import ArchDiagram.Proofs.Concatenation
import ArchDiagram.Proofs.Cycles
import ArchDiagram.Proofs.D2Drawing
import ArchDiagram.Proofs.D2Keys
import ArchDiagram.Proofs.D2Paths
import ArchDiagram.Proofs.D2Statements
import ArchDiagram.Proofs.DecimalText
import ArchDiagram.Proofs.DeclarationGrammar
import ArchDiagram.Proofs.Delimiters
import ArchDiagram.Proofs.Diagnostics
import ArchDiagram.Proofs.Drawing
import ArchDiagram.Proofs.Exact
import ArchDiagram.Proofs.Export
import ArchDiagram.Proofs.Filling
import ArchDiagram.Proofs.Fitting
import ArchDiagram.Proofs.Forms
import ArchDiagram.Proofs.Frameless
import ArchDiagram.Proofs.History
import ArchDiagram.Proofs.IconAgreement
import ArchDiagram.Proofs.IconTimeline
import ArchDiagram.Proofs.Inert
import ArchDiagram.Proofs.ItemLine
import ArchDiagram.Proofs.LinkGrammar
import ArchDiagram.Proofs.LinkLine
import ArchDiagram.Proofs.LinkPlacement
import ArchDiagram.Proofs.MermaidDrawing
import ArchDiagram.Proofs.Nesting
import ArchDiagram.Proofs.NumberForm
import ArchDiagram.Proofs.Outcome
import ArchDiagram.Proofs.Outline
import ArchDiagram.Proofs.Parentage
import ArchDiagram.Proofs.Parsed
import ArchDiagram.Proofs.Placement
import ArchDiagram.Proofs.Reached
import ArchDiagram.Proofs.ReadBack
import ArchDiagram.Proofs.Renumbering
import ArchDiagram.Proofs.RepeatedAttributes
import ArchDiagram.Proofs.Reread
import ArchDiagram.Proofs.Respelling
import ArchDiagram.Proofs.RoundTrip
import ArchDiagram.Proofs.Rounding
import ArchDiagram.Proofs.Search
import ArchDiagram.Proofs.SettledIcons
import ArchDiagram.Proofs.ShortestDigits
import ArchDiagram.Proofs.Sizing
import ArchDiagram.Proofs.Spacing
import ArchDiagram.Proofs.Spelled
import ArchDiagram.Proofs.Strokes
import ArchDiagram.Proofs.Trimming
import ArchDiagram.Proofs.Unfailing
import ArchDiagram.Proofs.Unframed
import ArchDiagram.Proofs.WellFormed
import ArchDiagram.Proofs.Written
import ArchDiagram.Proofs.WrittenText
import ArchDiagram.Render.D2
import ArchDiagram.Render.Export
import ArchDiagram.Render.Mermaid
import ArchDiagram.Render.Outline
import ArchDiagram.Service.Log
import ArchDiagram.Service.Request
import ArchDiagram.Service.Session
import ArchDiagram.Service.Target
import ArchDiagram.Settings
import ArchDiagram.Source.Declaration
import ArchDiagram.Source.Fault
import ArchDiagram.Source.Lexeme
import ArchDiagram.Source.Line
import ArchDiagram.Source.Link
import ArchDiagram.Source.Parse
import ArchDiagram.Source.Reference
import ArchDiagram.Source.Scanner
import ArchDiagram.Source.Title
import ArchDiagram.Source.Writer
import ArchDiagram.Text.Blank
import ArchDiagram.Text.Digit
import ArchDiagram.Text.Literal
import ArchDiagram.Text.Printable
import ArchDiagram.Text.Run
import ArchDiagram.Text.Separated
import ArchDiagram.Text.Uppercase
import ArchDiagram.Walk
