import Descent.CommandLine.Console
import Descent.CommandLine.Folder
import Descent.CommandLine.Options
import Descent.CommandLine.Report
import Descent.Diagnostic
import Descent.Dispatch
import Descent.Distinct
import Descent.Json.Basic
import Descent.Json.Describe
import Descent.Json.Document
import Descent.Json.Grammar
import Descent.Json.Layout
import Descent.Json.Plain
import Descent.Main
import Descent.Parser.Basic
import Descent.Parser.Character
import Descent.Parser.Repetition
import Descent.Pattern.Basic
import Descent.Pattern.Cells
import Descent.Pattern.Recursion
import Descent.Pattern.Session
import Descent.Proofs.CommandLine.Console
import Descent.Proofs.CommandLine.Files
import Descent.Proofs.Dispatch
import Descent.Proofs.Distinct
import Descent.Proofs.Json.Agreement
import Descent.Proofs.Json.Alternatives
import Descent.Proofs.Json.Completeness
import Descent.Proofs.Json.Containment
import Descent.Proofs.Json.Contents
import Descent.Proofs.Json.Conversion
import Descent.Proofs.Json.Derivation
import Descent.Proofs.Json.Equality
import Descent.Proofs.Json.Indentation
import Descent.Proofs.Json.Likeness
import Descent.Proofs.Json.Nesting
import Descent.Proofs.Json.Number
import Descent.Proofs.Json.Production
import Descent.Proofs.Json.Provenance
import Descent.Proofs.Json.Recognition
import Descent.Proofs.Json.Rendering
import Descent.Proofs.Json.RepeatedKeys
import Descent.Proofs.Json.RoundTrip
import Descent.Proofs.Json.Sameness
import Descent.Proofs.Json.Soundness
import Descent.Proofs.Json.Spacing
import Descent.Proofs.Json.Strict
import Descent.Proofs.Json.Truncation
import Descent.Proofs.Parser.Character
import Descent.Proofs.Parser.Containment
import Descent.Proofs.Parser.Equations
import Descent.Proofs.Parser.Laws
import Descent.Proofs.Parser.Likeness
import Descent.Proofs.Parser.Repetition
import Descent.Proofs.Parser.Sequence
import Descent.Proofs.Pattern.Calm
import Descent.Proofs.Pattern.Containment
import Descent.Proofs.Pattern.Contents
import Descent.Proofs.Pattern.Endings
import Descent.Proofs.Pattern.Enough
import Descent.Proofs.Pattern.Guarded
import Descent.Proofs.Pattern.LateNames
import Descent.Proofs.Pattern.Likeness
import Descent.Proofs.Pattern.Locality
import Descent.Proofs.Pattern.Pairs
import Descent.Proofs.Pattern.References
import Descent.Proofs.Pattern.Repetition
import Descent.Proofs.Pattern.Sameness
import Descent.Proofs.Pattern.SeparatedList
import Descent.Proofs.Pattern.Sequence
import Descent.Proofs.Pattern.Sessions
import Descent.Proofs.Pattern.WriteOnce
import Descent.Proofs.Source.Caret
import Descent.Proofs.Source.Rows
import Descent.Proofs.Source.Underline
import Descent.Proofs.Text.Breaks
import Descent.Proofs.Text.Lines
import Descent.Proofs.View.Split
import Descent.Proofs.View.Window
import Descent.Reply
import Descent.Text.CharClass
import Descent.Text.Hidden
import Descent.Text.LineBreak
import Descent.Text.Numeral
import Descent.Text.Quoted
import Descent.Text.Utf8
import Descent.Value
import Descent.View.Basic
import Descent.View.Lemmas
