import BracketTemplate.Main
import BracketTemplate.Script.Library
import BracketTemplate.Template.Lowering
import BracketTemplate.Proofs.Grammar.Bracket
import BracketTemplate.Proofs.Grammar.Segment
import BracketTemplate.Proofs.Scanning.Progress
import BracketTemplate.Proofs.Scanning.Region
import BracketTemplate.Proofs.Scanning.Reading
import BracketTemplate.Proofs.Inclusion.Inline
import BracketTemplate.Proofs.Inclusion.Splice
import BracketTemplate.Proofs.Grammar.Closing
import BracketTemplate.Proofs.Grammar.Print
import BracketTemplate.Proofs.Inclusion.Single
import BracketTemplate.Proofs.Path.Join
import BracketTemplate.Proofs.Files.Place
import BracketTemplate.Proofs.Inclusion.Confined
import BracketTemplate.Proofs.Inclusion.Nesting
import BracketTemplate.Proofs.Inclusion.Chain
import BracketTemplate.Proofs.Files.Spelling
import BracketTemplate.Proofs.Files.Modification
import BracketTemplate.Proofs.Inclusion.Dependencies
import BracketTemplate.Proofs.Files.Changes
import BracketTemplate.Proofs.Inclusion.FromFile
import BracketTemplate.Proofs.Cache.Lookup
import BracketTemplate.Proofs.Cache.Run
import BracketTemplate.Proofs.Cache.Freshness
import BracketTemplate.Proofs.Cache.Missing
import BracketTemplate.Proofs.Cache.Newest
import BracketTemplate.Proofs.Decimal.Interval
import BracketTemplate.Proofs.Decimal.Numeral
import BracketTemplate.Proofs.Value.Number
import BracketTemplate.Proofs.Value.Written
import BracketTemplate.Proofs.Environment.Memo
import BracketTemplate.Proofs.Path.Absolute
import BracketTemplate.Proofs.Script.Opening
import BracketTemplate.Proofs.Inclusion.Declared
import BracketTemplate.Proofs.Inclusion.Reads
import BracketTemplate.Proofs.Cache.Rooted
import BracketTemplate.Proofs.Cache.Reads
import BracketTemplate.Proofs.Evaluation.Requests
import BracketTemplate.Proofs.Evaluation.Reads
import BracketTemplate.Proofs.Evaluation.Reentry
import BracketTemplate.Proofs.Table.Assignment
import BracketTemplate.Proofs.Table.Border
import BracketTemplate.Proofs.Table.Layout
import BracketTemplate.Proofs.Text.Utf8
import BracketTemplate.Proofs.Script.Results
import BracketTemplate.Proofs.Script.Export
import BracketTemplate.Proofs.Script.Import
import BracketTemplate.Proofs.Script.RoundTrip
import BracketTemplate.Proofs.Cache.Policy
import BracketTemplate.Proofs.Cache.Failure
import BracketTemplate.Proofs.Evaluation.Output
import BracketTemplate.Proofs.Evaluation.Isolation
import BracketTemplate.Proofs.Asking.Basic
import BracketTemplate.Proofs.Asking.Library
import BracketTemplate.Proofs.Asking.Builtin
import BracketTemplate.Proofs.Asking.Code
import BracketTemplate.Proofs.Asking.Machine
import BracketTemplate.Proofs.Evaluation.Visiting
import BracketTemplate.Proofs.Text.Html
import BracketTemplate.Proofs.Evaluation.Escaping
import BracketTemplate.Proofs.Grammar.Literal
import BracketTemplate.Proofs.Evaluation.Straight
import BracketTemplate.Proofs.Evaluation.Literal
import BracketTemplate.Proofs.Files.Below
import BracketTemplate.Proofs.Files.Proper
import BracketTemplate.Proofs.Path.Canonical
import BracketTemplate.Proofs.Inclusion.Outside
import BracketTemplate.Proofs.Inclusion.Rerooted
import BracketTemplate.Proofs.CommandLine.Check
import BracketTemplate.Proofs.Cache.Pages
import BracketTemplate.Proofs.Project.Findings
import BracketTemplate.Proofs.Script.Lexing
import BracketTemplate.Proofs.Script.Lines
import BracketTemplate.Proofs.Script.Tokens
import BracketTemplate.Proofs.Script.Calls
import BracketTemplate.Proofs.Script.Statements
import BracketTemplate.Proofs.Script.Globals
import BracketTemplate.Proofs.Evaluation.Printing
import BracketTemplate.Proofs.Evaluation.Plain
import BracketTemplate.Proofs.Inclusion.Blame
import BracketTemplate.Proofs.Inclusion.Phases
import BracketTemplate.Proofs.Environment.Journal
import BracketTemplate.Proofs.Grammar.Written
import BracketTemplate.Proofs.Evaluation.Scaffold
import BracketTemplate.Proofs.Scanning.Include
import BracketTemplate.Proofs.Text.Lines
import BracketTemplate.Proofs.Inclusion.Excerpt
import BracketTemplate.Proofs.Environment.Name
import BracketTemplate.Proofs.Environment.Bindings
import BracketTemplate.Proofs.Scanning.Fragments
import BracketTemplate.Proofs.Inclusion.Directories
import BracketTemplate.Proofs.Value.Syntax
import BracketTemplate.Proofs.Evaluation.Nesting
