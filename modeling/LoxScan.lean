import LoxScan.Diagnostic.Handler
import LoxScan.Main
import LoxScan.Proofs.Text.JsonReader
import LoxScan.Proofs.Text.Json
import LoxScan.Proofs.Text.Bytes
import LoxScan.Proofs.Source.Lines
import LoxScan.Proofs.Binary64.Digits
import LoxScan.Proofs.Token.Object
import LoxScan.Proofs.Scan.Grammar
import LoxScan.Proofs.Scan.Cut
import LoxScan.Proofs.Scan.Longest
import LoxScan.Proofs.Scan.Segmentation
import LoxScan.Proofs.Scan.Pull
import LoxScan.Proofs.Scan.Whole
import LoxScan.Proofs.Scan.Calls
import LoxScan.Proofs.Scan.Agreement
import LoxScan.Proofs.Scan.Places
import LoxScan.Proofs.Scan.Lines
import LoxScan.Proofs.Diagnostic.Snippet
import LoxScan.Proofs.Diagnostic.Shown
import LoxScan.Proofs.Diagnostic.Alignment
import LoxScan.Proofs.Output.Streams
import LoxScan.Proofs.Output.Reports
import LoxScan.Proofs.Output.Limits
import LoxScan.Proofs.Output.JsonLines
import LoxScan.Proofs.Output.Listing
import LoxScan.Proofs.Scan.Behind
import LoxScan.Proofs.Scan.Cleaning
import LoxScan.Proofs.Scan.Spacing
import LoxScan.Proofs.Scan.Lookahead
import LoxScan.Proofs.CommandLine.Scripts
import LoxScan.Proofs.Prompt.Lines
import LoxScan.Proofs.Binary64.Patterns
import LoxScan.Proofs.Binary64.Rounding
import LoxScan.Proofs.Binary64.Numerals
import LoxScan.Proofs.Scan.Numbers
import LoxScan.Proofs.Binary64.Decimals
import LoxScan.Proofs.Token.Numbers
import LoxScan.Proofs.Toml.Strings
import LoxScan.Proofs.Toml.Document
import LoxScan.Proofs.Config.Settings
import LoxScan.Proofs.Config.RoundTrip
import LoxScan.Proofs.Output.ExitCodes
import LoxScan.Proofs.Text.Trim
import LoxScan.Proofs.Prompt.Commands
import LoxScan.Proofs.Prompt.Sessions
import LoxScan.Proofs.Source.Ahead
import LoxScan.Proofs.Source.Numbering
import LoxScan.Proofs.Scan.Loops
