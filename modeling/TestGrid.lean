import TestGrid.Text.Lines
import TestGrid.Text.Numeral
import TestGrid.Text.Quoted
import TestGrid.Text.Encoding
import TestGrid.Roster
import TestGrid.Rule.Syntax
import TestGrid.Rule.Matching
import TestGrid.Files.Tree
import TestGrid.Fault
import TestGrid.Plan
import TestGrid.Explanation
import TestGrid.Rule.Reading
import TestGrid.Report
import TestGrid.Journal.Keeping
import TestGrid.Meter
import TestGrid.Command.Invocation
import TestGrid.Main
import TestGrid.Proofs.Fallible
import TestGrid.Proofs.Inclusion
import TestGrid.Proofs.Roster
import TestGrid.Proofs.Selection
import TestGrid.Proofs.Exclusion
import TestGrid.Proofs.Grid
import TestGrid.Proofs.Plan
import TestGrid.Proofs.Catalog
import TestGrid.Proofs.Journal
import TestGrid.Proofs.Command
import TestGrid.Proofs.Explanation
import TestGrid.Proofs.Agreement
import TestGrid.Proofs.Arguments
import TestGrid.Proofs.Places
import TestGrid.Proofs.Runs
import TestGrid.Proofs.Grammar
import TestGrid.Proofs.RuleBook
import TestGrid.Proofs.LeftOut
import TestGrid.Proofs.Trials
import TestGrid.Proofs.Outcome
import TestGrid.Proofs.Tree
import TestGrid.Proofs.Settled
import TestGrid.Proofs.Answering
import TestGrid.Proofs.Joined
import TestGrid.Proofs.Repeats
import TestGrid.Proofs.Ranges
import TestGrid.Proofs.WrittenBook
import TestGrid.Proofs.WrittenGrid
import TestGrid.Proofs.Margins
import TestGrid.Proofs.Continuation
import TestGrid.Proofs.LineOrder
import TestGrid.Proofs.Generating
import TestGrid.Proofs.WrittenCatalog
import TestGrid.Proofs.LogFiles
import TestGrid.Proofs.MergedCatalog
import TestGrid.Proofs.Calls
import TestGrid.Proofs.Loggers
import TestGrid.Proofs.Upkeep
import TestGrid.Proofs.Destinations
import TestGrid.Proofs.Course
import TestGrid.Proofs.Tracing
import TestGrid.Proofs.Verdicts
import TestGrid.Proofs.Wildcard
import TestGrid.Proofs.Relations
import TestGrid.Proofs.Bounds
import TestGrid.Proofs.RangeTokens
import TestGrid.Proofs.Wrapping
import TestGrid.Proofs.ComponentOrder
import TestGrid.Proofs.Keys
import TestGrid.Proofs.Spellings
import TestGrid.Proofs.RuleFiles
import TestGrid.Proofs.Blocks
