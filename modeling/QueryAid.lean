import QueryAid.Cli.Response
import QueryAid.Document.Parser
import QueryAid.Document.Usage
import QueryAid.Editor.Completion
import QueryAid.Editor.Request
import QueryAid.Files.Discovery
import QueryAid.Files.Loading
import QueryAid.Lint.Diagnostic
import QueryAid.Main
import QueryAid.Ranking.Rank
import QueryAid.Schema.Builder
import QueryAid.Source.LineIndex
import QueryAid.Proofs.GuardedFold
import QueryAid.Proofs.Insertion
import QueryAid.Proofs.Schema.Building
import QueryAid.Proofs.Schema.Closed
import QueryAid.Proofs.Schema.WellFormed
import QueryAid.Proofs.Document.Occurrence
import QueryAid.Proofs.Document.Reach
import QueryAid.Proofs.Lint.Rules
import QueryAid.Proofs.Lint.Validity
import QueryAid.Proofs.Lint.Walk
import QueryAid.Proofs.Lint.Order
import QueryAid.Proofs.Schema.DistinctRoots
import QueryAid.Proofs.Editor.Context
import QueryAid.Proofs.Parsing
import QueryAid.Proofs.Lint.Wording
import QueryAid.Proofs.Schema.Names
import QueryAid.Proofs.Editor.Selections
import QueryAid.Proofs.Source.Bytes
import QueryAid.Proofs.Document.Tokens
import QueryAid.Proofs.Document.Layout
import QueryAid.Proofs.Document.Cursor
import QueryAid.Proofs.Document.Reading
import QueryAid.Proofs.Document.Items
import QueryAid.Proofs.Document.Spans
import QueryAid.Proofs.Document.Writing
import QueryAid.Proofs.Document.Parts
import QueryAid.Proofs.Lint.Highlights
import QueryAid.Proofs.Schema.Reserved
import QueryAid.Proofs.Ranking.Distance
import QueryAid.Proofs.Ranking.Rank
import QueryAid.Proofs.Schema.Contents
import QueryAid.Proofs.Schema.Holding
import QueryAid.Proofs.Schema.LoadOrder
import QueryAid.Proofs.Schema.Growing
import QueryAid.Proofs.Lint.Growing
import QueryAid.Proofs.Schema.MemberNames
import QueryAid.Proofs.Editor.Agreement
import QueryAid.Proofs.Lint.Reordering
import QueryAid.Proofs.Editor.CheckedRun
import QueryAid.Proofs.Document.Placing
import QueryAid.Proofs.Document.Reflecting
import QueryAid.Proofs.Document.Rereading
import QueryAid.Proofs.Document.RereadingItems
import QueryAid.Proofs.Document.Numbering
import QueryAid.Proofs.Lint.Placing
import QueryAid.Proofs.Lint.Layout
import QueryAid.Proofs.StableSorting
import QueryAid.Proofs.Ranking.Alignment
import QueryAid.Proofs.Ranking.Proximity
import QueryAid.Proofs.Ranking.Places
import QueryAid.Proofs.Editor.Values
import QueryAid.Proofs.Editor.Scopes
import QueryAid.Proofs.Lint.UnknownParents
import QueryAid.Proofs.Source.LineStarts
import QueryAid.Proofs.Source.Positions
import QueryAid.Proofs.Document.PassingOver
import QueryAid.Proofs.Document.PassingRules
import QueryAid.Proofs.Document.FirstError
import QueryAid.Proofs.Editor.Replacement
import QueryAid.Proofs.Schema.Assembled
import QueryAid.Proofs.Schema.PossibleTypes
import QueryAid.Proofs.Schema.Arguments
import QueryAid.Proofs.Sdl.Types
import QueryAid.Proofs.Sdl.WrittenTypes
import QueryAid.Proofs.Schema.Annotations
import QueryAid.Proofs.Schema.Reporting
import QueryAid.Proofs.Schema.UnnamedSources
import QueryAid.Proofs.Editor.Frames
import QueryAid.Proofs.Text.WhiteSpace
import QueryAid.Proofs.Text.LowerCase
import QueryAid.Proofs.Files.Extension
