import MarkedMath.Html.Batch
import MarkedMath.Page.Processor
import MarkedMath.Proofs.Arena.Actions
import MarkedMath.Proofs.Arena.Changes
import MarkedMath.Proofs.Arena.Forests
import MarkedMath.Proofs.Arena.Links
import MarkedMath.Proofs.Arena.Merging
import MarkedMath.Proofs.Arena.Moves
import MarkedMath.Proofs.Arena.Noting
import MarkedMath.Proofs.Arena.Placements
import MarkedMath.Proofs.Arena.Reached
import MarkedMath.Proofs.Arena.Replacing
import MarkedMath.Proofs.Arena.Scenes
import MarkedMath.Proofs.Arena.Simulation
import MarkedMath.Proofs.Arena.Slots
import MarkedMath.Proofs.Chronicle
import MarkedMath.Proofs.Convergence
import MarkedMath.Proofs.Conversion
import MarkedMath.Proofs.Documents
import MarkedMath.Proofs.Escaping
import MarkedMath.Proofs.Html.Agreement
import MarkedMath.Proofs.Html.BatchTotals
import MarkedMath.Proofs.Html.Copies
import MarkedMath.Proofs.Html.Deliveries
import MarkedMath.Proofs.Html.FixedPoint
import MarkedMath.Proofs.Html.Fragments
import MarkedMath.Proofs.Html.Locality
import MarkedMath.Proofs.Html.Places
import MarkedMath.Proofs.Html.Portions
import MarkedMath.Proofs.Html.Reconversion
import MarkedMath.Proofs.Html.Rereading
import MarkedMath.Proofs.Html.Steps
import MarkedMath.Proofs.Html.StyleReports
import MarkedMath.Proofs.Html.Tags
import MarkedMath.Proofs.Html.Workers
import MarkedMath.Proofs.Handovers
import MarkedMath.Proofs.Insertions
import MarkedMath.Proofs.Invariants
import MarkedMath.Proofs.Kept
import MarkedMath.Proofs.Lines
import MarkedMath.Proofs.Matches
import MarkedMath.Proofs.Normalizing
import MarkedMath.Proofs.Numbering
import MarkedMath.Proofs.Occurrences
import MarkedMath.Proofs.PassAccounts
import MarkedMath.Proofs.Passes
import MarkedMath.Proofs.Patterns
import MarkedMath.Proofs.Pieces
import MarkedMath.Proofs.Refusals
import MarkedMath.Proofs.Rest
import MarkedMath.Proofs.Rewriting
import MarkedMath.Proofs.Runs
import MarkedMath.Proofs.Scripts
import MarkedMath.Proofs.SecondPass
import MarkedMath.Proofs.Serialized
import MarkedMath.Proofs.Settled
import MarkedMath.Proofs.ShortestRun
import MarkedMath.Proofs.SkippedTexts
import MarkedMath.Proofs.Specified
import MarkedMath.Proofs.Stylesheet
import MarkedMath.Proofs.Tree.Contents
import MarkedMath.Proofs.Tree.Nodes
import MarkedMath.Proofs.Tree.Normal
import MarkedMath.Proofs.Tree.Parents
import MarkedMath.Proofs.Tree.Rows
import MarkedMath.Proofs.Tree.Substitute
import MarkedMath.Proofs.Tree.Texts
import MarkedMath.Proofs.Tree.Written
import MarkedMath.Proofs.Watching
import MarkedMath.Session
import MarkedMath.Settings.Encode
import MarkedMath.Settings.Overrides
import MarkedMath.Proofs.IdlePasses
import MarkedMath.Proofs.StyleRegistration
import MarkedMath.Proofs.Classes
import MarkedMath.Proofs.Html.RewrittenTags
import MarkedMath.Proofs.Html.Toggling
import MarkedMath.Proofs.ClassSelectors
import MarkedMath.Proofs.LineBreaks
import MarkedMath.Proofs.RenderTurns
import MarkedMath.Proofs.SettingsTexts
