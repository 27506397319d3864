import BuildSystem.Main
import BuildSystem.Proofs.Text.Pieces
import BuildSystem.Proofs.Text.Search
import BuildSystem.Proofs.Stems
import BuildSystem.Proofs.Variable.Quotation
import BuildSystem.Proofs.Graph.Arrangement
import BuildSystem.Proofs.Graph.Search
import BuildSystem.Proofs.Graph.Justification
import BuildSystem.Proofs.Graph.Completeness
import BuildSystem.Proofs.Graph.Borrowing
import BuildSystem.Proofs.Graph.Attempts
import BuildSystem.Proofs.Graph.Shape
import BuildSystem.Proofs.Graph.Termination
import BuildSystem.Proofs.Ending
import BuildSystem.Proofs.Following
import BuildSystem.Proofs.Files
import BuildSystem.Proofs.Plan.Evaluation
import BuildSystem.Proofs.Plan.Observed
import BuildSystem.Proofs.Plan.Staleness
import BuildSystem.Proofs.Plan.Upward
import BuildSystem.Proofs.Plan.Closure
import BuildSystem.Proofs.Plan.Afresh
import BuildSystem.Proofs.Plan.Siblings
import BuildSystem.Proofs.Plan.Supply
import BuildSystem.Proofs.Schedule.Change
import BuildSystem.Proofs.Schedule.Course
import BuildSystem.Proofs.Schedule.Dispatch
import BuildSystem.Proofs.Schedule.Invariant
import BuildSystem.Proofs.Schedule.Execution
import BuildSystem.Proofs.Schedule.History
import BuildSystem.Proofs.Schedule.Log
import BuildSystem.Proofs.Schedule.Accounting
import BuildSystem.Proofs.Schedule.Carrying
import BuildSystem.Proofs.Schedule.Making
import BuildSystem.Proofs.Schedule.Outcome
import BuildSystem.Proofs.Schedule.Report
import BuildSystem.Proofs.Schedule.Resumption
import BuildSystem.Proofs.Schedule.Statuses
import BuildSystem.Proofs.Schedule.Stopping
import BuildSystem.Proofs.Schedule.Rehearsal
import BuildSystem.Proofs.Schedule.DryRun
import BuildSystem.Proofs.RuleFile.Written
import BuildSystem.Proofs.RuleFile.LogicalLines
import BuildSystem.Proofs.RuleFile.Places
import BuildSystem.Proofs.RuleFile.Inclusion
import BuildSystem.Proofs.RuleFile.Comments
import BuildSystem.Proofs.RuleFile.Headers
import BuildSystem.Proofs.RuleFile.Steps
import BuildSystem.Proofs.RuleFile.Points
import BuildSystem.Proofs.RuleFile.Declarations
import BuildSystem.Proofs.RuleFile.StemTargets
import BuildSystem.Proofs.RuleFile.Positions
import BuildSystem.Proofs.RuleFile.Nesting
import BuildSystem.Proofs.FileNames
import BuildSystem.Proofs.Graph.Comparators
import BuildSystem.Proofs.Graph.Feeding
import BuildSystem.Proofs.Graph.Order
import BuildSystem.Proofs.Schedule.Containment
import BuildSystem.Proofs.Variable.Commands
import BuildSystem.Proofs.Variable.Effects
import BuildSystem.Proofs.Variable.Lexemes
import BuildSystem.Proofs.Variable.Cuts
import BuildSystem.Proofs.Variable.Splitting
import BuildSystem.Proofs.Variable.Juxtaposition
import BuildSystem.Proofs.Variable.LateBinding
import BuildSystem.Proofs.RuleFile.Overrides
import BuildSystem.Proofs.Schedule.Effects
import BuildSystem.Proofs.Plan.Sparing
import BuildSystem.Proofs.Graph.Visits
import BuildSystem.Proofs.Graph.Errors
import BuildSystem.Proofs.Graph.Cycles
import BuildSystem.Proofs.Schedule.Slots
import BuildSystem.Proofs.ShellWords
import BuildSystem.Proofs.Schedule.Times
import BuildSystem.Proofs.Regex.Escaped
import BuildSystem.Proofs.RuleFile.Captures
