import TemplateConditions.Cli.Arguments
import TemplateConditions.Cli.Environment
import TemplateConditions.Cli.Report
import TemplateConditions.Cli.Run
import TemplateConditions.Condition.Clause
import TemplateConditions.Condition.Collection
import TemplateConditions.Condition.Definition
import TemplateConditions.Condition.DepthLimit
import TemplateConditions.Condition.Equals
import TemplateConditions.Condition.Finding
import TemplateConditions.Condition.Findings
import TemplateConditions.Condition.Influence
import TemplateConditions.Condition.Reference
import TemplateConditions.Condition.Resolution
import TemplateConditions.Condition.Resolved
import TemplateConditions.Condition.Scenario
import TemplateConditions.Condition.Tree
import TemplateConditions.Digest.Sha1
import TemplateConditions.Json.Basic
import TemplateConditions.Json.Number
import TemplateConditions.Json.Printer
import TemplateConditions.Json.Reader
import TemplateConditions.Number.Binary64
import TemplateConditions.Number.Layout
import TemplateConditions.Number.Power
import TemplateConditions.Number.Shortest
import TemplateConditions.Ordered.Map
import TemplateConditions.Ordered.Set
import TemplateConditions.Template.Basic
import TemplateConditions.Template.Load
import TemplateConditions.Template.ShortForm
import TemplateConditions.Text.Alphanumeric
import TemplateConditions.Text.Blank
import TemplateConditions.Text.Digits
import TemplateConditions.Text.Printable
import TemplateConditions.Text.Quoted
import TemplateConditions.Text.Split
import TemplateConditions.Yaml.BlockText
import TemplateConditions.Yaml.Cursor
import TemplateConditions.Yaml.Document
import TemplateConditions.Yaml.FlowText
import TemplateConditions.Yaml.Node
import TemplateConditions.Yaml.Scalar
import TemplateConditions.Yaml.Tag
import TemplateConditions.Yaml.Token
import TemplateConditions.Yaml.Value
import TemplateConditions.Main
import TemplateConditions.Proofs.Condition.Declared
import TemplateConditions.Proofs.Condition.Nodes
import TemplateConditions.Proofs.Ordered.Lookup
import TemplateConditions.Proofs.Ordered.Membership
import TemplateConditions.Proofs.Condition.Influence
import TemplateConditions.Proofs.Condition.Unfolding
import TemplateConditions.Proofs.Resolution.Trees
import TemplateConditions.Proofs.Resolution.Equations
import TemplateConditions.Proofs.Resolution.Explanation
import TemplateConditions.Proofs.Resolution.Comparisons
import TemplateConditions.Proofs.Resolution.Steps
import TemplateConditions.Proofs.Resolution.Recorded
import TemplateConditions.Proofs.Resolution.Cycles
import TemplateConditions.Proofs.Resolution.Degradation
import TemplateConditions.Proofs.Resolution.Bounds
import TemplateConditions.Proofs.Resolution.Reports
import TemplateConditions.Proofs.Resolution.Merging
import TemplateConditions.Proofs.Resolution.Limits
import TemplateConditions.Proofs.Resolution.Frame
import TemplateConditions.Proofs.Template.ShortForms
import TemplateConditions.Proofs.Ordered.Entries
import TemplateConditions.Proofs.Resolution.Shape
import TemplateConditions.Proofs.Json.Reading
import TemplateConditions.Proofs.Template.Formats
import TemplateConditions.Proofs.Resolution.Calls
import TemplateConditions.Proofs.Resolution.Unwinding
import TemplateConditions.Proofs.Condition.Scenarios
import TemplateConditions.Proofs.Cli.Testing
import TemplateConditions.Proofs.Resolution.Repetition
import TemplateConditions.Proofs.Text.Bytes
import TemplateConditions.Proofs.Condition.Listing
import TemplateConditions.Proofs.Condition.Operands
import TemplateConditions.Proofs.Text.Hexadecimal
import TemplateConditions.Proofs.Json.Readback
import TemplateConditions.Proofs.Condition.CanonicalText
import TemplateConditions.Proofs.Condition.Completion
import TemplateConditions.Proofs.Condition.Semilattice
import TemplateConditions.Proofs.Template.Keys
import TemplateConditions.Proofs.Template.Detection
import TemplateConditions.Proofs.Text.Trimming
import TemplateConditions.Proofs.Condition.Assignment
import TemplateConditions.Proofs.Text.Decimal
import TemplateConditions.Proofs.Cli.Limit
import TemplateConditions.Proofs.Cli.Dependence
import TemplateConditions.Proofs.Ordered.Rearrangement
import TemplateConditions.Proofs.Condition.Construction
import TemplateConditions.Proofs.Condition.Faults
import TemplateConditions.Proofs.Resolution.Refusal
import TemplateConditions.Proofs.Resolution.Walk
import TemplateConditions.Proofs.Resolution.Runs
import TemplateConditions.Proofs.Resolution.Orderly
import TemplateConditions.Proofs.Resolution.Arrival
import TemplateConditions.Proofs.Resolution.Stack
import TemplateConditions.Proofs.Resolution.Kept
