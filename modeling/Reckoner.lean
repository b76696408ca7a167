import Reckoner.Double.Arithmetic
import Reckoner.AngleMode
import Reckoner.Argument
import Reckoner.Batch
import Reckoner.CommandLine.Options
import Reckoner.CommandLine.Program
import Reckoner.Disk.Tree
import Reckoner.Main
import Reckoner.Proofs.Expression
import Reckoner.Proofs.Conversion
import Reckoner.Proofs.Grammar
import Reckoner.Proofs.Parser
import Reckoner.Proofs.Scanning
import Reckoner.Proofs.Printing
import Reckoner.Proofs.Agreement
import Reckoner.Proofs.Operations
import Reckoner.Proofs.Recency
import Reckoner.Proofs.Numerals
import Reckoner.Proofs.Submissions
import Reckoner.Proofs.Machine
import Reckoner.Proofs.Batches
import Reckoner.Proofs.Failures
import Reckoner.Proofs.Reports
import Reckoner.Proofs.Gaps
import Reckoner.Proofs.Reloading
import Reckoner.Proofs.Nesting
import Reckoner.Proofs.Conservation
import Reckoner.Proofs.Groups
import Reckoner.Proofs.Eviction
import Reckoner.Proofs.Phrases
import Reckoner.Proofs.Acceptance
import Reckoner.Proofs.Arrangement
import Reckoner.Proofs.Divisions
import Reckoner.Proofs.Normalization
import Reckoner.Proofs.Modes
import Reckoner.Proofs.Prefixes
import Reckoner.Proofs.Readings
import Reckoner.Proofs.Displays
import Reckoner.Proofs.Loading
import Reckoner.Proofs.Factorials
import Reckoner.Proofs.Segments
