import IncrementalRegex.Main
import IncrementalRegex.Matcher.Interval
import IncrementalRegex.Proofs.Alternation
import IncrementalRegex.Proofs.Search
import IncrementalRegex.Proofs.Iteration
import IncrementalRegex.Proofs.Kinds
import IncrementalRegex.Proofs.Phase
import IncrementalRegex.Proofs.Braces
import IncrementalRegex.Proofs.Dependence
import IncrementalRegex.Proofs.Grouping
import IncrementalRegex.Proofs.Refinement
import IncrementalRegex.Proofs.WellFormed
import IncrementalRegex.Proofs.Nesting
import IncrementalRegex.Proofs.Quoting
import IncrementalRegex.Proofs.IgnoringCase
import IncrementalRegex.Proofs.Storage
import IncrementalRegex.Proofs.Progressions
import IncrementalRegex.Proofs.Capacity
import IncrementalRegex.Proofs.Flattening
import IncrementalRegex.Proofs.Faults
import IncrementalRegex.Proofs.CaseMembers
import IncrementalRegex.Proofs.CodeRanges
import IncrementalRegex.Proofs.Branches
import IncrementalRegex.Proofs.Stars
import IncrementalRegex.Proofs.Quantified
import IncrementalRegex.Proofs.Lines
import IncrementalRegex.Proofs.Onward
import IncrementalRegex.Proofs.Ending
import IncrementalRegex.Proofs.Calls
import IncrementalRegex.Proofs.Positions
import IncrementalRegex.Proofs.Room
