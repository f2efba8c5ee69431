import TaintReplay.Analysis
import TaintReplay.Check.Describe
import TaintReplay.Check.Registration
import TaintReplay.Encode.Config
import TaintReplay.Encode.Report
import TaintReplay.Proofs.Constraints
import TaintReplay.Proofs.Consistency
import TaintReplay.Trace.Builder
import TaintReplay.Proofs.Branch
import TaintReplay.Proofs.Path
import TaintReplay.Proofs.Threshold
import TaintReplay.Proofs.Replay
import TaintReplay.Proofs.Validation
import TaintReplay.Proofs.Checker
import TaintReplay.Proofs.Detection
import TaintReplay.Proofs.Feasibility
import TaintReplay.Proofs.Ends
import TaintReplay.Proofs.Comparison
import TaintReplay.Proofs.Separation
import TaintReplay.Proofs.Contradiction
import TaintReplay.Proofs.Deletion
import TaintReplay.Proofs.Totals
import TaintReplay.Proofs.Renaming
import TaintReplay.Proofs.Driving
import TaintReplay.Proofs.Reading
import TaintReplay.Proofs.Json
import TaintReplay.Proofs.Encoding
import TaintReplay.Proofs.TraceText
import TaintReplay.Proofs.Outline
import TaintReplay.Proofs.Scanner
import TaintReplay.Proofs.Loader
import TaintReplay.Proofs.ConfigText
import TaintReplay.Proofs.Verdict
import TaintReplay.Proofs.Equivalence
import TaintReplay.Proofs.Persistence
import TaintReplay.Proofs.Limit
import TaintReplay.Proofs.Edits
import TaintReplay.Proofs.ByteOrder
import TaintReplay.Proofs.Suggestion
import TaintReplay.Proofs.Registration
import TaintReplay.Proofs.ReportText
import TaintReplay.Proofs.Admission
import TaintReplay.Proofs.Numbering
