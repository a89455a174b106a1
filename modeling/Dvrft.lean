import Dvrft.Chunks
import Dvrft.ShortReads
import Dvrft.StreamHash
import Dvrft.Machine
import Dvrft.Gregorian
import Dvrft.Sqlite
import Dvrft.Gaps
import Dvrft.Descrambler
import Dvrft.Texts
import Dvrft.Errors
import Dvrft.Platform
import Dvrft.Grammar
import Dvrft.Timestamps
import Dvrft.Correlation
import Dvrft.Interpreter
import Dvrft.Acquisition
import Dvrft.CaseFiles
import Dvrft.Database
import Dvrft.Verify
import Dvrft.Verdict
import Dvrft.Detection
import Dvrft.Demux
import Dvrft.ParseCase
import Dvrft.Passes
import Dvrft.Coverage
import Dvrft.Reblocking
import Dvrft.Timeline
import Dvrft.PackedDates
import Dvrft.Instants
import Dvrft.Durations
import Dvrft.Reporting
import Dvrft.Certificate
import Dvrft.Interference
import Dvrft.Generator
import Dvrft.Synthetic
import Dvrft.Localisation
import Dvrft.Sandbox
import Dvrft.Blackouts
import Dvrft.Containment
import Dvrft.Keyframes
import Dvrft.Paths
import Dvrft.EvidencePaths
import Dvrft.Carving
import Dvrft.Binary32
import Dvrft.Containers
import Dvrft.Selection
import Dvrft.Identification
import Dvrft.Agreement
import Dvrft.ListingOrder
import Dvrft.Analytics
import Dvrft.Pipeline
import Dvrft.Rerun
import Dvrft.CodePositions
import Dvrft.Splitting
import Dvrft.Filtering
import Dvrft.MatchedBlocks
import Dvrft.Transitions
import Dvrft.Streams
import Dvrft.SequenceGaps
import Dvrft.Separation
import Dvrft.Exactness
import Dvrft.Packing
import Dvrft.GapAlerts
import Dvrft.Chronology
import Dvrft.Canonical
import Dvrft.Bystanders
import Dvrft.Superblocks
import Dvrft.Narrowing
import Dvrft.Priority
import Dvrft.StreamKinds
import Dvrft.ReadSchedules
import Dvrft.Checked
import Dvrft.Crashes
import Dvrft.ZoneTexts
import Dvrft.AuditText
import Dvrft.BatchSizes
import Dvrft.Tallies
import Dvrft.Summaries
import Dvrft.FrontEnd
import Dvrft.ZoneGrammar
import Dvrft.Signatures
import Dvrft.Owners
import Dvrft.Exhibits
import Dvrft.Binary64
import Dvrft.Lookups
import Dvrft.Custody
import Dvrft.Plugins
import Dvrft.Reference
import Dvrft.Clips
import Dvrft.Checksums
import Dvrft.HeaderCrc
import Dvrft.Rounding
import Dvrft.Scores
import Dvrft.Isolation
import Dvrft.Related
import Dvrft.ClockShift
import Dvrft.VideoAnalysis
import Dvrft.Dashboard
import Dvrft.Sessions
import Dvrft.Processes
import Dvrft.SerialOrder
