import Highlighter.Main
import Highlighter.Proofs.Terminator
import Highlighter.Proofs.CompileFailures
import Highlighter.Proofs.Serialization
import Highlighter.Proofs.Termination
import Highlighter.Proofs.EmbeddedRegions
import Highlighter.Proofs.GroupTables
import Highlighter.Proofs.RepeatedCaptures
import Highlighter.Proofs.ScopedEnds
import Highlighter.Proofs.Markup
import Highlighter.Proofs.TokenRuns
import Highlighter.Proofs.Chunking
import Highlighter.Proofs.KeywordGains
import Highlighter.Proofs.Variants
import Highlighter.Proofs.StrayMatches
import Highlighter.Proofs.IllegalReports
import Highlighter.Proofs.CompiledUnions
import Highlighter.Proofs.CountedGroups
