import SwitchLint.Main
import SwitchLint.Proofs.Erasure
import SwitchLint.Proofs.SharedPrefix
import SwitchLint.Proofs.Spine
import SwitchLint.Proofs.Scanning
import SwitchLint.Proofs.Hoisting
import SwitchLint.Proofs.Nesting
import SwitchLint.Proofs.Walk
import SwitchLint.Proofs.Cutting
import SwitchLint.Proofs.Paths
import SwitchLint.Proofs.Discovery
import SwitchLint.Proofs.Sorting
import SwitchLint.Proofs.Assembly
import SwitchLint.Proofs.EffectiveSeverity
import SwitchLint.Proofs.Lines
import SwitchLint.Proofs.Tiling
import SwitchLint.Proofs.Suppression
import SwitchLint.Proofs.SpelledDirectives
import SwitchLint.Proofs.Extents
import SwitchLint.Proofs.Replay
import SwitchLint.Proofs.Enclosure
import SwitchLint.Proofs.Lowering
import SwitchLint.Proofs.KeptSwitches
import SwitchLint.Proofs.Places
import SwitchLint.Proofs.Arrangement
import SwitchLint.Proofs.Quoting
import SwitchLint.Proofs.LineFeeds
import SwitchLint.Proofs.OneLine
import SwitchLint.Proofs.ConfiguredRoot
import SwitchLint.Proofs.NamedFiles
import SwitchLint.Proofs.Monotonicity
import SwitchLint.Proofs.Layout
import SwitchLint.Proofs.Independence
import SwitchLint.Proofs.JsonText
import SwitchLint.Proofs.ReportText
import SwitchLint.Proofs.SeenFiles
import SwitchLint.Proofs.AlikeChecks
import SwitchLint.Proofs.ExitStatus
import SwitchLint.Proofs.NewFile
import SwitchLint.Proofs.TemplateSettings
import SwitchLint.Proofs.InitialSettings
import SwitchLint.Proofs.SeveralRuns
import SwitchLint.Proofs.LongestMatch
import SwitchLint.Proofs.LongestLexeme
import SwitchLint.Proofs.PieceByPiece
import SwitchLint.Proofs.CommentText
import SwitchLint.Proofs.CaseExpressions
import SwitchLint.Proofs.Tokens
import SwitchLint.Proofs.Typesetting
import SwitchLint.Proofs.KeptTokens
import SwitchLint.Proofs.ApplyingDirectives
import SwitchLint.Proofs.DirectiveLookup
import SwitchLint.Proofs.NamedExclusions
import SwitchLint.Proofs.Exclusions
import SwitchLint.Proofs.LastSetting
import SwitchLint.Proofs.Planning
import SwitchLint.Proofs.SteadyScans
import SwitchLint.Proofs.SteadyLiterals
import SwitchLint.Proofs.SteadyValues
import SwitchLint.Proofs.FurtherLines
import SwitchLint.Proofs.RestatedDefaults
import SwitchLint.Proofs.ReportOrder
import SwitchLint.Proofs.Separators
import SwitchLint.Proofs.DifferingFiles
import SwitchLint.Proofs.OverruledSettings
