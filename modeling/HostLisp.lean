import HostLisp.Host.Binding
import HostLisp.Host.Ledger
import HostLisp.Main
import HostLisp.Proofs.Lines
import HostLisp.Proofs.Coordinates
import HostLisp.Proofs.ExcerptRows
import HostLisp.Proofs.Reading
import HostLisp.Proofs.Token
import HostLisp.Proofs.BracketStructure
import HostLisp.Proofs.Form
import HostLisp.Proofs.ParsedForm
import HostLisp.Proofs.RoundTrip
import HostLisp.Proofs.Run
import HostLisp.Proofs.StackDiscipline
import HostLisp.Proofs.WrittenValues
import HostLisp.Proofs.FormEvaluation
import HostLisp.Proofs.StandardKinds
import HostLisp.Proofs.DirectCalls
import HostLisp.Proofs.LentArguments
import HostLisp.Proofs.Placement
import HostLisp.Proofs.FailurePath
import HostLisp.Proofs.FailureLocation
import HostLisp.Proofs.PrintedEvaluation
import HostLisp.Proofs.Extension
import HostLisp.Proofs.EndExcerpt
import HostLisp.Proofs.Spelling
import HostLisp.Proofs.StandardMeaning
import HostLisp.Proofs.Substitution
import HostLisp.Proofs.ConfinedPositions
import HostLisp.Proofs.Continuation
import HostLisp.Proofs.RepeatedRuns
import HostLisp.Proofs.PromptReplies
import HostLisp.Proofs.WritableReports
import HostLisp.Proofs.SessionEndings
import HostLisp.Proofs.ReachedForms
import HostLisp.Proofs.SettledCalls
import HostLisp.Proofs.Reentry
import HostLisp.Proofs.Dispatch
import HostLisp.Proofs.NotedRegistrations
import HostLisp.Proofs.RegistryHistory
import HostLisp.Proofs.LateRegistrations
import HostLisp.Proofs.SilentEvaluation
import HostLisp.Proofs.EvaluationOrder
import HostLisp.Proofs.AtomClasses
import HostLisp.Proofs.Indentation
import HostLisp.Proofs.Reproduction
import HostLisp.Proofs.ClassOrder
import HostLisp.Proofs.HostBinding
import HostLisp.Proofs.Grouping
import HostLisp.Proofs.ValueEquality
import HostLisp.Proofs.Conversion
import HostLisp.Proofs.JsonReading
import HostLisp.Proofs.JsonWriting
import HostLisp.Proofs.PatternMatching
import HostLisp.Proofs.FoldedScalars
import HostLisp.Proofs.YamlStream
import HostLisp.Proofs.JournalledCalls
import HostLisp.Proofs.SymbolNames
import HostLisp.Proofs.Leaves
import HostLisp.Proofs.Escapes
import HostLisp.Proofs.ReadingSteps
import HostLisp.Proofs.Progress
