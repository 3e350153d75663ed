import TCodeIME.Selection
import TCodeIME.EngineOutput
import TCodeIME.DirectMode
import TCodeIME.PassedKeys
import TCodeIME.HighlightedCandidate
import TCodeIME.FailedRequests
import TCodeIME.CommittedText
import TCodeIME.LastKeyReads
import TCodeIME.EscapedFailures
import TCodeIME.CachedStatus
import TCodeIME.PreeditEditor
import TCodeIME.EditedContexts
import TCodeIME.SharedEngine
import TCodeIME.ErasedKeys
import TCodeIME.ElementProtocol
import TCodeIME.ShownCandidates
import TCodeIME.AdvisedSinks
import TCodeIME.UndoneSinks
import TCodeIME.UpdatedFlags
import TCodeIME.InheritedSelection
import TCodeIME.DisabledKeyboard
import TCodeIME.KilledProcesses
import TCodeIME.EngineCommandLine
import TCodeIME.AbandonedInstances
import TCodeIME.ReenteredSessions
import TCodeIME.EngineDirectory
import TCodeIME.PresentedFields
import TCodeIME.DeliveredText
import TCodeIME.WellFormedText
import TCodeIME.ListenedElement
import TCodeIME.LanguageBar
import TCodeIME.ProxyLifetime
import TCodeIME.KeptText
import TCodeIME.OwnerPointers
import TCodeIME.ShownEngine
import TCodeIME.WindowClass
import TCodeIME.Resynchronized
import TCodeIME.ChangingProcesses
import TCodeIME.Registration
