import Newbro.WaitingTasks
import Newbro.Disconnects
import Newbro.RunEvents
import Newbro.NodeFailures
import Newbro.MessageIsolation
import Newbro.Credentials
import Newbro.ViewIndependence
import Newbro.TimelineFusion
import Newbro.OrphanedTurns
import Newbro.TranscriptFreshness
import Newbro.AnswerAtomicity
import Newbro.PersonaRoundTrip
import Newbro.NotificationDelivery
import Newbro.StreamOrder
import Newbro.ReceiveLoop
import Newbro.SubscriptionTruth
import Newbro.ShellProgress
import Newbro.NodeRegistration
import Newbro.TaskStops
import Newbro.DraftAssignees
import Newbro.AudioTranscripts
import Newbro.LiveSessions
import Newbro.ThreadSync
import Newbro.ConnectCommand
import Newbro.NotificationPlans
import Newbro.NotificationAnnouncements
import Newbro.HistoryPairing
import Newbro.TimelineMerges
import Newbro.AcpxRuns
import Newbro.BlockedWaits
import Newbro.JsonRpcPeers
import Newbro.CodexAnswers
import Newbro.BoundNodes
import Newbro.FileDownloads
import Newbro.SessionIdentity
import Newbro.PlanAnswers
import Newbro.DirectInstructions
import Newbro.EventRouting
import Newbro.StreamedTools
import Newbro.TurnCoalescer
import Newbro.NodeRegistryFile
import Newbro.DiagnosticStore
import Newbro.ExecutionModes
import Newbro.TaskLeases
import Newbro.ShownRuns
import Newbro.ConnectorSessions
import Newbro.ProfileSupervisor
import Newbro.SttSessions
import Newbro.CorrectionGrammar
import Newbro.NativeReasoning
import Newbro.ThreadListing
import Newbro.UiLayout
import Newbro.TaskResolver
import Newbro.PairingDevice
import Newbro.Redaction
