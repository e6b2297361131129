import Orchestrator.Graph.CheckpointIsolation
import Orchestrator.Adapters.IntegrityQC
import Orchestrator.Storage.Retention
import Orchestrator.Db.Privileges
import Orchestrator.Db.LastOwner
import Orchestrator.Db.RoleChanges
import Orchestrator.Lib.Holders
import Orchestrator.Db.Invitations
import Orchestrator.Db.QuotaConservation
import Orchestrator.Db.ProviderStatus
import Orchestrator.Db.LeaseFencing
import Orchestrator.Db.TerminalPhases
import Orchestrator.Db.GateResolution
import Orchestrator.Db.SingleReview
import Orchestrator.Db.TransactionalOutbox
import Orchestrator.Graph.ItemOutcome
import Orchestrator.Graph.VoicedVideo
import Orchestrator.Tools.PaidOnce
import Orchestrator.Tools.ConcurrentReplay
import Orchestrator.Tools.KeyIdentity
import Orchestrator.Tools.Recovery
import Orchestrator.Tools.UncertaintyFlag
import Orchestrator.Tools.VoiceReconciliation
import Orchestrator.Web.EventStream
import Orchestrator.Web.LocalEventStream
import Orchestrator.Web.WebhookConvergence
import Orchestrator.Worker.ResumeDelivery
import Orchestrator.Graph.FanOut
import Orchestrator.Nodes.ReviewFrame
import Orchestrator.Nodes.VoiceSpending
import Orchestrator.Storage.ClipRetention
import Orchestrator.Web.GatePayload
import Orchestrator.Web.WebhookParsing
import Orchestrator.Db.MemberAgreement
import Orchestrator.Nodes.ScriptReaders
import Orchestrator.Graph.ClipKeys
import Orchestrator.Tools.NarrationBudget
import Orchestrator.Nodes.ScriptIds
import Orchestrator.Adapters.ReplicateVideo
import Orchestrator.Storage.LegacyImport
import Orchestrator.Storage.SignedUris
import Orchestrator.Web.ItemUpdates
import Orchestrator.Worker.JobEnding
import Orchestrator.Adapters.Throttle
import Orchestrator.Contract.SameSettings
import Orchestrator.Progress.WellFormed
import Orchestrator.Front.Redelivery
import Orchestrator.Graph.ReportedCost
import Orchestrator.Web.ApprovablePlan
import Orchestrator.Graph.Regeneration
import Orchestrator.Graph.FreshDesigns
import Orchestrator.Worker.OutboxDrain
import Orchestrator.Graph.StageCounts
