import NextTime.Gatekeeper.ClosedKey
import NextTime.Approval.Drainer
import NextTime.Approval.StepRequest
import NextTime.Shared.Transition
import NextTime.Goal.Achieved
import NextTime.Task.Decided
import NextTime.Goal.Unblocks
import NextTime.Goal.MinorRevision
import NextTime.LlmProxy.RevocationSync
import NextTime.LlmProxy.ConsoleKey
import NextTime.Reporting.LlmUsageReporter
import NextTime.HostBridge.EventBridge
import NextTime.HostBridge.OneEnd
import NextTime.ChangePlan.NonWidening
import NextTime.Graph.ObservationWindow
import NextTime.Graph.TraverseWalks
import NextTime.Graph.StateAt
import NextTime.LlmProxy.StreamCuts
import NextTime.Redaction.WalkersAgree
import NextTime.LlmProxy.ServerTools
import NextTime.Ontology.OneOwner
import NextTime.Approval.QueueWaits
import NextTime.NetAddress.EgressVerdict
import NextTime.Output.BindingPaths
import NextTime.Binding.BesideWritten
import NextTime.PlanText.ReadsAsWritten
import NextTime.Storable.OnlyNul
import NextTime.Ssh.OneWord
import NextTime.LlmProxy.LimiterRuns
import NextTime.WorkerSupervisor.ExclusiveBindings
import NextTime.OperationDigest.SameDefinition
import NextTime.Packs.ExtraPacks
import NextTime.HttpBinding.ImportedParams
import NextTime.HttpBinding.PublishAgrees
import NextTime.HttpBinding.OneEndpoint
import NextTime.EvalSeal.WindowKeys
import NextTime.OutboxDispatch.NoStarvation
import NextTime.Eval.Acknowledged
import NextTime.Eval.DevVerdict
import NextTime.DraftLifecycle.StaleOnly
import NextTime.Chat.TranscriptComplete
