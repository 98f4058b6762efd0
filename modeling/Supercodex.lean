import Supercodex.LinuxSandbox.BwrapTheorems
import Supercodex.Session.RolloutReconstructionTheorems
import Supercodex.Session.RotationTheorems
import Supercodex.ApplyPatch.SafetyTheorems
import Supercodex.Approvals.OrchestratorTheorems
import Supercodex.Seatbelt.UnreadableGlob
import Supercodex.Accounts.RegistryTheorems
import Supercodex.RemoteControl.OutboundTheorems
import Supercodex.Permissions.LegacyRoundTripTheorems
import Supercodex.Accounts.RefreshTheorems
import Supercodex.Agents.RegistryTheorems
import Supercodex.Readiness.Flag
import Supercodex.RemoteControl.InboundTheorems
import Supercodex.Rollout.RecorderTheorems
import Supercodex.StreamParser.AssistantTextTheorems
import Supercodex.GhostCommits.UndoTheorems
import Supercodex.ExecServer.Client
import Supercodex.ThreadHistory.IdTheorems
import Supercodex.ThreadHistory.RollbackTheorems
import Supercodex.Mcp.ToolNamesTheorems
import Supercodex.ExecServer.ShutdownTheorems
import Supercodex.ExecServer.SessionRegistryTheorems
import Supercodex.Rollout.ListTheorems
import Supercodex.Config.OriginsTheorems
import Supercodex.ShellCommand.BashTheorems
import Supercodex.AgentJobs.CancelTheorems
import Supercodex.NetworkApproval.ServiceTheorems
import Supercodex.Tools.JsonSchemaTheorems
import Supercodex.Permissions.Merge
import Supercodex.Composer.PasteTheorems
import Supercodex.ExecServer.EventLogTheorems
import Supercodex.ExecServer.PagedReadTheorems
import Supercodex.History.Compact
import Supercodex.Logs.RetentionTheorems
import Supercodex.Mentions.RoundTripTheorems
import Supercodex.Tools.ListDirTheorems
import Supercodex.AgentJobs.Template
import Supercodex.ApplyPatch.SeekTheorems
import Supercodex.History.RemovalTheorems
import Supercodex.History.OutputTruncationTheorems
import Supercodex.StreamParser.Utf8Stream
import Supercodex.UnifiedExec.AsyncWatcher
import Supercodex.StreamParser.NestedOpenerTheorems
import Supercodex.StreamParser.LineReferenceTheorems
import Supercodex.Rollout.SessionIndex
import Supercodex.UnifiedExec.ExecCommandTheorems
import Supercodex.ApplyPatch.ReplacementBoundsTheorems
import Supercodex.ApplyPatch.HunkLoopTheorems
import Supercodex.Permissions.FullAccessTheorems
import Supercodex.Permissions.AdditionalRoots
import Supercodex.ExecPolicy.RuleHostTheorems
import Supercodex.Templates.Template
import Supercodex.NetworkProxy.DomainUpdateTheorems
