import ZenithRelay.Accounts.TokenAuthority.AuthStateProperties
import ZenithRelay.Accounts.TokenAuthority.DispatchProperties
import ZenithRelay.Automations.QuotaWake.CoordinatorGuarantees
import ZenithRelay.Gateway.Continuation.CompactedProperties
import ZenithRelay.Gateway.Execution.BasisPoints.ToolLookupProperties
import ZenithRelay.Gateway.Execution.PayloadJsonProperties
import ZenithRelay.Gateway.Request.LegacyCallIdsRepair
import ZenithRelay.Gateway.Response.UsageProperties
import ZenithRelay.Gateway.Streaming.ReplayProperties
import ZenithRelay.LocalPool.Profiles.Codex.SwitchTransactionProperties
import ZenithRelay.LocalPool.Profiles.OpenCode.JsoncProperties
import ZenithRelay.LocalPool.RefreshFences
import ZenithRelay.Pricing.CatalogProperties
import ZenithRelay.Pricing.DecimalProperties
import ZenithRelay.Protocol.Adapter.ReplayProperties
import ZenithRelay.Protocol.Adapter.StoreProperties
import ZenithRelay.Protocol.Adapter.ToolSearchIdsProperties
import ZenithRelay.Protocol.Adapter.Translation.ToolHistoryProperties
import ZenithRelay.Protocol.Adapter.Translation.UsageProperties
import ZenithRelay.Protocol.Completion.StreamOutcome
import ZenithRelay.Protocol.SseProperties
import ZenithRelay.Quota.Windows.NormalizeProperties
import ZenithRelay.Quota.Windows.SnapshotProperties
import ZenithRelay.Runtime.AdmissionProperties
import ZenithRelay.Runtime.Attempt.DispatchBudgetProperties
import ZenithRelay.Runtime.HttpRecoveryProperties
import ZenithRelay.Runtime.SessionState.WriteThrough
import ZenithRelay.Scheduler.Refresh.FairnessProperties
import ZenithRelay.Scheduler.Refresh.SingleFlightProperties
import ZenithRelay.Scheduler.Rotation.Engine.CapacityLimitProperties
import ZenithRelay.Scheduler.Rotation.Engine.CooldownProperties
import ZenithRelay.Scheduler.Rotation.Engine.OutcomeFenceProperties
import ZenithRelay.Scheduler.Rotation.Engine.PinnedTrafficProperties
import ZenithRelay.Scheduler.Rotation.Engine.PreviewProperties
import ZenithRelay.Scheduler.Rotation.Engine.RecoveryCreditProperties
import ZenithRelay.Scheduler.Rotation.Engine.RoundRobinProperties
import ZenithRelay.Scheduler.Rotation.Engine.VoteProperties
import ZenithRelay.Scheduler.Selection.CacheOwnerProperties
import ZenithRelay.Scheduler.Selection.ExecutionFenceProperties
import ZenithRelay.Scheduler.Selection.RateLimitProperties
import ZenithRelay.Scheduler.Selection.ReservationProperties
import ZenithRelay.Secrets.KeyringAtomicity
import ZenithRelay.Secrets.SecretStoreProperties
import ZenithRelay.Secrets.VaultRuns
import ZenithRelay.Usage.ApiEquivalentProperties
