import OpenAgent.Dag.CrashReplay
import OpenAgent.Dag.ScheduleIndependence
import OpenAgent.Hashline.Snapshot
import OpenAgent.Hashline.AnchorRoundTrip
import OpenAgent.Dag.StoreLockExclusion
import OpenAgent.Memory.LockExclusion
import OpenAgent.Memory.WindowChain
import OpenAgent.Memory.ReadOnlyFiles
import OpenAgent.Memory.FailureAccounting
import OpenAgent.Dag.Subscribers
import OpenAgent.Team.TaskUpdate
import OpenAgent.Team.BudgetKept
import OpenAgent.Team.InjectionOnce
import OpenAgent.Memory.ReflectionAccounting
import OpenAgent.Dag.CompletedRuns
import OpenAgent.Dag.TerminalRuns
import OpenAgent.Tasks.StopFinality
import OpenAgent.Tasks.EpochWrites
import OpenAgent.Tasks.ConcurrencyAccount
import OpenAgent.Tasks.NotifiedOnce
import OpenAgent.Tasks.CacheCoherence
import OpenAgent.Tasks.ResidencyCap
import OpenAgent.Tasks.ExpungeSafety
import OpenAgent.Lsp.DocumentsFollow
import OpenAgent.Mcp.TransportRoundTrip
import OpenAgent.Lsp.FramingChunks
import OpenAgent.Lsp.RequestsSettle
import OpenAgent.Lsp.ClientsKept
import OpenAgent.Config.CrashesSurvived
import OpenAgent.Config.MigrationLockExclusion
import OpenAgent.Background.SlotsKept
import OpenAgent.Background.QueuesServed
import OpenAgent.UlwLoop.StateLockExclusion
import OpenAgent.PromptGate.DedupeWindow
import OpenAgent.PromptGate.QueueConserved
import OpenAgent.UlwLoop.SteeredOnce
import OpenAgent.UlwLoop.Finishable
import OpenAgent.Dag.AmendedNodes
import OpenAgent.Tasks.SteeringDrain
import OpenAgent.Rules.RuleBlocks
import OpenAgent.Goals.GoalRaces
import OpenAgent.Boulder.PlanChecklist
import OpenAgent.Hashline.FileText
import OpenAgent.Hashline.TextKept
import OpenAgent.Dag.EventPaging
import OpenAgent.Archive.EntryValidator
import OpenAgent.Hashline.DedupeKept
import OpenAgent.Memory.HunkLines
import OpenAgent.Team.SendAtomic
