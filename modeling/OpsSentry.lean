import OpsSentry.Foundation.Runs
import OpsSentry.Foundation.Programs
import OpsSentry.Foundation.Answers
import OpsSentry.Foundation.Crashes
import OpsSentry.Foundation.Workers
import OpsSentry.Foundation.Leases
import OpsSentry.Foundation.Values
import OpsSentry.Foundation.Keyset
import OpsSentry.Foundation.Dicts
import OpsSentry.Foundation.Groups
import OpsSentry.Foundation.Additions
import OpsSentry.Foundation.Exchange
import OpsSentry.Foundation.StableSort
import OpsSentry.Foundation.Ranks
import OpsSentry.Foundation.Bm25
import OpsSentry.Foundation.Semaphore
import OpsSentry.Foundation.Markup
import OpsSentry.Foundation.Lines
import OpsSentry.Foundation.Sections
import OpsSentry.Foundation.JsonLexemes
import OpsSentry.Foundation.Json
import OpsSentry.Foundation.JsonKeys
import OpsSentry.Foundation.JsonLines
import OpsSentry.Foundation.JsonRaw
import OpsSentry.Foundation.JsonValues
import OpsSentry.Foundation.JsonLoads
import OpsSentry.Foundation.Text
import OpsSentry.Foundation.Shlex
import OpsSentry.Foundation.Patterns
import OpsSentry.Foundation.Splits
import OpsSentry.Foundation.Utf8
import OpsSentry.Foundation.Base64
import OpsSentry.Foundation.Urlencoded
import OpsSentry.Foundation.PosixPath
import OpsSentry.ConfigShield.Shield
import OpsSentry.ConfigShield.LockFiles
import OpsSentry.ConfigShield.FileLock
import OpsSentry.ConfigShield.FileLeases
import OpsSentry.ConfigShield.FileExclusion
import OpsSentry.ConfigShield.FileRecovery
import OpsSentry.ConfigShield.RedisLock
import OpsSentry.ConfigShield.RedisExclusion
import OpsSentry.ConfigShield.Ownership
import OpsSentry.ConfigShield.HeartbeatThreads
import OpsSentry.ConfigShield.FailedAcquire
import OpsSentry.ConfigShield.Renewal
import OpsSentry.ConfigShield.Contention
import OpsSentry.Ledger.Entry
import OpsSentry.Ledger.Storage
import OpsSentry.Ledger.GuardedUpdate
import OpsSentry.Ledger.OpsLedger
import OpsSentry.Ledger.Lifecycle
import OpsSentry.Ledger.StateMachine
import OpsSentry.Ledger.OwnEffect
import OpsSentry.Ledger.AtOnce
import OpsSentry.Ledger.Transactions
import OpsSentry.Ledger.Migration
import OpsSentry.Ledger.Records
import OpsSentry.Ledger.Fingerprints
import OpsSentry.Cluster.Shipper
import OpsSentry.Cluster.AuditLoss
import OpsSentry.Cluster.AuditResume
import OpsSentry.Cluster.ShipperThreads
import OpsSentry.Cluster.StreamConvergence
import OpsSentry.GlobalSync.SyncBuffer
import OpsSentry.GlobalSync.TornLines
import OpsSentry.GlobalSync.LockedAppends
import OpsSentry.Cluster.AlertEngine
import OpsSentry.Cluster.AlertDrain
import OpsSentry.Cluster.AlertSummary
import OpsSentry.Cluster.AlertLoop
import OpsSentry.Cluster.Failover
import OpsSentry.Cluster.FailoverSafety
import OpsSentry.Cluster.FailoverFaults
import OpsSentry.Cluster.Heartbeat
import OpsSentry.Cluster.Checkpoint
import OpsSentry.Cluster.Status
import OpsSentry.Tools.Policy
import OpsSentry.Tools.Registry
import OpsSentry.Tools.Approval
import OpsSentry.Tools.Audit
import OpsSentry.Tools.DenyWords
import OpsSentry.Tools.OperatorSpacing
import OpsSentry.Tools.RootDeletion
import OpsSentry.Tools.Sandbox
import OpsSentry.Tools.SandboxPool
import OpsSentry.Knowledge.KnowledgeCore
import OpsSentry.Knowledge.Ranking
import OpsSentry.Knowledge.Chunks
import OpsSentry.Knowledge.ChunkParts
import OpsSentry.Knowledge.EvolutionManager
import OpsSentry.Knowledge.RunbookPriority
import OpsSentry.Knowledge.RunbookCases
import OpsSentry.Knowledge.EvolutionRounds
import OpsSentry.Knowledge.ExactMerge
import OpsSentry.Agent.AgentManager
import OpsSentry.Agent.ToolPermissions
import OpsSentry.Agent.StoredProfiles
import OpsSentry.Agent.PermissionPatches
import OpsSentry.Agent.AccountPaths
import OpsSentry.Agent.AccountIsolation
import OpsSentry.Agent.Routes
import OpsSentry.Agent.RouteGuards
import OpsSentry.Agent.AgentVM
import OpsSentry.Agent.Conversation
import OpsSentry.Agent.ToolCallBuffer
import OpsSentry.Agent.ToolResults
import OpsSentry.Agent.SystemPrompt
import OpsSentry.Agent.SkillLoader
import OpsSentry.Agent.SkillFraming
import OpsSentry.Agent.SkillsLibrary
import OpsSentry.Agent.SessionManager
import OpsSentry.Agent.SessionHistory
import OpsSentry.Agent.MessageRouter
import OpsSentry.Agent.FanOut
import OpsSentry.Agent.KeyVault
import OpsSentry.Agent.Mentions
import OpsSentry.Agent.ConnectionManager
import OpsSentry.Agent.Broadcast
import OpsSentry.Agent.LiveSessions
import OpsSentry.Cron.Engine
import OpsSentry.Cron.Consistency
import OpsSentry.Cron.JobWrapper
import OpsSentry.Cron.Backpressure
import OpsSentry.Cron.PayloadTools
import OpsSentry.Cron.Routes
import OpsSentry.Cron.Restart
import OpsSentry.Cron.KeptRecords
import OpsSentry.Cron.Overlap
import OpsSentry.Cron.StoredVersions
import OpsSentry.Cron.DelayedJobs
import OpsSentry.Channels.Signature
import OpsSentry.Channels.Webhooks
import OpsSentry.Cluster.FailureDetector
