import LocalWebAccess.GuardedRuns
import LocalWebAccess.BuildTaskTable
import LocalWebAccess.BuildQueueMachine
import LocalWebAccess.BuildQueueSteps
import LocalWebAccess.BuildQueueInvariants
import LocalWebAccess.BuildCancellation
import LocalWebAccess.BuildGateSlots
import LocalWebAccess.BuildOutcome
import LocalWebAccess.ComposeObservation
import LocalWebAccess.ContainerDeploy
import LocalWebAccess.ContainerDeployAborts
import LocalWebAccess.ContainerDeployCompensation
import LocalWebAccess.FileVolumes
import LocalWebAccess.ManifestSave
import LocalWebAccess.ManifestEdits
import LocalWebAccess.RevisionCounter
import LocalWebAccess.SourceSwap
import LocalWebAccess.ReconcileRounds
import LocalWebAccess.ReconcileStop
import LocalWebAccess.InboxDelivery
import LocalWebAccess.CanonicalJson
import LocalWebAccess.DeploymentFingerprints
import LocalWebAccess.RescanFrame
import LocalWebAccess.UpdateRollback
import LocalWebAccess.InstanceManifest
import LocalWebAccess.UpdateTransaction
import LocalWebAccess.DeploymentAttempts
import LocalWebAccess.AttemptRollback
import LocalWebAccess.FallbackChain
import LocalWebAccess.FallbackSafety
import LocalWebAccess.RuntimeRecreate
import LocalWebAccess.RestoredConfiguration
import LocalWebAccess.LifecycleBuilds
import LocalWebAccess.WatcherLock
import LocalWebAccess.RescueMerge
import LocalWebAccess.RescueCopies
import LocalWebAccess.PathAliases
import LocalWebAccess.PathAliasOwners
import LocalWebAccess.HostPorts
import LocalWebAccess.HostPortOwners
import LocalWebAccess.GatewaySwitch
import LocalWebAccess.GatewaySwitchSteps
import LocalWebAccess.GatewaySwitchAtomic
import LocalWebAccess.EnvLines
import LocalWebAccess.DatabaseKept
import LocalWebAccess.EntryCertificate
import LocalWebAccess.AdminPorts
import LocalWebAccess.ConfigWriters
import LocalWebAccess.GatewayOff
import LocalWebAccess.GatewayMasters
import LocalWebAccess.CaddyControl
import LocalWebAccess.CaddyOwners
import LocalWebAccess.UpdateFlow
import LocalWebAccess.UpdatePhases
import LocalWebAccess.CaddyfileImports
import LocalWebAccess.AgentExecutedOnce
import LocalWebAccess.AgentStateMachine
import LocalWebAccess.AgentFencing
import LocalWebAccess.AgentLeases
import LocalWebAccess.PendingLimit
import LocalWebAccess.KeyedTables
import LocalWebAccess.SqlConnections
import LocalWebAccess.PageviewCalls
import LocalWebAccess.LogRotation
import LocalWebAccess.PageviewAggregates
import LocalWebAccess.Utf8Replacement
import LocalWebAccess.ManagerLocks
import LocalWebAccess.MigrateLock
import LocalWebAccess.PlanExpiry
import LocalWebAccess.StableSort
import LocalWebAccess.FolderSource
import LocalWebAccess.BuildArtifacts
import LocalWebAccess.ImageRetention
import LocalWebAccess.WorkspaceMigrate
import LocalWebAccess.RelocationOrder
import LocalWebAccess.FailingEffects
import LocalWebAccess.AliasChange
import LocalWebAccess.AliasTraces
import LocalWebAccess.RollbackInstance
import LocalWebAccess.RollbackOutcome
import LocalWebAccess.ZipMembers
import LocalWebAccess.ZipStripping
import LocalWebAccess.RetentionCount
import LocalWebAccess.Base64
import LocalWebAccess.AgentLogs
import LocalWebAccess.AgentLogPages
import LocalWebAccess.ContainerVerification
import LocalWebAccess.VerificationVerdict
import LocalWebAccess.CursorMigration
import LocalWebAccess.EntryOverrides
import LocalWebAccess.PathRebinding
import LocalWebAccess.TextReplacement
import LocalWebAccess.PathTexts
import LocalWebAccess.RebindingAgreement
import LocalWebAccess.TextRewriting
import LocalWebAccess.RecentKeys
import LocalWebAccess.ContainerBatches
import LocalWebAccess.ContainerWindows
import LocalWebAccess.ImportPipelines
import LocalWebAccess.SharedImport
import LocalWebAccess.FailedImports
import LocalWebAccess.HealCircuit
import LocalWebAccess.RequirementLines
import LocalWebAccess.VersionRanges
import LocalWebAccess.NodeRanges
import LocalWebAccess.NodeRangeTexts
import LocalWebAccess.NodeRangeMeaning
import LocalWebAccess.NodeRangeAnswers
import LocalWebAccess.NodeImages
import LocalWebAccess.WorkspaceGlobs
import LocalWebAccess.Workspaces
import LocalWebAccess.LinkTrees
import LocalWebAccess.BuildOutputs
import LocalWebAccess.ShellHooks
import LocalWebAccess.HookTokens
import LocalWebAccess.RemovalPaths
import LocalWebAccess.RemovalGate
import LocalWebAccess.HookRemovals
import LocalWebAccess.GraphOrders
import LocalWebAccess.BuildOrder
import LocalWebAccess.ImportActivity
import LocalWebAccess.CaddyTokens
import LocalWebAccess.CaddyPaths
import LocalWebAccess.VersionedSchemas
import LocalWebAccess.RegistrySchemas
import LocalWebAccess.SchemaMigrations
import LocalWebAccess.OwnedRows
import LocalWebAccess.RegistryStore
import LocalWebAccess.RegistryOrphans
import LocalWebAccess.KeysetPages
import LocalWebAccess.AgentInstancePages
import LocalWebAccess.InstanceLogs
import LocalWebAccess.ParentChains
import LocalWebAccess.RoutePaths
import LocalWebAccess.PythonRoutes
import LocalWebAccess.NodeRoutes
