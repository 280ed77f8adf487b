import DkcLinux.Conc.Rely
import DkcLinux.Conc.CondStore
import DkcLinux.Conc.Logged
import DkcLinux.Order.Padded
import DkcLinux.Order.Grouping
import DkcLinux.Order.Ranges
import DkcLinux.Order.Occurs
import DkcLinux.Order.Replace
import DkcLinux.Text.SurrogateEscape
import DkcLinux.Text.PyStr
import DkcLinux.Text.Words
import DkcLinux.Text.Dict
import DkcLinux.Text.Calendar
import DkcLinux.Text.Json
import DkcLinux.Text.JsonWire
import DkcLinux.Text.JsonSchema
import DkcLinux.Records
import DkcLinux.Debver
import DkcLinux.VersionGrammar
import DkcLinux.VersionOrder
import DkcLinux.VersionHash
import DkcLinux.Naming
import DkcLinux.PackageOrder
import DkcLinux.Retention
import DkcLinux.PoolRetention
import DkcLinux.RetentionRules
import DkcLinux.SeriesOrder
import DkcLinux.RetentionOrder
import DkcLinux.SeriesRetirement
import DkcLinux.SourceProfile
import DkcLinux.SourcePatch
import DkcLinux.PatchPlacement
import DkcLinux.PatchSections
import DkcLinux.PatchRendering
import DkcLinux.PatchRepeat
import DkcLinux.LeaseRecord
import DkcLinux.Storage
import DkcLinux.Lease
import DkcLinux.World
import DkcLinux.LeaseSafety
import DkcLinux.LeaseRuns
import DkcLinux.Publication
import DkcLinux.StoreSem
import DkcLinux.LeaseWait
import DkcLinux.GithubRuns
import DkcLinux.PublicationPlan
import DkcLinux.CommitOrder
import DkcLinux.CrashRecovery
import DkcLinux.JsonRecord
import DkcLinux.Manifest
import DkcLinux.StateRecords
import DkcLinux.Evidence
import DkcLinux.Discovery
import DkcLinux.ReleaseGate
import DkcLinux.StorageRepository
import DkcLinux.SiteRuns
import DkcLinux.Gc
import DkcLinux.GcRuns
import DkcLinux.Agreement
import DkcLinux.Lifecycle
import DkcLinux.LifecycleRuns
import DkcLinux.LifecycleRest
import DkcLinux.StorageBudget
import DkcLinux.LeaseSize
import DkcLinux.S3Listing
import DkcLinux.StorageOutput
import DkcLinux.BuildDeps
import DkcLinux.DependencySelection
import DkcLinux.OverlayDiff
import DkcLinux.DiffMeaning
import DkcLinux.OverlayApply
import DkcLinux.OverlayWrites
import DkcLinux.WorkflowCommands
import DkcLinux.Text.Lines
import DkcLinux.WorkflowAssignments
import DkcLinux.Order.Counter
import DkcLinux.Text.JsonIndent
import DkcLinux.SimdObservations
import DkcLinux.SimdReplay
import DkcLinux.PublicationIdentity
import DkcLinux.Text.Shlex
import DkcLinux.KbuildCommands
import DkcLinux.KbuildSoundness
import DkcLinux.EvidenceInventory
import DkcLinux.SourceManifest
import DkcLinux.ReleaseResults
import DkcLinux.ReleaseCache
import DkcLinux.Text.PosixPath
import DkcLinux.MatrixPayloads
import DkcLinux.MatrixConflicts
import DkcLinux.InternalRelations
import DkcLinux.DependencyGate
import DkcLinux.Sources
import DkcLinux.Order.Walk
import DkcLinux.DocumentationChains
import DkcLinux.Order.PrefixCode
import DkcLinux.PolicyDigest
import DkcLinux.Tombstones
import DkcLinux.RemoteStore
import DkcLinux.StoragePublish
import DkcLinux.SignedTree
import DkcLinux.PublicationHistory
import DkcLinux.StateRead
import DkcLinux.AssemblyBudget
import DkcLinux.TarStream
import DkcLinux.Disposable
