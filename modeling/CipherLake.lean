import CipherLake.ServiceConcurrency
import CipherLake.StreamTruncation
import CipherLake.KeyIsolation
import CipherLake.BucketCounters
import CipherLake.PayloadBinding
import CipherLake.RoleCredentials
import CipherLake.Retention
import CipherLake.MigrationRace
import CipherLake.TokenRefresh
import CipherLake.Confidentiality
import CipherLake.BucketDeletion
import CipherLake.Delegation
import CipherLake.ObjectLocks
import CipherLake.ErasureFailures
import CipherLake.PolicyReferences
import CipherLake.DeletionRace
import CipherLake.TierSizes
import CipherLake.EncryptionAtRest
import CipherLake.PartUploads
import CipherLake.TaskDelivery
import CipherLake.KeyRelease
import CipherLake.KeyStoreRuns
import CipherLake.FallbackKms
import CipherLake.RaftProxy
import CipherLake.Lib.Replay
import CipherLake.RaftReplay
import CipherLake.PipelineExecutor
import CipherLake.ConditionLists
import CipherLake.Globs
import CipherLake.ObjectVersions
import CipherLake.PluginTrust
import CipherLake.VariableReferences
import CipherLake.AccessKeys
import CipherLake.OrderingConditions
import CipherLake.ErasureDeletion
import CipherLake.PresignedWindow
import CipherLake.BackOff
import CipherLake.IndexSegments
