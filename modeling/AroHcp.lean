import AroHcp.AzureResources.Tracking
import AroHcp.ClusterResources.Reaping
import AroHcp.ClusterResources.TeardownOrder
import AroHcp.Compute.Exhausted
import AroHcp.Credentials.Revocation
import AroHcp.Credentials.Sentinel
import AroHcp.Desires.Ensure
import AroHcp.Dispatch.Cluster
import AroHcp.Dns.Exclusive
import AroHcp.Informers.Consistency
import AroHcp.Lifecycle.Deletion
import AroHcp.NodeHealth.Evidence
import AroHcp.Nodepool.Convergence
import AroHcp.Nodepool.Current
import AroHcp.Nsg.PrefixUnion
import AroHcp.Operations.Agreement
import AroHcp.Operations.DeleteOwnership
import AroHcp.Placement.Interrupted
import AroHcp.RepositoryCleanup.MaintenanceIndex
import AroHcp.RepositoryCleanup.Sweep
import AroHcp.Rollout.Counters
import AroHcp.Rollout.Release
import AroHcp.Rollout.Retirement
import AroHcp.Version.ActiveVersions
import AroHcp.Version.Selection
import AroHcp.Version.SkewAgreement
import AroHcp.Lib.JsonText
