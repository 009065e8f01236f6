import OpsComposer.Assets.Revisions
import OpsComposer.AuditTrail.Export
import OpsComposer.Cluster.Frozen
import OpsComposer.Cluster.Endings
import OpsComposer.Cluster.Exclusion
import OpsComposer.Cluster.Recovery
import OpsComposer.Cluster.Consumption
import OpsComposer.Accounts.RecoveryCodes
import OpsComposer.Accounts.SessionPolicy
import OpsComposer.Authentication.Downgrade
import OpsComposer.EventLog.Stream
import OpsComposer.Projects.Containment
import OpsComposer.Projects.Digest
import OpsComposer.Projects.Import
import OpsComposer.Projects.Materialization
import OpsComposer.Encryption.Progress
import OpsComposer.Encryption.Starts
import OpsComposer.RateLimits.Bounds
import OpsComposer.Execution.EventLoop
import OpsComposer.Execution.Variants
import OpsComposer.Execution.RunOutput
import OpsComposer.RunSpecs.Disclosure
import OpsComposer.RunSpecs.Inventories
import OpsComposer.Coordination.Capacity
import OpsComposer.Coordination.Claims
import OpsComposer.Accounts.Bootstraps
import OpsComposer.Accounts.Lifecycle
import OpsComposer.Migrations.Concurrency
import OpsComposer.Authentication.Verdicts
import OpsComposer.AuditTrail.Idempotence
import OpsComposer.Terminals.Renewals
