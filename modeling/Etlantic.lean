import Etlantic.Base.Runs
import Etlantic.ControlPlane.Quota.RoundRobin
import Etlantic.ControlPlane.Memory.Submissions
import Etlantic.ControlPlane.Memory.EventCursors
import Etlantic.ControlPlane.Durable.Noninterference
import Etlantic.ControlPlane.Registry.History
import Etlantic.Planning.SolverOptimal
import Etlantic.Planning.RegionFormation
import Etlantic.ControlPlane.Schedule.AdmissionFence
import Etlantic.ControlPlane.Schedule.Progress
import Etlantic.ControlPlane.Schedule.FiringInstants
import Etlantic.ControlPlane.Schedule.TriggerIdempotence
import Etlantic.Optimization.Engine
import Etlantic.Inference.WriteCompatibility
import Etlantic.Runtime.RetentionAccounts
import Etlantic.Inference.Replay
import Etlantic.Connectors.Session
import Etlantic.ControlPlane.Governance.AuditIntegrity
import Etlantic.ControlPlane.Governance.ErasureHold
import Etlantic.ControlPlane.Governance.Approval
import Etlantic.ControlPlane.Governance.PolicyGates
import Etlantic.ControlPlane.Governance.ApprovalDuties
import Etlantic.Base.IsoText
import Etlantic.Base.Joined
import Etlantic.ControlPlane.Governance.Attestation
import Etlantic.ControlPlane.Governance.AttestationSoundness
import Etlantic.ControlPlane.Inputs.InputResources
import Etlantic.ControlPlane.Inputs.InputLeases
import Etlantic.ControlPlane.Inputs.InputRetention
import Etlantic.Base.Search
import Etlantic.ControlPlane.Schedule.CronSearch
import Etlantic.Base.Recurrence
import Etlantic.ControlPlane.Schedule.CronJitter
import Etlantic.ControlPlane.Schedule.CatchUp
import Etlantic.ControlPlane.Schedule.DueTexts
import Etlantic.ControlPlane.Schedule.ClaimAtomicity
import Etlantic.ControlPlane.Schedule.Intent
import Etlantic.ControlPlane.Durable.AdmissionLimit
import Etlantic.Base.Keyset
import Etlantic.ControlPlane.Durable.ScopePages
import Etlantic.Schema.Drift
import Etlantic.Base.Worklist
import Etlantic.Plan.Slicing
import Etlantic.Runtime.RunSelection
import Etlantic.Base.TopologicalOrder
import Etlantic.Planning.SelectGraph
import Etlantic.Runtime.SelectionAgreement
import Etlantic.Base.PathCount
import Etlantic.Plan.PhysicalDag
import Etlantic.Plan.LogicalPaths
import Etlantic.Planning.StreamedJson
import Etlantic.Base.FirstOccurrence
import Etlantic.Base.Repr
import Etlantic.Transform.LocalKeys
import Etlantic.Inference.Conformance
import Etlantic.Base.JsonLeaves
import Etlantic.Runtime.RunRequest
import Etlantic.Runtime.RequestTrip
import Etlantic.Runtime.RequestPolicies
import Etlantic.ControlPlane.ExecutionEnvelope
import Etlantic.Transform.FrameActions
import Etlantic.Inference.Transfer
import Etlantic.Runtime.FrozenRedaction
import Etlantic.ControlPlane.Objectives
import Etlantic.Connectors.Checkpoint
import Etlantic.ControlPlane.Memory.SubmissionTenants
import Etlantic.Base.StableSort
import Etlantic.Transform.LocalSort
import Etlantic.Transform.LocalJoin
import Etlantic.Optimization.Selection
import Etlantic.ControlPlane.Registry.Atomicity
import Etlantic.ControlPlane.Memory.EventScopes
import Etlantic.ControlPlane.Memory.EventOnce
import Etlantic.Base.Base64
import Etlantic.Base.PyData
import Etlantic.Transform.Fusion
import Etlantic.Transform.FusionTrip
import Etlantic.Connectors.S3.Publication
import Etlantic.Base.Allowlist
import Etlantic.ControlPlane.Governance.Constraints
import Etlantic.Base.PosixPath
import Etlantic.IoPolicy.NamespacedPath
import Etlantic.IoPolicy.AtomicWrites
import Etlantic.IoPolicy.WriteIsolation
import Etlantic.IoPolicy.WriteSteps
import Etlantic.ControlPlane.Schedule.LeaderFencing
import Etlantic.Planning.DeclarationOrder
