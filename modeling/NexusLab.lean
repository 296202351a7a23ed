import NexusLab.Foundation.Exec
import NexusLab.Foundation.OrderedMap
import NexusLab.Foundation.Search
import NexusLab.Basic
import NexusLab.Topology.Entities
import NexusLab.Topology.Graph
import NexusLab.Topology.ValidationExact
import NexusLab.Topology.ShortestPath
import NexusLab.Topology.ClosPaths
import NexusLab.Routing.Enumeration
import NexusLab.Transport.Conservation
import NexusLab.Transport.Reconciliation
import NexusLab.Transport.InOrder
import NexusLab.Transport.Timing
import NexusLab.Transport.LinkExact
import NexusLab.Transport.FifoTiming
import NexusLab.Routing.RouterAgreement
import NexusLab.Sim.TracedRuns
import NexusLab.Sim.BoundedDraw
import NexusLab.Sim.TraceHash
import NexusLab.Collective.RingCorrectness
import NexusLab.Telemetry.Rebuild
import NexusLab.Telemetry.Rejection
import NexusLab.Telemetry.Aggregation
import NexusLab.Telemetry.SerializationSpec
import NexusLab.Workload.Digest
import NexusLab.Workload.Admission
import NexusLab.Workload.Readiness
import NexusLab.Collective.Runs
import NexusLab.Workload.Calls
import NexusLab.Workload.Changes
import NexusLab.Workload.Dispatch
import NexusLab.Workload.Guarantees
