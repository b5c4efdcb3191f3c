import Honeynet.Common.JsonStore
import Honeynet.Loop.Pacing
import Honeynet.Loop.Conservation
import Honeynet.Loop.Response
import Honeynet.Loop.Isolation
import Honeynet.Controller.Exposure
import Honeynet.Binding.Interleaving
import Honeynet.Sigma.Soundness
import Honeynet.Matchers.Conservative
import Honeynet.Cowrie.Merge
import Honeynet.Orchestrator.Exposure
import Honeynet.Orchestrator.DataPlane
import Honeynet.Profiler.Association
import Honeynet.Profiler.Convergence
import Honeynet.Profiler.Triggers
import Honeynet.Orchestrator.LatestRoute
import Honeynet.Orchestrator.Configurations
import Honeynet.Orchestrator.Swap
import Honeynet.Binding.Lifecycle
import Honeynet.Dashboard.LatestBinding
import Honeynet.Orchestrator.Unveiling
import Honeynet.Profiler.Batches
import Honeynet.Controller.Signals
import Honeynet.Controller.Explore
import Honeynet.Controller.Partition
import Honeynet.Controller.Cap
import Honeynet.Controller.Bootstrap
import Honeynet.Controller.Ordering
import Honeynet.Controller.Reordering
import Honeynet.Controller.CatalogOrder
import Honeynet.Forwarders.Follow
import Honeynet.Forwarders.Delivery
import Honeynet.Forwarders.Rotation
import Honeynet.Evaluation.SignalGate
import Honeynet.HighInteraction.Ingest
import Honeynet.Binding.Heartbeats
import Honeynet.Redaction.Logdata
import Honeynet.AssetGateway.Logins
import Honeynet.AssetGateway.Chunks
import Honeynet.AssetGateway.Resp
import Honeynet.Entrypoint.Capture
import Honeynet.Profiler.Confidence
import Honeynet.Cowrie.Ingest
import Honeynet.Cowrie.Catalog
import Honeynet.Loop.Batches
import Honeynet.Controller.Prior
import Honeynet.Orchestrator.Forgotten
import Honeynet.Orchestrator.Artifacts
import Honeynet.Orchestrator.Reveals
import Honeynet.Orchestrator.RouteKeys
import Honeynet.Dashboard.CommandText
import Honeynet.Evaluation.PriorRecommendation
import Honeynet.Evaluation.Agreement
import Honeynet.System.Pass
import Honeynet.System.Bounded
import Honeynet.System.Refinement
import Honeynet.GroupPrior.RoundTrip
import Honeynet.OpenCanary.Ingest
import Honeynet.System.Attribution
import Honeynet.OpenCanary.Pipeline
import Honeynet.Entrypoint.PortalLogin
import Honeynet.System.Gateway
import Honeynet.System.Reports
