import KubeAtlas.Proofs.Collection.Committed
import KubeAtlas.Proofs.Collection.Ownership
import KubeAtlas.Proofs.Coverage.Atomicity
import KubeAtlas.Proofs.Coverage.Validation
import KubeAtlas.Proofs.Extractor.Coverage
import KubeAtlas.Proofs.Extractor.Violations
import KubeAtlas.Proofs.Graph.Cycles
import KubeAtlas.Proofs.Graph.Subjects
import KubeAtlas.Proofs.History.Classification
import KubeAtlas.Proofs.History.Order
import KubeAtlas.Proofs.History.Retention
import KubeAtlas.Proofs.History.Shutdown
import KubeAtlas.Proofs.Impact.NegativeConclusions
import KubeAtlas.Proofs.Impact.Notices
import KubeAtlas.Proofs.Multicluster.RbacScope
import KubeAtlas.Proofs.Otel.Receiver
import KubeAtlas.Proofs.Otel.Timing
import KubeAtlas.Proofs.Projection.Bound
import KubeAtlas.Proofs.Rego.Concurrency
import KubeAtlas.Proofs.Rego.Routing
import KubeAtlas.Proofs.Store.ImpactBackends
import KubeAtlas.Proofs.Store.Labels
import KubeAtlas.Proofs.Store.SecretBoundary
import KubeAtlas.Proofs.Web.BlastRadius
