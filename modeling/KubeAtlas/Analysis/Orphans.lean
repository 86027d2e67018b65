import KubeAtlas.Store.Queries

/-!
# `KubeAtlas.Analysis.Orphans`: resources that nothing refers to

`pkg/graph/analysis/orphans.go`. A Pod is reported if it has no
owner. Kinds that people create themselves are never reported. Any
other resource is reported if it has no incoming edge.
-/

set_option autoImplicit false

namespace KubeAtlas.Analysis

open KubeAtlas.Graph Lib Store

end KubeAtlas.Analysis
