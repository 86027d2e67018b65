import KubeAtlas.Graph.Model
import KubeAtlas.Lib.NestedMap
import KubeAtlas.Lib.Tarjan
import Mathlib.Data.List.Sort

/-!
# `KubeAtlas.Analysis.Cycles`: cycle reports

`pkg/graph/analysis/cycles.go`. Resources get dense indexes, the
edges between them become successor lists, and Tarjan's algorithm
finds the strongly connected components. A component with at least
two members is reported, sorted by identifier and put into a
category. An index is a `Fin` of the number of resources, which is
how the slices of the source are addressed.
-/

set_option autoImplicit false

namespace KubeAtlas.Analysis

open KubeAtlas.Graph Lib

/-! ### Categories -/

/-- `CycleCategory`. -/
inductive CycleCategory where
  | bootstrapCert
  | intentional
  | unknown
  deriving DecidableEq, Repr

/-- `CycleReport`. -/
structure CycleReport where
  members : List Resource
  category : CycleCategory

def intentionalCycleAnnotation : String := "kubeatlas.io/intentional-cycle"

/-- `secretOwnsName`. -/
def secretOwnsName (maybeSecret owner : Resource) : Bool :=
  maybeSecret.kind = "Secret" &&
    maybeSecret.ownerReferences.any fun ref => ref.name = owner.name

/-- `isBootstrapCertCycle`. -/
def isBootstrapCertCycle : List Resource → Bool
  | [r, r'] => secretOwnsName r r' || secretOwnsName r' r
  | _ => false

/-- `classifyCycle`. -/
def classifyCycle (members : List Resource) : CycleCategory :=
  if isBootstrapCertCycle members then .bootstrapCert
  else if members.any fun r => (r.annotations.lookup intentionalCycleAnnotation).getD "" = "true"
    then .intentional
  else .unknown

/-! ### Sorting -/

/-- The inner loop of `sortByID`: `r` moves down while its neighbour
has a greater identifier. The part that is sorted already is held in
reverse. -/
def sinkByID (r : Resource) : List Resource → List Resource
  | [] => [r]
  | neighbour :: done =>
    if neighbour.ID > r.ID then neighbour :: sinkByID r done else r :: neighbour :: done

/-- `sortByID`. -/
def sortByID (rs : List Resource) : List Resource :=
  (rs.foldl (fun done r => sinkByID r done) []).reverse

/-! ### Detection -/

section Detection

variable (snap : Graph)

/-- The resource at an index. -/
def resourceAt (i : Fin snap.resources.length) : Resource := snap.resources.get i

/-- The loop that fills `indexByID`. A later resource replaces an
earlier one with the same identifier. -/
def indexByID : GoMap String (Fin snap.resources.length) :=
  (List.finRange snap.resources.length).foldl
    (fun index i => index.insert (resourceAt snap i).ID i) ∅

/-- One round of the loop that fills `adj`. An edge with a
missing end is dropped. -/
def addArc (adj : Fin snap.resources.length → List (Fin snap.resources.length)) (e : Edge) :
    Fin snap.resources.length → List (Fin snap.resources.length) :=
  match (indexByID snap).lookup e.fromID with
  | none => adj
  | some source =>
    match (indexByID snap).lookup e.toID with
    | none => adj
    | some target => Function.update adj source (adj source ++ [target])

/-- The loop that fills `adj`. -/
def adjacency : Fin snap.resources.length → List (Fin snap.resources.length) :=
  snap.edges.foldl (addArc snap) fun _ => []

/-- The report on a component. -/
def reportOf (comp : List (Fin snap.resources.length)) : CycleReport :=
  let members := sortByID (comp.map (resourceAt snap))
  ⟨members, classifyCycle members⟩

/-- `DetectCycles`, from the snapshot on; `none` would be a search
that does not end. -/
def detectCycles : Option (List CycleReport) :=
  (Tarjan.components (adjacency snap) snap.resources.length
      (List.finRange snap.resources.length)).map fun comps =>
    (comps.filter fun comp => 2 ≤ comp.length).map (reportOf snap)

end Detection

/-! ### The loops -/

/-- The sorted part is one of Mathlib's ordered insertions, from the
greatest down. -/
theorem sinkByID_eq (r : Resource) (done : List Resource) :
    sinkByID r done = done.orderedInsert (fun a b => b.ID ≤ a.ID) r := by
  induction done with
  | nil => rfl
  | cons neighbour done ih =>
    rw [sinkByID, List.orderedInsert_cons, ih]
    by_cases h : neighbour.ID > r.ID
    · rw [if_pos h, if_neg (not_le.mpr h)]
    · rw [if_neg h, if_pos (not_lt.mp h)]

theorem sortByID_eq (rs : List Resource) :
    sortByID rs = (rs.reverse.insertionSort fun a b => b.ID ≤ a.ID).reverse := by
  unfold sortByID List.insertionSort
  rw [List.foldr_reverse]
  simp only [sinkByID_eq]

theorem sortByID_perm (rs : List Resource) : (sortByID rs).Perm rs := by
  rw [sortByID_eq]
  exact (List.reverse_perm _).trans ((List.perm_insertionSort _ _).trans (List.reverse_perm _))

theorem sortByID_sorted (rs : List Resource) :
    (sortByID rs).Pairwise fun a b => a.ID ≤ b.ID := by
  have htotal : Std.Total fun a b : Resource => b.ID ≤ a.ID := ⟨fun a b => le_total b.ID a.ID⟩
  have htrans : IsTrans Resource fun a b => b.ID ≤ a.ID := ⟨fun _ _ _ h h' => h'.trans h⟩
  rw [sortByID_eq, List.pairwise_reverse]
  exact List.pairwise_insertionSort (fun a b : Resource => b.ID ≤ a.ID) rs.reverse

/-- A map filled in a loop holds, for a key, the last index that has
it. -/
theorem lookup_foldl_insert {K V : Type} [DecidableEq K] (key : V → K) (vs : List V)
    (m : GoMap K V) (k : K) :
    (vs.foldl (fun m v => m.insert (key v) v) m).lookup k
      = (vs.reverse.find? fun v => key v = k).or (m.lookup k) := by
  induction vs generalizing m with
  | nil => rfl
  | cons v vs ih =>
    rw [List.foldl_cons, ih, List.reverse_cons, List.find?_append, Option.or_assoc]
    congr 1
    by_cases h : key v = k
    · subst h
      rw [AList.lookup_insert, List.find?_cons_of_pos (by simp)]
      rfl
    · rw [AList.lookup_insert_ne (Ne.symm h), List.find?_cons_of_neg (by simpa using h)]
      rfl

theorem mem_addArc (snap : Graph)
    (adj : Fin snap.resources.length → List (Fin snap.resources.length)) (e : Edge)
    (i j : Fin snap.resources.length) :
    j ∈ addArc snap adj e i ↔ j ∈ adj i ∨
      ((indexByID snap).lookup e.fromID = some i ∧ (indexByID snap).lookup e.toID = some j) := by
  unfold addArc
  cases hsource : (indexByID snap).lookup e.fromID with
  | none => simp
  | some source =>
    cases htarget : (indexByID snap).lookup e.toID with
    | none => simp
    | some target =>
      show j ∈ Function.update adj source (adj source ++ [target]) i ↔ _
      by_cases hi : i = source
      · subst hi
        simp [eq_comm]
      · simp [Function.update_of_ne hi, Ne.symm hi]

/-- The successor lists have an entry for every edge with both ends
present. -/
theorem mem_adjacency (snap : Graph) (i j : Fin snap.resources.length) :
    j ∈ adjacency snap i ↔ ∃ e ∈ snap.edges,
      (indexByID snap).lookup e.fromID = some i ∧ (indexByID snap).lookup e.toID = some j := by
  -- the loop adds to what is there already
  have hfold : ∀ (edges : List Edge) (adj : Fin snap.resources.length → List _),
      j ∈ edges.foldl (addArc snap) adj i ↔ j ∈ adj i ∨ ∃ e ∈ edges,
        (indexByID snap).lookup e.fromID = some i ∧
          (indexByID snap).lookup e.toID = some j := by
    intro edges
    induction edges with
    | nil => simp
    | cons e edges ih =>
      intro adj
      rw [List.foldl_cons, ih, mem_addArc, List.exists_mem_cons_iff, or_assoc]
  unfold adjacency
  rw [hfold]
  simp

end KubeAtlas.Analysis
