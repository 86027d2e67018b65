import KubeAtlas.Proofs.Rego.Transparency

/-!
# `KubeAtlas.Proofs.Rego.Routing`: which modules a resource is routed to

A module declares a group and a kind, and an empty one of them
stands for all. The router keeps a module with both empty in a list
of its own, and every other one under the pair it declares. So a
module that leaves one of them empty is found for the resources
whose own field is empty too, and for no others that its declaration
covers.
-/

set_option autoImplicit false

namespace KubeAtlas.Proofs.Rego

open KubeAtlas.Rego

/-- The declaration of a module covers a group and a kind. -/
abbrev Declares (m : ModuleSpec) (gvk : GVK) : Prop :=
  (m.gvkMatch.group = "" ∨ m.gvkMatch.group = gvk.group) ∧
    (m.gvkMatch.kind = "" ∨ m.gvkMatch.kind = gvk.kind)

/-- A router after the given registrations, each with the name of
its pack. -/
def registerAll (regs : List (String × ModuleSpec)) : Router :=
  regs.foldl (fun r reg => r.register reg.1 reg.2) {}

/-- The registrations that pass a test, under the names that they
are loaded with. -/
def registered (regs : List (String × ModuleSpec)) (p : ModuleSpec → Prop) [DecidablePred p] :
    List ModuleSpec :=
  (regs.filter fun reg => p reg.2).map fun reg => namespaced reg.1 reg.2

variable (regs : List (String × ModuleSpec)) (gvk : GVK)

/-- What a router finds after any registrations. -/
theorem matching_registerAll :
    ((registerAll regs).matching gvk).Perm (registered regs (Covers · gvk)) := by
  -- from the last registration back, as the fold makes them
  induction regs using List.reverseRecOn with
  | nil => exact List.Perm.refl _
  | append_singleton regs reg ih =>
    have hstep := matching_register (registerAll regs) reg.1 reg.2 gvk
    unfold registerAll registered at *
    rw [List.foldl_append, List.filter_append, List.map_append]
    refine hstep.trans ?_
    by_cases hcovers : Covers reg.2 gvk
    · simpa [hcovers] using (ih.cons _).trans (List.perm_append_singleton _ _).symm
    · simpa [hcovers] using ih

theorem declares_of_covers {m : ModuleSpec} (h : Covers m gvk) : Declares m gvk := by
  rcases h with h | h
  · rw [Declares, h]
    exact ⟨.inl rfl, .inl rfl⟩
  · rw [Declares, h]
    exact ⟨.inr rfl, .inr rfl⟩

/-- Nothing is found that is not declared. So all that is declared
is found if the two lists have one length. -/
theorem matching_perm_iff :
    ((registerAll regs).matching gvk).Perm (registered regs (Declares · gvk)) ↔
      ∀ reg ∈ regs, Declares reg.2 gvk → Covers reg.2 gvk := by
  have hfound := matching_registerAll regs gvk
  constructor
  · intro h reg hreg hdeclares
    have hlength := (hfound.symm.trans h).length_eq
    have hsub : (regs.filter fun reg => Covers reg.2 gvk)
        = (regs.filter fun reg => Declares reg.2 gvk).filter fun reg => Covers reg.2 gvk := by
      rw [List.filter_filter]
      refine List.filter_congr fun reg _ => ?_
      simpa using declares_of_covers gvk
    rw [registered, registered, List.length_map, List.length_map, hsub,
      List.length_filter_eq_length_iff] at hlength
    simpa using hlength reg (List.mem_filter.mpr ⟨hreg, by simpa using hdeclares⟩)
  · intro h
    have hsame : registered regs (Covers · gvk) = registered regs (Declares · gvk) := by
      unfold registered
      congr 1
      refine List.filter_congr fun reg hreg => decide_eq_decide.mpr ?_
      exact ⟨declares_of_covers gvk, h reg hreg⟩
    rwa [hsame] at hfound

/-- The modules found are those that declare to cover the resource,
for all groups and kinds, if and only if every module declares both
a group and a kind or neither. The router has a table of pairs and a
list of wildcards, and nothing for half a pair. -/
theorem routing_exact_iff :
    (∀ gvk, ((registerAll regs).matching gvk).Perm (registered regs (Declares · gvk))) ↔
      ∀ reg ∈ regs, reg.2.gvkMatch.group = "" ↔ reg.2.gvkMatch.kind = "" := by
  simp only [matching_perm_iff]
  constructor
  · intro h reg hreg
    -- a resource with another field than the empty one is covered and not found
    constructor
    · intro hgroup
      have hcovers := h ⟨"g", reg.2.gvkMatch.kind⟩ reg hreg ⟨.inl hgroup, .inr rfl⟩
      rcases hcovers with hwild | hsame
      · rw [hwild]
      · exact absurd (hgroup.symm.trans (congrArg GVK.group hsame)) (by simp)
    · intro hkind
      have hcovers := h ⟨reg.2.gvkMatch.group, "k"⟩ reg hreg ⟨.inr rfl, .inl hkind⟩
      rcases hcovers with hwild | hsame
      · rw [hwild]
      · exact absurd (hkind.symm.trans (congrArg GVK.kind hsame)) (by simp)
  · rintro h gvk reg hreg ⟨hgroup, hkind⟩
    have hboth := h reg hreg
    by_cases hempty : reg.2.gvkMatch.group = ""
    · exact .inl (congrArg₂ GVK.mk hempty (hboth.mp hempty))
    · have hkindne := mt hboth.mpr hempty
      exact .inr (congrArg₂ GVK.mk (hgroup.resolve_left hempty) (hkind.resolve_left hkindne))

/-- A module for all kinds of one group is not found for a kind of
the group. -/
theorem matching_misses_group :
    (registerAll [("p", { name := "all", gvkMatch := { group := "apps" } })]).matching
        { group := "apps", kind := "Deployment" } = [] ∧
      Declares { name := "all", gvkMatch := { group := "apps" } }
        { group := "apps", kind := "Deployment" } := by
  decide +kernel

end KubeAtlas.Proofs.Rego
