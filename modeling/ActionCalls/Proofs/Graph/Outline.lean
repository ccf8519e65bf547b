import ActionCalls.Proofs.Graph.Packages

/-!
# Outlines

Two declarations of one method may differ in its access level, in whether it is static, and in its
annotations. The **outline** of a node is the node without these three.

Assembly never looks at them. It makes nodes that have none, and of a node that is there it reads the
package and changes the statistics, both of which are part of the outline. So tables with the same
calls, the same packages and the same outlines are assembled into the same links, packages and
outlines, whatever their declarations differ in besides.
-/

namespace ActionCalls

/-! ### The outline of a node -/

namespace MethodNode

/-- The node without what each declaration of a method says for itself: its access level, whether it
is static, and its annotations. -/
def outline (node : MethodNode) : MethodNode :=
  { node with accessLevel := .packageAccess, isStatic := false, annotations := ∅ }

/-- The place of a method is part of the outline of its node. -/
theorem eq_of_outline_eq {node other : MethodNode} (h : node.bare.outline = other.outline) :
    node.id = other.id ∧ node.package = other.package ∧ node.owner = other.owner ∧
      node.method = other.method ∧ node.isAction = other.isAction := by
  simp only [outline, bare, MethodNode.mk.injEq] at h
  obtain ⟨hid, hpackage, howner, hmethod, haction, -⟩ := h
  exact ⟨hid, hpackage, howner, hmethod, haction⟩

@[simp] theorem outline_package (node : MethodNode) : node.outline.package = node.package := rfl

theorem outline_withCalls (node : MethodNode) (targets : Std.ExtTreeSet CallTarget) :
    (node.withCalls targets).outline = node.outline.withCalls targets := rfl

theorem outline_calledFrom (node : MethodNode) (source : String) :
    (node.calledFrom source).outline = node.outline.calledFrom source := by
  show (node.calledFrom source).outline = if source ∈ node.statistics.calledBy then _ else _
  unfold calledFrom
  split <;> rfl

/-- A node made from a target is its own outline. -/
theorem outline_getD (node? : Option MethodNode) (target : CallTarget) :
    (node?.getD (.synthesized target)).outline =
      (node?.map outline).getD (.synthesized target) := by
  cases node? <;> rfl

end MethodNode

/-! ### Assembly of outlines -/

namespace Assembly

variable {id source : String} {node? : Option MethodNode}

theorem outline_visitSource {targets : Std.ExtTreeSet CallTarget} :
    (visitSource id source targets node?).map MethodNode.outline =
      visitSource id source targets (node?.map MethodNode.outline) := by
  unfold visitSource
  split
  · rw [Option.map_some, MethodNode.outline_withCalls, MethodNode.outline_getD]
  · rfl

theorem outline_visitTarget {targets : List CallTarget} :
    (visitTarget id source targets node?).map MethodNode.outline =
      visitTarget id source targets (node?.map MethodNode.outline) := by
  unfold visitTarget
  split
  · rw [Option.map_some, MethodNode.outline_calledFrom, MethodNode.outline_getD]
  · rfl

/-- A visit makes of the outline of a node the outline of what it makes of the node. -/
theorem outline_visit {entry : String × Std.ExtTreeSet CallTarget} :
    (visit id node? entry).map MethodNode.outline =
      visit id (node?.map MethodNode.outline) entry := by
  rw [visit, outline_visitTarget, outline_visitSource, visit]

theorem outline_foldl_visit {entries : List (String × Std.ExtTreeSet CallTarget)} :
    (entries.foldl (visit id) node?).map MethodNode.outline =
      entries.foldl (visit id) (node?.map MethodNode.outline) := by
  induction entries generalizing node? with
  | nil => rfl
  | cons entry rest ih => rw [List.foldl_cons, ih, outline_visit, List.foldl_cons]

theorem sourcePackage_eq (a : Assembly) (source : String) :
    a.sourcePackage source =
      ((a.nodes[source]?.map MethodNode.outline).getD
        (.synthesized (.ofQualified source))).package := by
  rw [← MethodNode.outline_getD, MethodNode.outline_package]
  rfl

end Assembly

/-! ### Tables with the same outlines -/

/-- Tables that are the same up to what single declarations say, and up to what is recorded of
classes. -/
structure Tables.SameOutlines (tables others : Tables) : Prop where
  packages : tables.packages = others.packages
  calls : tables.calls = others.calls
  nodes : ∀ id : String, tables.nodes[id]?.map MethodNode.outline =
    others.nodes[id]?.map MethodNode.outline

namespace Assembly

variable {tables others : Tables}

theorem run_outlines (h : tables.SameOutlines others) (id : String) :
    (run tables).nodes[id]?.map MethodNode.outline =
      (run others).nodes[id]?.map MethodNode.outline := by
  rw [run_nodes_getElem?, run_nodes_getElem?, outline_foldl_visit, outline_foldl_visit, h.calls,
    h.nodes]

theorem run_links_eq (h : tables.SameOutlines others) : (run tables).links = (run others).links := by
  refine Std.ExtTreeSet.ext_mem ?_
  intro link
  rw [mem_run_links, mem_run_links, Tables.callSet, Tables.callSet, h.calls]

/-- The package of a source is part of its outline, so the same calls between packages are noted. -/
theorem packageCalls_eq (h : tables.SameOutlines others) :
    packageCalls tables = packageCalls others := by
  have hsource : ∀ source, (run tables).sourcePackage source = (run others).sourcePackage source := by
    intro source
    rw [sourcePackage_eq, sourcePackage_eq, run_outlines h]
  simp only [packageCalls, packageCallsOf, hsource, h.calls]

theorem run_packages_eq (h : tables.SameOutlines others) :
    (run tables).packages = (run others).packages := by
  refine Std.ExtTreeMap.ext_getElem? ?_
  intro name
  rw [run_packages_getElem?, run_packages_getElem?, h.packages, packageCalls_eq h]

end Assembly

end ActionCalls
