import ActionCalls.Proofs.Graph.Packages

/-!
# Dependencies and dependents are inverse

A call from one package to another is noted twice: the record of the caller gains a dependency, and
that of the callee a dependent. The two are looked up apart, and either may be missing. Where both
are there they say the same, since both are read off **one list of calls** (`packageCalls`), from its
two ends.

Which package a source counts for is a matter of its node. That node may be declared, or made from
the id of the source, or made earlier from a target that has this id and perhaps a package that the id
does not show. Whichever it is, it is the node that stands under the source in the end, so the calls
between packages can be stated of the assembled nodes (`mem_packageCalls_iff`).
-/

namespace ActionCalls

/-- Does a source whose node lies in `package` call a target that lies in `other`? -/
def Tables.CallsBetween (tables : Tables) (package other : String) : Prop :=
  ∃ source node, (Assembly.run tables).nodes[source]? = some node ∧ node.package = package ∧
    ∃ target ∈ tables.callSet source, target.package = other

namespace Assembly

variable {tables : Tables} {package other : String}

/-- Every source has a node, which says what package its calls come from. -/
theorem exists_node_of_mem_callSet {source : String} {target : CallTarget}
    (h : target ∈ tables.callSet source) :
    ∃ node, (run tables).nodes[source]? = some node ∧
      (run tables).sourcePackage source = node.package := by
  have hmem : source ∈ (run tables).nodes :=
    mem_run_nodes.mpr (Or.inr (Or.inl (Tables.mem_calls_of_mem_callSet h)))
  obtain ⟨node, hnode⟩ := Ordered.mem_iff_exists_getElem?.mp hmem
  refine ⟨node, hnode, ?_⟩
  rw [sourcePackage, sourceNode, hnode, Option.getD_some]

/-- The calls that are noted are those between the packages of assembled nodes and of targets. -/
theorem mem_packageCalls_iff :
    (package, other) ∈ packageCalls tables ↔ tables.CallsBetween package other := by
  rw [mem_packageCalls]
  constructor
  · intro h
    obtain ⟨source, target, hmem, hpackage, hother⟩ := h
    obtain ⟨node, hnode, hsource⟩ := exists_node_of_mem_callSet hmem
    exact ⟨source, node, hnode, hsource.symm.trans hpackage, target, hmem, hother⟩
  · intro h
    obtain ⟨source, node, hnode, hpackage, target, hmem, hother⟩ := h
    obtain ⟨found, hfound, hsource⟩ := exists_node_of_mem_callSet hmem
    obtain rfl : found = node := Option.some.inj (hfound.symm.trans hnode)
    exact ⟨source, target, hmem, hsource.trans hpackage, hother⟩

end Assembly

namespace CallGraph

variable {findings : List Finding} {record other : PackageRecord}

/-- One package has another as a dependency exactly when a call leads from the first to the
second. -/
theorem mem_dependencies_assemble {name : String}
    (h : record ∈ (assemble (Tables.empty.enterAll findings)).packages) :
    name ∈ record.dependencies ↔
      (Tables.empty.enterAll findings).CallsBetween record.name name ∧ name ≠ record.name := by
  rw [mem_dependencies_run (mem_assemble_packages.mp h), Assembly.mem_packageCalls_iff]

/-- One package has another as a dependent exactly when a call leads from the second to the
first. -/
theorem mem_dependents_assemble {name : String}
    (h : record ∈ (assemble (Tables.empty.enterAll findings)).packages) :
    name ∈ record.dependents ↔
      (Tables.empty.enterAll findings).CallsBetween name record.name ∧ name ≠ record.name := by
  rw [mem_dependents_run (mem_assemble_packages.mp h), Assembly.mem_packageCalls_iff]

/-- Of two packages with records, the first depends on the second exactly when the second has the
first as a dependent, and both say that a call leads from the first to the second. No record lists
its own package. -/
theorem assemble_dependencies_inverse (findings : List Finding) :
    (∀ record ∈ (assemble (Tables.empty.enterAll findings)).packages,
      ∀ other ∈ (assemble (Tables.empty.enterAll findings)).packages, record.name ≠ other.name →
        (other.name ∈ record.dependencies ↔ record.name ∈ other.dependents) ∧
        (record.name ∈ other.dependents ↔
          (Tables.empty.enterAll findings).CallsBetween record.name other.name)) ∧
    ∀ record ∈ (assemble (Tables.empty.enterAll findings)).packages,
      record.name ∉ record.dependencies ∧ record.name ∉ record.dependents := by
  refine ⟨?_, ?_⟩
  · intro record hrecord other hother hne
    have hdependencies : other.name ∈ record.dependencies ↔
        (Tables.empty.enterAll findings).CallsBetween record.name other.name := by
      rw [mem_dependencies_assemble hrecord, and_iff_left hne.symm]
    have hdependents : record.name ∈ other.dependents ↔
        (Tables.empty.enterAll findings).CallsBetween record.name other.name := by
      rw [mem_dependents_assemble hother, and_iff_left hne]
    exact ⟨hdependencies.trans hdependents.symm, hdependents⟩
  · intro record hrecord
    rw [mem_dependencies_assemble hrecord, mem_dependents_assemble hrecord]
    exact ⟨fun h => h.2 rfl, fun h => h.2 rfl⟩

end CallGraph

/-- Two packages that call each other. What `pay` calls is called by a source without a declaration,
whose id alone would give it the package `pay.jobs`; it is in `pay` as the target of an earlier
call. -/
def Findings.sharedJob : List Finding :=
  [.classFound ⟨"CartAction", "cart", true, none, ∅, ∅⟩,
   .methodFound ⟨"cart.CartAction.add", "cart", "CartAction", "add", true, .publicAccess, false,
    .empty, ∅⟩,
   .callsFound "cart.CartAction.add" (.ofList [CallTarget.inClass "pay" "jobs" "run"]),
   .classFound ⟨"PayAction", "pay", true, none, ∅, ∅⟩,
   .callsFound "pay.jobs.run" (.ofList [CallTarget.inClass "cart" "CartAction" "add"])]

theorem assemble_dependencies_inverse_sharedJob :
    ∃ cart pay, (CallGraph.assemble (Tables.empty.enterAll Findings.sharedJob)).packages =
        [cart, pay] ∧ cart.name ≠ pay.name ∧
      pay.name ∈ cart.dependents ∧ cart.name ∈ pay.dependencies ∧ pay.name ∉ pay.dependencies ∧
      (Tables.empty.enterAll Findings.sharedJob).CallsBetween "pay" "cart" := by
  have hpackages : (CallGraph.assemble (Tables.empty.enterAll Findings.sharedJob)).packages =
      [⟨"cart", 1, 1, .ofList ["pay"], .ofList ["pay"]⟩,
       ⟨"pay", 0, 1, .ofList ["cart"], .ofList ["cart"]⟩] := by
    decide +kernel
  have hdependent : "pay" ∈ (.ofList ["pay"] : NameSet) := by decide
  obtain ⟨hinverse, hself⟩ := CallGraph.assemble_dependencies_inverse Findings.sharedJob
  rw [hpackages] at hinverse hself
  obtain ⟨hdependency, hcalls⟩ := hinverse _ (.tail _ (.head _)) _ (.head _) (by decide)
  exact ⟨_, _, hpackages, by decide, hdependent, hdependency.mpr hdependent,
    (hself _ (.tail _ (.head _))).1, hcalls.mp hdependent⟩

end ActionCalls
