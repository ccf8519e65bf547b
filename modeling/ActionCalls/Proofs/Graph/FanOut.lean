import ActionCalls.Proofs.Graph.Degrees

/-!
# Outgoing calls count targets

The callers of a node are counted as they are found, each id once. So a node has as many incoming
calls as callers, and as many as links lead to it.

The outgoing calls are not counted in this way: they are the size of the **call set** of the node, and
this is a set of targets and not of ids. Two targets may have one id, since `p.C.m` is the method `m`
of the class `C` of `p` and also the method `m` of the package `p.C`. Such targets are one call and one
link, but two outgoing calls (`not_fanOutCountsLinks_payTwice`). So there are at least as many outgoing
calls as links that leave a node, and as many only where no two targets of the node share an id.
-/

namespace ActionCalls

namespace Findings

/-- Are all sources of calls declared? -/
def SourcesDeclared (findings : List Finding) : Prop :=
  ∀ source, CallsFrom findings source → Declares findings source

theorem SourcesDeclared.qualified {findings : List Finding} (h : SourcesDeclared findings) :
    SourcesQualified findings :=
  fun source hcalls hdeclares => absurd (h source hcalls) hdeclares

/-- Are the outgoing calls of each source, in the graph of some findings, as many as its calls and as
the links that leave it? -/
def FanOutCountsLinks (findings : List Finding) : Prop :=
  let graph := CallGraph.assemble (Tables.empty.enterAll findings)
  ∀ node ∈ graph.nodes, CallsFrom findings node.id →
    node.statistics.outgoingCalls = node.statistics.calls.size ∧
      node.statistics.outgoingCalls = graph.links.countP fun link => link.source = node.id

end Findings

/-- What the numbers in the statistics of a node count: the links that lead to it, and its targets. -/
structure MethodNode.CountsTargets (node : MethodNode) (tables : Tables) (links : List CallLink) :
    Prop where
  incoming_eq_calledBy : node.statistics.incomingCalls = node.statistics.calledBy.size
  incoming_eq_links :
    node.statistics.incomingCalls = links.countP fun link => link.target = node.id
  outgoing_eq_targets : node.statistics.outgoingCalls = (tables.callSet node.id).size
  calls_eq_links : node.statistics.calls.size = links.countP fun link => link.source = node.id
  calls_le_outgoing : node.statistics.calls.size ≤ node.statistics.outgoingCalls
  calls_eq_outgoing_iff :
    node.statistics.calls.size = node.statistics.outgoingCalls ↔ tables.TargetsApart node.id

namespace CallGraph

variable {tables : Tables} {node : MethodNode} {findings : List Finding}

theorem countsTargets_of_mem_assemble (hkeyed : Keyed tables)
    (hfresh : ∀ (id : String) first, tables.nodes[id]? = some first → first.statistics = .empty)
    (hmem : node ∈ (assemble tables).nodes) :
    node.CountsTargets tables (assemble tables).links := by
  have hcounts := counts_of_mem_assemble hkeyed hfresh hmem
  have hdistinct := (closed_of_keyed hkeyed).links_distinct
  have houtgoing := outgoingCalls_of_mem_assemble hkeyed hfresh hmem
  exact {
    incoming_eq_calledBy := hcounts.incomingCalls
    incoming_eq_links := hcounts.incomingCalls.trans (hcounts.size_calledBy hdistinct)
    outgoing_eq_targets := houtgoing
    calls_eq_links := hcounts.size_calls hdistinct
    calls_le_outgoing := houtgoing ▸ size_calls_le hcounts
    calls_eq_outgoing_iff := houtgoing ▸ size_calls_eq_iff hcounts }

/-- **Incoming calls count links, outgoing calls count targets.** So a node of a graph has as many
outgoing calls as links leave it exactly when its targets do not share ids, and more otherwise. -/
theorem countsTargets_assemble (hqualified : Findings.SourcesQualified findings)
    (hfresh : Findings.DeclaredFresh findings) :
    ∀ node ∈ (assemble (Tables.empty.enterAll findings)).nodes,
      node.CountsTargets (Tables.empty.enterAll findings)
        (assemble (Tables.empty.enterAll findings)).links := by
  intro node hmem
  exact countsTargets_of_mem_assemble (keyed_of_sourcesQualified hqualified)
    (statistics_of_declaredFresh hfresh) hmem

end CallGraph

namespace Findings

/-- A declared method with a call to the method `pay` of its class and one to the method `pay` of a
package that is called like the class. -/
def payTwice : List Finding :=
  [.classFound ⟨"CartAction", "shop", true, none, ∅, ∅⟩,
   .methodFound ⟨"shop.CartAction.add", "shop", "CartAction", "add", true, .packageAccess, false,
    .empty, ∅⟩,
   .callsFound "shop.CartAction.add"
    (Std.ExtTreeSet.ofList [CallTarget.inPackage "shop.CartAction" "pay",
      CallTarget.inClass "shop" "CartAction" "pay"])]

theorem sourcesDeclared_payTwice : SourcesDeclared payTwice := by
  intro source hcalls
  obtain ⟨targets, hmem⟩ := hcalls
  simp only [payTwice, List.mem_cons, reduceCtorEq, List.not_mem_nil, or_false, false_or,
    Finding.callsFound.injEq] at hmem
  exact ⟨_, .tail _ (.head _), hmem.1.symm⟩

theorem declaredFresh_payTwice : DeclaredFresh payTwice := by
  intro node hmem
  simp only [payTwice, List.mem_cons, reduceCtorEq, List.not_mem_nil, or_false, false_or,
    Finding.methodFound.injEq] at hmem
  rw [hmem]

/-- The two calls have one id, so they are one link, but they are counted as two. -/
theorem exists_node_payTwice :
    ∃ node ∈ (CallGraph.assemble (Tables.empty.enterAll payTwice)).nodes,
      node.id = "shop.CartAction.add" ∧ node.statistics.outgoingCalls = 2 ∧
        node.statistics.calls.size = 1 := by
  decide +kernel

end Findings

theorem CallGraph.countsTargets_payTwice :
    Findings.SourcesQualified Findings.payTwice ∧ Findings.DeclaredFresh Findings.payTwice ∧
      ¬ (Tables.empty.enterAll Findings.payTwice).TargetsApart "shop.CartAction.add" := by
  have hqualified := Findings.sourcesDeclared_payTwice.qualified
  have hfresh := Findings.declaredFresh_payTwice
  refine ⟨hqualified, hfresh, ?_⟩
  obtain ⟨node, hmem, hid, houtgoing, hcalls⟩ := Findings.exists_node_payTwice
  have hcounts := countsTargets_assemble hqualified hfresh node hmem
  rw [← hid, ← hcounts.calls_eq_outgoing_iff, houtgoing, hcalls]
  decide

/-- The outgoing calls of a declared source may be more than the links that leave it. -/
theorem Findings.not_fanOutCountsLinks_payTwice :
    SourcesDeclared payTwice ∧ DeclaredFresh payTwice ∧ ¬ FanOutCountsLinks payTwice := by
  refine ⟨sourcesDeclared_payTwice, declaredFresh_payTwice, ?_⟩
  intro hcounts
  obtain ⟨node, hmem, hid, houtgoing, hcalls⟩ := exists_node_payTwice
  have hsource : CallsFrom payTwice node.id := hid ▸ ⟨_, .tail _ (.tail _ (.head _))⟩
  have heq := (hcounts node hmem hsource).1
  rw [houtgoing, hcalls] at heq
  cases heq

end ActionCalls
