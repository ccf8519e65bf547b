import ActionCalls.Proofs.Analysis.OwnPackage
import ActionCalls.Proofs.Scan.Totals

/-!
# Nodes are declared or synthesized

Every node of an analysis is of one of two kinds. It is **declared** by an action class, and then the
graph has a record of this class; or it is **synthesized** from calls alone, and then it has no class,
no metadata and no calls of its own, but a caller.

A call to a method of the calling class never makes a node, since the method is declared in the file
of the call. So a synthesized node comes from a call to a name in a package. Where such a name happens
to be the id of a declared method, as in a package named like a class, the declaration wins and the
node is declared.
-/

namespace ActionCalls

/-! ### The two kinds -/

/-- The node of a method that a recorded action class declares. -/
structure MethodNode.IsDeclared (graph : CallGraph) (node : MethodNode) : Prop where
  isAction : node.isAction = true
  id_eq : node.id = node.package ++ "." ++ node.owner ++ "." ++ node.method
  recorded : ∃ c ∈ graph.classes, c.package = node.package ∧ c.name = node.owner

instance (graph : CallGraph) : DecidablePred (MethodNode.IsDeclared graph) := fun node =>
  decidable_of_iff
    (node.isAction = true ∧ node.id = node.package ++ "." ++ node.owner ++ "." ++ node.method ∧
      ∃ c ∈ graph.classes, c.package = node.package ∧ c.name = node.owner)
    ⟨fun h => ⟨h.1, h.2.1, h.2.2⟩, fun h => ⟨h.isAction, h.id_eq, h.recorded⟩⟩

/-- The node of a method that is known from calls alone. -/
structure MethodNode.IsSynthesized (node : MethodNode) : Prop where
  isAction : node.isAction = false
  owner : node.owner = ""
  id_eq : node.id = node.package ++ "." ++ node.method
  accessLevel : node.accessLevel = .packageAccess
  isStatic : node.isStatic = false
  annotations : node.annotations = ∅
  outgoingCalls : node.statistics.outgoingCalls = 0
  calls : node.statistics.calls = ∅
  incomingCalls : 1 ≤ node.statistics.incomingCalls

theorem MethodNode.IsDeclared.not_isSynthesized {graph : CallGraph} {node : MethodNode}
    (h : node.IsDeclared graph) : ¬ node.IsSynthesized := by
  intro hsynthesized
  have haction := h.isAction
  rw [hsynthesized.isAction] at haction
  exact absurd haction Bool.false_ne_true

namespace Scanner

variable {scanner : Scanner} {texts : List Text}

/-! ### Recorded classes -/

/-- The class of a file has a record, perhaps that of another file with the same class. -/
theorem exists_class_of_mem_texts {s : Text} {c : ClassRecord} (hmem : s ∈ texts)
    (hclass : scanner.classRecord? s = some c) :
    ∃ last ∈ (CallGraph.assemble (scanner.scanAll .empty texts)).classes,
      last.package = c.package ∧ last.name = c.name := by
  have hrecorded : ∃ recorded ∈ Findings.classes (scanner.allFindings texts),
      recorded.qualifiedName = c.qualifiedName := by
    rw [classes_allFindings]
    exact ⟨c, List.mem_filterMap.mpr ⟨s, hmem, hclass⟩, rfl⟩
  obtain ⟨last, hlast, hname⟩ := CallGraph.exists_assemble_class_iff.mpr hrecorded
  rw [← scanAll_eq_enterAll] at hlast
  obtain ⟨s', -, hclass'⟩ := exists_text_of_mem_classes hlast
  exact ⟨last, hlast, eq_of_qualifiedName_eq hclass' hclass hname⟩

/-! ### Declared nodes -/

theorem isAction_of_classRecord? (hsuffix : scanner.actionSuffix = scanner.classSuffix) {s : Text}
    {c : ClassRecord} (h : scanner.classRecord? s = some c) : c.isAction = true := by
  rw [(classRecord?_inv h).2.2, hsuffix, List.isSuffixOf_iff_suffix]
  exact (isSuffixed_name h).suffix

/-- A node that is found under a declared id is declared. -/
theorem isDeclared_of_mem_nodes (hsuffix : scanner.actionSuffix = scanner.classSuffix)
    {node : MethodNode} {id : String}
    (hnode : (Assembly.run (scanner.scanAll .empty texts)).nodes[id]? = some node)
    (hmem : id ∈ (scanner.scanAll .empty texts).nodes) :
    node.IsDeclared (CallGraph.assemble (scanner.scanAll .empty texts)) := by
  obtain ⟨first, hfirst⟩ := Ordered.mem_iff_exists_getElem?.mp hmem
  obtain ⟨s, c, declaration, hdeclared, rfl, rfl⟩ := exists_declared_of_nodes hfirst
  obtain ⟨other, hother, houtline⟩ := hdeclared.exists_node
  obtain rfl := Option.some.inj (hnode.symm.trans hother)
  obtain ⟨hid, hpackage, howner, hmethod, haction⟩ := MethodNode.eq_of_outline_eq houtline
  obtain ⟨last, hlast, hplace⟩ := exists_class_of_mem_texts hdeclared.1 hdeclared.2.1
  refine ⟨?_, ?_, last, hlast, ?_⟩
  · rw [haction]
    exact isAction_of_classRecord? hsuffix hdeclared.2.1
  · rw [hid, hpackage, howner, hmethod]
    rfl
  · rw [hpackage, howner]
    exact hplace

/-! ### Synthesized nodes -/

/-- A node that is not declared is no source: no calls leave it. -/
theorem calls_of_not_mem_nodes {node : MethodNode} {id : String}
    (hnode : (Assembly.run (scanner.scanAll .empty texts)).nodes[id]? = some node)
    (hmem : id ∉ (scanner.scanAll .empty texts).nodes) :
    node.statistics.outgoingCalls = 0 ∧ node.statistics.calls = ∅ := by
  have hsource : id ∉ (scanner.scanAll .empty texts).calls := mt mem_nodes_of_mem_calls hmem
  refine ⟨?_, ?_⟩
  · have hnone : (scanner.scanAll .empty texts).nodes[id]? = none :=
      Std.ExtTreeMap.getElem?_eq_none hmem
    have houtgoing := Assembly.outgoing_run hsource
    rw [hnode, hnone] at houtgoing
    exact houtgoing
  · apply Std.ExtTreeSet.ext_mem
    intro callee
    refine iff_of_false ?_ Std.ExtTreeSet.not_mem_empty
    intro hcallee
    have hlink := ((counts_of_run_nodes hnode).calls callee).mp hcallee
    rw [keyed_scanAll scanner texts id node hnode] at hlink
    obtain ⟨target, htarget, -⟩ := CallGraph.mem_assemble_links.mp hlink
    exact hsource (Tables.mem_calls_of_mem_callSet htarget)

/-- A node that is called has a caller. -/
theorem incomingCalls_of_mem_callSet {node : MethodNode} {source : String} {target : CallTarget}
    (hnode : (Assembly.run (scanner.scanAll .empty texts)).nodes[target.id]? = some node)
    (hmem : target ∈ (scanner.scanAll .empty texts).callSet source) :
    1 ≤ node.statistics.incomingCalls := by
  have hcounts := counts_of_run_nodes hnode
  have hcaller : source ∈ node.statistics.calledBy := by
    rw [hcounts.calledBy, keyed_scanAll scanner texts _ node hnode, CallGraph.mem_assemble_links]
    exact ⟨target, hmem, rfl⟩
  rw [hcounts.incomingCalls, Nat.one_le_iff_ne_zero]
  intro hzero
  rw [Std.ExtTreeSet.eq_empty_iff_size_eq_zero.mpr hzero] at hcaller
  exact Std.ExtTreeSet.not_mem_empty hcaller

/-- A node that is found under an id that is not declared is synthesized, from a call to a name in
the package of its caller. -/
theorem isSynthesized_of_not_mem_nodes (hknown : scanner.KnowsPackages texts)
    {node : MethodNode} {id : String}
    (hnode : (Assembly.run (scanner.scanAll .empty texts)).nodes[id]? = some node)
    (hmem : id ∉ (scanner.scanAll .empty texts).nodes) : node.IsSynthesized := by
  cases Assembly.origin_of_run_nodes hnode with
  | declared first found =>
      exact absurd (Ordered.mem_iff_exists_getElem?.mpr ⟨first, found⟩) hmem
  | source undeclared hsource => exact absurd (mem_nodes_of_mem_calls hsource) undeclared
  | target undeclared source target htarget hid same =>
      subst hid
      have hcall := htarget
      rw [scanAll_eq_enterAll, Tables.mem_ofFindings_callSet] at hcall
      obtain ⟨s, c, declaration, hdeclared, -, hresolved⟩ := calls_allFindings.mp hcall
      rcases hdeclared.target_cases hknown hresolved with ⟨callee, hcallee, rfl⟩ | ⟨name, -, rfl⟩
      · -- A call to a method of the class makes no node: the file declares the method.
        have hlocal : scanner.Declared texts s c callee := ⟨hdeclared.1, hdeclared.2.1, hcallee⟩
        rw [scanAll_eq_enterAll, Tables.mem_ofFindings_nodes] at undeclared
        exact absurd hlocal.declares undeclared
      · obtain ⟨houtgoing, hcalls⟩ := calls_of_not_mem_nodes hnode hmem
        have hid : (CallTarget.inPackage c.package name).id = c.package ++ "." ++ name :=
          CallTarget.id_inPackage name (package_ne_empty hdeclared.2.1)
        rw [MethodNode.bare, MethodNode.synthesized, MethodNode.mk.injEq] at same
        obtain ⟨hnodeId, hpackage, howner, hmethod, haction, haccess, hstatic, -, hannotations⟩ :=
          same
        exact ⟨haction, howner, by rw [hnodeId, hpackage, hmethod, hid]; rfl, haccess, hstatic,
          hannotations, houtgoing, hcalls, incomingCalls_of_mem_callSet hnode htarget⟩

/-- A node is of exactly one kind. -/
theorem isDeclared_iff_not_isSynthesized (hsuffix : scanner.actionSuffix = scanner.classSuffix)
    (hknown : scanner.KnowsPackages texts) {node : MethodNode}
    (hmem : node ∈ (CallGraph.assemble (scanner.scanAll .empty texts)).nodes) :
    node.IsDeclared (CallGraph.assemble (scanner.scanAll .empty texts)) ↔ ¬ node.IsSynthesized := by
  refine ⟨fun h => h.not_isSynthesized, ?_⟩
  intro h
  have hnode := (CallGraph.mem_assemble_nodes (keyed_scanAll scanner texts)).mp hmem
  by_cases hdeclared : node.id ∈ (scanner.scanAll .empty texts).nodes
  · exact isDeclared_of_mem_nodes hsuffix hnode hdeclared
  · exact absurd (isSynthesized_of_not_mem_nodes hknown hnode hdeclared) h

/-- The nodes of methods that an action class declares are the declared ones. -/
theorem isAction_iff_isDeclared (hsuffix : scanner.actionSuffix = scanner.classSuffix)
    (hknown : scanner.KnowsPackages texts) {node : MethodNode}
    (hmem : node ∈ (CallGraph.assemble (scanner.scanAll .empty texts)).nodes) :
    node.isAction = true ↔ node.IsDeclared (CallGraph.assemble (scanner.scanAll .empty texts)) := by
  refine ⟨?_, fun h => h.isAction⟩
  intro haction
  rw [isDeclared_iff_not_isSynthesized hsuffix hknown hmem]
  intro hsynthesized
  rw [hsynthesized.isAction] at haction
  exact Bool.false_ne_true haction

/-! ### Packages -/

/-- The packages of the graph are those of its classes. -/
theorem exists_package_iff_exists_class {package : String} :
    (∃ record ∈ (CallGraph.assemble (scanner.scanAll .empty texts)).packages,
      record.name = package) ↔
      ∃ c ∈ (CallGraph.assemble (scanner.scanAll .empty texts)).classes, c.package = package := by
  rw [exists_package_iff]
  constructor
  · intro h
    obtain ⟨s, hs, c, hclass, rfl⟩ := h
    obtain ⟨last, hlast, hpackage, -⟩ := exists_class_of_mem_texts hs hclass
    exact ⟨last, hlast, hpackage⟩
  · intro h
    obtain ⟨c, hc, rfl⟩ := h
    obtain ⟨s, hs, hclass⟩ := exists_text_of_mem_classes hc
    exact ⟨s, hs, c, hclass, rfl⟩

end Scanner

/-! ### The nodes of an analysis -/

/-- **Nodes are declared or synthesized.** In the graph of an analysis every class is an action class
whose name has the suffix, and the packages are those of the classes. Every node is of exactly one
kind, and declared if it is the source of a link. The summary counts the declared nodes. -/
theorem analyze_nodeKinds {disk : Disk} {settings : AnalysisSettings} {blacklist : Blacklist}
    {root : String} {result : AnalysisResult}
    (h : analyze disk settings blacklist root = .ok result) :
    (∀ c ∈ result.graph.classes,
      c.isAction = true ∧ settings.actionSuffix.toList <:+ c.name.toList) ∧
    (∀ package, (∃ record ∈ result.graph.packages, record.name = package) ↔
      ∃ c ∈ result.graph.classes, c.package = package) ∧
    (∀ node ∈ result.graph.nodes, node.IsDeclared result.graph ↔ ¬ node.IsSynthesized) ∧
    (∀ link ∈ result.graph.links, ∃ node,
      result.graph.node? link.source = some node ∧ node.IsDeclared result.graph) ∧
    result.graph.summary.declaredNodes =
      result.graph.nodes.countP fun node => node.IsDeclared result.graph := by
  obtain ⟨paths, -, hgraph⟩ := scan_of_analyze h
  have hknown := knowsPackages_analysisScanner disk settings blacklist paths
  have hsuffix : (analysisScanner disk settings blacklist paths).actionSuffix =
      (analysisScanner disk settings blacklist paths).classSuffix := rfl
  have hkeyed := Scanner.keyed_scanAll (analysisScanner disk settings blacklist paths)
    (readableTexts disk paths)
  rw [hgraph]
  refine ⟨?_, ?_, ?_, ?_, ?_⟩
  · intro c hc
    obtain ⟨s, -, hclass⟩ := Scanner.exists_text_of_mem_classes hc
    exact ⟨Scanner.isAction_of_classRecord? hsuffix hclass, (Scanner.isSuffixed_name hclass).suffix⟩
  · intro package
    exact Scanner.exists_package_iff_exists_class
  · intro node hnode
    exact Scanner.isDeclared_iff_not_isSynthesized hsuffix hknown hnode
  · intro link hlink
    obtain ⟨target, htarget, -⟩ := CallGraph.mem_assemble_links.mp hlink
    have hsource := Scanner.mem_nodes_of_mem_calls (Tables.mem_calls_of_mem_callSet htarget)
    obtain ⟨node, hnode⟩ := Ordered.mem_iff_exists_getElem?.mp
      (Assembly.mem_run_nodes.mpr (Or.inl hsource))
    rw [CallGraph.node?_assemble hkeyed]
    exact ⟨node, hnode, Scanner.isDeclared_of_mem_nodes hsuffix hnode hsource⟩
  · refine List.countP_congr ?_
    intro node hnode
    rw [decide_eq_true_eq]
    exact Scanner.isAction_iff_isDeclared hsuffix hknown hnode

theorem analyze_nodeKinds_shop :
    ∃ result, analyze Disk.shop {} ∅ "/" = .ok result ∧
      (∃ node ∈ result.graph.nodes, node.id = "cart.pay" ∧ node.IsSynthesized) ∧
      ∃ node, result.graph.node? "cart.CartAction.add" = some node ∧
        node.IsDeclared result.graph := by
  obtain ⟨result, hresult, hlinks, hnodes⟩ := Disk.analyze_shop
  obtain ⟨-, -, hkinds, hsources, -⟩ := analyze_nodeKinds hresult
  have hpay : ("cart.pay", false) ∈ result.graph.nodes.map fun node => (node.id, node.isAction) := by
    rw [hnodes]
    exact .tail _ (.head _)
  obtain ⟨node, hnode, hfields⟩ := List.mem_map.mp hpay
  obtain ⟨hid, haction⟩ := Prod.mk.inj hfields
  have hnot : ¬ node.IsDeclared result.graph := fun h =>
    Bool.false_ne_true (haction.symm.trans h.isAction)
  have hsynthesized := Classical.not_not.mp (mt (hkinds node hnode).mpr hnot)
  have hadd : ⟨"cart.CartAction.add", "cart.pay"⟩ ∈ result.graph.links := by
    rw [hlinks]
    exact .tail _ (.head _)
  exact ⟨result, hresult, ⟨node, hnode, hid, hsynthesized⟩, hsources _ hadd⟩

end ActionCalls
