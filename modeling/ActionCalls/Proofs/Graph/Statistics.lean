import ActionCalls.Proofs.Graph.Closure

/-!
# The statistics of a graph are read off its links

While a graph is assembled the statistics of its nodes change at every call: a source overwrites
the calls that leave it, and a target counts a caller unless it knows it already. The links are
collected apart from that. In the result the two agree: a node is called by the sources of the links
that lead to it, it counts each of them once, and it calls the targets of the links that leave it.

The run is again followed one id at a time. Along the visits to a node, the callers are those of the
sources **visited so far** that call it (`mem_callers_visit`), and the calls are those of the last
visit by the node's own id (`mem_callees_visit`), of which there is one at most, since the sources
of a call table are distinct.
-/

namespace ActionCalls

/-! ### Statistics that agree with links -/

/-- The statistics of a node are those of its links. -/
structure MethodNode.Counts (node : MethodNode) (links : List CallLink) : Prop where
  calledBy : ∀ caller, caller ∈ node.statistics.calledBy ↔ ⟨caller, node.id⟩ ∈ links
  incomingCalls : node.statistics.incomingCalls = node.statistics.calledBy.size
  calls : ∀ callee, callee ∈ node.statistics.calls ↔ ⟨node.id, callee⟩ ∈ links

/-- Every method is declared without statistics. -/
def Findings.DeclaredFresh (findings : List Finding) : Prop :=
  ∀ node, .methodFound node ∈ findings → node.statistics = .empty

/-! ### One more caller -/

namespace MethodNode

variable {source : String} {node : MethodNode}

/-- A caller is counted when it is new, and only then. -/
theorem counts_calledFrom (h : node.statistics.incomingCalls = node.statistics.calledBy.size) :
    (node.calledFrom source).statistics.incomingCalls =
      (node.calledFrom source).statistics.calledBy.size := by
  unfold calledFrom
  split
  case isTrue => exact h
  case isFalse hnew =>
      show node.statistics.incomingCalls + 1 = (node.statistics.calledBy.insert source).size
      rw [Std.ExtTreeSet.size_insert, if_neg (by simpa using hnew), h]

@[simp] theorem calls_calledFrom (node : MethodNode) (source : String) :
    (node.calledFrom source).statistics.calls = node.statistics.calls := by
  unfold calledFrom
  split <;> rfl

@[simp] theorem outgoingCalls_calledFrom (node : MethodNode) (source : String) :
    (node.calledFrom source).statistics.outgoingCalls = node.statistics.outgoingCalls := by
  unfold calledFrom
  split <;> rfl

end MethodNode

namespace Assembly

/-! ### The statistics of a node that may be missing -/

/-- The callers of a node, none if there is no node. -/
def callers (node? : Option MethodNode) : NameSet :=
  node?.elim ∅ (·.statistics.calledBy)

/-- The calls of a node, none if there is no node. -/
def callees (node? : Option MethodNode) : NameSet :=
  node?.elim ∅ (·.statistics.calls)

/-- The number of calls that a node is given as a source, none if there is no node. -/
def outgoing (node? : Option MethodNode) : Nat :=
  node?.elim 0 (·.statistics.outgoingCalls)

/-- Does the node, if there is one, count each caller once? -/
def Counted (node? : Option MethodNode) : Prop :=
  ∀ node, node? = some node → node.statistics.incomingCalls = node.statistics.calledBy.size

@[simp] theorem callers_getD (node? : Option MethodNode) (target : CallTarget) :
    (node?.getD (.synthesized target)).statistics.calledBy = callers node? := by
  cases node? <;> rfl

@[simp] theorem callees_getD (node? : Option MethodNode) (target : CallTarget) :
    (node?.getD (.synthesized target)).statistics.calls = callees node? := by
  cases node? <;> rfl

@[simp] theorem outgoing_getD (node? : Option MethodNode) (target : CallTarget) :
    (node?.getD (.synthesized target)).statistics.outgoingCalls = outgoing node? := by
  cases node? <;> rfl

theorem counted_getD {node? : Option MethodNode} (h : Counted node?) (target : CallTarget) :
    (node?.getD (.synthesized target)).statistics.incomingCalls =
      (node?.getD (.synthesized target)).statistics.calledBy.size := by
  cases node? with
  | none => rfl
  | some node => exact h node rfl

theorem callers_of_fresh {node? : Option MethodNode}
    (h : ∀ node, node? = some node → node.statistics = .empty) : callers node? = ∅ := by
  cases node? with
  | none => rfl
  | some node => exact congrArg CallStatistics.calledBy (h node rfl)

theorem callees_of_fresh {node? : Option MethodNode}
    (h : ∀ node, node? = some node → node.statistics = .empty) : callees node? = ∅ := by
  cases node? with
  | none => rfl
  | some node => exact congrArg CallStatistics.calls (h node rfl)

/-! ### One visit -/

variable {id source : String} {targets : Std.ExtTreeSet CallTarget} {node? : Option MethodNode}

theorem callers_visitSource : callers (visitSource id source targets node?) = callers node? := by
  unfold visitSource
  split
  · exact callers_getD node? _
  · rfl

theorem counted_visitSource (h : Counted node?) :
    Counted (visitSource id source targets node?) := by
  unfold visitSource
  split
  · intro node hnode
    obtain rfl := Option.some.inj hnode
    exact counted_getD h _
  · exact h

theorem mem_callees_visitSource {callee : String} :
    callee ∈ callees (visitSource id source targets node?) ↔
      if source = id then ∃ target : CallTarget, target ∈ targets ∧ target.id = callee
      else callee ∈ callees node? := by
  unfold visitSource
  split
  · show callee ∈ Std.ExtTreeSet.ofList (targets.toList.map CallTarget.id) ↔ _
    simp [Std.ExtTreeSet.mem_ofList, Std.ExtTreeSet.mem_toList]
  · exact Iff.rfl

theorem mem_callers_visitTarget {called : List CallTarget} {caller : String} :
    caller ∈ callers (visitTarget id source called node?) ↔
      caller ∈ callers node? ∨ source = caller ∧ ∃ target ∈ called, target.id = id := by
  unfold visitTarget
  split
  case h_1 target hfound =>
      have hcalled : ∃ target ∈ called, target.id = id :=
        ⟨target, List.mem_of_find?_eq_some hfound, by simpa using List.find?_some hfound⟩
      show caller ∈ (MethodNode.calledFrom _ source).statistics.calledBy ↔ _
      rw [MethodNode.mem_calledBy_calledFrom, callers_getD, and_iff_left hcalled]
  case h_2 hnone =>
      refine (or_iff_left ?_).symm
      intro h
      obtain ⟨-, target, hmem, hid⟩ := h
      exact List.find?_eq_none.mp hnone target hmem (by simpa using hid)

theorem counted_visitTarget {called : List CallTarget} (h : Counted node?) :
    Counted (visitTarget id source called node?) := by
  unfold visitTarget
  split
  · intro node hnode
    obtain rfl := Option.some.inj hnode
    exact MethodNode.counts_calledFrom (counted_getD h _)
  · exact h

theorem callees_visitTarget {called : List CallTarget} :
    callees (visitTarget id source called node?) = callees node? := by
  unfold visitTarget
  split
  · show (MethodNode.calledFrom _ source).statistics.calls = _
    rw [MethodNode.calls_calledFrom, callees_getD]
  · rfl

theorem outgoing_visitSource :
    outgoing (visitSource id source targets node?) =
      if source = id then targets.size else outgoing node? := by
  unfold visitSource
  split <;> rfl

theorem outgoing_visitTarget {called : List CallTarget} :
    outgoing (visitTarget id source called node?) = outgoing node? := by
  unfold visitTarget
  split
  · show (MethodNode.calledFrom _ source).statistics.outgoingCalls = _
    rw [MethodNode.outgoingCalls_calledFrom, outgoing_getD]
  · rfl

/-! ### All visits -/

theorem outgoing_visit {entry : String × Std.ExtTreeSet CallTarget} :
    outgoing (visit id node? entry) = if entry.1 = id then entry.2.size else outgoing node? := by
  rw [visit, outgoing_visitTarget, outgoing_visitSource]

/-- A node whose id is not among the sources keeps its number of calls. -/
theorem outgoing_foldl_visit {entries : List (String × Std.ExtTreeSet CallTarget)}
    (hne : ∀ entry ∈ entries, entry.1 ≠ id) :
    outgoing (entries.foldl (visit id) node?) = outgoing node? := by
  induction entries generalizing node? with
  | nil => rfl
  | cons entry rest ih =>
      obtain ⟨hhead, hrest⟩ := List.forall_mem_cons.mp hne
      rw [List.foldl_cons, ih hrest, outgoing_visit, if_neg hhead]

theorem mem_callers_visit {entry : String × Std.ExtTreeSet CallTarget} {caller : String} :
    caller ∈ callers (visit id node? entry) ↔
      caller ∈ callers node? ∨
        entry.1 = caller ∧ ∃ target : CallTarget, target ∈ entry.2 ∧ target.id = id := by
  rw [visit, mem_callers_visitTarget, callers_visitSource]
  simp [Std.ExtTreeSet.mem_toList]

theorem mem_callees_visit {entry : String × Std.ExtTreeSet CallTarget} {callee : String} :
    callee ∈ callees (visit id node? entry) ↔
      if entry.1 = id then ∃ target : CallTarget, target ∈ entry.2 ∧ target.id = callee
      else callee ∈ callees node? := by
  rw [visit, callees_visitTarget, mem_callees_visitSource]

theorem counted_visit {entry : String × Std.ExtTreeSet CallTarget} (h : Counted node?) :
    Counted (visit id node? entry) :=
  counted_visitTarget (counted_visitSource h)

theorem mem_callers_foldl_visit {entries : List (String × Std.ExtTreeSet CallTarget)}
    {caller : String} :
    caller ∈ callers (entries.foldl (visit id) node?) ↔
      caller ∈ callers node? ∨
        ∃ entry ∈ entries, entry.1 = caller ∧
          ∃ target : CallTarget, target ∈ entry.2 ∧ target.id = id := by
  induction entries generalizing node? with
  | nil => simp
  | cons entry rest ih =>
      rw [List.foldl_cons, ih, mem_callers_visit, or_assoc]
      simp

/-- As the sources are distinct, the node is visited by its own id once at most; before and after
that its calls do not change. -/
theorem mem_callees_foldl_visit {entries : List (String × Std.ExtTreeSet CallTarget)}
    (hdistinct : entries.Pairwise fun a b => a.1 ≠ b.1) {callee : String} :
    callee ∈ callees (entries.foldl (visit id) node?) ↔
      (∃ entry ∈ entries, entry.1 = id ∧
        ∃ target : CallTarget, target ∈ entry.2 ∧ target.id = callee) ∨
      (∀ entry ∈ entries, entry.1 ≠ id) ∧ callee ∈ callees node? := by
  induction entries generalizing node? with
  | nil => simp
  | cons entry rest ih =>
      obtain ⟨hhead, hrest⟩ := List.pairwise_cons.mp hdistinct
      rw [List.foldl_cons, ih hrest, mem_callees_visit]
      by_cases hid : entry.1 = id
      · -- This is the visit by the own id, and no later one overwrites what it sets.
        have hne : ∀ other ∈ rest, other.1 ≠ id := fun other hmem heq =>
          hhead other hmem (hid.trans heq.symm)
        have hnot : ¬ ∃ other ∈ rest, other.1 = id ∧
            ∃ target : CallTarget, target ∈ other.2 ∧ target.id = callee := by
          intro h
          obtain ⟨other, hmem, heq, -⟩ := h
          exact hne other hmem heq
        rw [if_pos hid, or_iff_right hnot, and_iff_right hne]
        simp only [List.mem_cons, exists_eq_or_imp, hid, true_and, or_iff_left hnot,
          forall_eq_or_imp, ne_eq, not_true_eq_false, false_and, or_false]
      · rw [if_neg hid]
        simp [hid]

theorem counted_foldl_visit {entries : List (String × Std.ExtTreeSet CallTarget)}
    (h : Counted node?) : Counted (entries.foldl (visit id) node?) := by
  induction entries generalizing node? with
  | nil => exact h
  | cons entry rest ih => exact ih (counted_visit h)

/-! ### The assembled tables -/

variable {tables : Tables}

/-- The call table has one entry for a source. -/
theorem sources_distinct (tables : Tables) :
    tables.calls.toList.Pairwise fun a b => a.1 ≠ b.1 := by
  refine Std.ExtTreeMap.distinct_keys_toList.imp ?_
  intro a b hab heq
  exact hab (Std.LawfulEqCmp.compare_eq_iff_eq.mpr heq)

theorem mem_callers_run (hfresh : callers tables.nodes[id]? = ∅) {caller : String} :
    caller ∈ callers (run tables).nodes[id]? ↔
      ∃ target ∈ tables.callSet caller, target.id = id := by
  rw [run_nodes_getElem?, mem_callers_foldl_visit, Tables.exists_entry_iff, hfresh]
  exact or_iff_right Std.ExtTreeSet.not_mem_empty

theorem mem_callees_run (hfresh : callees tables.nodes[id]? = ∅) {callee : String} :
    callee ∈ callees (run tables).nodes[id]? ↔
      ∃ target ∈ tables.callSet id, target.id = callee := by
  rw [run_nodes_getElem?, mem_callees_foldl_visit (sources_distinct tables),
    Tables.exists_entry_iff, hfresh]
  exact or_iff_left fun h => Std.ExtTreeSet.not_mem_empty h.2

theorem outgoing_run (hsource : id ∉ tables.calls) :
    outgoing (run tables).nodes[id]? = outgoing tables.nodes[id]? := by
  rw [run_nodes_getElem?]
  refine outgoing_foldl_visit ?_
  intro entry hentry hid
  rw [Std.ExtTreeMap.mem_toList_iff_getElem?_eq_some, hid] at hentry
  exact hsource (Ordered.mem_iff_exists_getElem?.mpr ⟨entry.2, hentry⟩)

end Assembly

/-! ### The assembled graph -/

namespace CallGraph

variable {findings : List Finding}

theorem hasLink_iff {graph : CallGraph} {source target : String} :
    graph.hasLink source target ↔ ⟨source, target⟩ ∈ graph.links := by
  rw [hasLink, List.contains_iff_mem]

/-- Where nodes stand under their own ids and none starts with statistics, the statistics of every
node are those of its links. -/
theorem counts_of_mem_assemble {tables : Tables} (hkeyed : Keyed tables)
    (hfresh : ∀ (id : String) first, tables.nodes[id]? = some first → first.statistics = .empty)
    {node : MethodNode} (hmem : node ∈ (assemble tables).nodes) :
    node.Counts (assemble tables).links := by
  have hnode := (mem_assemble_nodes hkeyed).mp hmem
  -- The visits start from no statistics, whether the node is declared or not.
  have hcallers := Assembly.callers_of_fresh (hfresh node.id)
  have hcallees := Assembly.callees_of_fresh (hfresh node.id)
  have hcounted : Assembly.Counted tables.nodes[node.id]? := by
    intro first hfirst
    rw [hfresh node.id first hfirst]
    rfl
  refine ⟨?_, ?_, ?_⟩
  · intro caller
    rw [mem_assemble_links, ← Assembly.mem_callers_run hcallers, hnode]
    exact Iff.rfl
  · rw [Assembly.run_nodes_getElem?] at hnode
    exact Assembly.counted_foldl_visit hcounted node hnode
  · intro callee
    rw [mem_assemble_links, ← Assembly.mem_callees_run hcallees, hnode]
    exact Iff.rfl

theorem statistics_of_declaredFresh (hfresh : Findings.DeclaredFresh findings) (id : String)
    (first : MethodNode) (hfirst : (Tables.empty.enterAll findings).nodes[id]? = some first) :
    first.statistics = .empty :=
  hfresh first (Tables.methodFound_of_ofFindings_nodes hfirst)

/-- Every node of the assembled graph is called by the sources of the links into it, counts each of
them once, and calls the targets of the links out of it. So for two nodes it is the same whether the
first calls the second, the second is called by the first, or a link leads from one to the other. -/
theorem assemble_statistics (hqualified : Findings.SourcesQualified findings)
    (hfresh : Findings.DeclaredFresh findings) :
    (∀ node ∈ (assemble (Tables.empty.enterAll findings)).nodes,
      node.Counts (assemble (Tables.empty.enterAll findings)).links) ∧
    ∀ s ∈ (assemble (Tables.empty.enterAll findings)).nodes,
      ∀ t ∈ (assemble (Tables.empty.enterAll findings)).nodes,
        (t.id ∈ s.statistics.calls ↔ s.id ∈ t.statistics.calledBy) ∧
        (s.id ∈ t.statistics.calledBy ↔
          (assemble (Tables.empty.enterAll findings)).hasLink s.id t.id) := by
  have hcounts : ∀ node ∈ (assemble (Tables.empty.enterAll findings)).nodes,
      node.Counts (assemble (Tables.empty.enterAll findings)).links := fun node hmem =>
    counts_of_mem_assemble (keyed_of_sourcesQualified hqualified)
      (statistics_of_declaredFresh hfresh) hmem
  refine ⟨hcounts, ?_⟩
  intro s hs t ht
  have hout := (hcounts s hs).calls t.id
  have hin := (hcounts t ht).calledBy s.id
  rw [hasLink_iff]
  exact ⟨hout.trans hin.symm, hin⟩

end CallGraph

theorem assemble_statistics_undeclaredJob :
    Findings.SourcesQualified Findings.undeclaredJob ∧
      Findings.DeclaredFresh Findings.undeclaredJob ∧
      ∀ node ∈ (CallGraph.assemble (Tables.empty.enterAll Findings.undeclaredJob)).nodes,
        node.Counts (CallGraph.assemble (Tables.empty.enterAll Findings.undeclaredJob)).links := by
  have hqualified := Findings.sourcesQualified_undeclaredJob
  have hfresh : Findings.DeclaredFresh Findings.undeclaredJob := by
    intro node hmem
    simp only [Findings.undeclaredJob, List.mem_cons, reduceCtorEq, List.not_mem_nil, or_false,
      false_or, Finding.methodFound.injEq] at hmem
    rw [hmem]
  exact ⟨hqualified, hfresh, (CallGraph.assemble_statistics hqualified hfresh).1⟩

end ActionCalls
