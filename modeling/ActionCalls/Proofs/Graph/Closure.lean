import ActionCalls.Proofs.Graph.Visit

/-!
# Assembled graphs are closed

A graph assembled from any list of findings has **one node for each id** and **one link for each
pair**, both in ascending order, and both ends of every link are nodes. Its ids are the declared
ones, the sources of calls, and the targets of calls, and no others.

What carries this is that every node stands under its own id. A declared node does because it is
entered so, and one made from a target because a target has one id. A node made for a source that is
never declared gets its id by splitting the id of the source and joining the parts again, so there
the two must agree: `SourcesQualified` asks for that of exactly these sources.
-/

namespace ActionCalls

/-! ### Closed graphs -/

/-- Links are published by source, and by target where the sources are the same. -/
def CallLink.Precedes (a b : CallLink) : Prop :=
  a.source < b.source ∨ a.source = b.source ∧ a.target < b.target

/-- One node for each id, one link for each pair, both ascending, and nodes at both ends. -/
structure CallGraph.Closed (graph : CallGraph) : Prop where
  ids_distinct : (graph.nodes.map MethodNode.id).Nodup
  ids_ascending : graph.nodes.Pairwise fun a b => a.id < b.id
  links_distinct : graph.links.Nodup
  links_ascending : graph.links.Pairwise CallLink.Precedes
  source_unique : ∀ link ∈ graph.links, graph.nodes.countP (fun node => node.id = link.source) = 1
  target_unique : ∀ link ∈ graph.links, graph.nodes.countP (fun node => node.id = link.target) = 1

/-- Every source of calls that is never declared is given back by splitting its id and joining it
again. -/
def Findings.SourcesQualified (findings : List Finding) : Prop :=
  ∀ source, CallsFrom findings source → ¬ Declares findings source →
    (CallTarget.ofQualified source).id = source

/-! ### Links -/

theorem CallLink.compare_eq_lt_iff {a b : CallLink} : compare a b = .lt ↔ a.Precedes b := by
  show (compare a.source b.source).then (compare a.target b.target) = .lt ↔ _
  rw [Ordering.then_eq_lt, Ordered.compare_eq_lt_iff, Ordered.compare_eq_lt_iff,
    Std.LawfulEqCmp.compare_eq_iff_eq]
  rfl

theorem CallLink.Precedes.asymm {a b : CallLink} (h : a.Precedes b) : ¬ b.Precedes a := by
  rw [← CallLink.compare_eq_lt_iff] at *
  exact Std.OrientedCmp.not_lt_of_lt h

theorem CallLink.Precedes.ne {a b : CallLink} (h : a.Precedes b) : a ≠ b := by
  intro heq
  subst heq
  exact h.asymm h

namespace CallGraph

theorem assemble_links_ascending (tables : Tables) :
    (assemble tables).links.Pairwise CallLink.Precedes := by
  show (Assembly.run tables).links.toList.Pairwise CallLink.Precedes
  exact Std.ExtTreeSet.ordered_toList.imp CallLink.compare_eq_lt_iff.mp

theorem mem_assemble_links {tables : Tables} {link : CallLink} :
    link ∈ (assemble tables).links ↔
      ∃ target ∈ tables.callSet link.source, target.id = link.target := by
  show link ∈ (Assembly.run tables).links.toList ↔ _
  rw [Std.ExtTreeSet.mem_toList, Assembly.mem_run_links]

/-! ### Nodes -/

/-- Is every node of assembled tables found under its own id? -/
def Keyed (tables : Tables) : Prop :=
  ∀ (id : String) node, (Assembly.run tables).nodes[id]? = some node → node.id = id

variable {tables : Tables}

theorem mem_assemble_nodes (hkeyed : Keyed tables) {node : MethodNode} :
    node ∈ (assemble tables).nodes ↔ (Assembly.run tables).nodes[node.id]? = some node :=
  Ordered.mem_values_iff_getElem? hkeyed

theorem assemble_nodes_ascending (hkeyed : Keyed tables) :
    (assemble tables).nodes.Pairwise fun a b => a.id < b.id :=
  Ordered.values_ascending hkeyed

/-- A node is looked up in the graph as in the node table. -/
theorem node?_assemble (hkeyed : Keyed tables) (id : String) :
    (assemble tables).node? id = (Assembly.run tables).nodes[id]? :=
  Ordered.find?_values hkeyed id

/-- The ids of the nodes are the keys of the node table. -/
theorem exists_assemble_node_iff (hkeyed : Keyed tables) {id : String} :
    (∃ node ∈ (assemble tables).nodes, node.id = id) ↔ id ∈ (Assembly.run tables).nodes := by
  rw [Ordered.mem_iff_exists_getElem?]
  constructor
  · intro h
    obtain ⟨node, hmem, hid⟩ := h
    exact ⟨node, hid ▸ (mem_assemble_nodes hkeyed).mp hmem⟩
  · intro h
    obtain ⟨node, hnode⟩ := h
    obtain rfl := hkeyed id node hnode
    exact ⟨node, (mem_assemble_nodes hkeyed).mpr hnode, rfl⟩

/-- An id in the node table is the id of exactly one node. -/
theorem countP_assemble_nodes (hkeyed : Keyed tables) {id : String}
    (hid : id ∈ (Assembly.run tables).nodes) :
    (assemble tables).nodes.countP (fun node => node.id = id) = 1 :=
  Ordered.countP_key_eq_one (assemble_nodes_ascending hkeyed)
    ((exists_assemble_node_iff hkeyed).mpr hid)

/-- Where nodes stand under their own ids, the graph is closed. -/
theorem closed_of_keyed (hkeyed : Keyed tables) : (assemble tables).Closed where
  ids_distinct := Ordered.nodup_map_of_ascending (assemble_nodes_ascending hkeyed)
  ids_ascending := assemble_nodes_ascending hkeyed
  links_distinct := (assemble_links_ascending tables).imp CallLink.Precedes.ne
  links_ascending := assemble_links_ascending tables
  source_unique := by
    intro link hlink
    obtain ⟨target, hmem, -⟩ := mem_assemble_links.mp hlink
    refine countP_assemble_nodes hkeyed (Assembly.mem_run_nodes.mpr (Or.inr (Or.inl ?_)))
    exact Tables.mem_calls_of_mem_callSet hmem
  target_unique := by
    intro link hlink
    obtain ⟨target, hmem, hid⟩ := mem_assemble_links.mp hlink
    refine countP_assemble_nodes hkeyed (Assembly.mem_run_nodes.mpr (Or.inr (Or.inr ?_)))
    exact ⟨link.source, target, hmem, hid⟩

/-! ### Declared nodes -/

/-- The nodes of the graph that are declared, without their statistics. -/
def declaredNodes (tables : Tables) : List MethodNode :=
  ((assemble tables).nodes.filter fun node => node.id ∈ tables.nodes).map MethodNode.bare

/-- A declared node keeps everything but its statistics. -/
theorem mem_declaredNodes (hkeyed : Keyed tables) {node : MethodNode} :
    node ∈ declaredNodes tables ↔ tables.nodes[node.id]?.map MethodNode.bare = some node := by
  rw [declaredNodes, List.mem_map, Option.map_eq_some_iff]
  constructor
  · intro h
    obtain ⟨full, hfull, hbare⟩ := h
    obtain ⟨hmem, hdeclared⟩ := List.mem_filter.mp hfull
    subst hbare
    -- A node made for a source or a target is not declared.
    cases Assembly.origin_of_run_nodes ((mem_assemble_nodes hkeyed).mp hmem) with
    | declared first found same => exact ⟨first, found, same.symm⟩
    | source undeclared => exact absurd (of_decide_eq_true hdeclared) undeclared
    | target undeclared => exact absurd (of_decide_eq_true hdeclared) undeclared
  · intro h
    obtain ⟨first, hfirst, hbare⟩ := h
    obtain ⟨full, hfull, same⟩ := Assembly.exists_run_node hfirst
    have hid := hkeyed _ _ hfull
    have hdeclared : full.id ∈ tables.nodes :=
      Ordered.mem_iff_exists_getElem?.mpr ⟨first, hid ▸ hfirst⟩
    refine ⟨full, List.mem_filter.mpr ⟨?_, decide_eq_true hdeclared⟩, same.trans hbare⟩
    exact (mem_assemble_nodes hkeyed).mpr (hid ▸ hfull)

theorem declaredNodes_ascending (hkeyed : Keyed tables) :
    (declaredNodes tables).Pairwise fun a b => a.id < b.id :=
  List.pairwise_map.mpr ((assemble_nodes_ascending hkeyed).filter _)

/-! ### Graphs of findings -/

variable {findings : List Finding}

theorem keyed_of_sourcesQualified (h : Findings.SourcesQualified findings) :
    Keyed (Tables.empty.enterAll findings) := by
  intro id node hnode
  rw [← MethodNode.bare_id]
  cases Assembly.origin_of_run_nodes hnode with
  | declared first found same =>
      rw [same, MethodNode.bare_id, Tables.id_of_ofFindings_nodes found]
  | target undeclared source target mem hid same =>
      rw [same]
      exact hid
  | source undeclared mem same =>
      -- Only here the id is taken apart, and the source is not declared.
      rw [same]
      have hdeclares := mt Tables.mem_ofFindings_nodes.mpr undeclared
      exact h id ((Tables.mem_ofFindings_calls.mp mem).resolve_left hdeclares) hdeclares

theorem mem_assemble_classes {c : ClassRecord} :
    c ∈ (assemble (Tables.empty.enterAll findings)).classes ↔
      (Tables.empty.enterAll findings).classes[c.qualifiedName]? = some c :=
  Ordered.mem_values_iff_getElem? fun _ _ => Tables.qualifiedName_of_ofFindings_classes

theorem assemble_classes_ascending (findings : List Finding) :
    (assemble (Tables.empty.enterAll findings)).classes.Pairwise fun a b =>
      a.qualifiedName < b.qualifiedName :=
  Ordered.values_ascending fun _ _ => Tables.qualifiedName_of_ofFindings_classes

/-- A qualified name is that of a class of the graph when it is that of a recorded class. -/
theorem exists_assemble_class_iff {name : String} :
    (∃ c ∈ (assemble (Tables.empty.enterAll findings)).classes, c.qualifiedName = name) ↔
      ∃ c ∈ Findings.classes findings, c.qualifiedName = name := by
  constructor
  · intro h
    obtain ⟨c, hmem, hname⟩ := h
    rw [mem_assemble_classes, Tables.ofFindings_classes_getElem?] at hmem
    exact ⟨c, List.mem_reverse.mp (List.mem_of_find?_eq_some hmem), hname⟩
  · intro h
    obtain ⟨c, hmem, hname⟩ := h
    have hsome : ((Findings.classes findings).reverse.find? fun c => c.qualifiedName = name).isSome :=
      List.find?_isSome.mpr ⟨c, List.mem_reverse.mpr hmem, decide_eq_true hname⟩
    obtain ⟨last, hlast⟩ := Option.isSome_iff_exists.mp hsome
    rw [← Tables.ofFindings_classes_getElem?] at hlast
    obtain rfl := Tables.qualifiedName_of_ofFindings_classes hlast
    exact ⟨last, mem_assemble_classes.mpr hlast, rfl⟩

/-- The graph assembled from the findings of any run is closed, and its ids are exactly those that
are declared, are sources, or are called. -/
theorem assemble_closed (h : Findings.SourcesQualified findings) :
    (assemble (Tables.empty.enterAll findings)).Closed ∧
      ∀ id, (∃ node ∈ (assemble (Tables.empty.enterAll findings)).nodes, node.id = id) ↔
        Findings.Declares findings id ∨ Findings.CallsFrom findings id ∨
          ∃ source target, Findings.Calls findings source target ∧ target.id = id := by
  have hkeyed := keyed_of_sourcesQualified h
  refine ⟨closed_of_keyed hkeyed, ?_⟩
  intro id
  rw [exists_assemble_node_iff hkeyed, Assembly.mem_run_nodes, Tables.mem_ofFindings_nodes,
    Tables.mem_ofFindings_calls]
  simp only [Tables.mem_ofFindings_callSet]
  -- A declared id is in both tables.
  rw [← or_assoc, ← or_assoc, or_self, or_assoc]

end CallGraph

/-- Findings with a source that no class declares. It calls itself, and it calls a declared method
through two targets that share the id of that method. -/
def Findings.undeclaredJob : List Finding :=
  [.classFound ⟨"StartAction", "app", true, none, ∅, ∅⟩,
   .methodFound ⟨"app.StartAction.start", "app", "StartAction", "start", true, .publicAccess, false,
    .empty, ∅⟩,
   .callsFound "app.jobs.run" (Std.ExtTreeSet.ofList [CallTarget.inPackage "app.jobs" "run",
    CallTarget.inClass "app" "StartAction" "start",
    CallTarget.inPackage "app.StartAction" "start"])]

theorem Findings.sourcesQualified_undeclaredJob : SourcesQualified undeclaredJob := by
  intro source hcalls _
  obtain ⟨targets, hmem⟩ := hcalls
  have hsource : source = "app.jobs.run" := by
    simp only [undeclaredJob, List.mem_cons, reduceCtorEq, List.not_mem_nil, or_false, false_or,
      Finding.callsFound.injEq] at hmem
    exact hmem.1
  subst hsource
  decide

theorem assemble_closed_undeclaredJob :
    Findings.SourcesQualified Findings.undeclaredJob ∧
      (CallGraph.assemble (Tables.empty.enterAll Findings.undeclaredJob)).Closed ∧
      ∃ node ∈ (CallGraph.assemble (Tables.empty.enterAll Findings.undeclaredJob)).nodes,
        node.id = "app.jobs.run" := by
  have hqualified := Findings.sourcesQualified_undeclaredJob
  obtain ⟨hclosed, hids⟩ := CallGraph.assemble_closed hqualified
  have hsource : Findings.CallsFrom Findings.undeclaredJob "app.jobs.run" :=
    ⟨_, .tail _ (.tail _ (.head _))⟩
  exact ⟨hqualified, hclosed, (hids _).mpr (Or.inr (Or.inl hsource))⟩

end ActionCalls
