import Mathlib.Algebra.GroupWithZero.Nat
import Mathlib.Data.List.Nodup
import ActionCalls.Proofs.Graph.Statistics

/-!
# Degrees

The callers and the calls of a node are sets of ids, and as no link is there twice, they are as large
as the numbers of links that lead to the node and that leave it. In a closed graph each link leads to
one node and leaves one node. So the callers of all nodes are **as many as the links**, and so are the
calls of all nodes.

The number that a source is given as its outgoing calls is the size of its *call set*
(`outgoing_run_eq`). That is the number of its calls only where the targets in the set have distinct
ids (`size_calls_eq_iff`): targets that share an id are one call.
-/

namespace ActionCalls

/-! ### Counting links -/

/-- Ids that stand at one end of the links with a fixed other end are as many as these links. -/
theorem CallLink.size_eq_countP {links : List CallLink} {names : NameSet} {id : String}
    (fixed free : CallLink → String) (hlinks : links.Nodup)
    (hext : ∀ {a b : CallLink}, fixed a = fixed b → free a = free b → a = b)
    (hmem : ∀ name, name ∈ names ↔ ∃ link ∈ links, fixed link = id ∧ free link = name) :
    names.size = links.countP fun link => fixed link = id := by
  have hnodup : ((links.filter fun link => fixed link = id).map free).Nodup := by
    rw [List.Nodup, List.pairwise_map]
    refine (hlinks.filter _).imp_of_mem ?_
    intro a b ha hb hne heq
    have hfixed : fixed a = fixed b := by
      simp only [List.mem_filter, decide_eq_true_eq] at ha hb
      rw [ha.2, hb.2]
    exact hne (hext hfixed heq)
  rw [Ordered.size_eq_length hnodup, List.length_map, List.countP_eq_length_filter]
  intro name
  simp only [hmem, List.mem_map, List.mem_filter, decide_eq_true_eq, and_assoc]

namespace MethodNode.Counts

variable {node : MethodNode} {links : List CallLink}

theorem size_calledBy (h : node.Counts links) (hlinks : links.Nodup) :
    node.statistics.calledBy.size = links.countP fun link => link.target = node.id := by
  refine CallLink.size_eq_countP CallLink.target CallLink.source hlinks ?_ ?_
  · rintro ⟨_, _⟩ ⟨_, _⟩ rfl rfl
    rfl
  · intro caller
    rw [h.calledBy]
    constructor
    · exact fun hlink => ⟨_, hlink, rfl, rfl⟩
    · rintro ⟨link, hlink, htarget, rfl⟩
      exact htarget ▸ hlink

theorem size_calls (h : node.Counts links) (hlinks : links.Nodup) :
    node.statistics.calls.size = links.countP fun link => link.source = node.id := by
  refine CallLink.size_eq_countP CallLink.source CallLink.target hlinks ?_ ?_
  · rintro ⟨_, _⟩ ⟨_, _⟩ rfl rfl
    rfl
  · intro callee
    rw [h.calls]
    constructor
    · exact fun hlink => ⟨_, hlink, rfl, rfl⟩
    · rintro ⟨link, hlink, hsource, rfl⟩
      exact hsource ▸ hlink

end MethodNode.Counts

/-! ### Sums over all keys -/

section Sums

variable {α β : Type} {owners : List α}

theorem sum_map_add_ite {f : α → Nat} {p : α → Bool} :
    (owners.map fun a => f a + if p a then 1 else 0).sum =
      (owners.map f).sum + owners.countP p := by
  induction owners with
  | nil => rfl
  | cons a rest ih =>
      rw [List.map_cons, List.sum_cons, ih, List.map_cons, List.sum_cons, List.countP_cons]
      omega

/-- Where each element has exactly one owner, which has the key that the element names, the owners
together have as many elements as there are. -/
theorem sum_countP_eq_length {l : List β} {key : α → String} {named : β → String}
    (h : ∀ b ∈ l, owners.countP (fun a => key a = named b) = 1) :
    (owners.map fun a => l.countP fun b => named b = key a).sum = l.length := by
  induction l with
  | nil => simp [List.map_const']
  | cons b rest ih =>
      obtain ⟨hone, hrest⟩ := List.forall_mem_cons.mp h
      have hcount : owners.countP (fun a => decide (named b = key a)) = 1 := by
        rw [← hone]
        exact congrArg (owners.countP ·) (funext fun a => decide_eq_decide.mpr eq_comm)
      simp only [List.countP_cons]
      rw [sum_map_add_ite, ih hrest, hcount, List.length_cons]

end Sums

namespace CallGraph

variable {graph : CallGraph}

/-- The incoming calls of all nodes are as many as the links. -/
theorem Closed.sum_incomingCalls (hclosed : graph.Closed)
    (hcounts : ∀ node ∈ graph.nodes, node.Counts graph.links) :
    (graph.nodes.map (·.statistics.incomingCalls)).sum = graph.links.length := by
  rw [← sum_countP_eq_length hclosed.target_unique]
  refine congrArg List.sum (List.map_congr_left ?_)
  intro node hmem
  rw [(hcounts node hmem).incomingCalls, (hcounts node hmem).size_calledBy hclosed.links_distinct]

/-- The calls of all nodes are as many as the links. -/
theorem Closed.sum_size_calls (hclosed : graph.Closed)
    (hcounts : ∀ node ∈ graph.nodes, node.Counts graph.links) :
    (graph.nodes.map (·.statistics.calls.size)).sum = graph.links.length := by
  rw [← sum_countP_eq_length hclosed.source_unique]
  refine congrArg List.sum (List.map_congr_left ?_)
  intro node hmem
  exact (hcounts node hmem).size_calls hclosed.links_distinct

end CallGraph

/-! ### The number of calls that a source is given -/

namespace Assembly

variable {id : String} {targets : Std.ExtTreeSet CallTarget} {node? : Option MethodNode}
  {entries : List (String × Std.ExtTreeSet CallTarget)}

/-- The visit by the own id gives a node the number of its calls, and no later one changes it. -/
theorem outgoing_foldl_visit_of_mem
    (hdistinct : entries.Pairwise fun a b => a.1 ≠ b.1) (hmem : (id, targets) ∈ entries) :
    outgoing (entries.foldl (visit id) node?) = targets.size := by
  induction entries generalizing node? with
  | nil => cases hmem
  | cons entry rest ih =>
      obtain ⟨hhead, hrest⟩ := List.pairwise_cons.mp hdistinct
      rw [List.foldl_cons]
      rcases List.mem_cons.mp hmem with rfl | hmem
      · rw [outgoing_foldl_visit fun other hother heq => hhead other hother heq.symm,
          outgoing_visit, if_pos rfl]
      · exact ih hrest hmem

/-- The number of calls that a node is given is the size of its call set, zero if it is no source. -/
theorem outgoing_run_eq {tables : Tables} (hfresh : outgoing tables.nodes[id]? = 0) :
    outgoing (run tables).nodes[id]? = (tables.callSet id).size := by
  rw [Tables.callSet]
  cases htargets : tables.calls[id]? with
  | none =>
      have hsource : id ∉ tables.calls := by
        rw [Ordered.mem_iff_exists_getElem?, htargets]
        simp
      rw [outgoing_run hsource, hfresh]
      rfl
  | some targets =>
      rw [run_nodes_getElem?]
      exact outgoing_foldl_visit_of_mem (sources_distinct tables)
        (Std.ExtTreeMap.mem_toList_iff_getElem?_eq_some.mpr htargets)

end Assembly

/-! ### Call sets without shared ids -/

/-- Do distinct targets in the call set of a source have distinct ids? -/
def Tables.TargetsApart (tables : Tables) (source : String) : Prop :=
  ∀ target ∈ tables.callSet source, ∀ other ∈ tables.callSet source,
    target.id = other.id → target = other

namespace CallGraph

variable {tables : Tables} {node : MethodNode}

/-- The number of calls that a node of a graph is given is the size of its call set. -/
theorem outgoingCalls_of_mem_assemble (hkeyed : Keyed tables)
    (hfresh : ∀ (id : String) first, tables.nodes[id]? = some first → first.statistics = .empty)
    (hmem : node ∈ (assemble tables).nodes) :
    node.statistics.outgoingCalls = (tables.callSet node.id).size := by
  have hnode := (mem_assemble_nodes hkeyed).mp hmem
  have hzero : Assembly.outgoing tables.nodes[node.id]? = 0 := by
    cases hfirst : tables.nodes[node.id]? with
    | none => rfl
    | some first => exact congrArg CallStatistics.outgoingCalls (hfresh node.id first hfirst)
  rw [← Assembly.outgoing_run_eq hzero, hnode]
  rfl

/-- The calls of a node are the ids of its targets. -/
theorem mem_calls_iff_mem_ids (hcounts : node.Counts (assemble tables).links) (callee : String) :
    callee ∈ node.statistics.calls ↔
      callee ∈ (tables.callSet node.id).toList.map CallTarget.id := by
  rw [hcounts.calls, mem_assemble_links]
  simp only [List.mem_map, Std.ExtTreeSet.mem_toList]

theorem length_ids (tables : Tables) (source : String) :
    ((tables.callSet source).toList.map CallTarget.id).length = (tables.callSet source).size := by
  rw [List.length_map, Std.ExtTreeSet.length_toList]

/-- A node has at most as many calls as targets. -/
theorem size_calls_le (hcounts : node.Counts (assemble tables).links) :
    node.statistics.calls.size ≤ (tables.callSet node.id).size := by
  rw [← length_ids]
  exact Ordered.size_le_length (mem_calls_iff_mem_ids hcounts)

/-- It has as many exactly when its targets do not share ids. -/
theorem size_calls_eq_iff (hcounts : node.Counts (assemble tables).links) :
    node.statistics.calls.size = (tables.callSet node.id).size ↔ tables.TargetsApart node.id := by
  rw [← length_ids, Ordered.size_eq_length_iff (mem_calls_iff_mem_ids hcounts),
    List.nodup_map_iff_inj_on Ordered.nodup_toList]
  simp only [Std.ExtTreeSet.mem_toList, Tables.TargetsApart]

/-- Targets without shared ids are as many as the calls that they make. -/
theorem size_calls_eq (hcounts : node.Counts (assemble tables).links)
    (hapart : tables.TargetsApart node.id) :
    node.statistics.calls.size = (tables.callSet node.id).size :=
  (size_calls_eq_iff hcounts).mpr hapart

end CallGraph

end ActionCalls
