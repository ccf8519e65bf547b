import ActionCalls.Graph.Assembly
import ActionCalls.Proofs.Graph.Findings

/-!
# Assembly, node by node

Assembly goes through the call table and changes the node table as it goes. What it does to the
node of one id does not depend on the other nodes, so the run can be followed **one id at a time**:
`visit` is what a single source does to a single node, and `run_nodes_getElem?` says that the node
of an id in the assembled table is the declared one, visited by every source in order.

A visit makes a node where there is none, and otherwise changes nothing but statistics. That is
stated with `MethodNode.bare`, a node without its statistics.
-/

namespace ActionCalls

/-! ### Nodes without statistics -/

namespace MethodNode

/-- The node with its statistics forgotten. -/
def bare (node : MethodNode) : MethodNode :=
  { node with statistics := .empty }

@[simp] theorem bare_id (node : MethodNode) : node.bare.id = node.id := rfl

@[simp] theorem bare_package (node : MethodNode) : node.bare.package = node.package := rfl

@[simp] theorem bare_method (node : MethodNode) : node.bare.method = node.method := rfl

@[simp] theorem bare_isAction (node : MethodNode) : node.bare.isAction = node.isAction := rfl

@[simp] theorem bare_synthesized (target : CallTarget) :
    (synthesized target).bare = synthesized target := rfl

@[simp] theorem bare_withCalls (node : MethodNode) (targets : Std.ExtTreeSet CallTarget) :
    (node.withCalls targets).bare = node.bare := rfl

@[simp] theorem bare_calledFrom (node : MethodNode) (source : String) :
    (node.calledFrom source).bare = node.bare := by
  unfold calledFrom
  split <;> rfl

theorem mem_calledBy_calledFrom {node : MethodNode} {source caller : String} :
    caller ∈ (node.calledFrom source).statistics.calledBy ↔
      caller ∈ node.statistics.calledBy ∨ source = caller := by
  unfold calledFrom
  split
  case isTrue hknown =>
      constructor
      · exact Or.inl
      · intro h
        rcases h with h | rfl
        · exact h
        · exact hknown
  case isFalse => simp [Std.ExtTreeSet.mem_insert, or_comm]

/-- A second call from the same source leaves the node alone. -/
theorem calledFrom_calledFrom (node : MethodNode) (source : String) :
    (node.calledFrom source).calledFrom source = node.calledFrom source := by
  have hknown : source ∈ (node.calledFrom source).statistics.calledBy :=
    mem_calledBy_calledFrom.mpr (Or.inr rfl)
  rw [calledFrom, if_pos hknown]

end MethodNode

/-! ### Visits -/

namespace Assembly

/-- What becoming a source does to the node of an id, when the source has that id. -/
def visitSource (id source : String) (targets : Std.ExtTreeSet CallTarget)
    (node? : Option MethodNode) : Option MethodNode :=
  if source = id then some ((node?.getD (.synthesized (.ofQualified source))).withCalls targets)
  else node?

/-- What being called does to the node of an id; of the targets with that id the first counts. -/
def visitTarget (id source : String) (targets : List CallTarget) (node? : Option MethodNode) :
    Option MethodNode :=
  match targets.find? fun target => target.id = id with
  | some target => some ((node?.getD (.synthesized target)).calledFrom source)
  | none => node?

/-- What a source with its targets does to the node of an id. -/
def visit (id : String) (node? : Option MethodNode)
    (entry : String × Std.ExtTreeSet CallTarget) : Option MethodNode :=
  visitTarget id entry.1 entry.2.toList (visitSource id entry.1 entry.2 node?)

theorem addCall_nodes_getElem? (source package : String) (a : Assembly) (target : CallTarget)
    (id : String) :
    (addCall source package a target).nodes[id]? =
      if target.id = id then
        some ((a.nodes[id]?.getD (.synthesized target)).calledFrom source)
      else a.nodes[id]? := by
  show (a.nodes.insert target.id ((a.targetNode target).calledFrom source))[id]? = _
  rw [Std.ExtTreeMap.getElem?_insert]
  by_cases hid : target.id = id
  · subst hid
    simp [targetNode]
  · simp [hid]

theorem foldl_addCall_nodes_getElem? (source package : String) (targets : List CallTarget)
    (a : Assembly) (id : String) :
    (targets.foldl (addCall source package) a).nodes[id]? =
      visitTarget id source targets a.nodes[id]? := by
  induction targets generalizing a with
  | nil => rfl
  | cons target rest ih =>
      rw [List.foldl_cons, ih, addCall_nodes_getElem?, visitTarget, visitTarget, List.find?_cons]
      by_cases hid : target.id = id
      · -- Later targets with this id find the source known already.
        simp only [hid, if_true, decide_true, Option.getD_some]
        split
        · rw [MethodNode.calledFrom_calledFrom]
        · rfl
      · simp only [hid, if_false, decide_false]

theorem addSource_nodes_getElem? (a : Assembly) (source : String)
    (targets : Std.ExtTreeSet CallTarget) (id : String) :
    (a.addSource source targets).nodes[id]? = visit id a.nodes[id]? (source, targets) := by
  unfold addSource
  rw [foldl_addCall_nodes_getElem?, visit, visitSource, Std.ExtTreeMap.getElem?_insert]
  by_cases hid : source = id
  · subst hid
    simp [sourceNode]
  · simp [hid]

theorem foldl_addSource_nodes_getElem? (entries : List (String × Std.ExtTreeSet CallTarget))
    (a : Assembly) (id : String) :
    (entries.foldl (fun a entry => a.addSource entry.1 entry.2) a).nodes[id]? =
      entries.foldl (visit id) a.nodes[id]? := by
  induction entries generalizing a with
  | nil => rfl
  | cons entry rest ih => rw [List.foldl_cons, List.foldl_cons, ih, addSource_nodes_getElem?]

/-- **One node at a time.** The node of an id after assembly is the declared one, if there is one,
visited by every source in order. -/
theorem run_nodes_getElem? (tables : Tables) (id : String) :
    (run tables).nodes[id]? = tables.calls.toList.foldl (visit id) tables.nodes[id]? :=
  foldl_addSource_nodes_getElem? tables.calls.toList (start tables) id

/-! ### Nodes that are there -/

theorem bare_visitTarget (id source : String) (targets : List CallTarget) (node : MethodNode) :
    (visitTarget id source targets (some node)).map MethodNode.bare = some node.bare := by
  unfold visitTarget
  split <;> simp

/-- A visit changes nothing but the statistics of a node that is there. -/
theorem bare_visit (id : String) (entry : String × Std.ExtTreeSet CallTarget)
    (node : MethodNode) : (visit id (some node) entry).map MethodNode.bare = some node.bare := by
  unfold visit visitSource
  split <;> exact bare_visitTarget ..

theorem bare_foldl_visit (id : String) (entries : List (String × Std.ExtTreeSet CallTarget))
    (node : MethodNode) :
    (entries.foldl (visit id) (some node)).map MethodNode.bare = some node.bare := by
  induction entries generalizing node with
  | nil => rfl
  | cons entry rest ih =>
      obtain ⟨next, hnext, hbare⟩ := Option.map_eq_some_iff.mp (bare_visit id entry node)
      rw [List.foldl_cons, hnext, ih, hbare]

/-- A declared id has a node, which keeps everything of the declared one but its statistics. -/
theorem exists_run_node {tables : Tables} {id : String} {first : MethodNode}
    (h : tables.nodes[id]? = some first) :
    ∃ node, (run tables).nodes[id]? = some node ∧ node.bare = first.bare := by
  rw [run_nodes_getElem?, h]
  exact Option.map_eq_some_iff.mp (bare_foldl_visit id tables.calls.toList first)

/-! ### The links -/

theorem mem_foldl_addCall_links {source package : String} {targets : List CallTarget}
    {a : Assembly} {link : CallLink} :
    link ∈ (targets.foldl (addCall source package) a).links ↔
      link ∈ a.links ∨ source = link.source ∧ ∃ target ∈ targets, target.id = link.target := by
  induction targets generalizing a with
  | nil => simp
  | cons target rest ih =>
      rw [List.foldl_cons, ih]
      have hone : link ∈ (addCall source package a target).links ↔
          link ∈ a.links ∨ source = link.source ∧ target.id = link.target := by
        show link ∈ a.links.insert ⟨source, target.id⟩ ↔ _
        rw [Std.ExtTreeSet.mem_insert, Std.LawfulEqCmp.compare_eq_iff_eq, or_comm]
        refine or_congr_right ?_
        cases link
        simp
      rw [hone, or_assoc, ← and_or_left]
      simp

theorem mem_addSource_links {a : Assembly} {source : String}
    {targets : Std.ExtTreeSet CallTarget} {link : CallLink} :
    link ∈ (a.addSource source targets).links ↔
      link ∈ a.links ∨
        source = link.source ∧
          ∃ target : CallTarget, target ∈ targets ∧ target.id = link.target := by
  unfold addSource
  rw [mem_foldl_addCall_links]
  simp [Std.ExtTreeSet.mem_toList]

/-- A link is assembled exactly for each target of each source. -/
theorem mem_run_links {tables : Tables} {link : CallLink} :
    link ∈ (run tables).links ↔
      ∃ target ∈ tables.callSet link.source, target.id = link.target := by
  have hfold : ∀ (entries : List (String × Std.ExtTreeSet CallTarget)) (a : Assembly),
      link ∈ (entries.foldl (fun a entry => a.addSource entry.1 entry.2) a).links ↔
        link ∈ a.links ∨
          ∃ entry ∈ entries, entry.1 = link.source ∧
            ∃ target : CallTarget, target ∈ entry.2 ∧ target.id = link.target := by
    intro entries
    induction entries with
    | nil => intro a; simp
    | cons entry rest ih =>
        intro a
        rw [List.foldl_cons, ih, mem_addSource_links, or_assoc]
        simp
  rw [run, hfold, Tables.exists_entry_iff, or_iff_right (by simp [start])]

/-! ### Which nodes there are -/

theorem isSome_visit {id : String} {node? : Option MethodNode}
    {entry : String × Std.ExtTreeSet CallTarget} :
    (visit id node? entry).isSome ↔
      node?.isSome ∨ entry.1 = id ∨ ∃ target : CallTarget, target ∈ entry.2 ∧ target.id = id := by
  have hsource : (visitSource id entry.1 entry.2 node?).isSome ↔ node?.isSome ∨ entry.1 = id := by
    unfold visitSource
    split
    case isTrue hid => simp [hid]
    case isFalse hid => simp [hid]
  rw [visit, visitTarget]
  split
  case h_1 target hfound =>
      have hmem := List.mem_of_find?_eq_some hfound
      have hid : target.id = id := by simpa using List.find?_some hfound
      simp only [Option.isSome_some, true_iff]
      exact Or.inr (Or.inr ⟨target, Std.ExtTreeSet.mem_toList.mp hmem, hid⟩)
  case h_2 hnone =>
      rw [hsource, ← or_assoc]
      refine (or_iff_left ?_).symm
      intro h
      obtain ⟨target, hmem, hid⟩ := h
      have hne := List.find?_eq_none.mp hnone target (Std.ExtTreeSet.mem_toList.mpr hmem)
      exact hne (by simpa using hid)

/-- Going through some entries gives an id a node if there was one, or if the id is a source or called
among them. -/
theorem isSome_foldl_visit {id : String} {entries : List (String × Std.ExtTreeSet CallTarget)}
    {node? : Option MethodNode} :
    (entries.foldl (visit id) node?).isSome ↔
      node?.isSome ∨ ∃ entry ∈ entries,
        entry.1 = id ∨ ∃ target : CallTarget, target ∈ entry.2 ∧ target.id = id := by
  induction entries generalizing node? with
  | nil => simp
  | cons entry rest ih =>
      rw [List.foldl_cons, ih, isSome_visit, or_assoc]
      simp

/-- An id has a node after assembly when it is declared, a source, or called. -/
theorem mem_run_nodes {tables : Tables} {id : String} :
    id ∈ (run tables).nodes ↔
      id ∈ tables.nodes ∨ id ∈ tables.calls ∨
        ∃ source, ∃ target ∈ tables.callSet source, target.id = id := by
  rw [Std.ExtTreeMap.mem_iff_isSome_getElem?, run_nodes_getElem?, isSome_foldl_visit,
    ← Std.ExtTreeMap.mem_iff_isSome_getElem?]
  refine or_congr_right ?_
  constructor
  · intro h
    obtain ⟨⟨source, targets⟩, hentry, hid⟩ := h
    rw [Std.ExtTreeMap.mem_toList_iff_getElem?_eq_some] at hentry
    rcases hid with rfl | ⟨target, hmem, hid⟩
    · exact Or.inl (Ordered.mem_iff_exists_getElem?.mpr ⟨targets, hentry⟩)
    · exact Or.inr ⟨source, target, Tables.mem_callSet.mpr ⟨targets, hentry, hmem⟩, hid⟩
  · intro h
    rcases h with hsource | ⟨source, target, hmem, hid⟩
    · obtain ⟨targets, hentry⟩ := Ordered.mem_iff_exists_getElem?.mp hsource
      exact ⟨(id, targets), Std.ExtTreeMap.mem_toList_iff_getElem?_eq_some.mpr hentry, Or.inl rfl⟩
    · obtain ⟨targets, hentry, hmem⟩ := Tables.mem_callSet.mp hmem
      exact ⟨(source, targets), Std.ExtTreeMap.mem_toList_iff_getElem?_eq_some.mpr hentry,
        Or.inr ⟨target, hmem, hid⟩⟩

/-! ### Where a node comes from -/

/-- Where the node of an id comes from: it is declared, or made from the id alone because the id is
a source, or made from a target with that id. What comes later changes only statistics. -/
inductive Origin (tables : Tables) (id : String) (node : MethodNode) : Prop where
  | declared (first : MethodNode) (found : tables.nodes[id]? = some first)
      (same : node.bare = first.bare)
  | source (undeclared : id ∉ tables.nodes) (mem : id ∈ tables.calls)
      (same : node.bare = .synthesized (.ofQualified id))
  | target (undeclared : id ∉ tables.nodes) (source : String) (target : CallTarget)
      (mem : target ∈ tables.callSet source) (hid : target.id = id)
      (same : node.bare = .synthesized target)

theorem Origin.of_bare_eq {tables : Tables} {id : String} {node other : MethodNode}
    (h : Origin tables id node) (hbare : other.bare = node.bare) : Origin tables id other := by
  cases h with
  | declared first found same => exact .declared first found (hbare.trans same)
  | source undeclared mem same => exact .source undeclared mem (hbare.trans same)
  | target undeclared source target mem hid same =>
      exact .target undeclared source target mem hid (hbare.trans same)

/-- A visit keeps the origin of a node, and a node it makes has one. -/
theorem origin_visit {tables : Tables} {id source : String} {node? : Option MethodNode}
    {targets : Std.ExtTreeSet CallTarget} (hentry : tables.calls[source]? = some targets)
    (hnone : node? = none → id ∉ tables.nodes)
    (hold : ∀ node, node? = some node → Origin tables id node) :
    ∀ node, visit id node? (source, targets) = some node → Origin tables id node := by
  -- The visit is first one by a source, and then one by a target: each keeps what is assumed.
  have hsource : ∀ node, visitSource id source targets node? = some node →
      Origin tables id node := by
    unfold visitSource
    split
    case isTrue hid =>
        subst hid
        intro node hvisited
        obtain rfl := Option.some.inj hvisited
        cases hnode : node? with
        | none =>
            have hmem : source ∈ tables.calls :=
              Ordered.mem_iff_exists_getElem?.mpr ⟨targets, hentry⟩
            exact .source (hnone hnode) hmem rfl
        | some old => exact (hold old hnode).of_bare_eq rfl
    case isFalse => exact hold
  have hsourceNone : visitSource id source targets node? = none → id ∉ tables.nodes := by
    unfold visitSource
    split
    case isTrue => exact fun h => absurd h (by simp)
    case isFalse => exact hnone
  intro node
  rw [visit, visitTarget]
  split
  case h_1 target hfound =>
      have hmem := Std.ExtTreeSet.mem_toList.mp (List.mem_of_find?_eq_some hfound)
      have hid : target.id = id := by simpa using List.find?_some hfound
      intro hvisited
      obtain rfl := Option.some.inj hvisited
      cases hnode : visitSource id source targets node? with
      | none =>
          refine .target (hsourceNone hnode) source target ?_ hid (MethodNode.bare_calledFrom _ _)
          exact Tables.mem_callSet.mpr ⟨targets, hentry, hmem⟩
      | some old => exact (hsource old hnode).of_bare_eq (MethodNode.bare_calledFrom _ _)
  case h_2 => exact hsource node

theorem origin_of_run_nodes {tables : Tables} {id : String} {node : MethodNode}
    (h : (run tables).nodes[id]? = some node) : Origin tables id node := by
  -- The fold over the call table keeps that a node has an origin, and that where there is no node
  -- there is no declaration.
  have hfold : ∀ (entries : List (String × Std.ExtTreeSet CallTarget)) (node? : Option MethodNode),
      (∀ entry ∈ entries, tables.calls[entry.1]? = some entry.2) →
      (node? = none → id ∉ tables.nodes) →
      (∀ node, node? = some node → Origin tables id node) →
      ∀ node, entries.foldl (visit id) node? = some node → Origin tables id node := by
    intro entries
    induction entries with
    | nil => intro node? _ _ hold; exact hold
    | cons entry rest ih =>
        intro node? hentries hnone hold
        have hentry := hentries entry (List.mem_cons_self ..)
        refine ih _ (fun other hmem => hentries other (List.mem_cons_of_mem _ hmem)) ?_
          (origin_visit hentry hnone hold)
        intro hvisit
        refine hnone (Option.isNone_iff_eq_none.mp ?_)
        have hsome : node?.isSome → (visit id node? entry).isSome :=
          fun h => isSome_visit.mpr (Or.inl h)
        cases node? with
        | none => rfl
        | some old => exact absurd (hsome rfl) (by simp [hvisit])
  rw [run_nodes_getElem?] at h
  refine hfold tables.calls.toList tables.nodes[id]? ?_ ?_ ?_ node h
  · intro entry hmem
    exact Std.ExtTreeMap.mem_toList_iff_getElem?_eq_some.mp hmem
  · intro hnone
    rw [Std.ExtTreeMap.mem_iff_isSome_getElem?, hnone]
    exact Bool.false_ne_true
  · intro first hfound
    exact .declared first hfound rfl

end Assembly

end ActionCalls
