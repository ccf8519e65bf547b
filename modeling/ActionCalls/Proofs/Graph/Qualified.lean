import ActionCalls.Proofs.Graph.Closure
import ActionCalls.Proofs.Graph.Segment

/-!
# Splitting an id and joining its parts

The target that an id names is found by splitting the id at its last dot. Joining the parts again
gives the id back, but for one shape: an id whose **only dot leads** has no package before that dot,
so its target has the id of the method alone (`id_ofQualified_eq_iff`).

Assembly splits an id only to make a node for a source that is never declared. Such a source gets the
node when its turn comes, and the sources have their turns in ascending order. If a source before it
has called a target with its id, there is a node by then, made from that target and under the right
id. So what decides is who comes first (`exists_run_node_of_undeclared`): a source whose only dot
leads is left without a node of its own unless it is **called before** its turn.
-/

namespace ActionCalls

/-! ### The last dot of a text -/

namespace Text

variable {s front last : Text}

theorem splitLastDot?_of_not_mem (h : '.' ∉ s) : s.splitLastDot? = none := by
  rw [splitLastDot?, ← List.append_nil s.reverse, List.dropWhile_append_of_pos (forall_ne_dot h)]
  rfl

theorem splitLastDot?_append (front : Text) (h : '.' ∉ last) :
    (front ++ '.' :: last).splitLastDot? = some (front, last) := by
  have hreverse : (front ++ '.' :: last).reverse = last.reverse ++ '.' :: front.reverse := by simp
  rw [splitLastDot?, hreverse, List.dropWhile_append_of_pos (forall_ne_dot h),
    List.takeWhile_append_of_pos (forall_ne_dot h)]
  simp

/-- A text with a dot is cut by its last one. -/
theorem exists_last_dot (h : '.' ∈ s) : ∃ front last, s = front ++ '.' :: last ∧ '.' ∉ last := by
  obtain ⟨last, front, hreverse, hlast⟩ := List.eq_append_cons_of_mem (List.mem_reverse.mpr h)
  refine ⟨front.reverse, last.reverse, ?_, fun hmem => hlast (List.mem_reverse.mp hmem)⟩
  simpa using congrArg List.reverse hreverse

end Text

/-! ### Ids that are split and joined -/

/-- Is the first character of the id its only dot? -/
def HasOnlyLeadingDot (id : String) : Prop :=
  ∃ method : Text, id.toList = '.' :: method ∧ '.' ∉ method

namespace CallTarget

theorem ofQualified_of_leadingDot {id : String} {method : Text} (hid : id.toList = '.' :: method)
    (hmethod : '.' ∉ method) : ofQualified id = inPackage "" (String.ofList method) := by
  have hsplit : Text.splitLastDot? id.toList = some ([], method) :=
    hid ▸ Text.splitLastDot?_append [] hmethod
  rw [ofQualified, hsplit]

theorem id_ofQualified_of_leadingDot {id : String} {method : Text} (hid : id.toList = '.' :: method)
    (hmethod : '.' ∉ method) : (ofQualified id).id = String.ofList method := by
  rw [ofQualified_of_leadingDot hid hmethod]
  rfl

theorem id_ofQualified_of_not {id : String} (h : ¬ HasOnlyLeadingDot id) :
    (ofQualified id).id = id := by
  by_cases hdot : '.' ∈ id.toList
  · obtain ⟨front, method, hid, hmethod⟩ := Text.exists_last_dot hdot
    have hsplit : Text.splitLastDot? id.toList = some (front, method) :=
      hid ▸ Text.splitLastDot?_append front hmethod
    have hfront : String.ofList front ≠ "" := by
      intro hempty
      obtain rfl : front = [] := by simpa using hempty
      exact h ⟨method, hid, hmethod⟩
    rw [ofQualified, hsplit]
    refine (id_inPackage (String.ofList method) hfront).trans (String.toList_inj.mp ?_)
    simp [hid]
  · rw [ofQualified, Text.splitLastDot?_of_not_mem hdot]
    rfl

/-- **Only an id whose one dot leads is not given back.** -/
theorem id_ofQualified_eq_iff {id : String} : (ofQualified id).id = id ↔ ¬ HasOnlyLeadingDot id := by
  refine ⟨?_, id_ofQualified_of_not⟩
  intro heq h
  obtain ⟨method, hid, hmethod⟩ := h
  rw [id_ofQualified_of_leadingDot hid hmethod] at heq
  rw [← heq, String.toList_ofList] at hid
  exact absurd (congrArg List.length hid) (by simp)

end CallTarget

/-! ### Sources that are never declared -/

/-- Does a source before this one call a target that has its id? -/
def Tables.CalledBefore (tables : Tables) (source : String) : Prop :=
  ∃ earlier < source, ∃ target ∈ tables.callSet earlier, target.id = source

namespace Assembly

variable {id : String}

/-- A visit by another source makes no node but one with the id. -/
theorem id_of_visit {node? : Option MethodNode} {entry : String × Std.ExtTreeSet CallTarget}
    (hne : entry.1 ≠ id) (hold : ∀ node ∈ node?, node.id = id) :
    ∀ node ∈ visit id node? entry, node.id = id := by
  intro node hnode
  rw [visit, visitSource, if_neg hne, visitTarget] at hnode
  split at hnode
  case h_1 target hfound =>
      obtain rfl := Option.some.inj hnode
      have hid : target.id = id := by simpa using List.find?_some hfound
      rw [← MethodNode.bare_id, MethodNode.bare_calledFrom, MethodNode.bare_id]
      cases node? with
      | none => exact hid
      | some old => exact hold old rfl
  case h_2 => exact hold node hnode

theorem id_of_foldl_visit {entries : List (String × Std.ExtTreeSet CallTarget)}
    {node? : Option MethodNode} (hne : ∀ entry ∈ entries, entry.1 ≠ id)
    (hold : ∀ node ∈ node?, node.id = id) : ∀ node ∈ entries.foldl (visit id) node?, node.id = id := by
  induction entries generalizing node? with
  | nil => exact hold
  | cons entry rest ih =>
      have hentry := hne entry List.mem_cons_self
      exact ih (fun other hmem => hne other (List.mem_cons_of_mem entry hmem))
        (id_of_visit hentry hold)

/-- What is gone through before a source has its turn are the entries of the sources before it. -/
theorem exists_turn {tables : Tables} {source : String} (h : source ∈ tables.calls) :
    ∃ earlier targets later, tables.calls.toList = earlier ++ (source, targets) :: later ∧
      ∀ entry, entry ∈ earlier ↔ entry ∈ tables.calls.toList ∧ entry.1 < source := by
  obtain ⟨targets, htargets⟩ := Ordered.mem_iff_exists_getElem?.mp h
  have hentry := Std.ExtTreeMap.mem_toList_iff_getElem?_eq_some.mpr htargets
  obtain ⟨earlier, later, hcut⟩ := List.append_of_mem hentry
  have hordered := Std.ExtTreeMap.ordered_keys_toList (t := tables.calls)
  rw [hcut, List.pairwise_append, List.pairwise_cons] at hordered
  obtain ⟨-, ⟨hlater, -⟩, hearlier⟩ := hordered
  refine ⟨earlier, targets, later, hcut, fun entry => ⟨?_, ?_⟩⟩
  · intro hmem
    have hlt := hearlier entry hmem _ List.mem_cons_self
    exact ⟨hcut ▸ List.mem_append_left _ hmem, Ordered.compare_eq_lt_iff.mp hlt⟩
  · intro hmem
    obtain ⟨hmem, hlt⟩ := hmem
    rw [hcut, List.mem_append, List.mem_cons] at hmem
    rcases hmem with hmem | rfl | hmem
    · exact hmem
    · exact absurd hlt (String.lt_irrefl source)
    · have hgt := Ordered.compare_eq_lt_iff.mp (hlater entry hmem)
      exact absurd (String.lt_trans hlt hgt) (String.lt_irrefl entry.1)

/-- When a source has its turn, there is a node with its id if it was called before. -/
theorem isSome_foldl_visit_iff_calledBefore {tables : Tables} {source : String}
    {earlier : List (String × Std.ExtTreeSet CallTarget compare)}
    (hearlier : ∀ entry, entry ∈ earlier ↔ entry ∈ tables.calls.toList ∧ entry.1 < source) :
    (earlier.foldl (visit source) none).isSome ↔ tables.CalledBefore source := by
  rw [isSome_foldl_visit, Option.isSome_none, or_iff_right Bool.false_ne_true]
  constructor
  · intro h
    obtain ⟨entry, hmem, hid⟩ := h
    obtain ⟨hentry, hlt⟩ := (hearlier entry).mp hmem
    rcases hid with rfl | hcalled
    · exact absurd hlt (String.lt_irrefl entry.1)
    · exact ⟨entry.1, hlt, Tables.exists_entry_iff.mp ⟨entry, hentry, rfl, hcalled⟩⟩
  · intro h
    obtain ⟨key, hlt, hcalled⟩ := h
    obtain ⟨entry, hentry, rfl, htarget⟩ := Tables.exists_entry_iff.mpr hcalled
    exact ⟨entry, (hearlier entry).mpr ⟨hentry, hlt⟩, Or.inr htarget⟩

/-- **A source that is never declared keeps its id if it is called before its turn.** Otherwise its
node is made when its turn comes, and has the id that splitting and joining gives. -/
theorem exists_run_node_of_undeclared {tables : Tables} {source : String}
    (hcalls : source ∈ tables.calls) (hundeclared : source ∉ tables.nodes) :
    ∃ node, (run tables).nodes[source]? = some node ∧
      (tables.CalledBefore source ∧ node.id = source ∨
        ¬ tables.CalledBefore source ∧ node.id = (CallTarget.ofQualified source).id) := by
  obtain ⟨earlier, targets, later, hcut, hearlier⟩ := exists_turn hcalls
  have hnone : tables.nodes[source]? = none := by
    rwa [Std.ExtTreeMap.mem_iff_isSome_getElem?, Bool.not_eq_true, Option.isSome_eq_false_iff,
      Option.isNone_iff_eq_none] at hundeclared
  have hother : ∀ entry ∈ earlier, entry.1 ≠ source :=
    fun entry hmem => String.ne_of_lt ((hearlier entry).mp hmem).2
  have hcalled := isSome_foldl_visit_iff_calledBefore hearlier
  rw [run_nodes_getElem?, hnone, hcut, List.foldl_append]
  cases hnode : earlier.foldl (visit source) none with
  | some node =>
      obtain ⟨last, hlast, hbare⟩ := Option.map_eq_some_iff.mp
        (bare_foldl_visit source ((source, targets) :: later) node)
      have hid := id_of_foldl_visit hother (fun _ h => absurd h (by simp)) node hnode
      have hkept : last.bare.id = node.bare.id := congrArg MethodNode.id hbare
      exact ⟨last, hlast, Or.inl ⟨hcalled.mp (by rw [hnode]; rfl), hkept.trans hid⟩⟩
  | none =>
      have hmade : visit source none (source, targets) =
          visit source (some (.synthesized (.ofQualified source))) (source, targets) := by
        simp [visit, visitSource]
      obtain ⟨last, hlast, hbare⟩ := Option.map_eq_some_iff.mp
        (bare_foldl_visit source ((source, targets) :: later)
          (.synthesized (.ofQualified source)))
      have hkept : last.bare.id = (MethodNode.synthesized (.ofQualified source)).bare.id :=
        congrArg MethodNode.id hbare
      rw [List.foldl_cons, hmade]
      exact ⟨last, hlast, Or.inr ⟨fun h => absurd (hcalled.mpr h) (by simp [hnode]), hkept⟩⟩

/-- The node was made for a source whose only dot leads, and it has the id without this dot. -/
structure DropsDot (tables : Tables) (key : String) (node : MethodNode) : Prop where
  key_eq : key = "." ++ node.id
  no_dot : '.' ∉ node.id.toList
  source : key ∈ tables.calls
  undeclared : key ∉ tables.nodes
  bare_eq : node.bare = .synthesized (.inPackage "" node.id)

/-- A node stands under its own id, or it has dropped a dot. -/
theorem id_of_run_nodes {tables : Tables} {key : String} {node : MethodNode}
    (hdeclared : ∀ (id : String) first, tables.nodes[id]? = some first → first.id = id)
    (h : (run tables).nodes[key]? = some node) : node.id = key ∨ DropsDot tables key node := by
  have hid := MethodNode.bare_id node
  cases origin_of_run_nodes h with
  | declared first found same =>
      rw [same, MethodNode.bare_id, hdeclared key first found] at hid
      exact Or.inl hid.symm
  | target undeclared source target mem hkey same =>
      rw [same] at hid
      exact Or.inl (hid.symm.trans hkey)
  | source undeclared mem same =>
      rw [same] at hid
      by_cases hkey : HasOnlyLeadingDot key
      · obtain ⟨method, hkey, hdot⟩ := hkey
        have hsplit := CallTarget.ofQualified_of_leadingDot hkey hdot
        have hmethod : node.id = String.ofList method := by
          rw [← hid, hsplit]
          rfl
        refine Or.inr ⟨String.toList_inj.mp ?_, ?_, mem, undeclared, ?_⟩
        · simp [hkey, hmethod]
        · rwa [hmethod, String.toList_ofList]
        · rw [same, hsplit, hmethod]
      · exact Or.inl (hid.symm.trans (CallTarget.id_ofQualified_of_not hkey))

end Assembly

/-- Does a source before this one call a target that has its id? -/
def Findings.CalledBefore (findings : List Finding) (source : String) : Prop :=
  ∃ earlier < source, ∃ target, Calls findings earlier target ∧ target.id = source

theorem Tables.calledBefore_ofFindings {findings : List Finding} {source : String} :
    (Tables.empty.enterAll findings).CalledBefore source ↔ Findings.CalledBefore findings source := by
  simp only [CalledBefore, Findings.CalledBefore, mem_ofFindings_callSet]

namespace CallGraph

variable {findings : List Finding} {source : String}

/-- In the graph, a source that is never declared has a node of its own unless its only dot leads and
no source before it calls it. -/
theorem exists_node_of_undeclared_iff (hcalls : Findings.CallsFrom findings source)
    (hundeclared : ¬ Findings.Declares findings source) :
    (∃ node ∈ (assemble (Tables.empty.enterAll findings)).nodes, node.id = source) ↔
      ¬ HasOnlyLeadingDot source ∨ Findings.CalledBefore findings source := by
  obtain ⟨node, hnode, hturn⟩ := Assembly.exists_run_node_of_undeclared
    (Tables.mem_ofFindings_calls.mpr (Or.inr hcalls)) (mt Tables.mem_ofFindings_nodes.mp hundeclared)
  rw [Tables.calledBefore_ofFindings] at hturn
  constructor
  · intro h
    obtain ⟨other, hmem, hid⟩ := h
    obtain ⟨key, hkey⟩ := Ordered.mem_values.mp hmem
    refine or_iff_not_imp_left.mpr fun hleads => ?_
    rw [not_not] at hleads
    -- An id with a dot is found nowhere but under itself.
    rcases Assembly.id_of_run_nodes (fun _ _ => Tables.id_of_ofFindings_nodes) hkey with hown | hdrops
    · obtain rfl : key = source := hown.symm.trans hid
      obtain rfl := Option.some.inj (hkey.symm.trans hnode)
      rcases hturn with ⟨hbefore, -⟩ | ⟨-, hsplit⟩
      · exact hbefore
      · exact absurd hleads (CallTarget.id_ofQualified_eq_iff.mp (hsplit.symm.trans hid))
    · obtain ⟨method, hsource, -⟩ := hleads
      have hdot := hdrops.no_dot
      rw [hid, hsource] at hdot
      exact absurd List.mem_cons_self hdot
  · intro h
    have hid : node.id = source := by
      rcases hturn with ⟨-, hid⟩ | ⟨hbefore, hsplit⟩
      · exact hid
      · exact hsplit.trans (CallTarget.id_ofQualified_of_not (h.resolve_right hbefore))
    exact ⟨node, Ordered.mem_values.mpr ⟨source, hnode⟩, hid⟩

end CallGraph

/-- **Joining undoes splitting, unless the only dot leads.** Then the dot is lost, and a source with
such an id that is never declared has no node in the graph, unless it is called before its turn. -/
theorem CallTarget.id_ofQualified_and_exists_node_iff (id : String) :
    ((ofQualified id).id = id ↔ ¬ HasOnlyLeadingDot id) ∧
      (∀ method : Text, id.toList = '.' :: method → '.' ∉ method →
        (ofQualified id).id = String.ofList method) ∧
      ∀ findings, Findings.CallsFrom findings id → ¬ Findings.Declares findings id →
        ((∃ node ∈ (CallGraph.assemble (Tables.empty.enterAll findings)).nodes, node.id = id) ↔
          ¬ HasOnlyLeadingDot id ∨ Findings.CalledBefore findings id) :=
  ⟨id_ofQualified_eq_iff, fun _ => id_ofQualified_of_leadingDot,
    fun _ => CallGraph.exists_node_of_undeclared_iff⟩

namespace Findings

/-- A source that is never declared, and whose only dot leads. -/
def runJob : List Finding :=
  [.callsFound ".run" (Std.ExtTreeSet.ofList [CallTarget.inPackage "app" "audit"])]

/-- The same source, called by one before it. -/
def tickJob : List Finding :=
  .callsFound "-tick" (Std.ExtTreeSet.ofList [CallTarget.inPackage "" ".run"]) :: runJob

theorem not_declares_tickJob (id : String) : ¬ Declares tickJob id := by
  intro h
  obtain ⟨node, hmem, -⟩ := h
  simp [tickJob, runJob] at hmem

theorem calledBefore_tickJob : CalledBefore tickJob ".run" := by
  refine ⟨"-tick", by decide, CallTarget.inPackage "" ".run", ⟨_, .head _, ?_⟩, rfl⟩
  decide +kernel

end Findings

theorem CallTarget.id_ofQualified_and_exists_node_iff_tickJob :
    (ofQualified ".run").id = "run" ∧ Findings.CallsFrom Findings.tickJob ".run" ∧
      ¬ Findings.Declares Findings.tickJob ".run" ∧
      ∃ node ∈ (CallGraph.assemble (Tables.empty.enterAll Findings.tickJob)).nodes,
        node.id = ".run" := by
  have hcalls : Findings.CallsFrom Findings.tickJob ".run" := ⟨_, .tail _ (.head _)⟩
  have hundeclared := Findings.not_declares_tickJob ".run"
  obtain ⟨-, hleading, hnodes⟩ := id_ofQualified_and_exists_node_iff ".run"
  exact ⟨hleading "run".toList (by decide) (by decide), hcalls, hundeclared,
    (hnodes _ hcalls hundeclared).mpr (Or.inr Findings.calledBefore_tickJob)⟩

/-- The dot is lost, and the source of the only link has no node. -/
theorem CallTarget.not_id_ofQualified_runJob :
    (ofQualified ".run").id ≠ ".run" ∧
      ∃ link ∈ (CallGraph.assemble (Tables.empty.enterAll Findings.runJob)).links,
        ∀ node ∈ (CallGraph.assemble (Tables.empty.enterAll Findings.runJob)).nodes,
          node.id ≠ link.source := by
  decide +kernel

end ActionCalls
