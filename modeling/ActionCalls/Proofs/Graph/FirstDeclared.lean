import ActionCalls.Proofs.Graph.Qualified

/-!
# The first declaration of an id stays

Three kinds of findings are entered under a key that may be taken already, and each kind has its own
winner: of the declarations of an id the **first** one stays, of the records of a class the **last**
one, and the calls of a source are **united**. Assembly comes after that and goes to a node once as a
source and once for each source that calls it; each time it changes nothing but statistics. So the
graph has a node that says what the first declaration of its id says, whatever is found later.

This node need not be the only one with its id. A source that is never declared has a node of its own,
and if its only dot leads, that node loses the dot (`Findings.LosesDot`). If what is left is the id of
a declared method, the graph has **two nodes with one id**, and under this id the one is found that
belongs to the lesser key: the made node hides the declared one, unless the id comes before a dot.
-/

namespace ActionCalls

/-! ### What is entered under one key -/

namespace Findings

/-- The nodes that are declared under an id, in their order. -/
def declaredAs (findings : List Finding) (id : String) : List MethodNode :=
  (nodes findings).filter fun node => node.id = id

/-- The classes that are recorded under a qualified name, in their order. -/
def recordedAs (findings : List Finding) (name : String) : List ClassRecord :=
  (classes findings).filter fun c => c.qualifiedName = name

/-- Does the node of the source that has a dot in front of the id lose this dot? It has no other dot,
it is never declared, and no source before it calls it. -/
structure LosesDot (findings : List Finding) (id : String) : Prop where
  no_dot : '.' ∉ id.toList
  source : CallsFrom findings ("." ++ id)
  undeclared : ¬ Declares findings ("." ++ id)
  not_called : ¬ CalledBefore findings ("." ++ id)

variable {findings : List Finding} {id : String}

theorem exists_head?_declaredAs (h : Declares findings id) :
    ∃ first, (declaredAs findings id).head? = some first := by
  obtain ⟨node, hmem, hid⟩ := h
  rw [declaredAs, List.head?_filter, ← Option.isSome_iff_exists, List.find?_isSome]
  exact ⟨node, mem_nodes.mpr hmem, decide_eq_true hid⟩

theorem id_of_head?_declaredAs {first : MethodNode}
    (h : (declaredAs findings id).head? = some first) : first.id = id := by
  have hmem := List.mem_of_mem_head? h
  simpa using (List.mem_filter.mp hmem).2

end Findings

/-- A source keeps its targets when more is found, and the targets found for it are added. -/
theorem Tables.exists_calls_enterAll {tables : Tables} {source : String}
    {targets : Std.ExtTreeSet CallTarget} (h : tables.calls[source]? = some targets)
    (later : List Finding) :
    ∃ more, (tables.enterAll later).calls[source]? = some more ∧
      ∀ target, target ∈ more ↔ target ∈ targets ∨ Findings.Calls later source target := by
  have hsource : source ∈ (tables.enterAll later).calls :=
    mem_calls_enterAll.mpr (Or.inl (Ordered.mem_iff_exists_getElem?.mpr ⟨targets, h⟩))
  have hset : tables.callSet source = targets := by rw [callSet, h, Option.getD_some]
  refine ⟨(tables.enterAll later).callSet source, ?_, fun target => ?_⟩
  · rw [calls_getElem?_eq, if_pos hsource]
  · rw [mem_callSet_enterAll, hset]

/-! ### Nodes that lose a dot -/

theorem ne_dot_append (id : String) : "." ++ id ≠ id := by
  intro h
  have hlength := congrArg (fun s : String => s.toList.length) h
  simp at hlength

section LosesDot

variable {findings : List Finding} {key id : String} {node : MethodNode}

/-- A node that does not stand under its own id has lost a dot. -/
theorem losesDot_of_run_nodes
    (h : (Assembly.run (Tables.empty.enterAll findings)).nodes[key]? = some node)
    (hne : node.id ≠ key) :
    key = "." ++ node.id ∧ Findings.LosesDot findings node.id ∧
      node.bare = .synthesized (.inPackage "" node.id) := by
  have hdrops := (Assembly.id_of_run_nodes (fun _ _ => Tables.id_of_ofFindings_nodes) h).resolve_left hne
  obtain ⟨hkey, hdot, hsource, hundeclared, hbare⟩ := hdrops
  -- Had the source been called before, its node would be the one made for that target.
  have hnot : ¬ (Tables.empty.enterAll findings).CalledBefore key := by
    intro hcalled
    obtain ⟨other, hother, hturn⟩ := Assembly.exists_run_node_of_undeclared hsource hundeclared
    obtain rfl := Option.some.inj (h.symm.trans hother)
    rcases hturn with ⟨-, hown⟩ | ⟨hlate, -⟩
    · exact hne hown
    · exact hlate hcalled
  rw [Tables.mem_ofFindings_calls] at hsource
  rw [Tables.mem_ofFindings_nodes] at hundeclared
  rw [Tables.calledBefore_ofFindings] at hnot
  refine ⟨hkey, ⟨hdot, ?_, ?_, ?_⟩, hbare⟩
  · exact hkey ▸ hsource.resolve_left hundeclared
  · exact hkey ▸ hundeclared
  · exact hkey ▸ hnot

theorem exists_run_node_of_losesDot (h : Findings.LosesDot findings id) :
    ∃ node, (Assembly.run (Tables.empty.enterAll findings)).nodes["." ++ id]? = some node ∧
      node.bare = .synthesized (.inPackage "" id) := by
  have hcalls := Tables.mem_ofFindings_calls.mpr (Or.inr h.source)
  have hundeclared := mt Tables.mem_ofFindings_nodes.mp h.undeclared
  have hnot := mt Tables.calledBefore_ofFindings.mp h.not_called
  have hdotted : ("." ++ id).toList = '.' :: id.toList := by simp
  obtain ⟨node, hnode, hturn⟩ := Assembly.exists_run_node_of_undeclared hcalls hundeclared
  obtain ⟨hcalled, -⟩ | ⟨-, hid⟩ := hturn
  · exact absurd hcalled hnot
  · rw [CallTarget.id_ofQualified_of_leadingDot hdotted h.no_dot, String.ofList_toList] at hid
    obtain ⟨-, -, hbare⟩ := losesDot_of_run_nodes hnode (hid ▸ (ne_dot_append id).symm)
    exact ⟨node, hnode, hid ▸ hbare⟩

end LosesDot

/-! ### The graph -/

namespace CallGraph

/-- The nodes of a graph with an id, in their order and without their statistics. -/
def namesakes (graph : CallGraph) (id : String) : List MethodNode :=
  (graph.nodes.filter fun node => node.id = id).map MethodNode.bare

/-- What a graph has under an id of which this is the first declaration. -/
structure Keeps (graph : CallGraph) (findings : List Finding) (first : MethodNode) : Prop where
  /-- Nothing but the statistics of the declared node is changed. -/
  kept : ∃ node ∈ graph.nodes, node.bare = first.bare
  alone : ¬ Findings.LosesDot findings first.id → graph.namesakes first.id = [first.bare]
  /-- The node that has lost a dot comes in front if its source does. -/
  doubled : Findings.LosesDot findings first.id →
    graph.namesakes first.id =
      if "." ++ first.id < first.id then [.synthesized (.inPackage "" first.id), first.bare]
      else [first.bare, .synthesized (.inPackage "" first.id)]
  /-- Looked up by its id, the declared node is found unless the other one comes in front. -/
  found : ¬ (Findings.LosesDot findings first.id ∧ "." ++ first.id < first.id) →
    (graph.node? first.id).map MethodNode.bare = some first.bare

/-- What is looked up by an id is the first node with it. -/
theorem map_bare_node? (graph : CallGraph) (id : String) :
    (graph.node? id).map MethodNode.bare = (graph.namesakes id).head? := by
  rw [namesakes, List.head?_map, List.head?_filter]
  rfl

variable {findings : List Finding} {id : String}

/-- The nodes with an id are those of some entries of the node table, if these are all its entries for
nodes with the id. -/
theorem namesakes_assemble {tables : Tables} {l : List (String × MethodNode)}
    (hl : l.Pairwise fun a b => a.1 < b.1)
    (hmem : ∀ key node, (key, node) ∈ l ↔
      (Assembly.run tables).nodes[key]? = some node ∧ node.id = id) :
    (assemble tables).namesakes id = l.map fun entry => entry.2.bare := by
  have hfilter : (assemble tables).nodes.filter (fun node => node.id = id) = l.map Prod.snd :=
    Ordered.filter_values_eq hl fun key node => by rw [hmem, decide_eq_true_iff]
  rw [namesakes, hfilter, List.map_map]
  rfl

section Declared

variable {kept made : MethodNode}
  (hkept : (Assembly.run (Tables.empty.enterAll findings)).nodes[id]? = some kept)
  (hid : kept.id = id)

include hkept hid

/-- Where no dot is lost, the node that stands under the id is the only one with it. -/
theorem namesakes_of_not_losesDot (h : ¬ Findings.LosesDot findings id) :
    (assemble (Tables.empty.enterAll findings)).namesakes id = [kept.bare] := by
  refine namesakes_assemble (l := [(id, kept)]) (List.pairwise_singleton _ _) fun key node => ?_
  rw [List.mem_singleton, Prod.mk.injEq]
  constructor
  · intro heq
    obtain ⟨rfl, rfl⟩ := heq
    exact ⟨hkept, hid⟩
  · intro hnode
    obtain ⟨hnode, rfl⟩ := hnode
    by_cases hkey : node.id = key
    · subst hkey
      exact ⟨rfl, Option.some.inj (hnode.symm.trans hkept)⟩
    · exact absurd (losesDot_of_run_nodes hnode hkey).2.1 h

/-- Of the node that stands under the id and the one that has lost a dot, the one that belongs to the
lesser key comes first. -/
theorem namesakes_of_losesDot
    (hmade : (Assembly.run (Tables.empty.enterAll findings)).nodes["." ++ id]? = some made)
    (hmadeId : made.id = id) :
    (assemble (Tables.empty.enterAll findings)).namesakes id =
      if "." ++ id < id then [made.bare, kept.bare] else [kept.bare, made.bare] := by
  have hentry : ∀ key node, (Assembly.run (Tables.empty.enterAll findings)).nodes[key]? = some node ∧
      node.id = id ↔ key = "." ++ id ∧ node = made ∨ key = id ∧ node = kept := by
    intro key node
    constructor
    · intro hnode
      obtain ⟨hnode, rfl⟩ := hnode
      by_cases hkey : node.id = key
      · subst hkey
        exact Or.inr ⟨rfl, Option.some.inj (hnode.symm.trans hkept)⟩
      · obtain ⟨rfl, -, -⟩ := losesDot_of_run_nodes hnode hkey
        exact Or.inl ⟨rfl, Option.some.inj (hnode.symm.trans hmade)⟩
    · intro hcases
      obtain ⟨rfl, rfl⟩ | ⟨rfl, rfl⟩ := hcases
      · exact ⟨hmade, hmadeId⟩
      · exact ⟨hkept, hid⟩
  split
  case isTrue hlt =>
      refine namesakes_assemble (l := [("." ++ id, made), (id, kept)]) ?_ fun key node => ?_
      · simpa using hlt
      · simp [hentry]
  case isFalse hge =>
      have hlt : id < "." ++ id :=
        Std.lt_of_le_of_ne (String.not_lt.mp hge) (ne_dot_append id).symm
      refine namesakes_assemble (l := [(id, kept), ("." ++ id, made)]) ?_ fun key node => ?_
      · simpa using hlt
      · simp [hentry, or_comm]

end Declared

/-- The first declaration of an id is kept. -/
theorem keeps_of_head? {first : MethodNode}
    (h : (Findings.declaredAs findings id).head? = some first) :
    (assemble (Tables.empty.enterAll findings)).Keeps findings first := by
  obtain rfl := Findings.id_of_head?_declaredAs h
  rw [Findings.declaredAs, List.head?_filter, ← Tables.ofFindings_nodes_getElem?] at h
  obtain ⟨kept, hkept, hbare⟩ := Assembly.exists_run_node h
  have hid : kept.id = first.id := by rw [← MethodNode.bare_id, hbare, MethodNode.bare_id]
  have halone := namesakes_of_not_losesDot hkept hid
  rw [hbare] at halone
  have hdoubled : Findings.LosesDot findings first.id →
      (assemble (Tables.empty.enterAll findings)).namesakes first.id =
        if "." ++ first.id < first.id then [.synthesized (.inPackage "" first.id), first.bare]
        else [first.bare, .synthesized (.inPackage "" first.id)] := by
    intro hloses
    obtain ⟨made, hmade, hmadeBare⟩ := exists_run_node_of_losesDot hloses
    have hmadeId : made.id = first.id := by
      rw [← MethodNode.bare_id, hmadeBare]
      rfl
    rw [namesakes_of_losesDot hkept hid hmade hmadeId, hbare, hmadeBare]
  refine ⟨⟨kept, Ordered.mem_values.mpr ⟨first.id, hkept⟩, hbare⟩, halone, hdoubled, ?_⟩
  intro hnot
  rw [map_bare_node?]
  by_cases hloses : Findings.LosesDot findings first.id
  · rw [hdoubled hloses, if_neg fun hlt => hnot ⟨hloses, hlt⟩, List.head?_cons]
  · rw [halone hloses, List.head?_cons]

/-- A class of the graph is the last record of its qualified name. -/
theorem mem_assemble_classes_iff_getLast? {c : ClassRecord} :
    c ∈ (assemble (Tables.empty.enterAll findings)).classes ↔
      (Findings.recordedAs findings c.qualifiedName).getLast? = some c := by
  rw [mem_assemble_classes, Tables.ofFindings_classes_getElem?, Findings.recordedAs,
    List.getLast?_eq_head?_reverse, ← List.filter_reverse, List.head?_filter]

/-- **Nothing that is found later revises the first declaration of an id.** The graph of any findings has
a node that says what the first declaration of an id says, its classes are the last ones recorded, and
the targets of a source are only added to. The node is the one with the id, and found under it, unless
another node has lost a dot. -/
theorem assemble_keeps_first (findings : List Finding) :
    (∀ id, Findings.Declares findings id →
      ∃ first, (Findings.declaredAs findings id).head? = some first ∧ first.id = id ∧
        (assemble (Tables.empty.enterAll findings)).Keeps findings first) ∧
    (∀ c, c ∈ (assemble (Tables.empty.enterAll findings)).classes ↔
      (Findings.recordedAs findings c.qualifiedName).getLast? = some c) ∧
    ∀ later source targets, (Tables.empty.enterAll findings).calls[source]? = some targets →
      ∃ more, (Tables.empty.enterAll (findings ++ later)).calls[source]? = some more ∧
        ∀ target, target ∈ more ↔ target ∈ targets ∨ Findings.Calls later source target := by
  refine ⟨fun id hdeclares => ?_, fun c => mem_assemble_classes_iff_getLast?, ?_⟩
  · obtain ⟨first, hfirst⟩ := Findings.exists_head?_declaredAs hdeclares
    exact ⟨first, hfirst, Findings.id_of_head?_declaredAs hfirst, keeps_of_head? hfirst⟩
  · intro later source targets hcalls
    rw [Tables.enterAll_append]
    exact Tables.exists_calls_enterAll hcalls later

end CallGraph

namespace Findings

/-- A public method. -/
def publicAdd : MethodNode :=
  ⟨"shop.CartAction.add", "shop", "CartAction", "add", true, .publicAccess, false, .empty, ∅⟩

/-- The class of the method, which calls itself. -/
def cart : List Finding :=
  [.classFound ⟨"CartAction", "shop", true, none, ∅, ∅⟩, .methodFound publicAdd,
   .callsFound "shop.CartAction.add"
    (Std.ExtTreeSet.ofList [CallTarget.inClass "shop" "CartAction" "add"])]

/-- The class once more, with a private and static method of the same id that calls another one. -/
def cartAgain : List Finding :=
  [.classFound ⟨"CartAction", "shop", true, some "BaseAction", ∅, ∅⟩,
   .methodFound { publicAdd with accessLevel := .privateAccess, isStatic := true },
   .callsFound "shop.CartAction.add"
    (Std.ExtTreeSet.ofList [CallTarget.inPackage "shop" "audit"])]

theorem declares_cart : Declares cart "shop.CartAction.add" :=
  ⟨publicAdd, .tail _ (.head _), rfl⟩

theorem exists_calls_cart :
    ∃ targets, (Tables.empty.enterAll cart).calls["shop.CartAction.add"]? = some targets := by
  rw [← Ordered.mem_iff_exists_getElem?, Tables.mem_ofFindings_calls]
  exact Or.inl declares_cart

theorem not_losesDot_cart (later : List Finding) :
    ¬ LosesDot (cart ++ later) "shop.CartAction.add" := by
  intro h
  exact absurd h.no_dot (by decide)

end Findings

theorem CallGraph.assemble_keeps_first_cart :
    Findings.Declares (Findings.cart ++ Findings.cartAgain) "shop.CartAction.add" ∧
      ((assemble (Tables.empty.enterAll (Findings.cart ++ Findings.cartAgain))).node?
        "shop.CartAction.add").map MethodNode.bare = some Findings.publicAdd ∧
      (∃ c ∈ (assemble (Tables.empty.enterAll (Findings.cart ++ Findings.cartAgain))).classes,
        c.superClass = some "BaseAction") ∧
      ∃ targets more,
        (Tables.empty.enterAll Findings.cart).calls["shop.CartAction.add"]? = some targets ∧
        (Tables.empty.enterAll (Findings.cart ++ Findings.cartAgain)).calls[
          "shop.CartAction.add"]? = some more ∧
        (∀ target ∈ targets, target ∈ more) ∧ CallTarget.inPackage "shop" "audit" ∈ more := by
  obtain ⟨hfirst, hclasses, -⟩ := assemble_keeps_first (Findings.cart ++ Findings.cartAgain)
  obtain ⟨-, -, hgrows⟩ := assemble_keeps_first Findings.cart
  have hdeclares : Findings.Declares (Findings.cart ++ Findings.cartAgain) "shop.CartAction.add" :=
    Findings.declares_append.mpr (Or.inl Findings.declares_cart)
  have hlast := (hclasses ⟨"CartAction", "shop", true, some "BaseAction", ∅, ∅⟩).mpr rfl
  refine ⟨hdeclares, ?_, ⟨_, hlast, rfl⟩, ?_⟩
  · obtain ⟨first, hhead, hid, hkeeps⟩ := hfirst _ hdeclares
    obtain rfl : Findings.publicAdd = first := Option.some.inj hhead
    exact hkeeps.found fun h => Findings.not_losesDot_cart _ h.1
  · obtain ⟨targets, htargets⟩ := Findings.exists_calls_cart
    obtain ⟨more, hmore, hmem⟩ := hgrows Findings.cartAgain _ targets htargets
    refine ⟨targets, more, htargets, hmore, fun target h => (hmem target).mpr (Or.inl h), ?_⟩
    exact (hmem _).mpr (Or.inr ⟨_, .tail _ (.tail _ (.head _)), by decide +kernel⟩)

namespace Findings

/-- Is what the first declaration of an id says always found under the id in the graph? -/
def FindsFirst (findings : List Finding) : Prop :=
  ∀ id first, (declaredAs findings id).head? = some first →
    ((CallGraph.assemble (Tables.empty.enterAll findings)).node? id).map MethodNode.bare =
      some first.bare

/-- A declared method without a package, and a source that has the id of the method behind a dot. -/
def runTwice : List Finding :=
  [.methodFound ⟨"run", "", "", "run", true, .publicAccess, false, .empty, ∅⟩,
   .callsFound ".run" (Std.ExtTreeSet.ofList [CallTarget.inPackage "app" "audit"])]

/-- The node of the source loses its dot and hides the declared one. -/
theorem not_findsFirst_runTwice : ¬ FindsFirst runTwice := by
  intro h
  have hfound := h "run" _ rfl
  exact absurd hfound (by decide +kernel)

end Findings

end ActionCalls
