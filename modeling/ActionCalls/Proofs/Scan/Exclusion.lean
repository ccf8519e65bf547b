import ActionCalls.Proofs.Scan.Findings

/-!
# Exclusion lists are filters

A blacklist, the built-in names and the accessor beginnings are consulted while files are scanned: a
blacklisted method is not declared, and a call of an excluded name is not resolved. This module
shows that the result is the graph **without any exclusion, filtered afterwards** by the last
segments of its ids.

The point is that a method which is not declared is no local method either, and being local decides
where a call goes. But the calls that this could redirect are those of a blacklisted name, and these
are left out anyway (`resolve?_unfiltered`). So each remaining call goes where it goes without
exclusions.
-/

namespace ActionCalls

/-! ### Admitted links -/

/-- Nothing is excluded. -/
def CallFilter.none : CallFilter := ⟨[], [], ∅⟩

/-- The scanner without exclusions. -/
def Scanner.unfiltered (scanner : Scanner) : Scanner :=
  { scanner with filter := .none }

/-- Do the exclusion lists admit the link? Its source must not be blacklisted, and its target must
be neither blacklisted, nor built in, nor an accessor. -/
def CallFilter.Admits (filter : CallFilter) (link : CallLink) : Prop :=
  lastSegment link.source ∉ filter.blacklist ∧
    lastSegment link.target ∉ filter.blacklist ∧
    lastSegment link.target ∉ filter.builtins ∧
    ∀ beginning ∈ filter.accessorPrefixes,
      ¬ beginning.toList <+: (lastSegment link.target).toList

instance (filter : CallFilter) : DecidablePred filter.Admits :=
  fun _ => inferInstanceAs (Decidable (_ ∧ _ ∧ _ ∧ ∀ _ ∈ _, _))

theorem CallFilter.admits_iff {filter : CallFilter} {link : CallLink} :
    filter.Admits link ↔
      lastSegment link.source ∉ filter.blacklist ∧ ¬ filter.ignores (lastSegment link.target) := by
  rw [CallFilter.ignores_iff]
  simp only [Admits, not_or, not_exists, not_and]
  refine and_congr_right fun _ => ?_
  constructor
  · intro h
    obtain ⟨hblack, hbuiltin, hbeginning⟩ := h
    exact ⟨hbuiltin, hbeginning, hblack⟩
  · intro h
    obtain ⟨hbuiltin, hbeginning, hblack⟩ := h
    exact ⟨hblack, hbuiltin, hbeginning⟩

/-! ### Resolution with and without exclusions -/

namespace Scanner

variable {scanner : Scanner} {texts : List Text}

theorem mem_declarations {s : Text} {declaration : Source.MethodDeclaration} :
    declaration ∈ scanner.declarations s ↔
      declaration ∈ scanner.unfiltered.declarations s ∧
        declaration.name ∉ scanner.filter.blacklist := by
  simp [declarations, unfiltered, CallFilter.none]

theorem declared_iff {s : Text} {c : ClassRecord} {declaration : Source.MethodDeclaration} :
    scanner.Declared texts s c declaration ↔
      scanner.unfiltered.Declared texts s c declaration ∧
        declaration.name ∉ scanner.filter.blacklist := by
  unfold Declared
  rw [mem_declarations, and_assoc, and_assoc]
  rfl

/-- A name that is not blacklisted is local with and without exclusions alike. -/
theorem mem_localMethods {s : Text} {c : ClassRecord} {name : String}
    (h : name ∉ scanner.filter.blacklist) :
    name ∈ (scanner.context s c).localMethods ↔
      name ∈ (scanner.unfiltered.context s c).localMethods := by
  simp only [context, Std.ExtTreeSet.mem_ofList, List.contains_iff_mem, List.mem_map]
  constructor
  · intro hlocal
    obtain ⟨declaration, hmem, hname⟩ := hlocal
    exact ⟨declaration, (mem_declarations.mp hmem).1, hname⟩
  · intro hlocal
    obtain ⟨declaration, hmem, hname⟩ := hlocal
    exact ⟨declaration, mem_declarations.mpr ⟨hmem, hname ▸ h⟩, hname⟩

/-- A call that is not left out goes where it goes without exclusions. -/
theorem resolve?_unfiltered {s : Text} {c : ClassRecord} {name : String}
    (h : name ∉ scanner.filter.blacklist) :
    resolve? scanner.project (scanner.context s c) name =
      resolve? scanner.project (scanner.unfiltered.context s c) name := by
  have hlocal := mem_localMethods (s := s) (c := c) h
  unfold resolve?
  simp only [hlocal]
  rfl

theorem mem_resolveBody_iff {s : Text} {c : ClassRecord} {body : Text} {target : CallTarget} :
    target ∈ resolveBody scanner.project scanner.filter (scanner.context s c) body ↔
      target ∈ resolveBody scanner.project .none (scanner.unfiltered.context s c) body ∧
        ¬ scanner.filter.ignores target.method := by
  have hblack : ∀ {name}, ¬ scanner.filter.ignores name → name ∉ scanner.filter.blacklist :=
    fun h hmem => h (CallFilter.ignores_iff.mpr (Or.inr (Or.inr hmem)))
  rw [mem_resolveBody, mem_resolveBody]
  -- The name of a kept call is not blacklisted, so it resolves alike in both contexts.
  constructor
  · intro h
    obtain ⟨name, hname, hkept, hresolve⟩ := h
    rw [method_of_resolve? hresolve]
    rw [resolve?_unfiltered (hblack hkept)] at hresolve
    exact ⟨⟨name, hname, by simp [CallFilter.ignores_iff, CallFilter.none], hresolve⟩, hkept⟩
  · intro h
    obtain ⟨⟨name, hname, -, hresolve⟩, hkept⟩ := h
    rw [method_of_resolve? hresolve] at hkept
    rw [← resolve?_unfiltered (hblack hkept)] at hresolve
    exact ⟨name, hname, hkept, hresolve⟩

/-- The calls found are those found without exclusions, as far as the lists admit them. -/
theorem calls_allFindings_iff {source : String} {target : CallTarget} :
    Findings.Calls (scanner.allFindings texts) source target ↔
      Findings.Calls (scanner.unfiltered.allFindings texts) source target ∧
        scanner.filter.Admits ⟨source, target.id⟩ := by
  rw [calls_allFindings, calls_allFindings, CallFilter.admits_iff]
  constructor
  · intro h
    obtain ⟨s, c, declaration, hdeclared, hid, hmem⟩ := h
    obtain ⟨hfull, hname⟩ := declared_iff.mp hdeclared
    obtain ⟨hresolved, hkept⟩ := mem_resolveBody_iff.mp hmem
    refine ⟨⟨s, c, declaration, hfull, hid, hresolved⟩, ?_, ?_⟩
    · rw [← hid, hdeclared.lastSegment_id]
      exact hname
    · rw [lastSegment_of_mem_resolveBody hmem]
      exact hkept
  · intro h
    obtain ⟨⟨s, c, declaration, hfull, hid, hresolved⟩, hname, hkept⟩ := h
    rw [← hid, hfull.lastSegment_id] at hname
    rw [lastSegment_of_mem_resolveBody hresolved] at hkept
    exact ⟨s, c, declaration, declared_iff.mpr ⟨hfull, hname⟩, hid,
      mem_resolveBody_iff.mpr ⟨hresolved, hkept⟩⟩

/-! ### The tables with and without exclusions -/

theorem mem_scanAll_callSet {source : String} {target : CallTarget} :
    target ∈ (scanner.scanAll .empty texts).callSet source ↔
      target ∈ (scanner.unfiltered.scanAll .empty texts).callSet source ∧
        scanner.filter.Admits ⟨source, target.id⟩ := by
  rw [scanAll_eq_enterAll, scanAll_eq_enterAll, Tables.mem_ofFindings_callSet,
    Tables.mem_ofFindings_callSet, calls_allFindings_iff]

theorem scanAll_classes (scanner : Scanner) (texts : List Text) :
    (scanner.scanAll .empty texts).classes =
      (scanner.unfiltered.scanAll .empty texts).classes := by
  rw [scanAll_eq_enterAll, scanAll_eq_enterAll, Tables.enterAll_classes, Tables.enterAll_classes,
    classes_allFindings, classes_allFindings]
  rfl

theorem nodes_allFindings_eq_filter (scanner : Scanner) (texts : List Text) :
    Findings.nodes (scanner.allFindings texts) =
      (Findings.nodes (scanner.unfiltered.allFindings texts)).filter fun node =>
        node.method ∉ scanner.filter.blacklist := by
  have hfile : ∀ s, scanner.declarations s =
      (scanner.unfiltered.declarations s).filter fun declaration =>
        declaration.name ∉ scanner.filter.blacklist := by
    intro s
    simp [declarations, unfiltered, CallFilter.none]
  rw [nodes_allFindings, nodes_allFindings, List.filter_flatMap]
  simp only [hfile, List.filter_flatMap, List.filter_map]
  rfl

/-- A blacklisted method is not declared, and any other is as without exclusions. -/
theorem scanAll_nodes_getElem? (scanner : Scanner) (texts : List Text) (id : String) :
    (scanner.scanAll .empty texts).nodes[id]? =
      if lastSegment id ∈ scanner.filter.blacklist then none
      else (scanner.unfiltered.scanAll .empty texts).nodes[id]? := by
  have hmethod : ∀ node ∈ Findings.nodes (scanner.unfiltered.allFindings texts),
      node.method = lastSegment node.id := by
    intro node hmem
    obtain ⟨s, c, declaration, hdeclared, hnode⟩ :=
      methodFound_mem_allFindings.mp (Findings.mem_nodes.mp hmem)
    subst hnode
    exact hdeclared.lastSegment_id.symm
  rw [scanAll_eq_enterAll, scanAll_eq_enterAll, Tables.ofFindings_nodes_getElem?,
    Tables.ofFindings_nodes_getElem?, nodes_allFindings_eq_filter,
    List.filter_congr fun node hmem => by rw [hmethod node hmem], List.find?_filter]
  -- Of the nodes with this id either all are filtered out or none is.
  by_cases hblack : lastSegment id ∈ scanner.filter.blacklist
  · rw [if_pos hblack]
    refine List.find?_eq_none.mpr ?_
    intro node _ hfound
    simp only [decide_eq_true_eq] at hfound
    exact hfound.1 (hfound.2 ▸ hblack)
  · rw [if_neg hblack]
    refine congrArg (List.find? · _) ?_
    funext node
    by_cases hid : node.id = id
    · simp [hid, hblack]
    · simp [hid]

end Scanner

/-! ### The graph with and without exclusions -/

namespace CallGraph

open Scanner (calls_allFindings declares_of_callsFrom keyed_scanAll mem_scanAll_callSet
  methodFound_mem_allFindings scanAll_classes scanAll_eq_enterAll scanAll_nodes_getElem?)

variable {scanner : Scanner} {texts : List Text}

/-- The links are those without exclusions that the lists admit. -/
theorem links_scanAll (scanner : Scanner) (texts : List Text) :
    (assemble (scanner.scanAll .empty texts)).links =
      (assemble (scanner.unfiltered.scanAll .empty texts)).links.filter scanner.filter.Admits := by
  refine Ordered.eq_of_pairwise (fun _ _ => CallLink.Precedes.asymm) (assemble_links_ascending _)
    ((assemble_links_ascending _).filter _) ?_
  intro link
  obtain ⟨source, id⟩ := link
  rw [List.mem_filter, mem_assemble_links, mem_assemble_links, decide_eq_true_eq]
  constructor
  · intro h
    obtain ⟨target, hmem, hid⟩ := h
    obtain rfl : target.id = id := hid
    obtain ⟨hfull, hadmits⟩ := mem_scanAll_callSet.mp hmem
    exact ⟨⟨target, hfull, rfl⟩, hadmits⟩
  · intro h
    obtain ⟨⟨target, hfull, hid⟩, hadmits⟩ := h
    obtain rfl : target.id = id := hid
    exact ⟨target, mem_scanAll_callSet.mpr ⟨hfull, hadmits⟩, rfl⟩

/-- The classes are those without exclusions. -/
theorem classes_scanAll (scanner : Scanner) (texts : List Text) :
    (assemble (scanner.scanAll .empty texts)).classes =
      (assemble (scanner.unfiltered.scanAll .empty texts)).classes := by
  show (scanner.scanAll .empty texts).classes.values = _
  rw [scanAll_classes]
  rfl

/-- The declared nodes are those without exclusions whose ids do not end in a blacklisted name. -/
theorem declaredNodes_scanAll (scanner : Scanner) (texts : List Text) :
    declaredNodes (scanner.scanAll .empty texts) =
      (declaredNodes (scanner.unfiltered.scanAll .empty texts)).filter fun node =>
        lastSegment node.id ∉ scanner.filter.blacklist := by
  have hkeyed := keyed_scanAll scanner texts
  have hfull := keyed_scanAll scanner.unfiltered texts
  refine Ordered.eq_of_pairwise (fun _ _ => String.lt_asymm) (declaredNodes_ascending hkeyed)
    ((declaredNodes_ascending hfull).filter _) ?_
  intro node
  rw [List.mem_filter, mem_declaredNodes hkeyed, mem_declaredNodes hfull, decide_eq_true_eq,
    scanAll_nodes_getElem?]
  by_cases hblack : lastSegment node.id ∈ scanner.filter.blacklist
  · simp [hblack]
  · simp [hblack]

/-- The method of every node is the last segment of its id: nodes are declared or made from resolved
targets, and a node made from the id of a source alone does not occur. -/
theorem lastSegment_of_mem_assemble_scanAll {node : MethodNode}
    (hmem : node ∈ (assemble (scanner.scanAll .empty texts)).nodes) :
    lastSegment node.id = node.method := by
  have hnode := (mem_assemble_nodes (keyed_scanAll scanner texts)).mp hmem
  rw [← MethodNode.bare_id, ← MethodNode.bare_method]
  cases Assembly.origin_of_run_nodes hnode with
  | declared first found same =>
      rw [scanAll_eq_enterAll] at found
      obtain ⟨s, c, declaration, hdeclared, hfirst⟩ :=
        methodFound_mem_allFindings.mp (Tables.methodFound_of_ofFindings_nodes found)
      rw [same, ← hfirst]
      exact hdeclared.lastSegment_id
  | source undeclared mem same =>
      -- Every source of a scan is declared.
      rw [scanAll_eq_enterAll] at undeclared mem
      rw [Tables.mem_ofFindings_nodes] at undeclared
      rcases Tables.mem_ofFindings_calls.mp mem with hdeclares | hcalls
      · exact absurd hdeclares undeclared
      · exact absurd (declares_of_callsFrom hcalls) undeclared
  | target undeclared source target mem hid same =>
      rw [scanAll_eq_enterAll, Tables.mem_ofFindings_callSet] at mem
      obtain ⟨s, c, declaration, -, -, hresolved⟩ := calls_allFindings.mp mem
      rw [same]
      exact lastSegment_of_mem_resolveBody hresolved

/-- No id of a node ends in a blacklisted name. -/
theorem lastSegment_notMem_blacklist {id : String}
    (hid : id ∈ (Assembly.run (scanner.scanAll .empty texts)).nodes) :
    lastSegment id ∉ scanner.filter.blacklist := by
  have hdeclared : ∀ id, id ∈ (scanner.scanAll .empty texts).nodes →
      lastSegment id ∉ scanner.filter.blacklist := by
    intro id hmem hblack
    rw [Std.ExtTreeMap.mem_iff_isSome_getElem?, scanAll_nodes_getElem?, if_pos hblack] at hmem
    exact absurd hmem Bool.false_ne_true
  rcases Assembly.mem_run_nodes.mp hid with hnode | hsource | ⟨source, target, hmem, htarget⟩
  · exact hdeclared id hnode
  · refine hdeclared id ?_
    rw [scanAll_eq_enterAll, Tables.mem_ofFindings_calls] at hsource
    rw [scanAll_eq_enterAll, Tables.mem_ofFindings_nodes]
    exact hsource.elim (fun h => h) declares_of_callsFrom
  · obtain ⟨-, -, hwhite, -⟩ := mem_scanAll_callSet.mp hmem
    exact htarget ▸ hwhite

/-- **Exclusion lists filter the graph.** Of the graph without exclusions exactly the links that the
lists admit remain, all classes, and the declared nodes whose methods are not blacklisted. No node
has a blacklisted method, and no end of a link is the id of one. -/
theorem assemble_scanAll_excluded (scanner : Scanner) (texts : List Text) :
    let tables := scanner.scanAll .empty texts
    let full := scanner.unfiltered.scanAll .empty texts
    (assemble tables).links = (assemble full).links.filter scanner.filter.Admits ∧
    (assemble tables).classes = (assemble full).classes ∧
    declaredNodes tables =
      (declaredNodes full).filter (fun node => node.method ∉ scanner.filter.blacklist) ∧
    (∀ node ∈ (assemble tables).nodes,
      node.method = lastSegment node.id ∧ node.method ∉ scanner.filter.blacklist) ∧
    ∀ link ∈ (assemble tables).links,
      lastSegment link.source ∉ scanner.filter.blacklist ∧
      lastSegment link.target ∉ scanner.filter.blacklist := by
  intro tables full
  have hkeyed := keyed_scanAll scanner texts
  refine ⟨links_scanAll scanner texts, classes_scanAll scanner texts, ?_, ?_, ?_⟩
  · rw [declaredNodes_scanAll]
    refine List.filter_congr ?_
    intro node hmem
    obtain ⟨whole, hwhole, hbare⟩ := List.mem_map.mp hmem
    rw [← hbare, MethodNode.bare_id, MethodNode.bare_method,
      lastSegment_of_mem_assemble_scanAll (List.mem_filter.mp hwhole).1]
  · intro node hmem
    have hmethod := lastSegment_of_mem_assemble_scanAll hmem
    refine ⟨hmethod.symm, ?_⟩
    rw [← hmethod]
    exact lastSegment_notMem_blacklist ((exists_assemble_node_iff hkeyed).mp ⟨node, hmem, rfl⟩)
  · intro link hlink
    rw [links_scanAll, List.mem_filter, decide_eq_true_eq] at hlink
    exact ⟨hlink.2.1, hlink.2.2.1⟩

end CallGraph

end ActionCalls
