import ActionCalls.Proofs.Graph.Statistics
import ActionCalls.Proofs.Resolution
import ActionCalls.Proofs.Source.Signature
import ActionCalls.Scan

/-!
# What scanning finds

Scanning several files is **entering one list of findings** (`scanAll_eq_enterAll`): those of each
file with a package and an action class, in the order of the files. So whatever holds of the tables
of a list of findings holds of scanned tables, once it is known which findings a scan can make.

Every source of calls is declared by the finding just before its calls. A scan therefore never needs
a node made from the id of a source, and the graph of scanned tables is closed without conditions.
-/

namespace ActionCalls

namespace Scanner

/-! ### The findings of files -/

/-- The findings in a file, none if it has no package or no action class. -/
def fileFindings (scanner : Scanner) (s : Text) : List Finding :=
  (scanner.classRecord? s).elim [] (scanner.findings s)

/-- The findings in several files, in their order. -/
def allFindings (scanner : Scanner) (texts : List Text) : List Finding :=
  texts.flatMap scanner.fileFindings

variable {scanner : Scanner} {texts : List Text}

theorem scan_fst (scanner : Scanner) (tables : Tables) (s : Text) :
    (scanner.scan tables s).1 = tables.enterAll (scanner.fileFindings s) := by
  unfold scan fileFindings
  cases scanner.classRecord? s <;> rfl

theorem scan_snd (scanner : Scanner) (tables : Tables) (s : Text) :
    (scanner.scan tables s).2 = (scanner.classRecord? s).map ClassRecord.qualifiedName := by
  unfold scan
  cases scanner.classRecord? s <;> rfl

/-- **A scan enters findings.** -/
theorem scanAll_eq_enterAll (scanner : Scanner) (tables : Tables) (texts : List Text) :
    scanner.scanAll tables texts = tables.enterAll (scanner.allFindings texts) := by
  induction texts generalizing tables with
  | nil => rfl
  | cons s rest ih =>
      -- The tables after the first file are those that the rest is entered into.
      show scanner.scanAll (scanner.scan tables s).1 rest = _
      rw [ih, scan_fst, ← Tables.enterAll_append]
      rfl

theorem mem_allFindings {finding : Finding} :
    finding ∈ scanner.allFindings texts ↔
      ∃ s ∈ texts, ∃ c, scanner.classRecord? s = some c ∧ finding ∈ scanner.findings s c := by
  rw [allFindings, List.mem_flatMap]
  refine exists_congr fun s => and_congr_right fun _ => ?_
  unfold fileFindings
  cases scanner.classRecord? s <;> simp

theorem allFindings_cons (scanner : Scanner) (s : Text) (rest : List Text) :
    scanner.allFindings (s :: rest) = scanner.fileFindings s ++ scanner.allFindings rest :=
  List.flatMap_cons

theorem classes_declarationFindings (scanner : Scanner) (c : ClassRecord) (context : CallContext)
    (declarations : List Source.MethodDeclaration) :
    Findings.classes (declarations.flatMap (scanner.declarationFindings c context)) = [] := by
  induction declarations with
  | nil => rfl
  | cons declaration rest ih => exact ih

theorem nodes_declarationFindings (scanner : Scanner) (c : ClassRecord) (context : CallContext)
    (declarations : List Source.MethodDeclaration) :
    Findings.nodes (declarations.flatMap (scanner.declarationFindings c context)) =
      declarations.map (MethodNode.declared c) := by
  induction declarations with
  | nil => rfl
  | cons declaration rest ih => exact congrArg (MethodNode.declared c declaration :: ·) ih

/-- The classes found are those of the files that have one. -/
theorem classes_allFindings (scanner : Scanner) (texts : List Text) :
    Findings.classes (scanner.allFindings texts) = texts.filterMap scanner.classRecord? := by
  induction texts with
  | nil => rfl
  | cons s rest ih =>
      rw [allFindings_cons, Findings.classes_append, ih, fileFindings]
      cases hclass : scanner.classRecord? s with
      | none => simp [Findings.classes, hclass]
      | some c =>
          rw [Option.elim_some, findings, Findings.classes_cons, classes_declarationFindings]
          simp [Finding.class?, hclass]

/-- The nodes declared are those of the declarations of the files that have a class. -/
theorem nodes_allFindings (scanner : Scanner) (texts : List Text) :
    Findings.nodes (scanner.allFindings texts) =
      texts.flatMap fun s => (scanner.classRecord? s).toList.flatMap fun c =>
        (scanner.declarations s).map (MethodNode.declared c) := by
  induction texts with
  | nil => rfl
  | cons s rest ih =>
      rw [allFindings_cons, Findings.nodes_append, ih, fileFindings, List.flatMap_cons]
      cases hclass : scanner.classRecord? s with
      | none => simp [Findings.nodes]
      | some c =>
          rw [Option.elim_some, findings, Findings.nodes_cons, nodes_declarationFindings]
          simp [Finding.node?]

/-- A class of the graph is that of one of the files. -/
theorem exists_text_of_mem_classes {c : ClassRecord}
    (h : c ∈ (CallGraph.assemble (scanner.scanAll .empty texts)).classes) :
    ∃ s ∈ texts, scanner.classRecord? s = some c := by
  rw [scanAll_eq_enterAll, CallGraph.mem_assemble_classes, Tables.ofFindings_classes_getElem?,
    classes_allFindings] at h
  exact List.mem_filterMap.mp (List.mem_reverse.mp (List.mem_of_find?_eq_some h))

/-- A declaration in one of the files, with the class of the file. -/
def Declared (scanner : Scanner) (texts : List Text) (s : Text) (c : ClassRecord)
    (declaration : Source.MethodDeclaration) : Prop :=
  s ∈ texts ∧ scanner.classRecord? s = some c ∧ declaration ∈ scanner.declarations s

theorem methodFound_mem_allFindings {node : MethodNode} :
    .methodFound node ∈ scanner.allFindings texts ↔
      ∃ s c declaration, scanner.Declared texts s c declaration ∧
        .declared c declaration = node := by
  rw [mem_allFindings]
  simp [findings, declarationFindings, Declared, and_assoc, eq_comm]

theorem callsFound_mem_allFindings {source : String} {targets : Std.ExtTreeSet CallTarget} :
    .callsFound source targets ∈ scanner.allFindings texts ↔
      ∃ s c declaration, scanner.Declared texts s c declaration ∧
        (MethodNode.declared c declaration).id = source ∧
        resolveBody scanner.project scanner.filter (scanner.context s c) declaration.body =
          targets := by
  rw [mem_allFindings]
  simp [findings, declarationFindings, Declared, and_assoc, eq_comm]

/-- The calls that a scan finds are those resolved in the bodies of declarations. -/
theorem calls_allFindings {source : String} {target : CallTarget} :
    Findings.Calls (scanner.allFindings texts) source target ↔
      ∃ s c declaration, scanner.Declared texts s c declaration ∧
        (MethodNode.declared c declaration).id = source ∧
        target ∈
          resolveBody scanner.project scanner.filter (scanner.context s c) declaration.body := by
  simp only [Findings.Calls, callsFound_mem_allFindings]
  constructor
  · intro h
    obtain ⟨targets, ⟨s, c, declaration, hdeclared, hid, heq⟩, hmem⟩ := h
    subst heq
    exact ⟨s, c, declaration, hdeclared, hid, hmem⟩
  · intro h
    obtain ⟨s, c, declaration, hdeclared, hid, hmem⟩ := h
    exact ⟨_, ⟨s, c, declaration, hdeclared, hid, rfl⟩, hmem⟩

theorem Declared.isName {s : Text} {c : ClassRecord} {declaration : Source.MethodDeclaration}
    (h : scanner.Declared texts s c declaration) : Source.IsName declaration.name :=
  Source.isName_of_mem_methodDeclarations (List.mem_filter.mp h.2.2).1

/-- The method of a declared node is the last segment of its id. -/
theorem Declared.lastSegment_id {s : Text} {c : ClassRecord}
    {declaration : Source.MethodDeclaration} (h : scanner.Declared texts s c declaration) :
    lastSegment (MethodNode.declared c declaration).id = declaration.name :=
  MethodNode.lastSegment_id_declared c h.isName.not_mem_dot

/-! ### Sources are declared -/

theorem declares_of_callsFrom {source : String}
    (h : Findings.CallsFrom (scanner.allFindings texts) source) :
    Findings.Declares (scanner.allFindings texts) source := by
  obtain ⟨targets, hmem⟩ := h
  obtain ⟨s, c, declaration, hdeclared, hid, -⟩ := callsFound_mem_allFindings.mp hmem
  exact ⟨_, methodFound_mem_allFindings.mpr ⟨s, c, declaration, hdeclared, rfl⟩, hid⟩

theorem sourcesQualified_allFindings (scanner : Scanner) (texts : List Text) :
    Findings.SourcesQualified (scanner.allFindings texts) :=
  fun _ hcalls hdeclares => absurd (declares_of_callsFrom hcalls) hdeclares

theorem keyed_scanAll (scanner : Scanner) (texts : List Text) :
    CallGraph.Keyed (scanner.scanAll .empty texts) := by
  rw [scanAll_eq_enterAll]
  exact CallGraph.keyed_of_sourcesQualified (sourcesQualified_allFindings scanner texts)

/-- The sources of calls are declared. -/
theorem mem_nodes_of_mem_calls {source : String}
    (h : source ∈ (scanner.scanAll .empty texts).calls) :
    source ∈ (scanner.scanAll .empty texts).nodes := by
  rw [scanAll_eq_enterAll] at h ⊢
  rw [Tables.mem_ofFindings_nodes]
  exact (Tables.mem_ofFindings_calls.mp h).elim (fun h => h) declares_of_callsFrom

/-! ### The statistics of nodes -/

theorem declaredFresh_allFindings (scanner : Scanner) (texts : List Text) :
    Findings.DeclaredFresh (scanner.allFindings texts) := by
  intro node hmem
  obtain ⟨s, c, declaration, -, rfl⟩ := methodFound_mem_allFindings.mp hmem
  rfl

theorem statistics_of_scanAll_nodes (scanner : Scanner) (texts : List Text) (id : String)
    (node : MethodNode) (hnode : (scanner.scanAll .empty texts).nodes[id]? = some node) :
    node.statistics = .empty := by
  rw [scanAll_eq_enterAll] at hnode
  exact CallGraph.statistics_of_declaredFresh (declaredFresh_allFindings scanner texts) id node hnode

theorem counts_of_run_nodes {node : MethodNode} {id : String}
    (hnode : (Assembly.run (scanner.scanAll .empty texts)).nodes[id]? = some node) :
    node.Counts (CallGraph.assemble (scanner.scanAll .empty texts)).links := by
  have hkeyed := keyed_scanAll scanner texts
  obtain rfl := hkeyed id node hnode
  exact CallGraph.counts_of_mem_assemble hkeyed (statistics_of_scanAll_nodes scanner texts)
    ((CallGraph.mem_assemble_nodes hkeyed).mpr hnode)

end Scanner

end ActionCalls
