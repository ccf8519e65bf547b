import ActionCalls.Proofs.Analysis.OnePass
import ActionCalls.Proofs.Scan.Identity

/-!
# An analysis finds no call into another package

Imports can send a call to another package, but only where the package of the caller is not among
those of the project. In an analysis it always is, so every call stays **in the package of its own
file**: it goes to a method that the file declares, or to a name in the package.

The graph shows this too. The node of a source has the package and the class of the file the call was
found in, even where several files declare that source, as they declare it in the same class. And as
no call leads from one package to another, no package depends on any.
-/

namespace ActionCalls

/-! ### Scanning within known packages -/

namespace Scanner

/-- Are the packages of all action classes in the texts packages of the project? -/
def KnowsPackages (scanner : Scanner) (texts : List Text) : Prop :=
  ∀ s ∈ texts, ∀ c, scanner.classRecord? s = some c → c.package ∈ scanner.project

variable {scanner : Scanner} {texts : List Text} {s : Text} {c : ClassRecord}
  {declaration : Source.MethodDeclaration} {target : CallTarget}

/-- In a known package a call goes to a method that the file declares, or to a name in the
package. -/
theorem Declared.target_cases (hknown : scanner.KnowsPackages texts)
    (h : scanner.Declared texts s c declaration)
    (hmem : target ∈
      resolveBody scanner.project scanner.filter (scanner.context s c) declaration.body) :
    (∃ callee ∈ scanner.declarations s, target = .inClass c.package c.name callee.name) ∨
      ∃ name, Source.IsName name ∧ target = .inPackage c.package name := by
  obtain ⟨name, hname, -, hresolve⟩ := mem_resolveBody.mp hmem
  rw [resolve?_of_mem_project rfl rfl (hknown s h.1 c h.2.1)] at hresolve
  obtain rfl := Option.some.inj hresolve
  unfold OnePass.resolve
  split
  case isTrue hlocal =>
      simp only [context, Std.ExtTreeSet.mem_ofList, List.contains_iff_mem, List.mem_map] at hlocal
      obtain ⟨callee, hcallee, rfl⟩ := hlocal
      exact Or.inl ⟨callee, hcallee, rfl⟩
  case isFalse => exact Or.inr ⟨name, Source.isName_of_mem_callNames hname, rfl⟩

theorem Declared.target_package (hknown : scanner.KnowsPackages texts)
    (h : scanner.Declared texts s c declaration)
    (hmem : target ∈
      resolveBody scanner.project scanner.filter (scanner.context s c) declaration.body) :
    target.package = c.package := by
  rcases h.target_cases hknown hmem with ⟨callee, -, rfl⟩ | ⟨name, -, rfl⟩
  · rfl
  · rfl

/-- Where all packages are known, no call leads from one to another. -/
theorem eq_of_mem_packageCalls (hknown : scanner.KnowsPackages texts) {package other : String}
    (h : (package, other) ∈ Assembly.packageCalls (scanner.scanAll .empty texts)) :
    other = package := by
  obtain ⟨s, c, declaration, hdeclared, rfl, target, htarget, rfl⟩ := mem_packageCalls_scanAll.mp h
  exact hdeclared.target_package hknown htarget

end Scanner

/-! ### The scan of an analysis -/

/-- The scanner of the second pass over some files. -/
def analysisScanner (disk : Disk) (settings : AnalysisSettings) (blacklist : Blacklist)
    (paths : List String) : Scanner :=
  .ofSettings settings blacklist (collectPackages disk paths)

theorem knowsPackages_analysisScanner (disk : Disk) (settings : AnalysisSettings)
    (blacklist : Blacklist) (paths : List String) :
    (analysisScanner disk settings blacklist paths).KnowsPackages (readableTexts disk paths) := by
  intro s hmem c hclass
  rw [analysisScanner, Scanner.classRecord?_ofSettings] at hclass
  obtain ⟨file, hread, rfl⟩ := Option.map_eq_some_iff.mp hclass
  exact package_mem_collectPackages hmem hread

/-- The graph of an analysis that succeeds is that of a scan of the readable files of the tree. -/
theorem scan_of_analyze {disk : Disk} {settings : AnalysisSettings} {blacklist : Blacklist}
    {root : String} {result : AnalysisResult}
    (h : analyze disk settings blacklist root = .ok result) :
    ∃ paths,
      SourceTree.files disk ⟨root, settings.sourceExtension, settings.followLinks⟩ = .ok paths ∧
      result.graph = .assemble ((analysisScanner disk settings blacklist paths).scanAll .empty
        (readableTexts disk paths)) := by
  unfold analyze at h
  cases hfiles : SourceTree.files disk
      ⟨root, settings.sourceExtension, settings.followLinks⟩ with
  | error e =>
      rw [hfiles] at h
      cases h
  | ok paths =>
      rw [hfiles] at h
      exact ⟨paths, rfl, congrArg AnalysisResult.graph (Except.ok.inj h).symm⟩

/-- Does a readable file of the tree declare the method, in the action class of the package? -/
def DeclaredInTree (disk : Disk) (settings : AnalysisSettings) (root package owner method : String) :
    Prop :=
  ∃ paths path s,
    SourceTree.files disk ⟨root, settings.sourceExtension, settings.followLinks⟩ = .ok paths ∧
    path ∈ paths ∧ disk.readSource path = .ok s ∧
    Source.packageName? s = some package ∧
    Source.actionClass? settings.actionSuffix s = some owner ∧
    ∃ declaration ∈ Source.methodDeclarations settings.annotationLookback s,
      declaration.name = method

/-- The source of the link has a node, and the target is a method declared in the class of that node
or a name in its package. -/
def StaysInPackage (disk : Disk) (settings : AnalysisSettings) (root : String) (graph : CallGraph)
    (link : CallLink) : Prop :=
  ∃ node, graph.node? link.source = some node ∧
    ((∃ method, DeclaredInTree disk settings root node.package node.owner method ∧
        link.target = node.package ++ "." ++ node.owner ++ "." ++ method) ∨
      ∃ name, Source.IsName name ∧ link.target = node.package ++ "." ++ name)

theorem declaredInTree_of_mem_declarations {disk : Disk} {settings : AnalysisSettings}
    {blacklist : Blacklist} {root : String} {paths : List String} {s : Text} {c : ClassRecord}
    {declaration : Source.MethodDeclaration}
    (hpaths : SourceTree.files disk ⟨root, settings.sourceExtension, settings.followLinks⟩ =
      .ok paths)
    (hmem : s ∈ readableTexts disk paths)
    (hclass : (analysisScanner disk settings blacklist paths).classRecord? s = some c)
    (hdeclaration : declaration ∈ (analysisScanner disk settings blacklist paths).declarations s) :
    DeclaredInTree disk settings root c.package c.name declaration.name := by
  obtain ⟨path, hpath, htext⟩ := List.mem_filterMap.mp hmem
  obtain ⟨hpackage, hname, -⟩ := Scanner.classRecord?_inv hclass
  refine ⟨paths, path, s, hpaths, hpath, ?_, hpackage, hname, declaration,
    (List.mem_filter.mp hdeclaration).1, rfl⟩
  cases hread : disk.readSource path with
  | error e => rw [hread] at htext; cases htext
  | ok text => rw [hread] at htext; exact congrArg Except.ok (Option.some.inj htext)

/-- **Calls stay in their package.** No link of an analysis leaves the package of its source, and no
package depends on another. -/
theorem analyze_ownPackage {disk : Disk} {settings : AnalysisSettings} {blacklist : Blacklist}
    {root : String} {result : AnalysisResult}
    (h : analyze disk settings blacklist root = .ok result) :
    (∀ link ∈ result.graph.links, StaysInPackage disk settings root result.graph link) ∧
    ∀ record ∈ result.graph.packages, record.dependencies = ∅ ∧ record.dependents = ∅ := by
  obtain ⟨paths, hpaths, hgraph⟩ := scan_of_analyze h
  have hknown := knowsPackages_analysisScanner disk settings blacklist paths
  rw [hgraph]
  refine ⟨?_, ?_⟩
  · intro link hlink
    obtain ⟨target, hmem, htarget⟩ := CallGraph.mem_assemble_links.mp hlink
    rw [Scanner.scanAll_eq_enterAll, Tables.mem_ofFindings_callSet] at hmem
    obtain ⟨s, c, declaration, hdeclared, hsource, hmem⟩ := Scanner.calls_allFindings.mp hmem
    obtain ⟨node, hnode, houtline⟩ := hdeclared.exists_node
    obtain ⟨-, (hpackage : node.package = c.package), (howner : node.owner = c.name), -, -⟩ :=
      MethodNode.eq_of_outline_eq houtline
    refine ⟨node, ?_, ?_⟩
    · rw [CallGraph.node?_assemble (Scanner.keyed_scanAll _ _), ← hsource, hnode]
    · rw [← htarget, hpackage, howner]
      rcases hdeclared.target_cases hknown hmem with ⟨callee, hcallee, rfl⟩ | ⟨name, hname, rfl⟩
      · exact Or.inl ⟨callee.name,
          declaredInTree_of_mem_declarations hpaths hdeclared.1 hdeclared.2.1 hcallee, rfl⟩
      · exact Or.inr ⟨name, hname,
          CallTarget.id_inPackage name (Scanner.package_ne_empty hdeclared.2.1)⟩
  · intro record hrecord
    have hwithin : ∀ {package other : String},
        ¬ ((package, other) ∈ Assembly.packageCalls ((analysisScanner disk settings blacklist
          paths).scanAll .empty (readableTexts disk paths)) ∧ other ≠ package) :=
      fun h => h.2 (Scanner.eq_of_mem_packageCalls hknown h.1)
    rw [Scanner.scanAll_eq_enterAll] at hrecord hwithin
    have hrun := CallGraph.mem_assemble_packages.mp hrecord
    refine ⟨?_, ?_⟩
    · apply Std.ExtTreeSet.ext_mem
      intro other
      rw [CallGraph.mem_dependencies_run hrun]
      exact iff_of_false hwithin Std.ExtTreeSet.not_mem_empty
    · apply Std.ExtTreeSet.ext_mem
      intro other
      rw [CallGraph.mem_dependents_run hrun]
      exact iff_of_false (fun h => hwithin ⟨h.1, h.2.symm⟩) Std.ExtTreeSet.not_mem_empty

/-- A disk with two action files. The first one imports the package of the second and calls, beside
itself, a method that the second declares. -/
def Disk.shop : Disk :=
  ((Disk.mk ∅ []).put ["Cart.java"] (.file (Utf8.encode
    "package cart;import pay.*;public class CartAction{void add(){add();pay();}}".toList))).put
    ["Pay.java"] (.file (Utf8.encode "package pay;public class PayAction{void pay(){}}".toList))

/-- The import is not followed: the call goes to a name in the package of the caller. -/
theorem Disk.analyze_shop :
    ∃ result, analyze Disk.shop {} ∅ "/" = .ok result ∧
      result.graph.links = [⟨"cart.CartAction.add", "cart.CartAction.add"⟩,
        ⟨"cart.CartAction.add", "cart.pay"⟩] ∧
      result.graph.nodes.map (fun node => (node.id, node.isAction)) =
        [("cart.CartAction.add", true), ("cart.pay", false), ("pay.PayAction.pay", true)] := by
  have hnames : Disk.shop.namesIn [] = ["Cart.java", "Pay.java"] := by decide +kernel
  have hfiles : SourceTree.filesBelow Disk.shop ⟨"/", "java", false⟩ [[]] "/" [] =
      ["/Cart.java", "/Pay.java"] := by
    rw [SourceTree.filesBelow_eq, hnames]
    decide +kernel
  refine ⟨analyzeFiles Disk.shop {} ∅ ["/Cart.java", "/Pay.java"], ?_, by decide +kernel⟩
  rw [analyze_slash]
  exact congrArg (fun paths => Except.ok (analyzeFiles Disk.shop {} ∅ paths)) hfiles

theorem analyze_ownPackage_shop :
    ∃ result, analyze Disk.shop {} ∅ "/" = .ok result ∧
      StaysInPackage Disk.shop {} "/" result.graph ⟨"cart.CartAction.add", "cart.pay"⟩ ∧
      ∀ record ∈ result.graph.packages, record.dependencies = ∅ ∧ record.dependents = ∅ := by
  obtain ⟨result, hresult, hlinks, -⟩ := Disk.analyze_shop
  obtain ⟨hstays, hrecords⟩ := analyze_ownPackage hresult
  exact ⟨result, hresult, hstays _ (by rw [hlinks]; exact .tail _ (.head _)), hrecords⟩

end ActionCalls
