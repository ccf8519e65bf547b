import ActionCalls.Analysis
import ActionCalls.Proofs.Files.Alike
import ActionCalls.Proofs.Scan.Findings

/-!
# One pass is enough

An analysis reads its files twice, since a call may go to a package that only a later file declares.
But a call is resolved in the package of its own file before any import is looked at, and that
package **is always among the collected ones**: the file that is scanned was read in the first pass
too. So the imports and the collected packages never decide anything, and a single pass over the
files that have a package and an action class gives the same graph.

This module has the single pass as a program of its own, and proves that an analysis refines it. The
single pass keeps of a file no more than its graph needs: the class, the nodes of the methods and the
names they call, but no place in the file. So an edit that only moves the methods changes nothing.
-/

namespace ActionCalls

/-! ### The single pass -/

/-- What is read of a method: its node, and the names called in its body. Where the method stands in its
file is not. -/
structure ActionMethod where
  node : MethodNode
  calls : List String
  deriving DecidableEq

/-- Reads a declared method of a class. -/
def ActionMethod.read (c : ClassRecord) (declaration : Source.MethodDeclaration) : ActionMethod where
  node := .declared c declaration
  calls := Source.callNames declaration.body

/-- What is read from a file with a package and an action class. Its imports are not. -/
structure ActionFile where
  record : ClassRecord
  methods : List ActionMethod
  deriving DecidableEq

/-- Reads a file, if it has a package and an action class. -/
def ActionFile.read? (settings : AnalysisSettings) (s : Text) : Option ActionFile := do
  let package ← Source.packageName? s
  let name ← Source.actionClass? settings.actionSuffix s
  let header := Source.classHeader s
  let record : ClassRecord := {
    name := name
    package := package
    isAction := settings.actionSuffix.toList.isSuffixOf name.toList
    superClass := header.superClass
    interfaces := header.interfaces
    annotations := Source.annotations s }
  return {
    record := record
    methods := (Source.methodDeclarations settings.annotationLookback s).map (.read record) }

/-- Reads the content of a file, if the text in it has a package and an action class. -/
def ActionFile.reader (settings : AnalysisSettings) (content : Bytes) : Option ActionFile :=
  read? settings (Utf8.decodeLossy content)

namespace OnePass

/-- A local name goes to the class, and every other name to the package of the class. -/
def resolve (c : ClassRecord) (localMethods : NameSet) (name : String) : CallTarget :=
  if name ∈ localMethods then .inClass c.package c.name name else .inPackage c.package name

/-- The targets of some called names, without the names that are left out. -/
def resolveAll (filter : CallFilter) (c : ClassRecord) (localMethods : NameSet)
    (names : List String) : Std.ExtTreeSet CallTarget :=
  .ofList ((names.filter fun name => !filter.ignores name).map (resolve c localMethods))

/-- The methods of a file that are not on the blacklist. -/
def methods (filter : CallFilter) (file : ActionFile) : List ActionMethod :=
  file.methods.filter fun method => method.node.method ∉ filter.blacklist

/-- The findings in a file: its class, and each of its methods with the calls in its body. -/
def findings (filter : CallFilter) (file : ActionFile) : List Finding :=
  let localMethods := .ofList ((methods filter file).map (·.node.method))
  .classFound file.record :: (methods filter file).flatMap fun method =>
    [.methodFound method.node,
     .callsFound method.node.id (resolveAll filter file.record localMethods method.calls)]

/-- The graph of some files. -/
def graph (filter : CallFilter) (files : List ActionFile) : CallGraph :=
  .assemble (Tables.empty.enterAll (files.flatMap (findings filter)))

end OnePass

/-! ### Resolution within a collected package -/

/-- In a package of the project every name is resolved, and no import is looked at. -/
theorem resolve?_of_mem_project {project : NameSet} {context : CallContext} {c : ClassRecord}
    (hpackage : context.package = c.package) (howner : context.owner = c.name)
    (hmem : c.package ∈ project) (name : String) :
    resolve? project context name = some (OnePass.resolve c context.localMethods name) := by
  by_cases hlocal : name ∈ context.localMethods
  · rw [resolve?_of_local hlocal, OnePass.resolve, if_pos hlocal, hpackage, howner]
  · rw [resolve?_of_own hlocal (hpackage ▸ hmem), OnePass.resolve, if_neg hlocal, hpackage]

theorem resolveBody_of_mem_project {project : NameSet} {filter : CallFilter}
    {context : CallContext} {c : ClassRecord} (hpackage : context.package = c.package)
    (howner : context.owner = c.name) (hmem : c.package ∈ project) (body : Text) :
    resolveBody project filter context body =
      OnePass.resolveAll filter c context.localMethods (Source.callNames body) := by
  have hresolve : resolve? project context =
      fun name => some (OnePass.resolve c context.localMethods name) :=
    funext (resolve?_of_mem_project hpackage howner hmem)
  rw [resolveBody, hresolve, OnePass.resolveAll, List.filterMap_eq_map']

/-! ### Scanning within collected packages -/

namespace Scanner

variable {settings : AnalysisSettings} {blacklist : Blacklist} {project : NameSet}

/-- A scan looks at a file as the single pass reads it. -/
theorem classRecord?_ofSettings (s : Text) :
    (ofSettings settings blacklist project).classRecord? s =
      (ActionFile.read? settings s).map ActionFile.record := by
  unfold classRecord? ActionFile.read? ofSettings
  cases Source.packageName? s with
  | none => rfl
  | some package =>
      cases Source.actionClass? settings.actionSuffix s with
      | none => rfl
      | some name => rfl

theorem methods_of_read? {s : Text} {file : ActionFile}
    (h : ActionFile.read? settings s = some file) :
    file.methods =
      (Source.methodDeclarations settings.annotationLookback s).map (.read file.record) := by
  unfold ActionFile.read? at h
  obtain ⟨package, -, h⟩ := Option.bind_eq_some_iff.mp h
  obtain ⟨name, -, h⟩ := Option.bind_eq_some_iff.mp h
  rw [← Option.some.inj h]

theorem package_of_read? {s : Text} {file : ActionFile}
    (h : ActionFile.read? settings s = some file) :
    Source.packageName? s = some file.record.package := by
  unfold ActionFile.read? at h
  obtain ⟨package, hpackage, h⟩ := Option.bind_eq_some_iff.mp h
  obtain ⟨name, -, h⟩ := Option.bind_eq_some_iff.mp h
  rw [hpackage, ← Option.some.inj h]

/-- The single pass leaves out the methods that a scan leaves out. -/
theorem methods_eq_map_declarations {s : Text} {file : ActionFile}
    (h : ActionFile.read? settings s = some file) :
    OnePass.methods (.ofSettings settings blacklist) file =
      ((ofSettings settings blacklist project).declarations s).map (.read file.record) := by
  rw [OnePass.methods, methods_of_read? h, List.filter_map]
  rfl

/-- Where the package of a file is known, scanning it finds what the single pass finds. -/
theorem fileFindings_of_read? {s : Text} {file : ActionFile}
    (hread : ActionFile.read? settings s = some file) (hmem : file.record.package ∈ project) :
    (ofSettings settings blacklist project).fileFindings s =
      OnePass.findings (.ofSettings settings blacklist) file := by
  have hmethods : OnePass.methods (.ofSettings settings blacklist) file =
      ((ofSettings settings blacklist project).declarations s).map (.read file.record) :=
    methods_eq_map_declarations hread
  rw [fileFindings, classRecord?_ofSettings, hread]
  show Finding.classFound file.record :: _ = _
  rw [OnePass.findings, hmethods, List.flatMap_map, List.map_map]
  -- The class and the nodes are the same by definition, so only the calls are compared.
  refine congrArg (_ :: ·) (congrArg (List.flatMap · _) ?_)
  funext declaration
  have hbody : ActionCalls.resolveBody project (.ofSettings settings blacklist)
      ((ofSettings settings blacklist project).context s file.record) declaration.body = _ :=
    resolveBody_of_mem_project rfl rfl hmem declaration.body
  exact congrArg (fun targets => [Finding.methodFound _, .callsFound _ targets]) hbody

/-- Where the packages of the files are known, scanning them finds what the single pass finds. -/
theorem allFindings_ofSettings {texts : List Text}
    (hproject : ∀ s ∈ texts, ∀ file, ActionFile.read? settings s = some file →
      file.record.package ∈ project) :
    (ofSettings settings blacklist project).allFindings texts =
      (texts.filterMap (ActionFile.read? settings)).flatMap
        (OnePass.findings (.ofSettings settings blacklist)) := by
  induction texts with
  | nil => rfl
  | cons s rest ih =>
      rw [allFindings_cons, ih fun t hmem => hproject t (List.mem_cons_of_mem _ hmem)]
      cases hread : ActionFile.read? settings s with
      | none => simp [fileFindings, classRecord?_ofSettings, hread]
      | some file =>
          have hmem := hproject s (List.mem_cons_self ..) file hread
          simp [fileFindings_of_read? hread hmem, hread]

end Scanner

/-! ### The analysis -/

/-- The package of every file that is read has been collected. -/
theorem package_mem_collectPackages {settings : AnalysisSettings} {disk : Disk}
    {paths : List String} {s : Text} {file : ActionFile} (hmem : s ∈ readableTexts disk paths)
    (hread : ActionFile.read? settings s = some file) :
    file.record.package ∈ collectPackages disk paths := by
  obtain ⟨path, hpath, htext⟩ := List.mem_filterMap.mp hmem
  rw [collectPackages, Std.ExtTreeSet.mem_ofList, List.contains_iff_mem, List.mem_filterMap]
  refine ⟨path, hpath, ?_⟩
  rw [htext, Option.bind_some, Scanner.package_of_read? hread]

/-- Reading the files is reading their texts. -/
theorem filterMap_readableTexts (disk : Disk) (settings : AnalysisSettings) (paths : List String) :
    (readableTexts disk paths).filterMap (ActionFile.read? settings) =
      disk.readAll (ActionFile.reader settings) paths := by
  rw [readableTexts, List.filterMap_filterMap, Disk.readAll]
  refine congrArg (List.filterMap · paths) ?_
  funext path
  unfold Disk.readSource Disk.readWith
  cases disk.read (Path.parse path) <;> rfl

/-- The graph of some files is that of a single pass over those with a package and an action
class. -/
theorem analyzeFiles_graph (disk : Disk) (settings : AnalysisSettings) (blacklist : Blacklist)
    (paths : List String) :
    (analyzeFiles disk settings blacklist paths).graph =
      OnePass.graph (.ofSettings settings blacklist)
        (disk.readAll (ActionFile.reader settings) paths) := by
  rw [← filterMap_readableTexts]
  show CallGraph.assemble (Scanner.scanAll _ .empty _) = _
  rw [Scanner.scanAll_eq_enterAll, Scanner.allFindings_ofSettings]
  · rfl
  · intro s hmem file hread
    exact package_mem_collectPackages hmem hread

/-- An analysis of a whole disk never fails. -/
theorem analyze_slash (disk : Disk) (settings : AnalysisSettings) (blacklist : Blacklist) :
    analyze disk settings blacklist "/" =
      .ok (analyzeFiles disk settings blacklist
        (SourceTree.filesBelow disk ⟨"/", settings.sourceExtension, settings.followLinks⟩ [[]] "/"
          [])) := by
  rw [analyze, SourceTree.files_of_directory disk.open?_slash]
  rfl

/-- The graph of a tree is that of a single pass. -/
theorem analyze_graph (disk : Disk) (settings : AnalysisSettings) (blacklist : Blacklist)
    (root : String) :
    (analyze disk settings blacklist root).map AnalysisResult.graph =
      (SourceTree.files disk ⟨root, settings.sourceExtension, settings.followLinks⟩).map
        fun paths => OnePass.graph (.ofSettings settings blacklist)
          (disk.readAll (ActionFile.reader settings) paths) := by
  unfold analyze
  cases SourceTree.files disk ⟨root, settings.sourceExtension, settings.followLinks⟩ with
  | error e => rfl
  | ok paths => exact congrArg Except.ok (analyzeFiles_graph disk settings blacklist paths)

/-- The graph of an analysis that succeeds. -/
theorem graph_of_analyze {disk : Disk} {settings : AnalysisSettings} {blacklist : Blacklist}
    {root : String} {result : AnalysisResult}
    (h : analyze disk settings blacklist root = .ok result) :
    ∃ paths,
      SourceTree.files disk ⟨root, settings.sourceExtension, settings.followLinks⟩ = .ok paths ∧
      result.graph = OnePass.graph (.ofSettings settings blacklist)
        (disk.readAll (ActionFile.reader settings) paths) := by
  unfold analyze at h
  cases hfiles : SourceTree.files disk
      ⟨root, settings.sourceExtension, settings.followLinks⟩ with
  | error e =>
      rw [hfiles] at h
      cases h
  | ok paths =>
      rw [hfiles] at h
      refine ⟨paths, rfl, ?_⟩
      rw [← Except.ok.inj h]
      exact analyzeFiles_graph disk settings blacklist paths

/-- **An analysis refines the single pass.** Its graph is that of one pass over the files that can
be read and have a package and an action class, in the order of the walk, where no import and no
collected package is looked at. So the graph stays the same when imports are edited, even if that
moves the methods behind them, or when files that cannot be read or have no package or no action
class are added or removed: when the two disks are alike to a reader of action files. -/
theorem analyze_refines_onePass (settings : AnalysisSettings) (blacklist : Blacklist)
    (root : String) :
    (∀ disk, (analyze disk settings blacklist root).map AnalysisResult.graph =
      (SourceTree.files disk ⟨root, settings.sourceExtension, settings.followLinks⟩).map
        fun paths => OnePass.graph (.ofSettings settings blacklist)
          (disk.readAll (ActionFile.reader settings) paths)) ∧
    ∀ disk other, Disk.Alike (ActionFile.reader settings) disk other →
      disk.WellNamed → other.WellNamed →
      ∀ result otherResult, analyze disk settings blacklist root = .ok result →
        analyze other settings blacklist root = .ok otherResult →
        result.graph = otherResult.graph := by
  refine ⟨fun disk => analyze_graph disk settings blacklist root, ?_⟩
  intro disk other halike hnames hotherNames result otherResult hresult hother
  obtain ⟨paths, hpaths, hgraph⟩ := graph_of_analyze hresult
  obtain ⟨otherPaths, hotherPaths, hotherGraph⟩ := graph_of_analyze hother
  rw [hgraph, hotherGraph,
    SourceTree.readAll_files_of_alike halike hnames hotherNames hpaths hotherPaths]

/-! ### An edited import and two more files -/

/-- An action file that calls a method it does not declare. -/
def startAction (imports : String) : Node :=
  .file (Utf8.encode (("package app;" ++ imports).toList ++
    "public class StartAction { void start() { run(); } }".toList))

namespace Disk

/-- A disk with one action file in its root. -/
def startJob : Disk :=
  (Disk.mk ∅ []).put ([] ++ ["StartAction.java"]) (startAction "")

/-- The same disk with an import in the action file, a file without an action class that declares the
imported package, and a file that cannot be read. -/
def editedJob : Disk :=
  ((startJob.put ([] ++ ["StartAction.java"]) (startAction "import pay.*;")).put
    ([] ++ ["Notes.java"]) (.file (Utf8.encode "package pay; class Notes {}".toList))).put
      ([] ++ ["Broken.java"]) .faulty

theorem wellNamed_startJob : startJob.WellNamed := by
  have hempty : (Disk.mk ∅ []).WellNamed := by
    intro place name hnode
    simp at hnode
  exact hempty.put (by decide) _

theorem wellNamed_editedJob : editedJob.WellNamed :=
  ((wellNamed_startJob.put (by decide) _).put (by decide) _).put (by decide) _

/-- The import moves the method, but what is read of it stays the same. -/
theorem alike_editedJob : Alike (ActionFile.reader {}) startJob editedJob := by
  unfold editedJob
  -- From the last of the changes back to the first.
  refine Alike.trans ?_ (alike_put _ _ _ (by decide +kernel) (by decide +kernel) (by decide +kernel))
  refine Alike.trans ?_ (alike_put _ _ _ (by decide +kernel) (by decide +kernel) (by decide +kernel))
  exact alike_put _ _ _ (by decide +kernel) (by decide +kernel) (by decide +kernel)

/-- The method calls a name of its own package. -/
theorem analyze_startJob :
    ∃ result, analyze startJob {} ∅ "/" = .ok result ∧
      result.graph.links = [⟨"app.StartAction.start", "app.run"⟩] := by
  have hnames : startJob.namesIn [] = ["StartAction.java"] := by decide +kernel
  have hfiles : SourceTree.filesBelow startJob ⟨"/", "java", false⟩ [[]] "/" [] =
      ["/StartAction.java"] := by
    rw [SourceTree.filesBelow_eq, hnames]
    decide +kernel
  refine ⟨analyzeFiles startJob {} ∅ ["/StartAction.java"], ?_, by decide +kernel⟩
  rw [analyze_slash]
  exact congrArg (fun paths => Except.ok (analyzeFiles startJob {} ∅ paths)) hfiles

end Disk

/-- The import could be followed, since the package it names is collected, and is not. -/
theorem analyze_refines_onePass_startJob :
    Disk.Alike (ActionFile.reader {}) Disk.startJob Disk.editedJob ∧ Disk.startJob.WellNamed ∧
      Disk.editedJob.WellNamed ∧
      ∃ result otherResult, analyze Disk.startJob {} ∅ "/" = .ok result ∧
        analyze Disk.editedJob {} ∅ "/" = .ok otherResult ∧ result.graph = otherResult.graph ∧
        otherResult.graph.links = [⟨"app.StartAction.start", "app.run"⟩] := by
  obtain ⟨result, hresult, hlinks⟩ := Disk.analyze_startJob
  have hotherResult := analyze_slash Disk.editedJob {} ∅
  have hgraph := (analyze_refines_onePass {} ∅ "/").2 _ _ Disk.alike_editedJob
    Disk.wellNamed_startJob Disk.wellNamed_editedJob _ _ hresult hotherResult
  exact ⟨Disk.alike_editedJob, Disk.wellNamed_startJob, Disk.wellNamed_editedJob, result, _,
    hresult, hotherResult, hgraph, hgraph ▸ hlinks⟩

end ActionCalls
