import ActionCalls.Files.Tree
import ActionCalls.Graph.Assembly
import ActionCalls.Scan

/-!
# Analysis of a source tree

An analysis goes over the files of a tree twice: first it collects the packages of the project,
then it scans each file with those packages known, and assembles what was found. Files that cannot
be read are counted and otherwise passed over.
-/

namespace ActionCalls

/-- The result of an analysis. -/
structure AnalysisResult where
  graph : CallGraph
  filesScanned : Nat
  filesSkipped : Nat

/-- The packages that the readable ones among some files declare. -/
def collectPackages (disk : Disk) (files : List String) : NameSet :=
  .ofList (files.filterMap fun file =>
    (disk.readSource file).toOption.bind Source.packageName?)

/-- The texts of the readable ones among some files. -/
def readableTexts (disk : Disk) (files : List String) : List Text :=
  files.filterMap fun file => (disk.readSource file).toOption

/-- The graph of the files of a tree, and how many of them could be read. -/
def analyzeFiles (disk : Disk) (settings : AnalysisSettings) (blacklist : Blacklist)
    (files : List String) : AnalysisResult :=
  let scanner := Scanner.ofSettings settings blacklist (collectPackages disk files)
  let texts := readableTexts disk files
  { graph := .assemble (scanner.scanAll .empty texts)
    filesScanned := texts.length
    filesSkipped := files.length - texts.length }

/-- Analyzes the tree below a root. -/
def analyze (disk : Disk) (settings : AnalysisSettings) (blacklist : Blacklist) (root : String) :
    Except Failure AnalysisResult :=
  (SourceTree.files disk ⟨root, settings.sourceExtension, settings.followLinks⟩).map
    (analyzeFiles disk settings blacklist)

end ActionCalls
