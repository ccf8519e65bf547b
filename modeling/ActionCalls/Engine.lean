import ActionCalls.Analysis
import ActionCalls.Blacklist
import ActionCalls.Graph.Document
import ActionCalls.Settings.File

/-!
# Engines

An engine holds the settings of all its runs and the blacklist of the next one. A blacklist that is
supplied takes the place of the one before it; one that cannot be read leaves it as it was. Every
analysis works with the blacklist that is current when it starts.
-/

namespace ActionCalls

/-- Settings, and the blacklist that the next analysis uses. -/
structure Engine where
  settings : Settings
  blacklist : Blacklist := ∅

/-- The blacklist that a file gives. -/
def Blacklist.load (disk : Disk) (path : String) : Except Failure Blacklist :=
  match disk.readText (Path.parse path) with
  | .error e => .error (.file e)
  | .ok s => .ok (Blacklist.parse s)

namespace Engine

/-! ## Supplying a blacklist -/

/-- Replaces the blacklist. -/
def setBlacklist (engine : Engine) (names : Blacklist) : Engine :=
  { engine with blacklist := names }

/-- Replaces the blacklist by that of a file. -/
def loadBlacklist (engine : Engine) (disk : Disk) (path : String) :
    Except CommandFailure Engine :=
  match Blacklist.load disk path with
  | .error e => .error (.attempt (.readBlacklist path) e)
  | .ok names => .ok (engine.setBlacklist names)

/-- Replaces the blacklist by that of a file, if one is named. -/
def loadBlacklist? (engine : Engine) (disk : Disk) : Option String → Except CommandFailure Engine
  | some path => engine.loadBlacklist disk path
  | none => .ok engine

/-- An engine with the settings of a file, or of a file with a well-known name, and the blacklist
that these settings name. -/
def start (disk : Disk) (path? : Option String) : Except CommandFailure Engine :=
  match Settings.loadOrDefault disk path? with
  | .error e => .error (.plain e)
  | .ok settings =>
      Engine.loadBlacklist? { settings := settings } disk settings.blacklist.file

/-! ## Analyzing -/

/-- The graph of the tree below a root, with the current blacklist. -/
def analyzeGraph (engine : Engine) (disk : Disk) (root : String) : Except Failure CallGraph :=
  (ActionCalls.analyze disk engine.settings.analysis engine.blacklist root).map
    AnalysisResult.graph

/-- The document of the tree below a root, with the current blacklist. -/
def analyze (engine : Engine) (disk : Disk) (root : String) : Except Failure Text :=
  (engine.analyzeGraph disk root).map (CallGraph.emit engine.settings.output.pretty)

end Engine

end ActionCalls
