import ActionCalls.Engine

/-!
# Sessions

A session is an engine at work on a disk. Its operations replace the blacklist, analyze trees and
write files, and a session goes on after an operation that fails: an operation returns the session
that it leaves together with its reply or the reason why it failed.
-/

namespace ActionCalls

/-- Writes a document, and makes the directories above its file that are missing. The disk is
returned also when this fails, since directories may have been made. -/
def Disk.writeOutput (disk : Disk) (text : Text) (path : String) : Disk × Except Failure Unit :=
  let parent := ((Path.parse path).parent?).filter fun parent => !parent.isEmpty
  let (disk, made) :=
    match parent with
    | some parent => disk.makeDirectories parent
    | none => (disk, .ok ())
  match made with
  | .error e => (disk, .error (.file e))
  | .ok () =>
      match disk.write (Path.parse path) (Utf8.encode text) with
      | .error e => (disk, .error (.file e))
      | .ok disk => (disk, .ok ())

/-- What an analysis is asked to do besides analyzing. -/
structure AnalysisRequest where
  root : String
  /-- The file with the blacklist to use, instead of the current one. -/
  blacklist : Option String := none
  /-- The file for the document, instead of the one that the settings name. -/
  output : Option String := none
  /-- Is the document printed instead of written? -/
  toStdout : Bool := false
  deriving Repr, DecidableEq

/-- What a session is told to do. -/
inductive Operation where
  | setBlacklist (names : Blacklist)
  | loadBlacklist (path : String)
  | analyze (root : String)
  | analyzeGraph (root : String)
  | writeOutput (text : Text) (path : String)
  | runAnalysis (request : AnalysisRequest)
  /-- Writes the settings to a file with a well-known name. -/
  | writeSettings (directory : Option String) (force : Bool)

/-- What an operation that succeeds gives back. -/
inductive Reply where
  | done
  | count (n : Nat)
  | document (text : Text)
  | graph (graph : CallGraph)
  /-- What was printed. -/
  | printed (text : Text)

/-- An engine and the disk on which it works. -/
structure Session where
  engine : Engine
  disk : Disk

namespace Session

/-- Replaces the blacklist by that of a file, and counts its names. -/
def loadBlacklist (session : Session) (path : String) :
    Session × Except CommandFailure Nat :=
  match session.engine.loadBlacklist session.disk path with
  | .error e => (session, .error e)
  | .ok engine => ({ session with engine := engine }, .ok engine.blacklist.size)

/-- Writes a document to a file. -/
def writeOutput (session : Session) (text : Text) (path : String) :
    Session × Except Failure Unit :=
  let (disk, result) := session.disk.writeOutput text path
  ({ session with disk := disk }, result)

/-- Prints the document of a request, or writes it where it belongs. The result is what was
printed. -/
def deliver (session : Session) (request : AnalysisRequest) (document : Text) :
    Session × Except CommandFailure Text :=
  if request.toStdout then (session, .ok (document ++ ['\n']))
  else
    let path := request.output.getD session.engine.settings.output.path
    let (session, result) := session.writeOutput document path
    (session,
      match result with
      | .error e => .error (.attempt (.writeOutput path) e)
      | .ok () => .ok [])

/-- Loads the blacklist of a request, if it names one, analyzes the tree, and delivers the document.
The blacklist stays also when a later part fails. -/
def runAnalysis (session : Session) (request : AnalysisRequest) :
    Session × Except CommandFailure Text :=
  match session.engine.loadBlacklist? session.disk request.blacklist with
  | .error e => (session, .error e)
  | .ok engine =>
      let session := { session with engine := engine }
      match engine.analyze session.disk request.root with
      | .error e => (session, .error (.attempt (.analyze request.root) e))
      | .ok document => session.deliver request document

/-- The name of the file that holds written settings. -/
def settingsName : String := "actiongraph.toml"

/-- Writes the settings to a file in a directory, which is made if it is missing. A file that is
there already is only overwritten by force. -/
def writeSettings (session : Session) (directory : Option String) (force : Bool) :
    Session × Except CommandFailure Unit :=
  let directory := directory.getD "."
  let path := Path.join directory settingsName
  if session.disk.pathExists (Path.parse path) ∧ !force then (session, .error (.settingsExist path))
  else
    match session.disk.makeDirectories (Path.parse directory) with
    | (disk, .error e) => ({ session with disk := disk }, .error (.directory e))
    | (disk, .ok ()) =>
        match Settings.save disk session.engine.settings path with
        | .error e => ({ session with disk := disk }, .error (.plain e))
        | .ok disk => ({ session with disk := disk }, .ok ())

/-- Performs an operation. -/
def perform (session : Session) : Operation → Session × Except CommandFailure Reply
  | .setBlacklist names =>
      ({ session with engine := session.engine.setBlacklist names }, .ok .done)
  | .loadBlacklist path =>
      let (session, count) := session.loadBlacklist path
      (session, count.map .count)
  | .analyze root =>
      (session, ((session.engine.analyze session.disk root).map .document).mapError .plain)
  | .analyzeGraph root =>
      (session, ((session.engine.analyzeGraph session.disk root).map .graph).mapError .plain)
  | .writeOutput text path =>
      let (session, written) := session.writeOutput text path
      (session, (written.map fun () => .done).mapError .plain)
  | .runAnalysis request =>
      let (session, printed) := session.runAnalysis request
      (session, printed.map .printed)
  | .writeSettings directory force =>
      let (session, written) := session.writeSettings directory force
      (session, written.map fun () => .done)

/-- Performs operations one after the other, whether they succeed or not. -/
def performAll (session : Session) (operations : List Operation) : Session :=
  operations.foldl (fun session operation => (session.perform operation).1) session

end Session

end ActionCalls
