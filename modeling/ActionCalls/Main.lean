import ActionCalls.CommandLine.Command

/-!
# The program

The program copies those parts of the file system that a command line can reach into a disk,
carries the command line out there, and copies back what has changed. Everything in between is
decided by `CommandLine.parse` and `CommandLine.run`.
-/

namespace ActionCalls

/-! ## Copying files in -/

/-- A disk under construction, and the directories that have been copied with all they hold. -/
structure Snapshot where
  disk : Disk
  walked : List Place

/-- Actions that copy files into a disk. -/
abbrev Capture := StateT Snapshot IO

namespace Capture

/-- Puts something at a place of the disk. -/
def put (place : Place) (node : Node) : Capture Unit :=
  modify fun s => { s with disk := s.disk.put place node }

/-- Adds a place and all the directories above it. -/
def putDirectories (place : Place) : Capture Unit := do
  for n in [1 : place.length + 1] do
    put (place.take n) .directory

/-- The place of an absolute path that leads through no links. -/
def placeOf (path : String) : Place :=
  (Path.parse path).pieces.filter (· ≠ "")

/-- What is at a path, without following it when it is a link. -/
def kindAt (path : String) : IO (Option IO.FS.FileType) := do
  try
    return some (← ((← IO.currentDir) / path).symlinkMetadata).type
  catch _ => return none

/-- The path without links that a path leads to. -/
def realPath? (path : String) : IO (Option String) := do
  try
    return some (← IO.FS.realPath path).toString
  catch _ => return none

/-- The file at a path; one that cannot be read is faulty. -/
def contentAt (path : String) : IO Node := do
  try
    return .file (← IO.FS.readBinFile path).toList
  catch _ => return .faulty

/-- The names in a directory. -/
def namesIn (path : String) : IO (List String) := do
  try
    return ((← (← IO.FS.realPath path).readDir).map fun entry => entry.fileName).toList
  catch _ => return []

/-- How much of a directory is copied. -/
inductive Depth where
  | itself
  /-- All it holds, and also what its links lead to if they are followed. -/
  | tree (extension : String) (follow : Bool)

/-- Is the content of a file needed? -/
def Depth.reads (depth : Depth) (name : String) : Bool :=
  match depth with
  | .itself => true
  | .tree extension _ => Path.extension? name == some extension

/-- Copies what is at a path whose directory is free of links. A link leads to the place where it
ends, and one that leads nowhere leads to itself. -/
partial def entry (depth : Depth) (top : Bool) (path : String) : Capture Unit := do
  let place := placeOf path
  match ← kindAt path with
  | none => return
  | some .dir =>
      putDirectories place
      match depth with
      | .itself => return
      | .tree _ _ =>
          if (← get).walked.contains place then return
          modify fun s => { s with walked := place :: s.walked }
          for name in ← namesIn path do
            entry depth false (Path.join path name)
  | some .symlink =>
      let followed := match depth with
        | .itself => true
        | .tree _ follow => top || follow
      match ← realPath? path with
      | none => put place (.link path)
      | some target =>
          put place (.link target)
          if followed then
            putDirectories (placeOf target).dropLast
            entry depth top target
  | some .file =>
      if depth.reads (place.getLast?.getD "") then put place (← contentAt path)
      else put place (.file [])
  | some .other => put place .faulty

/-- Copies what a path leads to, and what it passes on the way. -/
def path (depth : Depth) (text : String) : Capture Unit := do
  let pieces := (Path.parse text).pieces
  let working := (← IO.currentDir).toString
  let mut here := if (Path.parse text).isAbsolute then "/" else working
  for n in [0 : pieces.length] do
    match ← realPath? here with
    | none => return
    | some real =>
        putDirectories (placeOf real)
        let piece := pieces.getD n ""
        if piece ≠ "" ∧ piece ≠ "." ∧ piece ≠ ".." then
          entry (if n + 1 = pieces.length then depth else .itself) true (Path.join real piece)
        here := Path.join here piece
  match depth, ← realPath? here with
  | .tree _ _, some real => entry depth true real
  | _, _ => return

/-- Copies a file that may be named. -/
def path? : Option String → Capture Unit
  | some file => path .itself file
  | none => return

/-- Copies what a command line can reach. -/
def reach (line : CommandLine) : Capture Unit := do
  putDirectories (← get).disk.working
  match line.settingsFile with
  | some file => path .itself file
  | none => Settings.candidates.forM (path .itself)
  match Settings.loadOrDefault (← get).disk line.settingsFile with
  | .error _ => return
  | .ok settings =>
      path? settings.blacklist.file
      match line.command with
      | .analyze request =>
          path? request.blacklist
          path .itself (request.output.getD settings.output.path)
          path (.tree settings.analysis.sourceExtension settings.analysis.followLinks) request.root
      | .init directory _ =>
          path .itself (Path.join (directory.getD ".") Session.settingsName)

end Capture

/-- The part of the file system that a command line can reach. -/
def captureDisk (line : CommandLine) : IO Disk := do
  let working := Capture.placeOf (← IO.currentDir).toString
  let (_, snapshot) ← (Capture.reach line).run ⟨⟨∅, working⟩, []⟩
  return snapshot.disk

/-! ## Copying files out -/

/-- The absolute path of a place. -/
def Place.toPath (place : Place) : String :=
  "/" ++ String.intercalate "/" place

/-- Writes what differs between two disks, directories before what they hold. -/
def writeChanges (before after : Disk) : IO Unit := do
  for (place, node) in after.nodes.toList do
    if before.node? place ≠ some node then
      match node with
      | .directory => IO.FS.createDirAll place.toPath
      | .file content => IO.FS.writeBinFile place.toPath (ByteArray.mk content.toArray)
      | _ => pure ()

/-! ## Running -/

/-- How the program is used. -/
def usageText : String :=
  String.intercalate "\n"
    ["Static call graph extraction for action-oriented Java projects", "",
     "Usage: actiongraph [OPTIONS] <COMMAND>", "",
     "Commands:",
     "  analyze [-b FILE] [-o FILE | --stdout] PATH",
     "                        Analyze a source tree and write the call graph JSON",
     "  init [-p DIR] [--force]",
     "                        Write a default configuration file", "",
     "Options:",
     "  -c, --config FILE     Path to configuration file",
     "  -v, --verbose         Enable verbose logging",
     "  -h, --help            Print help",
     "  -V, --version         Print version", ""]

/-- Why there is no run, in a few words. -/
def UsageStop.message : UsageStop → String
  | .helpAsked | .versionAsked | .nothingGiven => ""
  | .missingCommand => "error: a command is required\n\n"
  | .unknownCommand => "error: there is no such command\n\n"
  | .unknownArgument => "error: there is an unexpected argument\n\n"
  | .missingArgument => "error: a required argument is missing\n\n"
  | .missingValue => "error: an argument has no value\n\n"
  | .needlessValue => "error: an option has a value that it does not take\n\n"
  | .conflict => "error: there are arguments that cannot be used together\n\n"

/-- Tells why the arguments are not carried out. -/
def reportStop (stop : UsageStop) : IO Unit := do
  match stop with
  | .helpAsked => IO.print usageText
  | .versionAsked => IO.print stop.printed
  | _ => IO.eprint (stop.message ++ usageText)

/-- Carries out a command line on the files of the system. -/
def runOnFiles (line : CommandLine) : IO UInt32 := do
  let before ← captureDisk line
  let (after, result) := line.run before
  writeChanges before after
  match result with
  | .ok text => IO.print (String.ofList text)
  | .error e => IO.eprintln ("Error: " ++ String.intercalate ": " e.chain)
  return UInt32.ofNat (CommandLine.exitStatus result)

end ActionCalls

/-- Reads the command line and carries it out. -/
def main (args : List String) : IO UInt32 := do
  match ActionCalls.CommandLine.parse args with
  | .error stop =>
      ActionCalls.reportStop stop
      return UInt32.ofNat stop.exitStatus
  | .ok line =>
      try
        ActionCalls.runOnFiles line
      catch e =>
        IO.eprintln ("Error: " ++ toString e)
        return 1
