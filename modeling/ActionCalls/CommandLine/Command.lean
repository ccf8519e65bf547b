import ActionCalls.CommandLine.Options
import ActionCalls.Session

/-!
# Commands

The command line names a settings file, asks for more messages, and gives a command: to analyze a
source tree, or to write a settings file to begin with. A command line is carried out by a session
that starts with the settings; a command that fails leaves the files as far as it came.
-/

namespace ActionCalls

/-- What is to be done. -/
inductive Command where
  | analyze (request : AnalysisRequest)
  | init (directory : Option String) (force : Bool)
  deriving Repr, DecidableEq

/-- A command line that can be carried out. -/
structure CommandLine where
  settingsFile : Option String
  verbose : Bool
  command : Command
  deriving Repr, DecidableEq

namespace CommandLine

/-! ## The rules -/

/-- The option that every command has. -/
def helpRule : OptionRule := ⟨"help", some 'h', .asksHelp⟩

/-- What may stand before a command. -/
def rule : CommandRule where
  options :=
    [⟨"config", some 'c', .takesValue⟩, ⟨"verbose", some 'v', .flag⟩, helpRule,
     ⟨"version", some 'V', .asksVersion⟩]
  slot := none
  commands := ["analyze", "init", "help"]

/-- What may follow the command that analyzes a tree. -/
def analyzeRule : CommandRule where
  options :=
    [⟨"blacklist", some 'b', .takesValue⟩, ⟨"output", some 'o', .takesValue⟩,
     ⟨"stdout", none, .flag⟩, helpRule]
  slot := some "path"
  commands := []

/-- What may follow the command that writes a settings file. -/
def initRule : CommandRule where
  options := [⟨"path", some 'p', .takesValue⟩, ⟨"force", none, .flag⟩, helpRule]
  slot := none
  commands := []

/-! ## Reading -/

/-- Reads all arguments of a command that has no commands of its own. -/
def readArguments (rule : CommandRule) (args : List String) : Except UsageStop Reading := do
  let (reading, _) ← Reading.readAll rule {} args
  reading.settle

/-- The document goes to one place only, and there has to be a tree to analyze. -/
def parseAnalyze (args : List String) : Except UsageStop Command := do
  let reading ← readArguments analyzeRule args
  if reading.has "stdout" ∧ reading.has "output" then .error .conflict
  else
    match reading.value? "path" with
    | none => .error .missingArgument
    | some root =>
        return .analyze
          { root := root
            blacklist := reading.value? "blacklist"
            output := reading.value? "output"
            toStdout := reading.has "stdout" }

/-- The directory and the force are both optional. -/
def parseInit (args : List String) : Except UsageStop Command := do
  let reading ← readArguments initRule args
  return .init (reading.value? "path") (reading.has "force")

/-- Help can be asked about the whole program or one of its commands. -/
def parseHelp : List String → UsageStop
  | [] => .helpAsked
  | name :: rest => if rest = [] ∧ name ∈ rule.commands then .helpAsked else .unknownCommand

/-- The command of a given name, with its arguments. -/
def parseCommand (name : String) (args : List String) : Except UsageStop Command :=
  match name with
  | "analyze" => parseAnalyze args
  | "init" => parseInit args
  | _ => .error (parseHelp args)

/-- Reads a command line. The options before a command are complete only after the command has been
read. -/
def parse (args : List String) : Except UsageStop CommandLine := do
  match ← Reading.readAll rule {} args with
  | (reading, none) =>
      let reading ← reading.settle
      .error (if reading.settled = [] then .nothingGiven else .missingCommand)
  | (reading, some (name, args)) =>
      let command ← parseCommand name args
      let reading ← reading.settle
      return ⟨reading.value? "config", reading.has "verbose", command⟩

end CommandLine

/-! ## Carrying out -/

/-- Lets a session carry out a command. The result is what was printed. -/
def Command.run (session : Session) : Command → Session × Except CommandFailure Text
  | .analyze request => session.runAnalysis request
  | .init directory force =>
      let (session, written) := session.writeSettings directory force
      (session, written.map fun () => [])

/-- Carries out a command line on a disk. -/
def CommandLine.run (disk : Disk) (line : CommandLine) : Disk × Except CommandFailure Text :=
  match Engine.start disk line.settingsFile with
  | .error e => (disk, .error e)
  | .ok engine =>
      let (session, result) := line.command.run ⟨engine, disk⟩
      (session.disk, result)

/-! ## What the caller sees -/

/-- The name and the version of the program. -/
def versionText : String := "actiongraph 0.1.0\n"

/-- What is printed in place of a run, as far as it does not explain how the program is used. -/
def UsageStop.printed : UsageStop → String
  | .versionAsked => versionText
  | _ => ""

/-- The exit status when there is no run: zero if help or the version was asked for. -/
def UsageStop.exitStatus : UsageStop → Nat
  | .helpAsked => 0
  | .versionAsked => 0
  | _ => 2

/-- The exit status of a run. -/
def CommandLine.exitStatus : Except CommandFailure Text → Nat
  | .ok _ => 0
  | .error _ => 1

end ActionCalls
