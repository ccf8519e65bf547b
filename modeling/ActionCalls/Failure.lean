import ActionCalls.Files.Disk
import ActionCalls.Text.Quoted

/-!
# Failures

What can go wrong in a run, as causes. The wording of each cause is given once; a failure on the
way of a command is reported as a chain, from what was attempted down to the last cause.
-/

namespace ActionCalls

/-- What is wrong with settings, or with the file that should hold them. -/
inductive SettingsError where
  /-- The extension is empty or starts with a dot. -/
  | badExtension (extension : String)
  | emptySuffix
  | missingFile (path : String)
  /-- The lookback is beyond the numbers that a settings file can hold. -/
  | lookbackTooLarge
  deriving Repr, DecidableEq

/-- The wording of what is wrong with settings. -/
def SettingsError.message : SettingsError → String
  | .badExtension extension =>
      "source_extension must be a bare extension, got " ++
        String.ofList (Text.quote extension.toList)
  | .emptySuffix => "action_suffix must not be empty"
  | .missingFile path => "config file " ++ path ++ " does not exist"
  | .lookbackTooLarge => "out-of-range value for u64 type"

/-- Why an operation fails. -/
inductive Failure where
  | settings (e : SettingsError)
  /-- A settings file does not have the form of one. -/
  | malformedSettings
  | file (e : FileError)
  /-- The root of a source tree cannot be read. -/
  | rootUnreadable (path : String) (e : FileError)
  deriving Repr, DecidableEq

/-- The wording of a failure. -/
def Failure.message : Failure → String
  | .settings e => "Configuration error: " ++ e.message
  | .malformedSettings => "Configuration error"
  | .file e => "IO error: " ++ e.message
  | .rootUnreadable path e => "Cannot read source root " ++ path ++ ": " ++ e.message

/-- The wordings of the causes below a failure. -/
def Failure.causes : Failure → List String
  | .file e => [e.message]
  | .rootUnreadable _ e => [e.message]
  | _ => []

/-- What a command was doing. -/
inductive Attempt where
  | readBlacklist (path : String)
  | analyze (path : String)
  | writeOutput (path : String)
  deriving Repr, DecidableEq

/-- The wording of an attempt that failed. -/
def Attempt.message : Attempt → String
  | .readBlacklist path => "failed to read blacklist " ++ path
  | .analyze path => "failed to analyze directory " ++ path
  | .writeOutput path => "failed to write " ++ path

/-- Why a command fails. -/
inductive CommandFailure where
  | attempt (what : Attempt) (why : Failure)
  | plain (why : Failure)
  | directory (why : FileError)
  /-- A settings file is there already and may not be overwritten. -/
  | settingsExist (path : String)
  deriving Repr, DecidableEq

/-- The report of a failed command, the outermost part first. -/
def CommandFailure.chain : CommandFailure → List String
  | .attempt what why => what.message :: why.message :: why.causes
  | .plain why => why.message :: why.causes
  | .directory why => [why.message]
  | .settingsExist path => [path ++ " already exists (use --force to overwrite)"]

end ActionCalls
