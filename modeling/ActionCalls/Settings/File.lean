import ActionCalls.Failure
import ActionCalls.Settings.Document
import ActionCalls.Toml.Parser
import ActionCalls.Toml.Printer

/-!
# Settings files

Settings are kept in a TOML file with a table for each part. They are read from a file that is
named, or from the first of a few well-known names in the working directory, and are checked after
reading. Every setting is written, apart from a blacklist file that is not set.
-/

namespace ActionCalls

/-! ## Reading -/

mutual

/-- A TOML value as a structured value. A date or a time is an object of its own kind. -/
def Toml.toJson : Toml → Json
  | .string s => .string s
  | .integer n => .number (if 0 ≤ n then .natural n.toNat else .negative (-n).toNat)
  | .float d => .number (.decimal (d.getD ⟨false, 0, 0⟩))
  | .boolean b => .bool b
  | .dateTime written => .object [("$date_time", .string written)]
  | .array items => .array (Toml.itemsToJson items)
  | .tables items => .array (Toml.itemsToJson items)
  | .table _ entries => .object (Toml.entriesToJson entries)

def Toml.itemsToJson : List Toml → List Json
  | [] => []
  | item :: items => Toml.toJson item :: Toml.itemsToJson items

def Toml.entriesToJson : List (String × Toml) → List (String × Json)
  | [] => []
  | (key, value) :: entries => (key, Toml.toJson value) :: Toml.entriesToJson entries

end

namespace Settings

/-- In a settings file, an array may leave fields out at its end or have further items. -/
def fileForm : Json.ArrayForm := ⟨true, true⟩

/-- Accepts settings whose extension and suffix can be used. -/
def validate (settings : Settings) : Except SettingsError Settings :=
  let extension := settings.analysis.sourceExtension
  if extension = "" ∨ extension.toList.head? = some '.' then .error (.badExtension extension)
  else if settings.analysis.actionSuffix = "" then .error .emptySuffix
  else .ok settings

/-- The settings that the text of a settings file gives. -/
def parse (s : Text) : Except Failure Settings :=
  match Toml.parse? s with
  | none => .error .malformedSettings
  | some entries =>
      match Settings.decode fileForm (.object (Toml.entriesToJson entries)) with
      | .error _ => .error .malformedSettings
      | .ok settings => settings.validate.mapError .settings

/-- Reads the settings file at a path. -/
def load (disk : Disk) (path : String) : Except Failure Settings :=
  match disk.readText (Path.parse path) with
  | .error e => .error (.file e)
  | .ok s => parse s

/-- The names under which a settings file is looked for in the working directory. -/
def candidates : List String := ["Actiongraph.toml", "actiongraph.toml", ".actiongraph.toml"]

/-- Reads the settings file that is named, which has to exist, or else the first one that exists
under a well-known name. Without any, the settings are the defaults. -/
def loadOrDefault (disk : Disk) : Option String → Except Failure Settings
  | some path =>
      if disk.pathExists (Path.parse path) then load disk path
      else .error (.settings (.missingFile path))
  | none =>
      match candidates.find? fun name => disk.pathExists (Path.parse name) with
      | some name => load disk name
      | none => .ok {}

/-! ## Writing -/

/-- The tables of a settings file. -/
def tables (s : Settings) : List (String × List (String × Toml.Setting)) :=
  [("analysis",
    [("source_extension", .string s.analysis.sourceExtension),
     ("action_suffix", .string s.analysis.actionSuffix),
     ("annotation_lookback", .natural s.analysis.annotationLookback),
     ("follow_links", .boolean s.analysis.followLinks),
     ("builtin_methods", .strings s.analysis.builtinMethods),
     ("accessor_prefixes", .strings s.analysis.accessorPrefixes)]),
   ("output", [("path", .string s.output.path), ("pretty", .boolean s.output.pretty)]),
   ("blacklist", (s.blacklist.file.map fun file => [("file", .string file)]).getD [])]

/-- The text of a settings file. Its numbers have to be integers of 64 bits with a sign. -/
def render (s : Settings) : Except SettingsError Text :=
  if s.analysis.annotationLookback < 0x8000000000000000 then .ok (Toml.renderTables s.tables)
  else .error .lookbackTooLarge

/-- Writes a settings file. -/
def save (disk : Disk) (s : Settings) (path : String) : Except Failure Disk :=
  match s.render with
  | .error e => .error (.settings e)
  | .ok text => (disk.write (Path.parse path) (Utf8.encode text)).mapError .file

end Settings

end ActionCalls
