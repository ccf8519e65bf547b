import ActionCalls.Text.Basic

/-!
# Options of a command line

The arguments of a command are read one after the other. An option that takes a value may have it
in the same argument or in the next one, so that what was read last is kept pending until the next
argument shows that it is complete; only then is it checked and settled. Reading stops early at the
name of a command, whose arguments are the rest.
-/

namespace ActionCalls

/-- Why the arguments do not make a command line that can be carried out. -/
inductive UsageStop where
  | helpAsked
  | versionAsked
  /-- There is no argument at all. -/
  | nothingGiven
  | missingCommand
  | unknownCommand
  | unknownArgument
  /-- An argument that the command needs is not there. -/
  | missingArgument
  /-- An option that takes a value has none, or a value is empty. -/
  | missingValue
  /-- An option that takes no value has one. -/
  | needlessValue
  /-- An argument is given twice, or together with one that excludes it. -/
  | conflict
  deriving Repr, DecidableEq

/-- What an option does. -/
inductive OptionEffect where
  | takesValue
  | flag
  | asksHelp
  | asksVersion
  deriving Repr, DecidableEq

/-- An option of a command. -/
structure OptionRule where
  /-- The name, which follows two hyphens. -/
  name : String
  /-- The letter that stands for the name after one hyphen. -/
  letter : Option Char
  effect : OptionEffect
  deriving Repr, DecidableEq

/-- What may follow the name of a command. -/
structure CommandRule where
  options : List OptionRule
  /-- The name under which an argument that is no option is kept. -/
  slot : Option String
  /-- The names of commands that end these arguments. -/
  commands : List String
  deriving Repr, DecidableEq

/-- What has been read so far. -/
structure Reading where
  /-- The names that are complete, and their values. -/
  settled : List (String × String) := []
  /-- The name that was read last, and its value if it has one. -/
  pending : Option (String × Option String) := none
  slotUsed : Bool := false
  /-- Was there a double hyphen, after which nothing is an option? -/
  trailing : Bool := false
  deriving Repr, DecidableEq

namespace Reading

/-- Is the name settled? -/
def has (r : Reading) (name : String) : Bool :=
  r.settled.any fun entry => entry.1 = name

/-- The value that is settled for a name. -/
def value? (r : Reading) (name : String) : Option String :=
  (r.settled.find? fun entry => entry.1 = name).map Prod.snd

/-- Is a pending option without its value? -/
def awaitsValue (r : Reading) : Bool :=
  match r.pending with
  | some (_, none) => !r.trailing
  | _ => false

/-! ## Settling -/

/-- Settles a name, which may be done once. -/
def raise (r : Reading) (name value : String) : Except UsageStop Reading :=
  if r.has name then .error .conflict
  else .ok { r with settled := r.settled ++ [(name, value)] }

/-- Settles a new name with a value, which may not be empty. -/
def commit (r : Reading) (name value : String) : Except UsageStop Reading :=
  if value = "" ∧ !r.has name then .error .missingValue else r.raise name value

/-- Settles what is pending. -/
def settle (r : Reading) : Except UsageStop Reading :=
  match r.pending with
  | none => .ok r
  | some (_, none) => .error .missingValue
  | some (name, some value) => { r with pending := none }.commit name value

/-- Settles what is pending, and makes something else pending. -/
def await (r : Reading) (name : String) (value : Option String) : Except UsageStop Reading := do
  return { ← r.settle with pending := some (name, value) }

/-- Settles what is pending, and then an option that has its value. -/
def give (r : Reading) (name : String) (value : Text) : Except UsageStop Reading := do
  (← r.settle).commit name (String.ofList value)

/-- Settles what is pending, and then lets an option without a value take effect. -/
def apply (r : Reading) (rule : OptionRule) : Except UsageStop Reading := do
  let r ← r.settle
  match rule.effect with
  | .asksHelp => .error .helpAsked
  | .asksVersion => .error .versionAsked
  | _ => r.raise rule.name ""

/-! ## Reading -/

/-- Reads an option by its name, with a value after an equals sign or without. -/
def readName (r : Reading) (rules : List OptionRule) (s : Text) : Except UsageStop Reading :=
  let name := String.ofList (s.takeWhile (· ≠ '='))
  match rules.find? fun rule => rule.name = name with
  | none => .error .unknownArgument
  | some rule =>
      match rule.effect, s.dropWhile (· ≠ '=') with
      | .takesValue, [] => r.await name none
      | .takesValue, _ :: value => r.give name value
      | _, [] => r.apply rule
      | _, _ :: _ => .error .needlessValue

/-- Reads options by their letters. The first one that takes a value takes the rest of the
argument, after an equals sign or without one; without a rest, the value is still to come. -/
def readLetters (rules : List OptionRule) : Reading → Text → Except UsageStop Reading
  | r, [] => .ok r
  | r, letter :: rest =>
      match rules.find? fun rule => rule.letter = some letter with
      | none => .error .unknownArgument
      | some rule =>
          match rule.effect, rest with
          | .takesValue, [] => r.await rule.name none
          | .takesValue, '=' :: value => r.give rule.name value
          | .takesValue, value => r.give rule.name value
          | _, rest => do readLetters rules (← r.apply rule) rest

/-- Reads an argument that is no option: the value that is awaited, or what belongs in the slot. -/
def readPlain (r : Reading) (rule : CommandRule) (arg : String) : Except UsageStop Reading :=
  if r.awaitsValue then
    .ok { r with pending := r.pending.map fun entry => (entry.1, some arg) }
  else
    match rule.slot with
    | some name =>
        if r.slotUsed then .error .unknownArgument
        else (r.await name (some arg)).map fun r => { r with slotUsed := true }
    | none =>
        .error (if rule.commands = [] ∨ (r.trailing ∧ arg ∈ rule.commands) then .unknownArgument
          else .unknownCommand)

/-- Reads an argument. -/
def readArgument (r : Reading) (rule : CommandRule) (arg : String) : Except UsageStop Reading :=
  if r.trailing then r.readPlain rule arg
  else
    match arg.toList with
    | ['-', '-'] => .ok { r with trailing := true }
    | '-' :: '-' :: s => r.readName rule.options s
    | '-' :: letter :: s => readLetters rule.options r (letter :: s)
    | _ => r.readPlain rule arg

/-- Is the argument the name of a command, at a place where it counts as one? -/
def startsCommand (r : Reading) (rule : CommandRule) (arg : String) : Bool :=
  !r.trailing && !r.awaitsValue && rule.commands.contains arg

/-- Reads arguments up to the name of a command, which is returned with the arguments after it. -/
def readAll (rule : CommandRule) :
    Reading → List String → Except UsageStop (Reading × Option (String × List String))
  | r, [] => .ok (r, none)
  | r, arg :: args =>
      if r.startsCommand rule arg then .ok (r, some (arg, args))
      else do readAll rule (← r.readArgument rule arg) args

end Reading

end ActionCalls
