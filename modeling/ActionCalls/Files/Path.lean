import ActionCalls.Text.Basic

/-!
# Paths

A path is taken apart at its slashes. Empty pieces and single dots name the directory reached so
far; they count when a path is followed, since that directory has to exist, and are left out when
the path is asked for its parent or its file name.
-/

namespace ActionCalls

/-- A path as it is written. -/
structure Path where
  /-- Does the path start at the root? -/
  isAbsolute : Bool
  /-- The pieces between the slashes, without the empty one before a leading slash. -/
  pieces : List String
  deriving Repr, DecidableEq

namespace Path

/-- Takes a path apart. -/
def parse (s : String) : Path :=
  match s.toList with
  | '/' :: rest => ⟨true, (Text.splitOn '/' rest).map String.ofList⟩
  | [] => ⟨false, []⟩
  | rest => ⟨false, (Text.splitOn '/' rest).map String.ofList⟩

/-- The pieces that name something: a single dot does so only at the start. -/
def names (path : Path) : List String :=
  match path.pieces with
  | "." :: rest =>
      (if path.isAbsolute then [] else ["."]) ++ rest.filter fun p => p ≠ "" ∧ p ≠ "."
  | pieces => pieces.filter fun p => p ≠ "" ∧ p ≠ "."

/-- Does the path name nothing at all? -/
def isEmpty (path : Path) : Bool :=
  !path.isAbsolute && path.names.isEmpty

/-- The path without its last name. -/
def parent? (path : Path) : Option Path :=
  match path.names.reverse with
  | [] => none
  | _ :: front => some ⟨path.isAbsolute, front.reverse⟩

/-- Does the path end in a slash? -/
def endsInSlash (path : Path) : Bool :=
  path.pieces.getLast? == some ""

/-- The path without the slashes at its end. -/
def withoutFinalSlashes (path : Path) : Path :=
  { path with pieces := (path.pieces.reverse.dropWhile (· = "")).reverse }

/-- Joins a name to a path, with a slash between them unless the path is empty or ends in one. -/
def join (path name : String) : String :=
  match path.toList.getLast? with
  | none => name
  | some '/' => path ++ name
  | some _ => path ++ "/" ++ name

/-- The extension of a file name: what follows its last dot, unless that dot is the only one and
leads. -/
def extension? (name : String) : Option String :=
  match name.toList.reverse.dropWhile (· ≠ '.') with
  | [] => none
  | [_] => none
  | _ => if name = ".." then none
    else some (String.ofList (name.toList.reverse.takeWhile (· ≠ '.')).reverse)

/-- The last name of a path. -/
def fileName? (path : Path) : Option String :=
  path.names.getLast?

/-- Is there a character in the path that no file name can hold? -/
def hasNul (path : Path) : Bool :=
  path.pieces.any fun p => p.toList.contains '\x00'

end Path

end ActionCalls
