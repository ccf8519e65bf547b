import Std.Data.ExtTreeMap
import ActionCalls.Files.Path
import ActionCalls.Text.Utf8

/-!
# Disks

A disk is a finite map from places to what is there: directories, files, symbolic links, and files
that cannot be read. A place is the list of names that leads to it from the root; places are
ordered name by name. Following a path turns it into a place, link by link.
-/

namespace ActionCalls

/-- Why a file operation fails. -/
inductive FileError where
  | notFound
  | inputOutput
  | alreadyExists
  | notADirectory
  | isADirectory
  | tooManyLinks
  | nulInPath
  | invalidUtf8
  deriving Repr, DecidableEq

/-- The wording of a file error. -/
def FileError.message : FileError → String
  | .notFound => "No such file or directory (os error 2)"
  | .inputOutput => "Input/output error (os error 5)"
  | .alreadyExists => "File exists (os error 17)"
  | .notADirectory => "Not a directory (os error 20)"
  | .isADirectory => "Is a directory (os error 21)"
  | .tooManyLinks => "Too many levels of symbolic links (os error 40)"
  | .nulInPath => "file name contained an unexpected NUL byte"
  | .invalidUtf8 => "stream did not contain valid UTF-8"

/-- The names that lead from the root to a place. -/
abbrev Place := List String

/-- Places are ordered name by name. -/
def Place.order : Place → Place → Ordering := List.compareLex compare

instance : Std.TransCmp Place.order := inferInstanceAs (Std.TransCmp (List.compareLex compare))

instance : Std.LawfulEqCmp Place.order :=
  inferInstanceAs (Std.LawfulEqCmp (List.compareLex compare))

/-- What can be at a place. -/
inductive Node where
  | directory
  | file (content : Bytes)
  /-- A link to the place that the target leads to. -/
  | link (target : String)
  /-- A file that can be opened, but neither read nor written. -/
  | faulty
  deriving Repr, DecidableEq

/-- A file system. The root is a directory even when the map does not hold it. -/
structure Disk where
  nodes : Std.ExtTreeMap Place Node Place.order
  /-- The working directory, where paths that do not start at the root begin. -/
  working : Place

namespace Disk

/-- What is at a place. -/
def node? (disk : Disk) (place : Place) : Option Node :=
  if place = [] then some .directory else disk.nodes[place]?

/-- Puts something at a place. -/
def put (disk : Disk) (place : Place) (node : Node) : Disk :=
  { disk with nodes := disk.nodes.insert place node }

/-- Is there a directory at a place? -/
def isDirectoryAt (disk : Disk) (place : Place) : Bool :=
  disk.node? place == some .directory

/-! ## Following paths -/

/-- Follows pieces from a directory, `jump` following the pieces of a link. The last piece need not
exist. -/
def followPieces (disk : Disk) (jump : Place → List String → Except FileError Place) :
    Place → List String → Except FileError Place
  | here, [] => .ok here
  | here, piece :: rest =>
      if !disk.isDirectoryAt here then .error .notADirectory
      else if piece = "" ∨ piece = "." then followPieces disk jump here rest
      else if piece = ".." then followPieces disk jump here.dropLast rest
      else
        match disk.node? (here ++ [piece]) with
        | some (.link target) =>
            let target := Path.parse target
            jump (if target.isAbsolute then [] else here) (target.pieces ++ rest)
        | none => if rest = [] then .ok (here ++ [piece]) else .error .notFound
        | some _ => followPieces disk jump (here ++ [piece]) rest

/-- Follows pieces from a directory through at most `links` links. -/
def followLinks (disk : Disk) : (links : Nat) → Place → List String → Except FileError Place
  | 0 => followPieces disk fun _ _ => .error .tooManyLinks
  | links + 1 => followPieces disk (followLinks disk links)

/-- How many links a path may lead through. -/
def linkLimit : Nat := 40

/-- Where a path begins. -/
def origin (disk : Disk) (path : Path) : Place :=
  if path.isAbsolute then [] else disk.working

/-- The place that a path leads to, where something need not be. -/
def locate (disk : Disk) (path : Path) : Except FileError Place :=
  if path.hasNul then .error .nulInPath
  else if path.pieces = [] ∧ !path.isAbsolute then .error .notFound
  else disk.followLinks linkLimit (disk.origin path) path.pieces

/-- What a path leads to, and its place. -/
def open? (disk : Disk) (path : Path) : Except FileError (Place × Node) := do
  let place ← disk.locate path
  match disk.node? place with
  | some node => return (place, node)
  | none => .error .notFound

/-- Does the path lead to something? -/
def pathExists (disk : Disk) (path : Path) : Bool :=
  (disk.open? path).isOk

/-- Does the path lead to a directory? -/
def isDirectory (disk : Disk) (path : Path) : Bool :=
  match disk.open? path with
  | .ok (_, .directory) => true
  | _ => false

/-- The directory that holds the last piece of a path, and that piece. A path that ends in the
directory itself or its parent has no such piece. -/
def lastPiece (disk : Disk) (path : Path) : Except FileError (Place × Option String) :=
  if path.hasNul then .error .nulInPath
  else
    match path.pieces.reverse with
    | [] => if path.isAbsolute then .ok ([], none) else .error .notFound
    | last :: front => do
        let holder ← disk.followLinks linkLimit (disk.origin path) front.reverse
        match disk.node? holder with
        | none => .error .notFound
        | some .directory =>
            return (holder, if last = "" ∨ last = "." ∨ last = ".." then none else some last)
        | some _ => .error .notADirectory

/-- Is the path itself a link, whatever it leads to? -/
def isLink (disk : Disk) (path : Path) : Bool :=
  match disk.lastPiece path with
  | .ok (holder, some name) =>
      match disk.node? (holder ++ [name]) with
      | some (.link _) => true
      | _ => false
  | _ => false

/-! ## Reading -/

/-- The content of the file that a path leads to. -/
def read (disk : Disk) (path : Path) : Except FileError Bytes := do
  match ← disk.open? path with
  | (_, .file content) => return content
  | (_, .directory) => .error .isADirectory
  | _ => .error .inputOutput

/-- The content of a file as text, which it has to be. -/
def readText (disk : Disk) (path : Path) : Except FileError Text := do
  match Utf8.decode? (← disk.read path) with
  | some s => return s
  | none => .error .invalidUtf8

/-- The names in a directory, in ascending order. -/
def namesIn (disk : Disk) (place : Place) : List String :=
  disk.nodes.keys.filterMap fun key =>
    match key.getLast? with
    | some name => if key.dropLast = place then some name else none
    | none => none

/-! ## Writing -/

/-- Does the path, or the target of a link in its last place, end in a slash? Such a path can only
mean a directory, whether there is one or not. -/
def meansDirectory : (links : Nat) → Disk → Path → Bool
  | 0, _, _ => false
  | links + 1, disk, path =>
      match disk.lastPiece path.withoutFinalSlashes with
      | .ok (holder, some name) =>
          path.endsInSlash ||
            match disk.node? (holder ++ [name]) with
            | some (.link target) =>
                meansDirectory links { disk with working := holder } (Path.parse target)
            | _ => false
      | _ => false

/-- Writes a file, in the place of an earlier one. A link that leads nowhere yet is followed. -/
def write (disk : Disk) (path : Path) (content : Bytes) : Except FileError Disk := do
  if path.endsInSlash then
    let _ ← disk.lastPiece path.withoutFinalSlashes
    .error .isADirectory
  else
    let place ← (disk.locate path).mapError fun e =>
      if meansDirectory linkLimit disk path then .isADirectory else e
    match disk.node? place with
    | some .directory => .error .isADirectory
    | some .faulty => if content = [] then return disk else .error .inputOutput
    | _ => return disk.put place (.file content)

/-- Makes one directory. Its parent has to be there, and nothing may stand in its place. -/
def makeDirectory (disk : Disk) (path : Path) : Except FileError Disk := do
  let (holder, name?) ← disk.lastPiece path.withoutFinalSlashes
  match name? with
  | none => .error .alreadyExists
  | some name =>
      match disk.node? (holder ++ [name]) with
      | some _ => .error .alreadyExists
      | none => return disk.put (holder ++ [name]) .directory

/-- Makes a directory and those above it that are missing, `depth` at most. The disk is returned
also when it fails, since some directories may have been made. -/
def makeDirectoriesUpTo : (depth : Nat) → Disk → Path → Disk × Except FileError Unit
  | 0, disk, _ => (disk, .error .notFound)
  | depth + 1, disk, path =>
      if path.isEmpty then (disk, .ok ())
      else
        match disk.makeDirectory path with
        | .ok disk => (disk, .ok ())
        | .error .notFound =>
            match path.parent? with
            | none => (disk, .error .notFound)
            | some parent =>
                match makeDirectoriesUpTo depth disk parent with
                | (disk, .error e) => (disk, .error e)
                | (disk, .ok ()) =>
                    match disk.makeDirectory path with
                    | .ok disk => (disk, .ok ())
                    | .error e => (disk, if disk.isDirectory path then .ok () else .error e)
        | .error e => (disk, if disk.isDirectory path then .ok () else .error e)

/-- Makes a directory and those above it that are missing. -/
def makeDirectories (disk : Disk) (path : Path) : Disk × Except FileError Unit :=
  makeDirectoriesUpTo (path.names.length + 1) disk path

end Disk

end ActionCalls
