import ActionCalls.Failure

/-!
# Source trees

The source files below a root: depth first, the entries of a directory in the order of their names.
Links below the root are left out or followed; a link that leads back to a directory on the way
from the root is not followed. The walk ends because each followed link adds a directory to that
way, and between two links it only goes deeper.
-/

namespace ActionCalls

namespace Disk

/-- The places of all directories. -/
def directories (disk : Disk) : List Place :=
  [] :: disk.nodes.keys.filter fun place => disk.nodes[place]? == some .directory

/-- How many directories are not among the given ones. -/
def unvisited (disk : Disk) (chain : List Place) : Nat :=
  (disk.directories.filter fun place => place ∉ chain).length

/-- The length of the longest place. -/
def depth (disk : Disk) : Nat :=
  (disk.nodes.keys.map List.length).foldr max 0

/-- No place is longer than the longest one. -/
theorem length_le_depth {disk : Disk} {place : Place} {node : Node}
    (h : disk.nodes[place]? = some node) : place.length ≤ disk.depth := by
  have mem : place ∈ disk.nodes.keys := by
    rw [Std.ExtTreeMap.mem_keys, Std.ExtTreeMap.mem_iff_isSome_getElem?, h]
    rfl
  have bound : ∀ (l : List Nat) (n : Nat), n ∈ l → n ≤ l.foldr max 0 := by
    intro l
    induction l with
    | nil => simp
    | cons a l ih =>
        intro n hn
        rcases List.mem_cons.mp hn with rfl | hn
        · simp only [List.foldr_cons]
          omega
        · have := ih n hn
          simp only [List.foldr_cons]
          omega
  exact bound _ _ (List.mem_map_of_mem mem)

/-- Every place of a directory is listed. -/
theorem mem_directories {disk : Disk} {place : Place} (h : disk.node? place = some .directory) :
    place ∈ disk.directories := by
  unfold node? at h
  split at h
  · next hp => simp [hp, directories]
  · have mem : place ∈ disk.nodes.keys := by
      rw [Std.ExtTreeMap.mem_keys, Std.ExtTreeMap.mem_iff_isSome_getElem?, h]
      rfl
    exact List.mem_cons_of_mem _ (List.mem_filter.mpr ⟨mem, by simp [h]⟩)

/-- A longer way leaves no more directories to visit. -/
theorem unvisited_cons_le (disk : Disk) (chain : List Place) (place : Place) :
    disk.unvisited (place :: chain) ≤ disk.unvisited chain := by
  unfold unvisited
  rw [← List.countP_eq_length_filter, ← List.countP_eq_length_filter]
  apply List.countP_mono_left
  intro p _ hp
  simp only [decide_eq_true_eq, List.mem_cons, not_or] at hp ⊢
  exact hp.2

/-- A directory that is new on the way leaves fewer directories to visit. -/
theorem unvisited_cons_lt {disk : Disk} {chain : List Place} {place : Place}
    (new : place ∉ chain) (h : disk.node? place = some .directory) :
    disk.unvisited (place :: chain) < disk.unvisited chain := by
  unfold unvisited
  have split : (disk.directories.filter fun p => p ∉ place :: chain) =
      (disk.directories.filter fun p => p ∉ chain).filter fun p => p ≠ place := by
    rw [List.filter_filter]
    apply List.filter_congr
    intro p _
    simp [not_or]
  rw [split]
  apply List.length_filter_lt_length_iff_exists.mpr
  exact ⟨place, List.mem_filter.mpr ⟨mem_directories h, by simpa using new⟩, by simp⟩

/-- What a path leads to is what is at its place. -/
theorem node?_of_open? {disk : Disk} {path : Path} {place : Place} {node : Node}
    (h : disk.open? path = .ok (place, node)) : disk.node? place = some node := by
  unfold open? at h
  cases hl : disk.locate path with
  | error e => simp [hl, bind, Except.bind] at h
  | ok found =>
      simp only [hl, bind, Except.bind] at h
      split at h
      · next hn =>
          simp only [pure, Except.pure, Except.ok.injEq, Prod.mk.injEq] at h
          rw [← h.1, ← h.2, hn]
      · cases h

end Disk

/-- The source files below a root. -/
structure SourceTree where
  root : String
  /-- The extension of source files, without its dot. -/
  extension : String
  /-- Are links below the root followed? -/
  followLinks : Bool
  deriving Repr, DecidableEq

namespace SourceTree

/-- Is a file of this name a source file? -/
def isSource (tree : SourceTree) (name : String) : Bool :=
  Path.extension? name == some tree.extension

/-- The source files in and below a directory, as paths that start with `shown`. The chain holds
the directories on the way to it, itself included. -/
def filesBelow (disk : Disk) (tree : SourceTree) (chain : List Place) (shown : String)
    (dir : Place) : List String :=
  (disk.namesIn dir).flatMap fun name =>
    let child := dir ++ [name]
    let path := Path.join shown name
    match _entry : disk.nodes[dir ++ [name]]? with
    | none => []
    | some .directory => filesBelow disk tree (child :: chain) path child
    | some (.link _) =>
        if tree.followLinks then
          match _opened : disk.open? (Path.parse path) with
          | .ok (place, .directory) =>
              if _known : place ∈ chain then []
              else filesBelow disk tree (place :: chain) path place
          | .ok _ => if tree.isSource name then [path] else []
          | .error _ => []
        else []
    | some _ => if tree.isSource name then [path] else []
termination_by (disk.unvisited chain, disk.depth - dir.length)
decreasing_by
  · have bound := Disk.length_le_depth _entry
    simp only [List.length_append, List.length_singleton] at bound
    rcases Nat.lt_or_eq_of_le (disk.unvisited_cons_le chain (dir ++ [name])) with less | same
    · exact Prod.Lex.left _ _ less
    · simp only [List.length_append, List.length_cons, List.length_nil] at *
      rw [same]
      exact Prod.Lex.right _ (by omega)
  · exact Prod.Lex.left _ _ (Disk.unvisited_cons_lt _known (Disk.node?_of_open? _opened))

/-- The source files of a tree, in the order of their paths. A root that is itself a file is listed
as it is given, unless it is a link and links are not followed. -/
def files (disk : Disk) (tree : SourceTree) : Except Failure (List String) :=
  let root := Path.parse tree.root
  match disk.open? root with
  | .error e => .error (.rootUnreadable tree.root e)
  | .ok (place, .directory) => .ok (filesBelow disk tree [place] tree.root place)
  | .ok _ =>
      .ok (if (!tree.followLinks && disk.isLink root) || !root.fileName?.any tree.isSource then []
        else [tree.root])

end SourceTree

/-- The text of a source file; what is not well formed in it is replaced. -/
def Disk.readSource (disk : Disk) (path : String) : Except FileError Text :=
  (disk.read (Path.parse path)).map Utf8.decodeLossy

end ActionCalls
