import ActionCalls.Files.Tree
import ActionCalls.Proofs.Files.Following
import ActionCalls.Proofs.Ordered

/-!
# Walking a source tree

What a directory holds is read off the places of the disk: `namesIn` lists exactly the names that
have an entry, **in ascending order**. A walk carries the path of each directory beside its place,
and the path leads to the place as long as all names are names of files.
-/

namespace ActionCalls

namespace Disk

/-- Is everything on the disk named as files can be? -/
def WellNamed (disk : Disk) : Prop :=
  ∀ (place : Place) (name : String), disk.nodes[place ++ [name]]?.isSome → Path.IsName name

variable {disk : Disk} {place : Place} {name : String}

/-- Below another place the root is no exception. -/
theorem node?_append (disk : Disk) (place : Place) (name : String) :
    disk.node? (place ++ [name]) = disk.nodes[place ++ [name]]? := by
  rw [node?, if_neg (by simp)]

theorem node?_put (disk : Disk) (dir place : Place) (name : String) (node : Node) :
    (disk.put (dir ++ [name]) node).node? place =
      if dir ++ [name] = place then some node else disk.node? place := by
  unfold node? put
  by_cases hroot : place = []
  · simp [hroot]
  · simp [hroot, Std.ExtTreeMap.getElem?_insert]

theorem WellNamed.put (h : disk.WellNamed) (hname : Path.IsName name) (node : Node) :
    (disk.put (place ++ [name]) node).WellNamed := by
  intro dir other hother
  rw [← node?_append, node?_put] at hother
  split at hother
  case isTrue heq =>
      have hlast := List.append_inj_right' heq rfl
      exact List.singleton_inj.mp hlast ▸ hname
  case isFalse => exact h dir other (node?_append disk dir other ▸ hother)

/-! ### The names in a directory -/

/-- The last name of a key that lies in a place. -/
def nameIn? (place key : Place) : Option String :=
  match key.getLast? with
  | some name => if key.dropLast = place then some name else none
  | none => none

theorem nameIn?_eq_some_iff {key : Place} :
    nameIn? place key = some name ↔ key = place ++ [name] := by
  unfold nameIn?
  constructor
  · intro h
    split at h
    case h_1 last hlast =>
        split at h
        case isTrue hplace =>
            obtain rfl := Option.some.inj h
            obtain ⟨front, rfl⟩ := List.getLast?_eq_some_iff.mp hlast
            rw [List.dropLast_concat] at hplace
            rw [hplace]
        case isFalse => cases h
    case h_2 => cases h
  · intro h
    subst h
    simp

theorem mem_namesIn : name ∈ disk.namesIn place ↔ disk.nodes[place ++ [name]]?.isSome := by
  show name ∈ disk.nodes.keys.filterMap (nameIn? place) ↔ _
  rw [List.mem_filterMap, ← Std.ExtTreeMap.mem_iff_isSome_getElem?, ← Std.ExtTreeMap.mem_keys]
  simp only [nameIn?_eq_some_iff]
  constructor
  · intro h
    obtain ⟨key, hmem, hkey⟩ := h
    exact hkey ▸ hmem
  · intro hmem
    exact ⟨_, hmem, rfl⟩

theorem WellNamed.of_mem_namesIn (h : disk.WellNamed) (hmem : name ∈ disk.namesIn place) :
    Path.IsName name :=
  h place name (mem_namesIn.mp hmem)

/-- Two places in one directory are ordered by their last names. -/
theorem order_append (place : Place) (first second : String) :
    Place.order (place ++ [first]) (place ++ [second]) = compare first second := by
  show List.compareLex compare _ _ = _
  induction place with
  | nil =>
      rw [List.nil_append, List.nil_append, List.compareLex_cons_cons, List.compareLex_nil_nil]
      exact Ordering.then_eq
  | cons head place ih =>
      have hhead : compare head head = .eq := Std.ReflCmp.compare_self
      rw [List.cons_append, List.cons_append, List.compareLex_cons_cons, hhead]
      exact ih

theorem namesIn_ascending (disk : Disk) (place : Place) :
    (disk.namesIn place).Pairwise (· < ·) := by
  show (disk.nodes.keys.filterMap (nameIn? place)).Pairwise _
  rw [List.pairwise_filterMap]
  refine Std.ExtTreeMap.ordered_keys.imp ?_
  intro key other hlt first hfirst second hsecond
  rw [nameIn?_eq_some_iff.mp hfirst, nameIn?_eq_some_iff.mp hsecond, order_append] at hlt
  exact Ordered.compare_eq_lt_iff.mp hlt

/-! ### Opening and reading -/

theorem open?_of_locate {path : Path} (h : disk.locate path = .ok place) :
    disk.open? path = (disk.node? place).elim (.error .notFound) fun node => .ok (place, node) := by
  unfold open?
  rw [h]
  dsimp only [bind, Except.bind]
  cases disk.node? place <;> rfl

theorem locate_of_open? {path : Path} {node : Node} (h : disk.open? path = .ok (place, node)) :
    disk.locate path = .ok place := by
  cases hlocate : disk.locate path with
  | error e =>
      rw [open?, hlocate] at h
      cases h
  | ok found =>
      rw [open?_of_locate hlocate] at h
      cases hnode : disk.node? found with
      | none =>
          rw [hnode] at h
          cases h
      | some other =>
          rw [hnode] at h
          obtain ⟨rfl, -⟩ := Prod.mk.inj (Except.ok.inj h)
          rfl

theorem open?_eq_ok_iff {path : Path} {node : Node} :
    disk.open? path = .ok (place, node) ↔
      disk.locate path = .ok place ∧ disk.node? place = some node := by
  constructor
  · intro h
    exact ⟨locate_of_open? h, node?_of_open? h⟩
  · rintro ⟨hlocate, hnode⟩
    rw [open?_of_locate hlocate, hnode]
    rfl

/-- Every disk has a root, and it is a directory. -/
theorem open?_slash (disk : Disk) : disk.open? (Path.parse "/") = .ok ([], .directory) := rfl

/-- What a reader takes from what is at a place. Only the content of a file can be read. -/
def readNode {α : Type} (reader : Bytes → Option α) : Option Node → Option α
  | some (.file content) => reader content
  | _ => none

/-- What a reader takes from the file that a path leads to. -/
def readWith {α : Type} (disk : Disk) (reader : Bytes → Option α) (path : Path) : Option α :=
  (disk.read path).toOption.bind reader

theorem readWith_of_locate {α : Type} (reader : Bytes → Option α) {path : Path}
    (h : disk.locate path = .ok place) :
    disk.readWith reader path = readNode reader (disk.node? place) := by
  unfold readWith read
  rw [open?_of_locate h]
  cases disk.node? place with
  | none => rfl
  | some node => cases node <;> rfl

theorem readWith_of_locate_error {α : Type} (reader : Bytes → Option α) {path : Path}
    {e : FileError} (h : disk.locate path = .error e) : disk.readWith reader path = none := by
  unfold readWith read open?
  rw [h]
  rfl

theorem readWith_of_open?_error {α : Type} (reader : Bytes → Option α) {path : Path}
    {e : FileError} (h : disk.open? path = .error e) : disk.readWith reader path = none := by
  unfold readWith read
  rw [h]
  rfl

/-- What a reader takes from some files, in their order. -/
def readAll {α : Type} (disk : Disk) (reader : Bytes → Option α) (paths : List String) : List α :=
  paths.filterMap fun path => disk.readWith reader (Path.parse path)

theorem readAll_flatMap {α β : Type} (disk : Disk) (reader : Bytes → Option α) (l : List β)
    (paths : β → List String) :
    disk.readAll reader (l.flatMap paths) = l.flatMap fun b => disk.readAll reader (paths b) :=
  List.filterMap_flatMap

end Disk

namespace SourceTree

/-- A source file is listed by its path. -/
def leafFiles (tree : SourceTree) (name path : String) : List String :=
  if tree.isSource name then [path] else []

/-- The source files that a followed link brings. -/
def linkFiles (disk : Disk) (tree : SourceTree) (chain : List Place) (name path : String) :
    List String :=
  match disk.open? (Path.parse path) with
  | .ok (place, .directory) =>
      if chain.contains place then [] else filesBelow disk tree (place :: chain) path place
  | .ok _ => leafFiles tree name path
  | .error _ => []

/-- The source files that one entry of a directory brings. -/
def entryFiles (disk : Disk) (tree : SourceTree) (chain : List Place) (shown : String)
    (dir : Place) (name : String) : List String :=
  match disk.nodes[dir ++ [name]]? with
  | none => []
  | some .directory =>
      filesBelow disk tree ((dir ++ [name]) :: chain) (Path.join shown name) (dir ++ [name])
  | some (.link _) =>
      if tree.followLinks then linkFiles disk tree chain name (Path.join shown name) else []
  | some _ => leafFiles tree name (Path.join shown name)

theorem entryFiles_of_not_mem {disk : Disk} {tree : SourceTree} {chain : List Place}
    {shown name : String} {dir : Place} (h : name ∉ disk.namesIn dir) :
    entryFiles disk tree chain shown dir name = [] := by
  rw [Disk.mem_namesIn, Bool.not_eq_true, Option.isSome_eq_false_iff,
    Option.isNone_iff_eq_none] at h
  rw [entryFiles, h]

/-- A walk goes through the entries of a directory in the order of their names. -/
theorem filesBelow_eq (disk : Disk) (tree : SourceTree) (chain : List Place) (shown : String)
    (dir : Place) :
    filesBelow disk tree chain shown dir =
      (disk.namesIn dir).flatMap (entryFiles disk tree chain shown dir) := by
  rw [filesBelow]
  refine congrArg (List.flatMap · _) ?_
  funext name
  unfold entryFiles linkFiles leafFiles
  cases disk.nodes[dir ++ [name]]? with
  | none => rfl
  | some node =>
      cases node with
      | link target =>
          dsimp only
          cases disk.open? (Path.parse (Path.join shown name)) with
          | error e => rfl
          | ok found =>
              obtain ⟨place, node⟩ := found
              cases node <;> simp only [dite_eq_ite, List.contains_iff_mem]
      | _ => rfl

/-! ### The root -/

/-- A root that is no directory is listed itself. -/
def rootFiles (disk : Disk) (tree : SourceTree) : List String :=
  if (!tree.followLinks && disk.isLink (Path.parse tree.root)) ||
      !(Path.parse tree.root).fileName?.any tree.isSource then []
  else [tree.root]

theorem files_of_directory {disk : Disk} {tree : SourceTree} {place : Place}
    (h : disk.open? (Path.parse tree.root) = .ok (place, .directory)) :
    files disk tree = .ok (filesBelow disk tree [place] tree.root place) := by
  rw [files, h]

theorem files_of_not_directory {disk : Disk} {tree : SourceTree} {paths : List String}
    (h : ∀ place, disk.open? (Path.parse tree.root) ≠ .ok (place, .directory))
    (hpaths : files disk tree = .ok paths) : paths = rootFiles disk tree := by
  unfold files at hpaths
  dsimp only at hpaths
  split at hpaths
  case h_1 => cases hpaths
  case h_2 place hopen => exact absurd hopen (h place)
  case h_3 => exact (Except.ok.inj hpaths).symm

end SourceTree

end ActionCalls
