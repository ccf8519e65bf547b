import ActionCalls.Proofs.Files.Walk

/-!
# Disks that look alike

A reader that takes nothing from a file cannot tell whether the file is there. Two disks are
**alike** to a reader when they have the same directories and links, and wherever they differ, each
has a file or nothing, from which the reader takes the same. Then the same paths can be followed on
both, and a walk over either gives the reader the same in the same order, though it may list other
files.
-/

namespace ActionCalls

namespace Disk

variable {α : Type} {reader : Bytes → Option α}

/-! ### Alike disks -/

/-- Nothing, or a file of some kind: no directory and no link. -/
def IsPlain (node? : Option Node) : Prop :=
  node? ≠ some .directory ∧ ∀ target, node? ≠ some (.link target)

instance : DecidablePred IsPlain
  | none => isTrue ⟨by simp, by simp⟩
  | some (.file _) => isTrue ⟨by simp, by simp⟩
  | some .faulty => isTrue ⟨by simp, by simp⟩
  | some .directory => isFalse fun h => h.1 rfl
  | some (.link target) => isFalse fun h => h.2 target rfl

/-- A reader takes the same from two disks, which have the same directories and links. -/
structure Alike (reader : Bytes → Option α) (disk other : Disk) : Prop where
  working : disk.working = other.working
  node : ∀ place, disk.node? place = other.node? place ∨
    IsPlain (disk.node? place) ∧ IsPlain (other.node? place) ∧
      readNode reader (disk.node? place) = readNode reader (other.node? place)

variable {disk other : Disk} {place : Place}

theorem Alike.symm (h : Alike reader disk other) : Alike reader other disk where
  working := h.working.symm
  node := by
    intro place
    rcases h.node place with heq | ⟨hplain, hother, hread⟩
    · exact Or.inl heq.symm
    · exact Or.inr ⟨hother, hplain, hread.symm⟩

theorem Alike.trans {third : Disk} (h : Alike reader disk other) (h' : Alike reader other third) :
    Alike reader disk third where
  working := h.working.trans h'.working
  node := by
    intro place
    rcases h.node place with heq | ⟨hplain, -, hread⟩
    · rw [heq]
      exact h'.node place
    · rcases h'.node place with heq | ⟨-, hthird, hread'⟩
      · rw [← heq]
        exact h.node place
      · exact Or.inr ⟨hplain, hthird, hread.trans hread'⟩

theorem Alike.readNode (h : Alike reader disk other) (place : Place) :
    readNode reader (disk.node? place) = readNode reader (other.node? place) := by
  rcases h.node place with heq | ⟨-, -, hread⟩
  · rw [heq]
  · exact hread

theorem Alike.directory (h : Alike reader disk other) (hdir : disk.isDirectoryAt place) :
    other.isDirectoryAt place := by
  rw [isDirectoryAt_iff] at *
  rcases h.node place with heq | ⟨hplain, -, -⟩
  · exact heq ▸ hdir
  · exact absurd hdir hplain.1

theorem Alike.link (h : Alike reader disk other) {target : String}
    (hlink : disk.node? place = some (.link target)) : other.node? place = some (.link target) := by
  rcases h.node place with heq | ⟨hplain, -, -⟩
  · exact heq ▸ hlink
  · exact absurd hlink (hplain.2 target)

/-- Adding or replacing a file makes no difference to a reader that takes the same from it as from
what was there. -/
theorem alike_put (disk : Disk) (dir : Place) (name : String) {node : Node}
    (hold : IsPlain (disk.node? (dir ++ [name]))) (hnew : IsPlain (some node))
    (hread : Disk.readNode reader (disk.node? (dir ++ [name])) = Disk.readNode reader (some node)) :
    Alike reader disk (disk.put (dir ++ [name]) node) where
  working := rfl
  node := by
    intro place
    rw [node?_put]
    by_cases hplace : dir ++ [name] = place
    · rw [if_pos hplace, ← hplace]
      exact Or.inr ⟨hold, hnew, hread⟩
    · rw [if_neg hplace]
      exact Or.inl rfl

/-! ### Following paths -/

/-- The same pieces lead to the same places. -/
theorem Alike.keepsWays (h : Alike reader disk other) : KeepsWays disk other where
  working := h.working.symm
  directory := h.directory
  link := ⟨h.link, h.symm.link⟩

theorem Alike.locate (h : Alike reader disk other) {path : Path}
    (hlocate : disk.locate path = .ok place) : other.locate path = .ok place :=
  h.keepsWays.locate hlocate

theorem Alike.readWith (h : Alike reader disk other) (path : Path) :
    disk.readWith reader path = other.readWith reader path := by
  cases hlocate : disk.locate path with
  | ok place =>
      rw [readWith_of_locate reader hlocate, readWith_of_locate reader (h.locate hlocate),
        h.readNode]
  | error e =>
      cases hother : other.locate path with
      | ok place =>
          rw [h.symm.locate hother] at hlocate
          cases hlocate
      | error f =>
          rw [readWith_of_locate_error reader hlocate, readWith_of_locate_error reader hother]

theorem Alike.isLink (h : Alike reader disk other) (path : Path) :
    disk.isLink path = other.isLink path := by
  have himp : ∀ {disk other : Disk}, Alike reader disk other → disk.isLink path →
      other.isLink path := by
    intro disk other h hlink
    obtain ⟨holder, last, target, hlast, hnode⟩ := isLink_iff.mp hlink
    obtain ⟨hnul, front, hpieces, hfollow, hdir, hentry⟩ := lastPiece_eq_ok_some_iff.mp hlast
    obtain ⟨used, hused, hfollows⟩ := followLinks_eq_ok_iff.mp hfollow
    rw [← h.keepsWays.origin] at hfollows
    have hother := (h.keepsWays.follows hfollows).followLinks hused
    exact isLink_iff.mpr ⟨holder, last, target,
      lastPiece_eq_ok_some_iff.mpr ⟨hnul, front, hpieces, hother, h.directory hdir, hentry⟩,
      h.link hnode⟩
  rw [Bool.eq_iff_iff]
  exact ⟨himp h, himp h.symm⟩

/-! ### Reading what a walk lists -/

theorem Alike.readAll (h : Alike reader disk other) (paths : List String) :
    disk.readAll reader paths = other.readAll reader paths := by
  unfold Disk.readAll
  simp only [h.readWith]

end Disk

namespace SourceTree

open Disk (Alike IsPlain)

variable {α : Type} {reader : Bytes → Option α} {disk other : Disk} {tree : SourceTree}

/-- Where nothing can be read, listing the path makes no difference. -/
theorem readAll_leafFiles_of_none {name path : String}
    (h : disk.readWith reader (Path.parse path) = none) :
    disk.readAll reader (leafFiles tree name path) = [] := by
  unfold leafFiles
  split
  · simp [Disk.readAll, h]
  · rfl

/-- Of a followed link that leads to no directory a reader takes what it takes from a file. -/
theorem readAll_linkFiles {chain : List Place} {name path : String}
    (h : ∀ place, disk.open? (Path.parse path) ≠ .ok (place, .directory)) :
    disk.readAll reader (linkFiles disk tree chain name path) =
      disk.readAll reader (leafFiles tree name path) := by
  unfold linkFiles
  split
  case h_1 place hopen => exact absurd hopen (h place)
  case h_2 => rfl
  case h_3 e hopen => rw [readAll_leafFiles_of_none (Disk.readWith_of_open?_error reader hopen)]; rfl

/-- Of an entry that is no directory and no link a reader takes what it takes from a file, also
where there is no entry. -/
theorem readAll_entryFiles {chain : List Place} {shown name : String} {dir : Place}
    (hlocate : disk.locate (Path.parse (Path.join shown name)) = .ok (dir ++ [name]))
    (hplain : IsPlain (disk.node? (dir ++ [name]))) :
    disk.readAll reader (entryFiles disk tree chain shown dir name) =
      disk.readAll reader (leafFiles tree name (Path.join shown name)) := by
  rw [Disk.node?_append] at hplain
  unfold entryFiles
  split
  case h_1 hnode =>
      rw [readAll_leafFiles_of_none]
      · rfl
      · rw [Disk.readWith_of_locate reader hlocate, Disk.node?_append, hnode]
        rfl
  case h_2 hnode => exact absurd hnode hplain.1
  case h_3 target hnode => exact absurd hnode (hplain.2 target)
  case h_4 => rfl

/-! ### Walks over disks that look alike -/

theorem open?_directory_of_alike (h : Alike reader disk other) {path : Path} {place : Place}
    (hopen : disk.open? path = .ok (place, .directory)) :
    other.open? path = .ok (place, .directory) := by
  have hdir := h.directory (Disk.isDirectoryAt_iff.mpr (Disk.node?_of_open? hopen))
  rw [Disk.open?_of_locate (h.locate (Disk.locate_of_open? hopen)),
    Disk.isDirectoryAt_iff.mp hdir]
  rfl

theorem readAll_linkFiles_of_alike (h : Alike reader disk other) {chain : List Place}
    {name path : String}
    (hbelow : ∀ place, disk.open? (Path.parse path) = .ok (place, .directory) → place ∉ chain →
      disk.readAll reader (filesBelow disk tree (place :: chain) path place) =
        other.readAll reader (filesBelow other tree (place :: chain) path place)) :
    disk.readAll reader (linkFiles disk tree chain name path) =
      other.readAll reader (linkFiles other tree chain name path) := by
  by_cases hdir : ∃ place, disk.open? (Path.parse path) = .ok (place, .directory)
  · obtain ⟨place, hopen⟩ := hdir
    have hother := open?_directory_of_alike h hopen
    rw [linkFiles, linkFiles, hopen, hother]
    by_cases hknown : place ∈ chain
    · simp only [List.contains_iff_mem, hknown, if_true]
      rfl
    · simp only [List.contains_iff_mem, hknown, if_false]
      exact hbelow place hopen hknown
  · have hnone : ∀ place, disk.open? (Path.parse path) ≠ .ok (place, .directory) :=
      fun place hopen => hdir ⟨place, hopen⟩
    have hother : ∀ place, other.open? (Path.parse path) ≠ .ok (place, .directory) :=
      fun place hopen => hdir ⟨place, open?_directory_of_alike h.symm hopen⟩
    rw [readAll_linkFiles hnone, readAll_linkFiles hother, h.readAll]

theorem readAll_entryFiles_of_alike (h : Alike reader disk other) {chain : List Place}
    {shown name : String} {dir : Place} (hshown : disk.locate (Path.parse shown) = .ok dir)
    (hdir : disk.isDirectoryAt dir) (hname : Path.IsName name)
    (hbelow : disk.node? (dir ++ [name]) = some .directory →
      disk.readAll reader
          (filesBelow disk tree ((dir ++ [name]) :: chain) (Path.join shown name) (dir ++ [name])) =
        other.readAll reader
          (filesBelow other tree ((dir ++ [name]) :: chain) (Path.join shown name) (dir ++ [name])))
    (hlinked : disk.readAll reader (linkFiles disk tree chain name (Path.join shown name)) =
      other.readAll reader (linkFiles other tree chain name (Path.join shown name))) :
    disk.readAll reader (entryFiles disk tree chain shown dir name) =
      other.readAll reader (entryFiles other tree chain shown dir name) := by
  rcases h.node (dir ++ [name]) with heq | ⟨hplain, hother, -⟩
  · rw [Disk.node?_append] at hbelow
    rw [Disk.node?_append, Disk.node?_append] at heq
    rw [entryFiles, entryFiles, ← heq]
    cases hnode : disk.nodes[dir ++ [name]]? with
    | none => rfl
    | some node =>
        cases node with
        | directory => exact hbelow hnode
        | link target =>
            dsimp only
            split
            · exact hlinked
            · rfl
        | file content => exact h.readAll _
        | faulty => exact h.readAll _
  · -- What is there may differ, but the path leads to it on both disks.
    rw [readAll_entryFiles (Disk.locate_join hshown hdir hname hplain.2) hplain,
      readAll_entryFiles (Disk.locate_join (h.locate hshown) (h.directory hdir) hname hother.2)
        hother, h.readAll]

/-- **Walks over disks that look alike give a reader the same.** -/
theorem readAll_filesBelow_of_alike (h : Alike reader disk other) (hnames : disk.WellNamed)
    (hotherNames : other.WellNamed) (chain : List Place) (shown : String) (dir : Place)
    (hshown : disk.locate (Path.parse shown) = .ok dir) (hdir : disk.isDirectoryAt dir) :
    disk.readAll reader (filesBelow disk tree chain shown dir) =
      other.readAll reader (filesBelow other tree chain shown dir) := by
  induction chain, shown, dir using filesBelow.induct disk with
  | case1 chain shown dir ihdir ihlink =>
      have hentry : ∀ name, Path.IsName name →
          disk.readAll reader (entryFiles disk tree chain shown dir name) =
            other.readAll reader (entryFiles other tree chain shown dir name) := by
        intro name hname
        refine readAll_entryFiles_of_alike h hshown hdir hname ?_ ?_
        · -- The joined path leads to the directory below, so the walk goes on as it began.
          intro hnode
          refine ihdir name (Disk.node?_append disk dir name ▸ hnode) ?_ ?_
          · refine Disk.locate_join hshown hdir hname ?_
            intro target hlink
            rw [hnode] at hlink
            cases hlink
          · exact Disk.isDirectoryAt_iff.mpr hnode
        · refine readAll_linkFiles_of_alike h ?_
          intro place hopen hnew
          exact ihlink name place hopen hnew (Disk.locate_of_open? hopen)
            (Disk.isDirectoryAt_iff.mpr (Disk.node?_of_open? hopen))
      have hnone : ∀ (disk : Disk) name, name ∉ disk.namesIn dir →
          disk.readAll reader (entryFiles disk tree chain shown dir name) = [] := by
        intro disk name hmem
        rw [entryFiles_of_not_mem hmem]
        rfl
      rw [filesBelow_eq, filesBelow_eq, Disk.readAll_flatMap, Disk.readAll_flatMap,
        Ordered.flatMap_eq_of_pairwise (fun _ _ => String.lt_asymm) (disk.namesIn_ascending dir)
          (other.namesIn_ascending dir)]
      · refine congrArg List.flatten (List.map_congr_left ?_)
        intro name hmem
        exact hentry name (hotherNames.of_mem_namesIn hmem)
      · -- A name that only one of the disks has gives the reader nothing.
        intro name hread
        constructor
        · intro hmem
          refine Decidable.byContradiction fun hother => hread ?_
          rw [hentry name (hnames.of_mem_namesIn hmem)]
          exact hnone other name hother
        · intro _
          exact Decidable.byContradiction fun hother => hread (hnone disk name hother)

/-- What a reader takes from the files of a tree, where both disks have its root. -/
theorem readAll_files_of_alike (h : Alike reader disk other) (hnames : disk.WellNamed)
    (hotherNames : other.WellNamed) {paths otherPaths : List String}
    (hpaths : files disk tree = .ok paths) (hother : files other tree = .ok otherPaths) :
    disk.readAll reader paths = other.readAll reader otherPaths := by
  by_cases hdir : ∃ place, disk.open? (Path.parse tree.root) = .ok (place, .directory)
  · obtain ⟨place, hopen⟩ := hdir
    rw [files_of_directory hopen] at hpaths
    rw [files_of_directory (open?_directory_of_alike h hopen)] at hother
    rw [← Except.ok.inj hpaths, ← Except.ok.inj hother]
    exact readAll_filesBelow_of_alike h hnames hotherNames _ _ _ (Disk.locate_of_open? hopen)
      (Disk.isDirectoryAt_iff.mpr (Disk.node?_of_open? hopen))
  · rw [files_of_not_directory (fun place hopen => hdir ⟨place, hopen⟩) hpaths,
      files_of_not_directory
        (fun place hopen => hdir ⟨place, open?_directory_of_alike h.symm hopen⟩) hother,
      rootFiles, rootFiles, h.isLink, h.readAll]

end SourceTree

end ActionCalls
