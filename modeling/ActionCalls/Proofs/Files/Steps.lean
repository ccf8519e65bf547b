import ActionCalls.Proofs.Files.Walk
import ActionCalls.Proofs.Text.Words

/-!
# The steps of a walk

An entry of a directory brings a walk one step further, or it is a source file, or it brings nothing. A
walk **steps into** a directory, and into the directory that a followed link leads to unless it is on the
way already (`StepsTo`); it **takes** a regular file, and a followed link to one (`Takes`). Whatever is
proved of a walk needs no more than that (`filesBelow_induction`, `mem_entryFiles_iff`).

What a followed link leads to is no link itself. That takes a disk on which everything lies in a
directory, as it does in a file system.
-/

namespace ActionCalls

/-! ### File systems -/

/-- Is it a regular file, which can be read or not? -/
def Node.IsRegular : Node → Prop
  | .file _ => True
  | .faulty => True
  | _ => False

theorem Node.isRegular_iff {node : Node} :
    node.IsRegular ↔ node ≠ .directory ∧ ∀ target, node ≠ .link target := by
  cases node <;> simp [IsRegular]

namespace Disk

/-- Has everything on the disk a name that files can have, and does it lie in a directory? -/
structure IsFileSystem (disk : Disk) : Prop where
  wellNamed : disk.WellNamed
  inDirectory : ∀ (place : Place) (name : String), disk.nodes[place ++ [name]]?.isSome →
    disk.isDirectoryAt place

variable {disk : Disk} {here place : Place} {node : Node} {target : String}

/-- A file system has nothing but the root without a parent. -/
theorem IsFileSystem.dropLast (h : disk.IsFileSystem) (hdir : disk.isDirectoryAt here) :
    disk.isDirectoryAt here.dropLast := by
  rcases List.eq_nil_or_concat here with rfl | ⟨front, name, rfl⟩
  · exact hdir
  · rw [List.concat_eq_append] at *
    rw [List.dropLast_concat]
    refine h.inDirectory front name ?_
    rw [← node?_append, isDirectoryAt_iff.mp hdir]
    rfl

/-- A disk with nothing on it is a file system. -/
theorem isFileSystem_empty (working : Place) : (Disk.mk ∅ working).IsFileSystem where
  wellNamed := fun place name hnode => by simp at hnode
  inDirectory := fun place name hnode => by simp at hnode

/-- Something new in a directory makes a file system of a file system. -/
theorem IsFileSystem.put {name : String} (h : disk.IsFileSystem) (place : Place)
    (hname : Path.IsName name) (hdir : disk.isDirectoryAt place)
    (hnew : disk.node? (place ++ [name]) = none) (node : Node) :
    (disk.put (place ++ [name]) node).IsFileSystem where
  wellNamed := h.wellNamed.put hname node
  inDirectory := by
    have hkept : ∀ {dir}, disk.isDirectoryAt dir →
        (disk.put (place ++ [name]) node).isDirectoryAt dir := by
      intro dir hdir
      rw [isDirectoryAt_iff] at *
      rw [node?_put, if_neg]
      · exact hdir
      · intro heq
        rw [← heq, hnew] at hdir
        cases hdir
    intro dir other hother
    rw [← node?_append, node?_put] at hother
    split at hother
    case isTrue heq =>
        obtain ⟨rfl, -⟩ := List.append_inj' heq rfl
        exact hkept hdir
    case isFalse => exact hkept (h.inDirectory dir other (node?_append disk dir other ▸ hother))

/-- Pieces that are followed never end at a link. -/
theorem IsFileSystem.not_link_of_follows (h : disk.IsFileSystem) {links : Nat} {pieces : List String}
    (hfollows : Follows disk links here pieces place)
    (hhere : disk.node? here ≠ some (.link target)) : disk.node? place ≠ some (.link target) := by
  have hdirectory : ∀ {place}, disk.isDirectoryAt place → disk.node? place ≠ some (.link target) := by
    intro place hdir
    rw [isDirectoryAt_iff.mp hdir]
    intro heq
    cases heq
  induction hfollows with
  | done => exact hhere
  | stay _ _ _ ih => exact ih hhere
  | up hdir _ ih => exact ih (hdirectory (h.dropLast hdir))
  | link hdir _ _ _ ih =>
      refine ih ?_
      split
      · exact hdirectory rfl
      · exact hdirectory hdir
  | enter _ _ hnode _ ih => exact ih (hdirectory hnode)
  | last _ _ hnode => exact hnode target

theorem IsFileSystem.not_link_of_locate (h : disk.IsFileSystem) {path : Path}
    (hlocate : disk.locate path = .ok place) : disk.node? place ≠ some (.link target) := by
  obtain ⟨-, hempty, used, -, hfollows⟩ := locate_eq_ok_iff.mp hlocate
  have horigin : disk.isDirectoryAt (disk.origin path) := by
    by_cases habsolute : path.isAbsolute
    · rw [origin, if_pos habsolute]
      rfl
    · cases hpieces : path.pieces with
      | nil => exact absurd ⟨hpieces, by simpa using habsolute⟩ hempty
      | cons piece pieces =>
          rw [hpieces] at hfollows
          exact hfollows.isDirectoryAt
  refine h.not_link_of_follows hfollows ?_
  rw [isDirectoryAt_iff.mp horigin]
  intro heq
  cases heq

theorem IsFileSystem.not_link_of_open? (h : disk.IsFileSystem) {path : Path}
    (hopen : disk.open? path = .ok (place, node)) : node ≠ .link target := by
  have hplace : disk.node? place ≠ some (.link target) :=
    h.not_link_of_locate (locate_of_open? hopen)
  rw [node?_of_open? hopen] at hplace
  exact fun heq => hplace (congrArg some heq)

end Disk

namespace SourceTree

variable {disk : Disk} {tree : SourceTree} {chain : List Place} {shown name path : String}
  {dir place : Place}

/-! ### Extensions -/

/-- Does the name end in a dot with the extension behind it, where neither the extension has a dot nor
the dot is the first character of the name? -/
def HasExtension (extension name : String) : Prop :=
  ∃ stem : Text, name.toList = stem ++ '.' :: extension.toList ∧ stem ≠ [] ∧
    '.' ∉ extension.toList ∧ name ≠ ".."

/-- A name with a dot is cut at its last one. -/
theorem extension?_of_cut {stem rest : Text} (hcut : name.toList = stem ++ '.' :: rest)
    (hrest : '.' ∉ rest) :
    Path.extension? name =
      if stem = [] ∨ name = ".." then none else some (String.ofList rest) := by
  have hreverse : name.toList.reverse = rest.reverse ++ '.' :: stem.reverse := by
    simp [hcut]
  have hmark : '.' ∉ rest.reverse := fun hmem => hrest (List.mem_reverse.mp hmem)
  have hdrop : name.toList.reverse.dropWhile (· ≠ '.') = '.' :: stem.reverse :=
    Text.dropWhile_ne_eq_iff.mpr ⟨_, hreverse, hmark⟩
  have htake : name.toList.reverse.takeWhile (· ≠ '.') = rest.reverse := by
    have hwhole : name.toList.reverse.takeWhile (· ≠ '.') ++ '.' :: stem.reverse =
        rest.reverse ++ '.' :: stem.reverse := by
      rw [← hreverse, ← hdrop, List.takeWhile_append_dropWhile]
    exact List.append_cancel_right hwhole
  rw [Path.extension?, hdrop, htake, List.reverse_reverse]
  rcases List.eq_nil_or_concat stem with rfl | ⟨front, last, rfl⟩
  · rfl
  · simp

theorem extension?_of_not_mem (h : '.' ∉ name.toList) : Path.extension? name = none := by
  have hdrop : name.toList.reverse.dropWhile (· ≠ '.') = [] := by
    rw [← List.append_nil name.toList.reverse, List.dropWhile_append_of_pos]
    · rfl
    · intro c hc
      exact decide_eq_true (ne_of_mem_of_not_mem (List.mem_reverse.mp hc) h)
  rw [Path.extension?, hdrop]

theorem isSource_iff : tree.isSource name ↔ HasExtension tree.extension name := by
  rw [isSource, beq_iff_eq]
  constructor
  · intro h
    by_cases hdot : '.' ∈ name.toList
    · obtain ⟨front, back, hreverse, hfront⟩ := List.eq_append_cons_of_mem (List.mem_reverse.mpr hdot)
      have hcut : name.toList = back.reverse ++ '.' :: front.reverse := by
        simpa using congrArg List.reverse hreverse
      have hmark : '.' ∉ front.reverse := fun hmem => hfront (List.mem_reverse.mp hmem)
      rw [extension?_of_cut hcut hmark] at h
      split at h
      case isTrue => cases h
      case isFalse hstem =>
          rw [not_or] at hstem
          rw [← Option.some.inj h, HasExtension, String.toList_ofList]
          exact ⟨_, hcut, hstem.1, hmark, hstem.2⟩
    · rw [extension?_of_not_mem hdot] at h
      cases h
  · intro h
    obtain ⟨stem, hcut, hne, hmark, hdots⟩ := h
    rw [extension?_of_cut hcut hmark, if_neg (not_or.mpr ⟨hne, hdots⟩), String.ofList_toList]

/-! ### Steps -/

/-- Where a walk goes on at an entry of a directory. -/
inductive StepsTo (disk : Disk) (tree : SourceTree) (chain : List Place) (shown : String) (dir : Place)
    (name : String) : Place → Prop where
  | directory (hnode : disk.node? (dir ++ [name]) = some .directory) :
      StepsTo disk tree chain shown dir name (dir ++ [name])
  | link {target : String} {place : Place} (hfollow : tree.followLinks = true)
      (hnode : disk.node? (dir ++ [name]) = some (.link target))
      (hopen : disk.open? (Path.parse (Path.join shown name)) = .ok (place, .directory))
      (hnew : place ∉ chain) : StepsTo disk tree chain shown dir name place

/-- Is an entry of a directory a regular file to the walk? -/
inductive Takes (disk : Disk) (tree : SourceTree) (shown : String) (dir : Place) (name : String) :
    Prop where
  | file {node : Node} (hnode : disk.node? (dir ++ [name]) = some node) (hregular : node.IsRegular)
  | link {target : String} {place : Place} {node : Node} (hfollow : tree.followLinks = true)
      (hnode : disk.node? (dir ++ [name]) = some (.link target))
      (hopen : disk.open? (Path.parse (Path.join shown name)) = .ok (place, node))
      (hregular : node.IsRegular)

theorem StepsTo.isDirectoryAt (h : StepsTo disk tree chain shown dir name place) :
    disk.isDirectoryAt place := by
  cases h with
  | directory hnode => exact Disk.isDirectoryAt_iff.mpr hnode
  | link _ _ hopen => exact Disk.isDirectoryAt_iff.mpr (Disk.node?_of_open? hopen)

theorem StepsTo.mem_namesIn (h : StepsTo disk tree chain shown dir name place) :
    name ∈ disk.namesIn dir := by
  rw [Disk.mem_namesIn, ← Disk.node?_append]
  cases h with
  | directory hnode => rw [hnode]; rfl
  | link _ hnode => rw [hnode]; rfl

theorem Takes.mem_namesIn (h : Takes disk tree shown dir name) : name ∈ disk.namesIn dir := by
  rw [Disk.mem_namesIn, ← Disk.node?_append]
  cases h with
  | file hnode => rw [hnode]; rfl
  | link _ hnode => rw [hnode]; rfl

theorem entryFiles_of_stepsTo (h : StepsTo disk tree chain shown dir name place) :
    entryFiles disk tree chain shown dir name =
      filesBelow disk tree (place :: chain) (Path.join shown name) place := by
  unfold entryFiles
  rw [← Disk.node?_append]
  cases h with
  | directory hnode => rw [hnode]
  | link hfollow hnode hopen hnew =>
      rw [hnode]
      dsimp only
      rw [if_pos hfollow, linkFiles, hopen]
      simp [hnew]

theorem entryFiles_of_takes (h : Takes disk tree shown dir name) :
    entryFiles disk tree chain shown dir name = leafFiles tree name (Path.join shown name) := by
  unfold entryFiles
  rw [← Disk.node?_append]
  cases h with
  | @file node hnode hregular =>
      rw [hnode]
      cases node with
      | file content => rfl
      | faulty => rfl
      | directory => exact hregular.elim
      | link target => exact hregular.elim
  | @link target place node hfollow hnode hopen hregular =>
      rw [hnode]
      dsimp only
      rw [if_pos hfollow, linkFiles, hopen]
      cases node with
      | file content => rfl
      | faulty => rfl
      | directory => exact hregular.elim
      | link target => exact hregular.elim

/-- An entry brings what a step into it brings, or itself, or nothing. -/
theorem entryFiles_cases (h : disk.IsFileSystem) (tree : SourceTree) (chain : List Place)
    (shown : String) (dir : Place) (name : String) :
    (∃ place, StepsTo disk tree chain shown dir name place) ∨ Takes disk tree shown dir name ∨
      entryFiles disk tree chain shown dir name = [] := by
  cases hnode : disk.node? (dir ++ [name]) with
  | none =>
      rw [entryFiles, ← Disk.node?_append, hnode]
      exact Or.inr (Or.inr rfl)
  | some node =>
      cases node with
      | directory => exact Or.inl ⟨_, .directory hnode⟩
      | file content => exact Or.inr (Or.inl (.file hnode trivial))
      | faulty => exact Or.inr (Or.inl (.file hnode trivial))
      | link target =>
          rw [entryFiles, ← Disk.node?_append, hnode]
          dsimp only
          by_cases hfollow : tree.followLinks = true
          · rw [if_pos hfollow, linkFiles]
            cases hopen : disk.open? (Path.parse (Path.join shown name)) with
            | error e => exact Or.inr (Or.inr rfl)
            | ok found =>
                obtain ⟨place, found⟩ := found
                by_cases hdir : found = .directory
                · subst hdir
                  by_cases hknown : place ∈ chain
                  · simp [hknown]
                  · exact Or.inl ⟨place, .link hfollow hnode hopen hknown⟩
                · have hregular : found.IsRegular :=
                    Node.isRegular_iff.mpr ⟨hdir, fun _ => h.not_link_of_open? hopen⟩
                  exact Or.inr (Or.inl (.link hfollow hnode hopen hregular))
          · rw [if_neg hfollow]
            exact Or.inr (Or.inr rfl)

/-- What an entry brings to the list. -/
theorem mem_entryFiles_iff (h : disk.IsFileSystem) :
    path ∈ entryFiles disk tree chain shown dir name ↔
      (Takes disk tree shown dir name ∧ HasExtension tree.extension name ∧
        path = Path.join shown name) ∨
      ∃ place, StepsTo disk tree chain shown dir name place ∧
        path ∈ filesBelow disk tree (place :: chain) (Path.join shown name) place := by
  have hleaf : path ∈ leafFiles tree name (Path.join shown name) ↔
      HasExtension tree.extension name ∧ path = Path.join shown name := by
    rw [leafFiles, ← isSource_iff]
    split
    case isTrue hsource => simp [hsource]
    case isFalse hsource => simp [hsource]
  constructor
  · intro hmem
    rcases entryFiles_cases h tree chain shown dir name with ⟨place, hstep⟩ | htakes | hnone
    · rw [entryFiles_of_stepsTo hstep] at hmem
      exact Or.inr ⟨place, hstep, hmem⟩
    · rw [entryFiles_of_takes htakes, hleaf] at hmem
      exact Or.inl ⟨htakes, hmem⟩
    · rw [hnone] at hmem
      cases hmem
  · intro hmem
    rcases hmem with ⟨htakes, hlisted⟩ | ⟨place, hstep, hmem⟩
    · rw [entryFiles_of_takes htakes]
      exact hleaf.mpr hlisted
    · rwa [entryFiles_of_stepsTo hstep]

/-- **What holds of a walk as soon as it holds of all the walks one step further** holds of every
walk. -/
theorem filesBelow_induction (disk : Disk) (tree : SourceTree)
    {motive : List Place → String → Place → Prop}
    (h : ∀ chain shown dir,
      (∀ name place, StepsTo disk tree chain shown dir name place →
        motive (place :: chain) (Path.join shown name) place) → motive chain shown dir)
    (chain : List Place) (shown : String) (dir : Place) : motive chain shown dir := by
  induction chain, shown, dir using filesBelow.induct disk with
  | case1 chain shown dir ihdir ihlink =>
      refine h chain shown dir fun name place hstep => ?_
      cases hstep with
      | directory hnode => exact ihdir name (Disk.node?_append disk dir name ▸ hnode)
      | link _ _ hopen hnew => exact ihlink name place hopen hnew

end SourceTree

end ActionCalls
