import ActionCalls.Proofs.Files.Steps
import ActionCalls.Proofs.Text.Utf8
import Mathlib.Data.List.Lex

/-!
# What a source tree lists

A walk from the root of a source tree reaches directories, one name after the other (`WalksTo`), and the
tree **lists exactly the source files in them** (`IsListed`), in the order of their paths. Paths are
ordered name by name, and names by their bytes: that is not the order of the paths as texts, in which
`a.java` stands before `a/z.java`.

Walks cannot go on forever although links may lead back. Each followed link adds a directory to the way,
and between two of them a walk goes down one level with every name; so no walk has more names than there
are levels, times directories (`WalksTo.length_lt`).
-/

namespace ActionCalls

/-! ### The order of paths -/

namespace Path

/-- Does a name stand before another one by its bytes? -/
def NameBefore (name other : String) : Prop :=
  Utf8.encode name.toList < Utf8.encode other.toList

/-- Does a path stand before another one? The names are compared one after the other. -/
def Before (path other : String) : Prop :=
  List.Lex NameBefore (parse path).names (parse other).names

theorem not_before_self (path : String) : ¬ Before path path :=
  List.lex_irrefl (fun name => List.lt_irrefl (Utf8.encode name.toList)) _

theorem names_dot (isAbsolute : Bool) (rest : List String) :
    names ⟨isAbsolute, "." :: rest⟩ =
      (if isAbsolute then [] else ["."]) ++ rest.filter fun p => p ≠ "" ∧ p ≠ "." := rfl

theorem names_of_head {isAbsolute : Bool} {pieces : List String} (h : pieces.head? ≠ some ".") :
    names ⟨isAbsolute, pieces⟩ = pieces.filter fun p => p ≠ "" ∧ p ≠ "." := by
  unfold names
  split
  case h_1 rest heq =>
      obtain rfl : pieces = "." :: rest := heq
      exact absurd rfl h
  case h_2 => rfl

/-- Behind other pieces, pieces that are no dots in front name what they name on their own. -/
theorem names_append {isAbsolute : Bool} (front : List String) {piece : String} (h : piece ≠ ".") :
    names ⟨isAbsolute, front ++ [piece]⟩ =
      names ⟨isAbsolute, front⟩ ++ [piece].filter fun p => p ≠ "" ∧ p ≠ "." := by
  cases front with
  | nil => exact names_of_head (by simpa using h)
  | cons head front =>
      by_cases hhead : head = "."
      · rw [hhead, List.cons_append, names_dot, names_dot, List.filter_append, List.append_assoc]
      · have hne : ∀ rest : List String, (head :: rest).head? ≠ some "." := by simpa using hhead
        rw [names_of_head (hne front), List.cons_append, names_of_head (hne _), ← List.cons_append,
          List.filter_append]

/-- A joined name is the last one of the path. -/
theorem names_join {path name : String} (hpath : path ≠ "") (hname : IsName name) :
    (parse (join path name)).names = (parse path).names ++ [name] := by
  obtain ⟨front, hpieces, hjoin⟩ := parse_join hpath hname.no_slash
  have hfront : (parse path).names = names ⟨(parse path).isAbsolute, front⟩ := by
    show names ⟨(parse path).isAbsolute, (parse path).pieces⟩ = _
    rcases hpieces with heq | heq
    · rw [heq]
    · rw [heq, names_append front (by decide)]
      exact List.append_nil _
  rw [hjoin, names_append front hname.ne_dot, hfront]
  simp [hname.ne_empty, hname.ne_dot]

theorem join_ne_empty {path name : String} (hname : IsName name) : join path name ≠ "" := by
  unfold join
  split
  · exact hname.ne_empty
  · exact fun h => hname.ne_empty (String.append_eq_empty_iff.mp h).2
  · exact fun h => hname.ne_empty (String.append_eq_empty_iff.mp h).2

/-- Paths that go apart at some name are ordered as their names there. -/
theorem before_of_names {path other : String} {front : List String} {name name' : String}
    (hpath : front ++ [name] <+: (parse path).names)
    (hother : front ++ [name'] <+: (parse other).names) (h : name < name') : Before path other := by
  obtain ⟨rest, hpath⟩ := hpath
  obtain ⟨rest', hother⟩ := hother
  rw [Before, ← hpath, ← hother, List.append_assoc, List.append_assoc]
  exact List.Lex.append_left NameBefore (.rel (Utf8.encode_lt_encode (String.lt_iff.mp h))) front

end Path

namespace SourceTree

/-! ### Walks -/

/-- The path of names below the root. -/
def below (tree : SourceTree) (names : List String) : String :=
  names.foldl Path.join tree.root

theorem below_append (tree : SourceTree) (names : List String) (name : String) :
    tree.below (names ++ [name]) = Path.join (tree.below names) name := by
  rw [below, List.foldl_append]
  rfl

/-- The names lead a walk from the root to a directory. The chain has the directories on the way. -/
inductive WalksTo (disk : Disk) (tree : SourceTree) : (names : List String) → (chain : List Place) →
    (dir : Place) → Prop where
  | root {place : Place} (hopen : disk.open? (Path.parse tree.root) = .ok (place, .directory)) :
      WalksTo disk tree [] [place] place
  | step {names : List String} {chain : List Place} {dir place : Place} {name : String}
      (hwalk : WalksTo disk tree names chain dir)
      (hstep : StepsTo disk tree chain (tree.below names) dir name place) :
      WalksTo disk tree (names ++ [name]) (place :: chain) place

/-- Is the path a source file of the tree: the root itself, or a file that a walk takes? -/
inductive IsListed (disk : Disk) (tree : SourceTree) : (path : String) → Prop where
  | root {place : Place} {node : Node} {name : String}
      (hopen : disk.open? (Path.parse tree.root) = .ok (place, node)) (hregular : node.IsRegular)
      (hlink : disk.isLink (Path.parse tree.root) → tree.followLinks = true)
      (hname : (Path.parse tree.root).fileName? = some name)
      (hextension : HasExtension tree.extension name) : IsListed disk tree tree.root
  | below {names : List String} {chain : List Place} {dir : Place} {name : String}
      (hwalk : WalksTo disk tree names chain dir)
      (htakes : Takes disk tree (tree.below names) dir name)
      (hextension : HasExtension tree.extension name) :
      IsListed disk tree (tree.below (names ++ [name]))

section Walks

variable {disk : Disk} {tree : SourceTree} {names : List String} {chain : List Place} {dir place : Place}
  {path shown : String}

/-! ### What is listed -/

theorem isListed_of_mem_filesBelow (h : disk.IsFileSystem) (hwalk : WalksTo disk tree names chain dir)
    (hshown : tree.below names = shown) (hmem : path ∈ filesBelow disk tree chain shown dir) :
    IsListed disk tree path := by
  induction chain, shown, dir using filesBelow_induction disk tree
    generalizing names with
  | h chain shown dir ih =>
      subst hshown
      rw [filesBelow_eq] at hmem
      obtain ⟨name, -, hentry⟩ := List.mem_flatMap.mp hmem
      rcases (mem_entryFiles_iff h).mp hentry with ⟨htakes, hextension, rfl⟩ | ⟨place, hstep, hmem⟩
      · rw [← below_append]
        exact .below hwalk htakes hextension
      · exact ih name place hstep (.step hwalk hstep) (below_append tree names name) hmem

/-- Whatever is listed in a directory that a walk reaches is listed from the root. -/
theorem WalksTo.filesBelow_subset (hwalk : WalksTo disk tree names chain dir)
    (hopen : disk.open? (Path.parse tree.root) = .ok (place, .directory)) :
    filesBelow disk tree chain (tree.below names) dir ⊆ filesBelow disk tree [place] tree.root place := by
  induction hwalk with
  | root hopen' =>
      rw [hopen] at hopen'
      obtain ⟨rfl, -⟩ := Prod.mk.inj (Except.ok.inj hopen')
      exact List.Subset.refl _
  | @step names chain dir place' name hwalk hstep ih =>
      intro path hmem
      rw [below_append] at hmem
      refine ih ?_
      rw [filesBelow_eq]
      refine List.mem_flatMap.mpr ⟨name, hstep.mem_namesIn, ?_⟩
      rwa [entryFiles_of_stepsTo hstep]

theorem mem_filesBelow_iff (h : disk.IsFileSystem)
    (hopen : disk.open? (Path.parse tree.root) = .ok (place, .directory)) :
    path ∈ filesBelow disk tree [place] tree.root place ↔ IsListed disk tree path := by
  constructor
  · exact isListed_of_mem_filesBelow h (.root hopen) rfl
  · intro hlisted
    cases hlisted with
    | root hopen' hregular =>
        rw [hopen] at hopen'
        obtain ⟨-, rfl⟩ := Prod.mk.inj (Except.ok.inj hopen')
        exact hregular.elim
    | @below names chain dir name hwalk htakes hextension =>
        refine hwalk.filesBelow_subset hopen ?_
        rw [filesBelow_eq]
        refine List.mem_flatMap.mpr ⟨name, htakes.mem_namesIn, (mem_entryFiles_iff h).mpr ?_⟩
        exact Or.inl ⟨htakes, hextension, below_append tree names name⟩

/-- The path of a walk leads to its directory. -/
theorem WalksTo.locate (h : disk.IsFileSystem) (hwalk : WalksTo disk tree names chain dir) :
    disk.locate (Path.parse (tree.below names)) = .ok dir ∧ disk.isDirectoryAt dir := by
  induction hwalk with
  | root hopen =>
      exact ⟨Disk.locate_of_open? hopen, Disk.isDirectoryAt_iff.mpr (Disk.node?_of_open? hopen)⟩
  | step _ hstep ih =>
      have hname := h.wellNamed.of_mem_namesIn hstep.mem_namesIn
      rw [below_append]
      refine ⟨?_, hstep.isDirectoryAt⟩
      cases hstep with
      | directory hnode =>
          refine Disk.locate_join ih.1 ih.2 hname fun target hlink => ?_
          rw [hnode] at hlink
          cases hlink
      | link _ _ hopen => exact Disk.locate_of_open? hopen

/-- What is listed leads to a regular file. -/
theorem IsListed.open? (h : disk.IsFileSystem) (hlisted : IsListed disk tree path) :
    ∃ place node, disk.open? (Path.parse path) = .ok (place, node) ∧ node.IsRegular := by
  cases hlisted with
  | root hopen hregular => exact ⟨_, _, hopen, hregular⟩
  | @below names chain dir name hwalk htakes =>
      have hname := h.wellNamed.of_mem_namesIn htakes.mem_namesIn
      rw [below_append]
      cases htakes with
      | link _ _ hopen hregular => exact ⟨_, _, hopen, hregular⟩
      | @file node hnode hregular =>
          obtain ⟨hdir, hisdir⟩ := hwalk.locate h
          have hlocate := Disk.locate_join hdir hisdir hname fun target hlink => by
            rw [hnode] at hlink
            exact (Node.isRegular_iff.mp hregular).2 target (Option.some.inj hlink)
          refine ⟨dir ++ [name], node, ?_, hregular⟩
          rw [Disk.open?_of_locate hlocate, hnode]
          rfl

/-! ### The order of the list -/

/-- What an entry brings has the name of the entry behind those of the directory, as far as what is
listed one step further has the names of that step. -/
theorem prefix_of_mem_entryFiles {name : String} (h : disk.IsFileSystem) (hshown : shown ≠ "")
    (hname : name ∈ disk.namesIn dir) (hmem : path ∈ entryFiles disk tree chain shown dir name)
    (hbelow : ∀ place, StepsTo disk tree chain shown dir name place →
      path ∈ filesBelow disk tree (place :: chain) (Path.join shown name) place →
        (Path.parse (Path.join shown name)).names <+: (Path.parse path).names) :
    (Path.parse shown).names ++ [name] <+: (Path.parse path).names := by
  rw [← Path.names_join hshown (h.wellNamed.of_mem_namesIn hname)]
  rcases (mem_entryFiles_iff h).mp hmem with ⟨-, -, rfl⟩ | ⟨place, hstep, hmem⟩
  · exact List.prefix_rfl
  · exact hbelow place hstep hmem

theorem prefix_of_mem_filesBelow (h : disk.IsFileSystem) (hshown : shown ≠ "")
    (hmem : path ∈ filesBelow disk tree chain shown dir) :
    (Path.parse shown).names <+: (Path.parse path).names := by
  induction chain, shown, dir using filesBelow_induction disk tree with
  | h chain shown dir ih =>
      rw [filesBelow_eq] at hmem
      obtain ⟨name, hname, hentry⟩ := List.mem_flatMap.mp hmem
      refine (List.prefix_append _ _).trans (prefix_of_mem_entryFiles h hshown hname hentry ?_)
      intro place hstep hbelow
      exact ih name place hstep (Path.join_ne_empty (h.wellNamed.of_mem_namesIn hname)) hbelow

/-- Entries are gone through in the order of their names, so what they bring is ordered too. -/
theorem pairwise_filesBelow (h : disk.IsFileSystem) (hshown : shown ≠ "") :
    (filesBelow disk tree chain shown dir).Pairwise Path.Before := by
  induction chain, shown, dir using filesBelow_induction disk tree with
  | h chain shown dir ih =>
      have hjoin : ∀ name ∈ disk.namesIn dir, Path.join shown name ≠ "" :=
        fun name hname => Path.join_ne_empty (h.wellNamed.of_mem_namesIn hname)
      rw [filesBelow_eq, List.pairwise_flatMap]
      refine ⟨fun name hname => ?_, ?_⟩
      · rcases entryFiles_cases h tree chain shown dir name with ⟨place, hstep⟩ | htakes | hnone
        · rw [entryFiles_of_stepsTo hstep]
          exact ih name place hstep (hjoin name hname)
        · rw [entryFiles_of_takes htakes, leafFiles]
          split
          · exact List.pairwise_singleton _ _
          · exact List.Pairwise.nil
        · rw [hnone]
          exact List.Pairwise.nil
      · refine (disk.namesIn_ascending dir).imp_of_mem ?_
        intro name other hname hother hlt path hpath otherPath hotherPath
        exact Path.before_of_names
          (prefix_of_mem_entryFiles h hshown hname hpath fun place _ =>
            prefix_of_mem_filesBelow h (hjoin name hname))
          (prefix_of_mem_entryFiles h hshown hother hotherPath fun place _ =>
            prefix_of_mem_filesBelow h (hjoin other hother)) hlt

/-! ### The length of walks -/

/-- With every step a walk goes down one level, or it has one directory less to visit. -/
theorem WalksTo.length_add_lt (hwalk : WalksTo disk tree names chain dir) :
    names.length + (disk.depth - dir.length) + (disk.depth + 1) * disk.unvisited chain <
      (disk.depth + 1) * disk.directories.length := by
  have hfewer : ∀ {few many : Nat}, few < many →
      (disk.depth + 1) * few + (disk.depth + 1) ≤ (disk.depth + 1) * many := by
    intro few many hlt
    rw [← Nat.mul_succ]
    exact Nat.mul_le_mul_left _ hlt
  induction hwalk with
  | @root place hopen =>
      have hall : disk.unvisited [] = disk.directories.length := by
        simp [Disk.unvisited]
      have hlt := hfewer (Disk.unvisited_cons_lt List.not_mem_nil (Disk.node?_of_open? hopen))
      rw [hall] at hlt
      simp only [List.length_nil]
      omega
  | @step names chain dir place name hwalk hstep ih =>
      rw [List.length_append, List.length_singleton]
      cases hstep with
      | directory hnode =>
          rw [Disk.node?_append] at hnode
          have hdepth := Disk.length_le_depth hnode
          have hle := Nat.mul_le_mul_left (disk.depth + 1) (disk.unvisited_cons_le chain (dir ++ [name]))
          rw [List.length_append, List.length_singleton] at *
          omega
      | link _ _ hopen hnew =>
          have hlt := hfewer (Disk.unvisited_cons_lt hnew (Disk.node?_of_open? hopen))
          omega

theorem WalksTo.length_lt (hwalk : WalksTo disk tree names chain dir) :
    names.length < (disk.depth + 1) * disk.directories.length := by
  have hlt := hwalk.length_add_lt
  omega

end Walks

/-! ### A root that is no directory -/

section Root

variable {disk : Disk} {tree : SourceTree} {place : Place} {node : Node}
  (hopen : disk.open? (Path.parse tree.root) = .ok (place, node)) (hregular : node.IsRegular)

include hopen hregular

theorem files_of_isRegular : files disk tree = .ok (rootFiles disk tree) := by
  rw [files, hopen]
  cases node with
  | directory => exact hregular.elim
  | file content => rfl
  | link target => rfl
  | faulty => rfl

/-- No walk starts at a file. -/
theorem not_walksTo {names : List String} {chain : List Place} {dir : Place} :
    ¬ WalksTo disk tree names chain dir := by
  intro hwalk
  induction hwalk with
  | root hopen' =>
      rw [hopen] at hopen'
      obtain ⟨-, rfl⟩ := Prod.mk.inj (Except.ok.inj hopen')
      exact hregular.elim
  | step _ _ ih => exact ih

theorem mem_rootFiles_iff {path : String} :
    path ∈ rootFiles disk tree ↔ IsListed disk tree path := by
  rw [rootFiles]
  constructor
  · intro hmem
    split at hmem
    case isTrue => cases hmem
    case isFalse hlisted =>
        obtain rfl := List.mem_singleton.mp hmem
        rw [Bool.or_eq_true, not_or, Bool.not_eq_true', Bool.not_eq_false, Option.any_eq_true] at hlisted
        obtain ⟨hlink, name, hname, hsource⟩ := hlisted
        refine .root hopen hregular (fun hislink => ?_) hname (isSource_iff.mp hsource)
        simpa [hislink] using hlink
  · intro hlisted
    cases hlisted with
    | root _ _ hlink hname hextension =>
        rw [hname, Option.any_some, isSource_iff.mpr hextension]
        by_cases hislink : disk.isLink (Path.parse tree.root) = true
        · simp [hlink hislink]
        · simp [hislink]
    | below hwalk => exact absurd hwalk (not_walksTo hopen hregular)

end Root

/-- **A source tree lists the source files of its walks, in the order of their paths**, and no walk goes
on forever. -/
theorem files_listed {disk : Disk} {tree : SourceTree} {place : Place} {node : Node}
    (h : disk.IsFileSystem) (hopen : disk.open? (Path.parse tree.root) = .ok (place, node)) :
    ∃ paths, files disk tree = .ok paths ∧ paths.Pairwise Path.Before ∧ paths.Nodup ∧
      (∀ path, path ∈ paths ↔ IsListed disk tree path) ∧
      (∀ path ∈ paths, ∃ place node, disk.open? (Path.parse path) = .ok (place, node) ∧
        node.IsRegular) ∧
      ∀ names chain dir, WalksTo disk tree names chain dir →
        names.length < (disk.depth + 1) * disk.directories.length := by
  have hfiles : ∃ paths, files disk tree = .ok paths ∧ paths.Pairwise Path.Before ∧
      ∀ path, path ∈ paths ↔ IsListed disk tree path := by
    by_cases hdir : node = .directory
    · subst hdir
      have hroot : tree.root ≠ "" := Disk.ne_empty_of_locate (Disk.locate_of_open? hopen)
      exact ⟨_, files_of_directory hopen, pairwise_filesBelow h hroot,
        fun path => mem_filesBelow_iff h hopen⟩
    · have hregular : node.IsRegular :=
        Node.isRegular_iff.mpr ⟨hdir, fun _ => h.not_link_of_open? hopen⟩
      refine ⟨rootFiles disk tree, files_of_isRegular hopen hregular, ?_,
        fun path => mem_rootFiles_iff hopen hregular⟩
      rw [rootFiles]
      split
      · exact List.Pairwise.nil
      · exact List.pairwise_singleton _ _
  obtain ⟨paths, hpaths, hordered, hlisted⟩ := hfiles
  refine ⟨paths, hpaths, hordered, hordered.imp ?_, hlisted,
    fun path hmem => ((hlisted path).mp hmem).open? h, fun _ _ _ => WalksTo.length_lt⟩
  intro path other hbefore heq
  exact Path.not_before_self path (heq ▸ hbefore)

/-! ### A tree with links -/

/-- A disk with a file in a directory, a link from there back to the root, and a link to the directory. -/
def loopedDisk : Disk :=
  ((((Disk.mk ∅ []).put ([] ++ ["a"]) .directory).put (["a"] ++ ["z.java"]) (.file [])).put
    (["a"] ++ ["up"]) (.link "/")).put ([] ++ ["b"]) (.link "a")

theorem isFileSystem_loopedDisk : loopedDisk.IsFileSystem := by
  have hempty := Disk.isFileSystem_empty []
  have ha := hempty.put [] (by decide : Path.IsName "a") rfl (by decide) .directory
  have hz := ha.put ["a"] (by decide : Path.IsName "z.java") (by decide) (by decide) (.file [])
  have hup := hz.put ["a"] (by decide : Path.IsName "up") (by decide) (by decide) (.link "/")
  exact hup.put [] (by decide : Path.IsName "b") rfl (by decide) (.link "a")

/-- Its tree, with links being followed. -/
def loopedTree : SourceTree :=
  ⟨"/", "java", true⟩

theorem open?_loopedTree :
    loopedDisk.open? (Path.parse loopedTree.root) = .ok ([], .directory) :=
  loopedDisk.open?_slash

/-- A walk goes to the directory through the link beside it. -/
theorem walksTo_loopedDisk : WalksTo loopedDisk loopedTree ["b"] [["a"], []] ["a"] := by
  have hnode : loopedDisk.node? ([] ++ ["b"]) = some (.link "a") := by decide
  have hopen : loopedDisk.open? (Path.parse "/b") = .ok (["a"], .directory) := by decide
  exact .step (.root open?_loopedTree) (.link rfl hnode hopen (by decide))

theorem files_listed_loopedDisk :
    loopedDisk.IsFileSystem ∧ ∃ paths, files loopedDisk loopedTree = .ok paths ∧
      paths.Pairwise Path.Before ∧ "/b/z.java" ∈ paths := by
  obtain ⟨paths, hfiles, hordered, -, hlisted, -⟩ :=
    files_listed isFileSystem_loopedDisk open?_loopedTree
  have hnode : loopedDisk.node? (["a"] ++ ["z.java"]) = some (.file []) := by decide
  have hextension : HasExtension "java" "z.java" :=
    ⟨['z'], by decide, by decide, by decide, by decide⟩
  exact ⟨isFileSystem_loopedDisk, paths, hfiles, hordered,
    (hlisted _).mpr (.below walksTo_loopedDisk (.file hnode trivial) hextension)⟩

end SourceTree

end ActionCalls
