import ActionCalls.Proofs.Files.Listing
import ActionCalls.Proofs.Settings.Reload
import Mathlib.Data.List.Induction

/-!
# What an accepted extension lists

Settings are refused if their extension is empty or starts with a dot, and a source tree lists a file
if the extension is what stands behind the last dot of its name. The two agree on an extension without
a dot: then **every regular file whose name ends in a dot and the extension is listed**. An extension
with a dot further back is accepted as well, but it stands behind the last dot of no name, so every
source tree is empty (`files_of_load`).
-/

namespace ActionCalls.SourceTree

variable {disk : Disk} {tree : SourceTree} {place : Place} {names : List String} {name path : String}
  {node : Node}

/-! ### Files below the root -/

/-- Do the names lead from the root to a directory in which there is a regular file of this name? The
file lies below the place of the root, or a walk comes by it, which may be through links. -/
inductive FileBelow (disk : Disk) (tree : SourceTree) (names : List String) (name : String) : Prop where
  | inside {place : Place} {node : Node}
      (hopen : disk.open? (Path.parse tree.root) = .ok (place, .directory))
      (hnode : disk.node? (place ++ names ++ [name]) = some node) (hregular : node.IsRegular)
  | reached {chain : List Place} {dir : Place} (hwalk : WalksTo disk tree names chain dir)
      (htakes : Takes disk tree (tree.below names) dir name)

/-- A walk goes to every directory below the place of the root. -/
theorem exists_walksTo (h : disk.IsFileSystem)
    (hopen : disk.open? (Path.parse tree.root) = .ok (place, .directory))
    (hdir : disk.isDirectoryAt (place ++ names)) :
    ∃ chain, WalksTo disk tree names chain (place ++ names) := by
  induction names using List.reverseRecOn with
  | nil =>
      rw [List.append_nil]
      exact ⟨[place], .root hopen⟩
  | append_singleton names name ih =>
      rw [← List.append_assoc] at hdir ⊢
      have hupper := h.dropLast hdir
      rw [List.dropLast_concat] at hupper
      obtain ⟨chain, hwalk⟩ := ih hupper
      exact ⟨_, .step hwalk (.directory (Disk.isDirectoryAt_iff.mp hdir))⟩

theorem FileBelow.exists_takes (h : disk.IsFileSystem) (hfile : FileBelow disk tree names name) :
    ∃ chain dir, WalksTo disk tree names chain dir ∧ Takes disk tree (tree.below names) dir name := by
  cases hfile with
  | @inside place node hopen hnode hregular =>
      have hdir : disk.isDirectoryAt (place ++ names) := by
        refine h.inDirectory _ name ?_
        rw [← Disk.node?_append, hnode]
        rfl
      obtain ⟨chain, hwalk⟩ := exists_walksTo h hopen hdir
      exact ⟨chain, _, hwalk, .file hnode hregular⟩
  | reached hwalk htakes => exact ⟨_, _, hwalk, htakes⟩

/-! ### Names with the extension -/

/-- Does the name have something in front of a dot and the extension, which may have dots itself? -/
def EndsInExtension (extension name : String) : Prop :=
  ∃ stem : Text, stem ≠ [] ∧ name.toList = stem ++ '.' :: extension.toList

theorem EndsInExtension.hasExtension {extension : String} (h : EndsInExtension extension name)
    (hempty : extension ≠ "") (hdot : '.' ∉ extension.toList) : HasExtension extension name := by
  obtain ⟨stem, hstem, hname⟩ := h
  refine ⟨stem, hname, hstem, hdot, ?_⟩
  rintro rfl
  -- Two dots would leave nothing for the extension.
  obtain ⟨c, stem, rfl⟩ := List.exists_cons_of_ne_nil hstem
  have hlength := congrArg List.length hname
  have hpos := List.length_pos_iff.mpr fun hnil => hempty (String.toList_eq_nil_iff.mp hnil)
  have htwo : "..".toList.length = 2 := rfl
  rw [htwo, List.length_append, List.length_cons, List.length_cons] at hlength
  omega

/-- What is listed has the extension, which has no dot then. -/
theorem IsListed.not_mem_dot (h : IsListed disk tree path) : '.' ∉ tree.extension.toList := by
  cases h with
  | root _ _ _ _ hextension =>
      obtain ⟨-, -, -, hdot, -⟩ := hextension
      exact hdot
  | below _ _ hextension =>
      obtain ⟨-, -, -, hdot, -⟩ := hextension
      exact hdot

/-! ### Accepted extensions -/

/-- The source files below a root, as settings tell. -/
def ofSettings (settings : AnalysisSettings) (root : String) : SourceTree :=
  ⟨root, settings.sourceExtension, settings.followLinks⟩

/-- **An accepted extension lists its files exactly if it has no dot**: each regular file whose name ends
in a dot and the extension is listed then, and otherwise nothing is listed at all. -/
theorem files_of_load {other : Disk} {file root : String} {settings : Settings}
    (hload : Settings.load other file = .ok settings) (h : disk.IsFileSystem)
    (hopen : disk.open? (Path.parse root) = .ok (place, .directory)) :
    ∃ paths, files disk (ofSettings settings.analysis root) = .ok paths ∧
      (∀ names name, FileBelow disk (ofSettings settings.analysis root) names name →
        EndsInExtension settings.analysis.sourceExtension name →
          ((ofSettings settings.analysis root).below (names ++ [name]) ∈ paths ↔
            '.' ∉ settings.analysis.sourceExtension.toList)) ∧
      ('.' ∈ settings.analysis.sourceExtension.toList → paths = []) := by
  obtain ⟨hempty, -, -⟩ := Settings.isUsable_of_load hload
  obtain ⟨paths, hpaths, hlisted⟩ : ∃ paths,
      files disk (ofSettings settings.analysis root) = .ok paths ∧
        ∀ path, path ∈ paths ↔ IsListed disk (ofSettings settings.analysis root) path :=
    ⟨_, files_of_directory hopen, fun path => mem_filesBelow_iff h hopen⟩
  refine ⟨paths, hpaths, ?_, ?_⟩
  · intro names name hfile hname
    rw [hlisted]
    refine ⟨IsListed.not_mem_dot, fun hdot => ?_⟩
    obtain ⟨chain, dir, hwalk, htakes⟩ := hfile.exists_takes h
    exact .below hwalk htakes (hname.hasExtension hempty hdot)
  · intro hdot
    refine List.eq_nil_iff_forall_not_mem.mpr fun path hmem => ?_
    exact ((hlisted path).mp hmem).not_mem_dot hdot

/-! ### An extension with a dot -/

/-- Are all files below a root listed whose names end in a dot and the extension? -/
def ListsOwnFiles (disk : Disk) (tree : SourceTree) : Prop :=
  ∀ names name, FileBelow disk tree names name → EndsInExtension tree.extension name →
    ∃ paths, files disk tree = .ok paths ∧ tree.below (names ++ [name]) ∈ paths

/-- A disk with a settings file that sets the extension, and with a file whose name has two dots. -/
def extensionDisk (extension : String) : Disk :=
  ((Disk.mk ∅ []).put ([] ++ ["actiongraph.toml"])
    (.file (Utf8.encode ("[analysis]\nsource_extension = \"" ++ extension ++ "\"\n").toList))).put
      ([] ++ ["Cart.gen.java"]) (.file [])

def extensionSettings (extension : String) : Settings where
  analysis := { sourceExtension := extension }

theorem isFileSystem_extensionDisk (extension : String) : (extensionDisk extension).IsFileSystem := by
  have hempty := Disk.isFileSystem_empty []
  have hsettings := hempty.put [] (by decide : Path.IsName "actiongraph.toml") rfl rfl
  refine (hsettings _).put [] (by decide : Path.IsName "Cart.gen.java") rfl ?_ _
  rw [Disk.node?_put, if_neg (by decide)]
  rfl

theorem fileBelow_extensionDisk (extension : String) :
    FileBelow (extensionDisk extension) (ofSettings (extensionSettings extension).analysis "/") []
      "Cart.gen.java" := by
  have hnode : (extensionDisk extension).node? ([] ++ [] ++ ["Cart.gen.java"]) = some (.file []) := by
    rw [List.append_nil, extensionDisk, Disk.node?_put, if_pos rfl]
  exact .inside (Disk.open?_slash _) hnode trivial

/-- With the extension `java` the file is listed, whatever stands between the dots. -/
theorem files_of_load_java :
    Settings.load (extensionDisk "java") "actiongraph.toml" = .ok (extensionSettings "java") ∧
      (extensionDisk "java").IsFileSystem ∧
        ∃ paths, files (extensionDisk "java") (ofSettings (extensionSettings "java").analysis "/") =
          .ok paths ∧ "/Cart.gen.java" ∈ paths := by
  have hload : Settings.load (extensionDisk "java") "actiongraph.toml" =
      .ok (extensionSettings "java") := by decide +kernel
  have hname : EndsInExtension "java" "Cart.gen.java" := ⟨"Cart.gen".toList, by decide, by decide⟩
  have hsystem := isFileSystem_extensionDisk "java"
  obtain ⟨paths, hpaths, hlisted, -⟩ := files_of_load hload hsystem (Disk.open?_slash _)
  exact ⟨hload, hsystem, paths, hpaths,
    (hlisted [] _ (fileBelow_extensionDisk "java") hname).mpr (by decide)⟩

/-- The extension `gen.java` is accepted, and the file whose name ends in it is not listed. -/
theorem not_listsOwnFiles_gen_java :
    Settings.load (extensionDisk "gen.java") "actiongraph.toml" = .ok (extensionSettings "gen.java") ∧
      (extensionDisk "gen.java").IsFileSystem ∧
        ¬ ListsOwnFiles (extensionDisk "gen.java")
          (ofSettings (extensionSettings "gen.java").analysis "/") := by
  refine ⟨by decide +kernel, isFileSystem_extensionDisk _, fun h => ?_⟩
  have hname : EndsInExtension "gen.java" "Cart.gen.java" := ⟨"Cart".toList, by decide, by decide⟩
  obtain ⟨paths, hpaths, hmem⟩ := h [] _ (fileBelow_extensionDisk "gen.java") hname
  rw [files_of_directory (Disk.open?_slash _)] at hpaths
  obtain rfl := Except.ok.inj hpaths
  have hlisted := (mem_filesBelow_iff (isFileSystem_extensionDisk _) (Disk.open?_slash _)).mp hmem
  exact hlisted.not_mem_dot (by decide)

end ActionCalls.SourceTree
