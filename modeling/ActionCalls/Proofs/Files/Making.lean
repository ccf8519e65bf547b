import ActionCalls.Proofs.Files.Writing

/-!
# Making directories

The directories that are missing above a file are made from the top down, and the making may stop
anywhere. However far it gets, a disk **gains directories and nothing else** (`Disk.Gains`): at each
place there is what was there before, or there was nothing and now there is a directory, to which one
of the paths leads that were asked for. A disk that gains directories keeps its ways, so what one
step has made is still in its place after the next, and two gains are one. For a path that leads to a
directory nothing is made (`makeDirectories_of_open?`).
-/

namespace ActionCalls

/-- The path stands above another one: it is what is left without the last names of that. -/
inductive Path.IsAbove (upper : Path) : Path → Prop where
  | parent {path : Path} (h : path.parent? = some upper) : IsAbove upper path
  | above {path next : Path} (h : path.parent? = some next) (hnext : IsAbove upper next) :
      IsAbove upper path

namespace Disk

variable {disk other : Disk} {path : Path} {place : Place} {asked : Path → Prop}

/-! ### Gaining directories -/

/-- Another disk has what the disk has, and besides only directories to which paths lead that were
asked for. -/
structure Gains (disk : Disk) (asked : Path → Prop) (other : Disk) : Prop where
  working : other.working = disk.working
  node : ∀ place, other.node? place = disk.node? place ∨
    disk.node? place = none ∧ other.node? place = some .directory ∧
      ∃ path, asked path ∧ other.locate path = .ok place

theorem Gains.refl (disk : Disk) (asked : Path → Prop) : disk.Gains asked disk where
  working := rfl
  node := fun _ => Or.inl rfl

theorem Gains.keepsWays (h : disk.Gains asked other) : KeepsWays disk other where
  working := h.working
  directory := by
    intro place hdir
    rw [isDirectoryAt_iff] at *
    rcases h.node place with heq | ⟨-, hdirectory, -⟩
    · rw [heq, hdir]
    · exact hdirectory
  link := by
    intro place target
    rcases h.node place with heq | ⟨hnone, hdirectory, -⟩
    · rw [heq]
    · simp [hnone, hdirectory]

theorem Gains.mono {wider : Path → Prop} (h : disk.Gains asked other)
    (hwider : ∀ path, asked path → wider path) : disk.Gains wider other where
  working := h.working
  node := by
    intro place
    rcases h.node place with heq | ⟨hnone, hdirectory, path, hpath, hlocate⟩
    · exact Or.inl heq
    · exact Or.inr ⟨hnone, hdirectory, path, hwider path hpath, hlocate⟩

theorem Gains.trans {last : Disk} (h : disk.Gains asked other) (h' : other.Gains asked last) :
    disk.Gains asked last where
  working := h'.working.trans h.working
  node := by
    intro place
    rcases h'.node place with heq | ⟨hnone, hdirectory, hpath⟩
    · rcases h.node place with heq' | ⟨hnone', hdirectory', path, hpath, hlocate⟩
      · exact Or.inl (heq.trans heq')
      · exact Or.inr ⟨hnone', heq.trans hdirectory', path, hpath, h'.keepsWays.locate hlocate⟩
    · rcases h.node place with heq' | ⟨-, hdirectory', -⟩
      · exact Or.inr ⟨heq'.symm.trans hnone, hdirectory, hpath⟩
      · rw [hdirectory'] at hnone
        cases hnone

/-! ### One directory -/

/-- Empty pieces at the end only ask for a directory. -/
theorem Follows.appendEmpty {used : Nat} {here : Place} {pieces spaces : List String}
    (h : Follows disk used here pieces place) (hdir : disk.isDirectoryAt place)
    (hspaces : ∀ piece ∈ spaces, piece = "") : Follows disk used here (pieces ++ spaces) place := by
  have hstay : Follows disk 0 place spaces place := by
    induction spaces with
    | nil => exact .done
    | cons piece rest ih =>
        obtain ⟨hpiece, hrest⟩ := List.forall_mem_cons.mp hspaces
        exact .stay hdir (Or.inl hpiece) (ih hrest)
  exact h.append hdir hstay

/-- What stands behind a path without its final slashes is empty. -/
theorem exists_pieces_eq (path : Path) :
    ∃ spaces, path.pieces = path.withoutFinalSlashes.pieces ++ spaces ∧
      ∀ piece ∈ spaces, piece = "" := by
  refine ⟨(path.pieces.reverse.takeWhile (· = "")).reverse, ?_, ?_⟩
  · rw [Path.withoutFinalSlashes, ← List.reverse_append, List.takeWhile_append_dropWhile,
      List.reverse_reverse]
  · intro piece hmem
    rw [List.mem_reverse] at hmem
    exact of_decide_eq_true (List.all_eq_true.mp List.all_takeWhile piece hmem)

/-- Final slashes make no difference to a path that leads to a directory. -/
theorem locate_of_withoutFinalSlashes (h : disk.locate path.withoutFinalSlashes = .ok place)
    (hdir : disk.isDirectoryAt place) : disk.locate path = .ok place := by
  obtain ⟨hnul, hempty, used, hused, hfollows⟩ := locate_eq_ok_iff.mp h
  obtain ⟨spaces, hpieces, hspaces⟩ := exists_pieces_eq path
  refine locate_eq_ok_iff.mpr ⟨?_, ?_, used, hused, ?_⟩
  · intro hpathNul
    refine hnul ?_
    rw [Path.hasNul, hpieces, List.any_append, Bool.or_eq_true] at hpathNul
    refine hpathNul.resolve_right ?_
    intro hspacesNul
    obtain ⟨piece, hmem, hc⟩ := List.any_eq_true.mp hspacesNul
    rw [hspaces piece hmem] at hc
    exact absurd hc (by decide)
  · intro hpathEmpty
    rw [hpieces, List.append_eq_nil_iff] at hpathEmpty
    exact hempty ⟨hpathEmpty.1.1, hpathEmpty.2⟩
  · rw [hpieces]
    exact hfollows.appendEmpty hdir hspaces

/-- A directory that is made stands in an empty place of another one, to which the path leads but for
its last piece. -/
theorem makeDirectory_inv (h : disk.makeDirectory path = .ok other) :
    ∃ holder name, disk.lastPiece path.withoutFinalSlashes = .ok (holder, some name) ∧
      disk.node? (holder ++ [name]) = none ∧ other = disk.put (holder ++ [name]) .directory := by
  unfold makeDirectory at h
  cases hlast : disk.lastPiece path.withoutFinalSlashes with
  | error e =>
      rw [hlast] at h
      cases h
  | ok found =>
      obtain ⟨holder, name?⟩ := found
      rw [hlast] at h
      cases name? with
      | none => cases h
      | some name =>
          simp only [bind, Except.bind] at h
          cases hnode : disk.node? (holder ++ [name]) with
          | some node =>
              rw [hnode] at h
              cases h
          | none =>
              rw [hnode] at h
              exact ⟨holder, name, rfl, hnode, (Except.ok.inj h).symm⟩

theorem keepsWays_put_directory {holder : Place} {name : String}
    (hnone : disk.node? (holder ++ [name]) = none) :
    KeepsWays disk (disk.put (holder ++ [name]) .directory) where
  working := rfl
  directory := by
    intro place hdir
    rw [isDirectoryAt_iff] at *
    rw [node?_put]
    split
    · rfl
    · exact hdir
  link := by
    intro place target
    rw [node?_put]
    split
    case isTrue hplace => simp [← hplace, hnone]
    case isFalse => exact Iff.rfl

/-- The path leads to the directory that is made for it. -/
theorem locate_makeDirectory {holder : Place} {name : String}
    (hlast : disk.lastPiece path.withoutFinalSlashes = .ok (holder, some name))
    (hnone : disk.node? (holder ++ [name]) = none) :
    (disk.put (holder ++ [name]) .directory).locate path = .ok (holder ++ [name]) := by
  obtain ⟨hnul, front, hpieces, hfollow, hdir, hentry⟩ := lastPiece_eq_ok_some_iff.mp hlast
  obtain ⟨used, hused, hfollows⟩ := followLinks_eq_ok_iff.mp hfollow
  have hkeeps := keepsWays_put_directory hnone
  have hmade : (disk.put (holder ++ [name]) .directory).node? (holder ++ [name]) =
      some .directory := by
    rw [node?_put, if_pos rfl]
  have hpieces : path.withoutFinalSlashes.pieces = front.reverse ++ [name] := by
    rw [← List.reverse_cons, ← hpieces, List.reverse_reverse]
  refine locate_of_withoutFinalSlashes ?_ (isDirectoryAt_iff.mpr hmade)
  refine locate_eq_ok_iff.mpr ⟨hnul, by simp [hpieces], used, hused, ?_⟩
  rw [hpieces, hkeeps.origin]
  exact (hkeeps.follows hfollows).append (hkeeps.directory hdir)
    (.last (hkeeps.directory hdir) hentry (by simp [hmade]))

theorem gains_makeDirectory (h : disk.makeDirectory path = .ok other) :
    disk.Gains (· = path) other := by
  obtain ⟨holder, name, hlast, hnone, rfl⟩ := makeDirectory_inv h
  refine ⟨rfl, ?_⟩
  intro place
  rw [node?_put]
  split
  case isTrue hplace =>
      subst hplace
      exact Or.inr ⟨hnone, rfl, path, rfl, locate_makeDirectory hlast hnone⟩
  case isFalse => exact Or.inl rfl

/-! ### Directories that are there -/

theorem isEmpty_of_pieces (hpieces : ∀ piece ∈ path.pieces, piece = "")
    (hrelative : ¬ path.isAbsolute) : path.isEmpty := by
  have hnames : path.names = [] := by
    unfold Path.names
    split
    case h_1 rest heq => exact absurd (hpieces "." (heq ▸ List.mem_cons_self)) (by decide)
    case h_2 =>
      refine List.filter_eq_nil_iff.mpr fun piece hmem => ?_
      simp [hpieces piece hmem]
  simp [Path.isEmpty, hrelative, hnames]

/-- A path that leads somewhere has a directory above its last piece. -/
theorem exists_lastPiece (hempty : ¬ path.isEmpty) (h : disk.locate path = .ok place) :
    ∃ holder last?, disk.lastPiece path.withoutFinalSlashes = .ok (holder, last?) := by
  obtain ⟨hnul, -, used, hused, hfollows⟩ := locate_eq_ok_iff.mp h
  obtain ⟨spaces, hpieces, hspaces⟩ := exists_pieces_eq path
  have hnul : ¬ path.withoutFinalSlashes.hasNul := by
    rw [Path.hasNul, hpieces, List.any_append, Bool.or_eq_true, not_or] at hnul
    exact hnul.1
  cases hreverse : path.withoutFinalSlashes.pieces.reverse with
  | nil =>
      rw [List.reverse_eq_nil_iff] at hreverse
      rw [hreverse, List.nil_append] at hpieces
      have habsolute : path.isAbsolute := by
        by_contra hrelative
        exact hempty (isEmpty_of_pieces (hpieces ▸ hspaces) hrelative)
      refine ⟨[], none, ?_⟩
      rw [lastPiece, if_neg hnul, hreverse]
      exact if_pos habsolute
  | cons last front =>
      rw [List.reverse_eq_cons_iff.mp hreverse, List.append_assoc, List.singleton_append] at hpieces
      obtain ⟨before, more, holder, rfl, hbefore, hback⟩ := (hpieces ▸ hfollows).split
      have hfollow := hbefore.followLinks (Nat.le_trans (Nat.le_add_right ..) hused)
      exact ⟨holder, _, lastPiece_of_followLinks hnul hreverse hfollow hback.isDirectoryAt⟩

/-- Nothing is made where there is something. -/
theorem makeDirectory_of_open? {node : Node} (hempty : ¬ path.isEmpty)
    (h : disk.open? path = .ok (place, node)) : disk.makeDirectory path = .error .alreadyExists := by
  obtain ⟨hlocate, hnode⟩ := open?_eq_ok_iff.mp h
  obtain ⟨holder, last?, hlast⟩ := exists_lastPiece hempty hlocate
  cases last? with
  | none =>
      rw [makeDirectory, hlast]
      rfl
  | some last =>
      have hthere : disk.node? (holder ++ [last]) ≠ none := by
        intro hnone
        have hkept := (keepsWays_put_directory hnone).locate hlocate
        obtain rfl := Except.ok.inj (hkept.symm.trans (locate_makeDirectory hlast hnone))
        cases hnone.symm.trans hnode
      obtain ⟨other, hother⟩ := Option.ne_none_iff_exists'.mp hthere
      rw [makeDirectory, hlast]
      simp only [bind, Except.bind, hother]

/-! ### All directories that are missing -/

/-- However far the making gets, only a path that was asked for and those above it are made. -/
theorem gains_makeDirectoriesUpTo (depth : Nat) (disk : Disk) (path : Path) :
    disk.Gains (fun upper => upper = path ∨ upper.IsAbove path)
      (disk.makeDirectoriesUpTo depth path).1 := by
  induction depth generalizing disk path with
  | zero => exact .refl ..
  | succ depth ih =>
      have hself : ∀ {disk other : Disk}, disk.makeDirectory path = .ok other →
          disk.Gains (fun upper => upper = path ∨ upper.IsAbove path) other :=
        fun h => (gains_makeDirectory h).mono fun _ => Or.inl
      rw [makeDirectoriesUpTo]
      split
      case isTrue => exact .refl ..
      case isFalse =>
          split
          case h_1 made hmade => exact hself hmade
          case h_2 =>
              split
              case h_1 => exact .refl ..
              case h_2 parent hparent =>
                  have habove : disk.Gains (fun upper => upper = path ∨ upper.IsAbove path)
                      (disk.makeDirectoriesUpTo depth parent).1 := by
                    refine (ih disk parent).mono ?_
                    rintro upper (rfl | hupper)
                    · exact Or.inr (.parent hparent)
                    · exact Or.inr (.above hparent hupper)
                  split
                  case h_1 heq => exact heq ▸ habove
                  case h_2 between heq =>
                      rw [heq] at habove
                      split
                      case h_1 made hmade => exact habove.trans (hself hmade)
                      case h_2 => exact habove
          case h_3 => exact .refl ..

/-- Nothing is made for a path to a directory. -/
theorem makeDirectories_of_open? (h : disk.open? path = .ok (place, .directory)) :
    disk.makeDirectories path = (disk, .ok ()) := by
  have hdirectory : disk.isDirectory path := by
    rw [isDirectory, h]
  rw [makeDirectories, makeDirectoriesUpTo]
  by_cases hempty : path.isEmpty
  · rw [if_pos hempty]
  · rw [if_neg hempty, makeDirectory_of_open? hempty h]
    exact congrArg _ (if_pos hdirectory)

theorem gains_makeDirectories (disk : Disk) (path : Path) :
    disk.Gains (fun upper => upper = path ∨ upper.IsAbove path) (disk.makeDirectories path).1 :=
  gains_makeDirectoriesUpTo ..

end Disk

end ActionCalls
