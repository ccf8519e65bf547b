import ActionCalls.Proofs.Files.Walk
import ActionCalls.Proofs.Text.Utf8

/-!
# What is written can be read

A file that is written under a path is read under the same path: writing puts the file where the
path leads, and the path **still leads there** afterwards (`Follows.put`). For that, no directory on
the way may be lost, and none is, as no directory is written over. And no link on the way may be
lost: a link that stands in the place that a path leads to is not one of those the path goes through,
since from such a link on the path could come back to its place only by naming it again
(`Follows.prefix_of_link`). In the place of no link, writing changes no way at all, so a path that leads
elsewhere leads to what it led to before (`open?_put_file`).
-/

namespace ActionCalls.Disk

variable {disk : Disk} {here place : Place}

/-! ### Paths after writing -/

/-- Where a path leads to a link, it went up to it. -/
theorem Follows.prefix_of_link {links : Nat} {pieces : List String} {target : String}
    (h : Follows disk links here pieces place) (hnode : disk.node? place = some (.link target)) :
    place <+: here := by
  induction h with
  | done => exact List.prefix_refl _
  | stay hdir hpiece hrest ih => exact ih hnode
  | up hdir hrest ih => exact (ih hnode).trans (List.dropLast_prefix _)
  | link hdir hentry htarget hrest ih =>
      have hbelow := ih hnode
      split at hbelow
      · exact hbelow.trans List.nil_prefix
      · exact hbelow
  | enter hdir hentry hbelow hrest ih =>
      rcases List.prefix_concat_iff.mp (ih hnode) with rfl | hprefix
      · rw [isDirectoryAt_iff, hnode] at hbelow
        cases hbelow
      · exact hprefix
  | last hdir hentry hlast => exact absurd hnode (hlast target)

theorem node?_put_of_ne_nil (hplace : place ≠ []) (node : Node) (other : Place) :
    (disk.put place node).node? other = if place = other then some node else disk.node? other := by
  rw [← List.dropLast_concat_getLast hplace, node?_put]

variable {content : Bytes}

/-- No place is the root that is not a directory. -/
theorem ne_nil_of_node? (hplace : disk.node? place ≠ some .directory) : place ≠ [] := by
  rintro rfl
  exact hplace rfl

/-- A file in the place of no directory leaves all directories as they are. -/
theorem isDirectoryAt_put (hplace : disk.node? place ≠ some .directory) {dir : Place}
    (hdir : disk.isDirectoryAt dir) : (disk.put place (.file content)).isDirectoryAt dir := by
  rw [isDirectoryAt_iff] at hdir ⊢
  rw [node?_put_of_ne_nil (ne_nil_of_node? hplace), if_neg, hdir]
  rintro rfl
  exact hplace hdir

/-- A path that leads to a place still does when a file is put there, unless that is in the place of
a directory. -/
theorem Follows.put {links : Nat} {pieces : List String} (h : Follows disk links here pieces place)
    (hplace : disk.node? place ≠ some .directory) :
    Follows (disk.put place (.file content)) links here pieces place := by
  induction h with
  | done => exact .done
  | stay hdir hpiece hrest ih => exact .stay (isDirectoryAt_put hplace hdir) hpiece (ih hplace)
  | up hdir hrest ih => exact .up (isDirectoryAt_put hplace hdir) (ih hplace)
  | @link links here place piece target rest hdir hentry htarget hrest ih =>
      refine .link (isDirectoryAt_put hplace hdir) hentry ?_ (ih hplace)
      rw [node?_put_of_ne_nil (ne_nil_of_node? hplace), if_neg, htarget]
      -- The link would stand in the place that it leads to, which is not below where it is.
      rintro rfl
      have hbelow := hrest.prefix_of_link htarget
      split at hbelow
      · exact absurd (List.prefix_nil.mp hbelow) (by simp)
      · exact absurd hbelow.length_le (by simp)
  | enter hdir hentry hbelow hrest ih =>
      exact .enter (isDirectoryAt_put hplace hdir) hentry (isDirectoryAt_put hplace hbelow)
        (ih hplace)
  | last hdir hentry hlast =>
      refine .last (isDirectoryAt_put hplace hdir) hentry ?_
      intro target htarget
      rw [node?_put_of_ne_nil (ne_nil_of_node? hplace), if_pos rfl] at htarget
      cases htarget

/-! ### Other files -/

/-- A disk with a file more, in the place of no directory and no link, has the same ways. -/
theorem keepsWays_put_file (hdirectory : disk.node? place ≠ some .directory)
    (hlink : ∀ target, disk.node? place ≠ some (.link target)) :
    KeepsWays disk (disk.put place (.file content)) where
  working := rfl
  directory := isDirectoryAt_put hdirectory
  link := by
    intro other target
    rw [node?_put_of_ne_nil (ne_nil_of_node? hdirectory)]
    split
    case isTrue heq => simp [← heq, hlink]
    case isFalse => exact Iff.rfl

/-- And no ways that are new. -/
theorem keepsWays_of_put_file (hdirectory : disk.node? place ≠ some .directory)
    (hlink : ∀ target, disk.node? place ≠ some (.link target)) :
    KeepsWays (disk.put place (.file content)) disk where
  working := rfl
  directory := by
    intro dir hdir
    rw [isDirectoryAt_iff, node?_put_of_ne_nil (ne_nil_of_node? hdirectory)] at hdir
    split at hdir
    case isTrue => cases hdir
    case isFalse => exact isDirectoryAt_iff.mpr hdir
  link := (keepsWays_put_file hdirectory hlink).link.symm

theorem locate_put_file {path : Path} {other : Place} (hdirectory : disk.node? place ≠ some .directory)
    (hlink : ∀ target, disk.node? place ≠ some (.link target)) :
    (disk.put place (.file content)).locate path = .ok other ↔ disk.locate path = .ok other :=
  ⟨(keepsWays_of_put_file hdirectory hlink).locate, (keepsWays_put_file hdirectory hlink).locate⟩

/-- A path that leads elsewhere leads to what it led to before. -/
theorem open?_put_file {path : Path} {other : Place} {node : Node}
    (hdirectory : disk.node? place ≠ some .directory)
    (hlink : ∀ target, disk.node? place ≠ some (.link target)) (hother : place ≠ other) :
    (disk.put place (.file content)).open? path = .ok (other, node) ↔
      disk.open? path = .ok (other, node) := by
  have hnode : (disk.put place (.file content)).node? other = disk.node? other := by
    rw [node?_put_of_ne_nil (ne_nil_of_node? hdirectory), if_neg hother]
  rw [open?_eq_ok_iff, open?_eq_ok_iff, locate_put_file hdirectory hlink, hnode]

/-! ### Reading what was written -/

@[simp] theorem mapError_ok {ε ε' α : Type} (f : ε → ε') (a : α) :
    (Except.ok a).mapError f = .ok a :=
  rfl

/-- Writing puts the file where the path leads, which is not in the place of a directory. -/
theorem write_inv {path : Path} {other : Disk} (hcontent : content ≠ [])
    (h : disk.write path content = .ok other) :
    ∃ place, disk.locate path = .ok place ∧ disk.node? place ≠ some .directory ∧
      other = disk.put place (.file content) := by
  unfold write at h
  split at h
  case isTrue =>
      cases hpiece : disk.lastPiece path.withoutFinalSlashes <;> rw [hpiece] at h <;> cases h
  case isFalse =>
      cases hlocate : disk.locate path with
      | error e =>
          rw [hlocate] at h
          cases h
      | ok place =>
          rw [hlocate] at h
          rw [mapError_ok] at h
          simp only [bind, Except.bind] at h
          refine ⟨place, rfl, ?_⟩
          split at h
          case h_1 => cases h
          case h_2 => cases h
          case h_3 hdirectory _ => exact ⟨hdirectory, (Except.ok.inj h).symm⟩

/-- A path that leads to a place leads to the file that is put there. -/
theorem open?_put_of_locate {path : Path} (hplace : disk.node? place ≠ some .directory)
    (hlocate : disk.locate path = .ok place) :
    (disk.put place (.file content)).open? path = .ok (place, .file content) := by
  obtain ⟨hnul, hempty, used, hused, hfollows⟩ := locate_eq_ok_iff.mp hlocate
  refine open?_eq_ok_iff.mpr ⟨?_, ?_⟩
  · exact locate_eq_ok_iff.mpr ⟨hnul, hempty, used, hused, hfollows.put hplace⟩
  · rw [node?_put_of_ne_nil (ne_nil_of_node? hplace), if_pos rfl]

/-- The content that was written is read under the same path. -/
theorem read_of_write {path : Path} {other : Disk} (hcontent : content ≠ [])
    (h : disk.write path content = .ok other) : other.read path = .ok content := by
  obtain ⟨place, hlocate, hplace, rfl⟩ := write_inv hcontent h
  rw [read, open?_put_of_locate hplace hlocate]
  rfl

/-- A text that was written is read under the same path. -/
theorem readText_of_write {path : Path} {s : Text} {other : Disk} (hs : s ≠ [])
    (h : disk.write path (Utf8.encode s) = .ok other) : other.readText path = .ok s := by
  have hread := read_of_write (Utf8.encode_ne_nil hs) h
  simp only [readText, hread, bind, Except.bind, Utf8.decode?_encode]
  rfl

end ActionCalls.Disk
