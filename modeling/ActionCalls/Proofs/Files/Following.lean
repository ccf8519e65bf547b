import ActionCalls.Files.Disk
import ActionCalls.Proofs.Files.Path

/-!
# Following paths, step by step

`Disk.followLinks` follows the pieces of a path through links, at most so many of them. Here the
same is a **relation with one rule for each kind of step** (`Disk.Follows`), which counts the links
it goes through. Facts about paths are proved by induction on it: what follows a path that ends in a
directory goes on from there, pieces are followed one part after the other (`Follows.split`), and a
name in a directory that is no link leads to the entry of that name.
-/

namespace ActionCalls

/-- Does the piece name an entry of a directory, rather than that directory or its parent? -/
structure Path.IsEntry (piece : String) : Prop where
  ne_empty : piece ≠ ""
  ne_dot : piece ≠ "."
  ne_dots : piece ≠ ".."

/-- Can a file have this name? -/
structure Path.IsName (name : String) : Prop extends Path.IsEntry name where
  no_slash : '/' ∉ name.toList
  no_nul : '\x00' ∉ name.toList

instance (name : String) : Decidable (Path.IsName name) :=
  decidable_of_iff
    ((name ≠ "" ∧ name ≠ "." ∧ name ≠ "..") ∧ '/' ∉ name.toList ∧ '\x00' ∉ name.toList)
    ⟨fun ⟨⟨hempty, hdot, hdots⟩, hslash, hnul⟩ => ⟨⟨hempty, hdot, hdots⟩, hslash, hnul⟩,
      fun h => ⟨⟨h.ne_empty, h.ne_dot, h.ne_dots⟩, h.no_slash, h.no_nul⟩⟩

/-- The name of a file is a path of one piece. -/
theorem Path.IsName.parse_eq {name : String} (h : IsName name) : parse name = ⟨false, [name]⟩ := by
  obtain ⟨c, s, hname⟩ :=
    List.exists_cons_of_ne_nil fun hnil => h.ne_empty (String.toList_eq_nil_iff.mp hnil)
  have hc : c ≠ '/' := by
    rintro rfl
    exact h.no_slash (hname ▸ List.mem_cons_self)
  rw [parse_of_ne_slash hname hc, ← hname, Text.splitOn_of_not_mem h.no_slash, List.map_singleton,
    String.ofList_toList]

theorem Path.stay_or_up_or_isEntry (piece : String) :
    (piece = "" ∨ piece = ".") ∨ piece = ".." ∨ IsEntry piece := by
  by_cases hpiece : piece = "" ∨ piece = "."
  · exact Or.inl hpiece
  · by_cases hup : piece = ".."
    · exact Or.inr (Or.inl hup)
    · rw [not_or] at hpiece
      exact Or.inr (Or.inr ⟨hpiece.1, hpiece.2, hup⟩)

namespace Disk

/-- The pieces lead from a directory to a place, through so many links. -/
inductive Follows (disk : Disk) : (links : Nat) → Place → List String → Place → Prop where
  | done {here : Place} : Follows disk 0 here [] here
  | stay {links : Nat} {here place : Place} {piece : String} {rest : List String}
      (hdir : disk.isDirectoryAt here) (hpiece : piece = "" ∨ piece = ".")
      (hrest : Follows disk links here rest place) : Follows disk links here (piece :: rest) place
  | up {links : Nat} {here place : Place} {rest : List String} (hdir : disk.isDirectoryAt here)
      (hrest : Follows disk links here.dropLast rest place) :
      Follows disk links here (".." :: rest) place
  | link {links : Nat} {here place : Place} {piece target : String} {rest : List String}
      (hdir : disk.isDirectoryAt here) (hentry : Path.IsEntry piece)
      (hnode : disk.node? (here ++ [piece]) = some (.link target))
      (hrest : Follows disk links (if (Path.parse target).isAbsolute then [] else here)
        ((Path.parse target).pieces ++ rest) place) :
      Follows disk (links + 1) here (piece :: rest) place
  | enter {links : Nat} {here place : Place} {piece : String} {rest : List String}
      (hdir : disk.isDirectoryAt here) (hentry : Path.IsEntry piece)
      (hnode : disk.isDirectoryAt (here ++ [piece]))
      (hrest : Follows disk links (here ++ [piece]) rest place) :
      Follows disk links here (piece :: rest) place
  | last {here : Place} {piece : String} (hdir : disk.isDirectoryAt here)
      (hentry : Path.IsEntry piece)
      (hnode : ∀ target, disk.node? (here ++ [piece]) ≠ some (.link target)) :
      Follows disk 0 here [piece] (here ++ [piece])

variable {disk : Disk} {here place : Place}

theorem isDirectoryAt_iff : disk.isDirectoryAt place ↔ disk.node? place = some .directory := by
  rw [isDirectoryAt, beq_iff_eq]

/-- Only a directory has pieces followed from it. -/
theorem Follows.isDirectoryAt {links : Nat} {piece : String} {rest : List String}
    (h : Follows disk links here (piece :: rest) place) : disk.isDirectoryAt here := by
  cases h with
  | stay hdir | up hdir | link hdir | enter hdir | last hdir => exact hdir

/-! ### One step of the function -/

section Step

variable {jump : Place → List String → Except FileError Place} {piece : String}
  (rest : List String)

theorem followPieces_of_not_isDirectoryAt (hdir : ¬ disk.isDirectoryAt here) :
    disk.followPieces jump here (piece :: rest) = .error .notADirectory := by
  rw [followPieces]
  simp [hdir]

theorem followPieces_stay (hdir : disk.isDirectoryAt here) (hpiece : piece = "" ∨ piece = ".") :
    disk.followPieces jump here (piece :: rest) = disk.followPieces jump here rest := by
  rw [followPieces]
  simp [hdir, hpiece]

theorem followPieces_up (hdir : disk.isDirectoryAt here) :
    disk.followPieces jump here (".." :: rest) = disk.followPieces jump here.dropLast rest := by
  rw [followPieces]
  simp [hdir]

theorem followPieces_entry (hdir : disk.isDirectoryAt here) (hentry : Path.IsEntry piece) :
    disk.followPieces jump here (piece :: rest) =
      match disk.node? (here ++ [piece]) with
      | some (.link target) =>
          jump (if (Path.parse target).isAbsolute then [] else here)
            ((Path.parse target).pieces ++ rest)
      | none => if rest = [] then .ok (here ++ [piece]) else .error .notFound
      | some _ => disk.followPieces jump (here ++ [piece]) rest := by
  rw [followPieces]
  cases disk.node? (here ++ [piece]) with
  | none => simp [hdir, hentry.ne_empty, hentry.ne_dot, hentry.ne_dots]
  | some node => cases node <;> simp [hdir, hentry.ne_empty, hentry.ne_dot, hentry.ne_dots]

/-- Whatever number of links is left, a step that needs none is a step of `followPieces`. -/
theorem exists_followLinks_eq (disk : Disk) (links : Nat) :
    ∃ jump, disk.followLinks links = disk.followPieces jump := by
  cases links with
  | zero => exact ⟨_, rfl⟩
  | succ links => exact ⟨_, rfl⟩

end Step

/-! ### The relation and the function -/

theorem follows_of_followPieces {links : Nat}
    {jump : Place → List String → Except FileError Place} {pieces : List String}
    (hjump : ∀ {here pieces}, jump here pieces = .ok place →
      ∃ used < links, Follows disk used here pieces place)
    (h : disk.followPieces jump here pieces = .ok place) :
    ∃ used ≤ links, Follows disk used here pieces place := by
  induction pieces generalizing here with
  | nil =>
      obtain rfl := Except.ok.inj h
      exact ⟨0, Nat.zero_le _, .done⟩
  | cons piece rest ih =>
      by_cases hdir : disk.isDirectoryAt here
      · rcases Path.stay_or_up_or_isEntry piece with hpiece | hup | hentry
        · rw [followPieces_stay rest hdir hpiece] at h
          obtain ⟨used, hused, hrest⟩ := ih h
          exact ⟨used, hused, .stay hdir hpiece hrest⟩
        · subst hup
          rw [followPieces_up rest hdir] at h
          obtain ⟨used, hused, hrest⟩ := ih h
          exact ⟨used, hused, .up hdir hrest⟩
        · rw [followPieces_entry rest hdir hentry] at h
          split at h
          case h_1 target hnode =>
              obtain ⟨used, hused, hrest⟩ := hjump h
              exact ⟨used + 1, hused, .link hdir hentry hnode hrest⟩
          case h_2 hnode =>
              split at h
              case isTrue hlast =>
                  subst hlast
                  obtain rfl := Except.ok.inj h
                  exact ⟨0, Nat.zero_le _, .last hdir hentry (by simp [hnode])⟩
              case isFalse => cases h
          case h_3 node hlink hnode =>
              -- As the last piece it may name anything but a link, and before others a directory.
              obtain ⟨used, hused, hrest⟩ := ih h
              cases rest with
              | nil =>
                  obtain rfl := Except.ok.inj h
                  refine ⟨0, Nat.zero_le _, .last hdir hentry ?_⟩
                  intro target htarget
                  exact hlink target (Option.some.inj (hnode.symm.trans htarget))
              | cons next rest => exact ⟨used, hused, .enter hdir hentry hrest.isDirectoryAt hrest⟩
      · rw [followPieces_of_not_isDirectoryAt rest hdir] at h
        cases h

theorem Follows.followLinks {used links : Nat} {pieces : List String}
    (h : Follows disk used here pieces place) (hused : used ≤ links) :
    disk.followLinks links here pieces = .ok place := by
  induction h generalizing links with
  | done => cases links <;> rfl
  | stay hdir hpiece hrest ih =>
      obtain ⟨jump, hjump⟩ := exists_followLinks_eq disk links
      rw [hjump, followPieces_stay _ hdir hpiece, ← hjump]
      exact ih hused
  | up hdir hrest ih =>
      obtain ⟨jump, hjump⟩ := exists_followLinks_eq disk links
      rw [hjump, followPieces_up _ hdir, ← hjump]
      exact ih hused
  | link hdir hentry hnode hrest ih =>
      cases links with
      | zero => exact absurd hused (Nat.not_succ_le_zero _)
      | succ links =>
          rw [Disk.followLinks, followPieces_entry _ hdir hentry, hnode]
          exact ih (Nat.le_of_succ_le_succ hused)
  | enter hdir hentry hnode hrest ih =>
      rw [isDirectoryAt_iff] at hnode
      obtain ⟨jump, hjump⟩ := exists_followLinks_eq disk links
      rw [hjump, followPieces_entry _ hdir hentry, hnode]
      exact hjump ▸ ih hused
  | last hdir hentry hnode =>
      obtain ⟨jump, hjump⟩ := exists_followLinks_eq disk links
      rw [hjump, followPieces_entry _ hdir hentry]
      split
      case h_1 target htarget => exact absurd htarget (hnode target)
      case h_2 => rfl
      case h_3 => rfl

/-- **The function finds what the relation allows**, through as many links as it may. -/
theorem followLinks_eq_ok_iff {links : Nat} {pieces : List String} :
    disk.followLinks links here pieces = .ok place ↔
      ∃ used ≤ links, Follows disk used here pieces place := by
  constructor
  · intro h
    induction links generalizing here pieces with
    | zero =>
        refine follows_of_followPieces ?_ h
        intro here pieces hjump
        cases hjump
    | succ links ih =>
        refine follows_of_followPieces ?_ h
        intro here pieces hjump
        obtain ⟨used, hused, hfollows⟩ := ih hjump
        exact ⟨used, Nat.lt_succ_of_le hused, hfollows⟩
  · intro h
    obtain ⟨used, hused, h⟩ := h
    exact h.followLinks hused

/-! ### Going on from a directory -/

/-- What follows a path that ends in a directory goes on from there. -/
theorem Follows.append {used more : Nat} {pieces rest : List String} {dir : Place}
    (h : Follows disk used here pieces dir) (hdir : disk.isDirectoryAt dir)
    (hrest : Follows disk more dir rest place) :
    Follows disk (used + more) here (pieces ++ rest) place := by
  induction h with
  | done => rwa [Nat.zero_add]
  | stay hhere hpiece _ ih => exact .stay hhere hpiece (ih hdir hrest)
  | up hhere _ ih => exact .up hhere (ih hdir hrest)
  | link hhere hentry hnode _ ih =>
      rw [Nat.add_right_comm]
      refine .link hhere hentry hnode ?_
      exact List.append_assoc _ _ rest ▸ ih hdir hrest
  | enter hhere hentry hnode _ ih => exact .enter hhere hentry hnode (ih hdir hrest)
  | last hhere hentry =>
      -- What the first part arrives at is now entered.
      rw [Nat.zero_add]
      exact .enter hhere hentry hdir hrest

/-- **Pieces are followed one part after the other.** What leads through a piece leads to a place in
front of it, and from there through it. -/
theorem Follows.split {links : Nat} {front rest : List String} {piece : String}
    (h : Follows disk links here (front ++ piece :: rest) place) :
    ∃ used more dir, used + more = links ∧ Follows disk used here front dir ∧
      Follows disk more dir (piece :: rest) place := by
  -- The pieces are generalized, so that each rule can take the first one away.
  generalize hpieces : front ++ piece :: rest = pieces at h
  induction h generalizing front with
  | done => exact absurd hpieces (by simp)
  | stay hdir hstay hrest ih =>
      rcases List.append_eq_cons_iff.mp hpieces with ⟨rfl, hcons⟩ | ⟨others, rfl, hothers⟩
      · exact ⟨0, _, _, Nat.zero_add _, .done, hcons ▸ .stay hdir hstay hrest⟩
      · obtain ⟨used, more, dir, hlinks, hfront, hback⟩ := ih hothers.symm
        exact ⟨used, more, dir, hlinks, .stay hdir hstay hfront, hback⟩
  | up hdir hrest ih =>
      rcases List.append_eq_cons_iff.mp hpieces with ⟨rfl, hcons⟩ | ⟨others, rfl, hothers⟩
      · exact ⟨0, _, _, Nat.zero_add _, .done, hcons ▸ .up hdir hrest⟩
      · obtain ⟨used, more, dir, hlinks, hfront, hback⟩ := ih hothers.symm
        exact ⟨used, more, dir, hlinks, .up hdir hfront, hback⟩
  | link hdir hentry hnode hrest ih =>
      rcases List.append_eq_cons_iff.mp hpieces with ⟨rfl, hcons⟩ | ⟨others, rfl, hothers⟩
      · exact ⟨0, _, _, Nat.zero_add _, .done, hcons ▸ .link hdir hentry hnode hrest⟩
      · obtain ⟨used, more, dir, rfl, hfront, hback⟩ :=
          ih ((List.append_assoc ..).trans (congrArg _ hothers.symm))
        exact ⟨used + 1, more, dir, Nat.add_right_comm .., .link hdir hentry hnode hfront, hback⟩
  | enter hdir hentry hnode hrest ih =>
      rcases List.append_eq_cons_iff.mp hpieces with ⟨rfl, hcons⟩ | ⟨others, rfl, hothers⟩
      · exact ⟨0, _, _, Nat.zero_add _, .done, hcons ▸ .enter hdir hentry hnode hrest⟩
      · obtain ⟨used, more, dir, hlinks, hfront, hback⟩ := ih hothers.symm
        exact ⟨used, more, dir, hlinks, .enter hdir hentry hnode hfront, hback⟩
  | last hdir hentry hnode =>
      rcases List.append_eq_cons_iff.mp hpieces with ⟨rfl, hcons⟩ | ⟨others, -, hothers⟩
      · exact ⟨0, 0, _, rfl, .done, hcons ▸ .last hdir hentry hnode⟩
      · exact absurd hothers (by simp)

/-- An empty piece at the end only asks for a directory. -/
theorem Follows.dropEmpty {used : Nat} {front : List String}
    (h : Follows disk used here (front ++ [""]) place) : Follows disk used here front place := by
  obtain ⟨used, more, dir, rfl, hfront, hback⟩ := h.split
  generalize hempty : "" = piece at hback
  cases hback with
  | stay _ _ hrest =>
      cases hrest
      exact hfront
  | up => exact absurd hempty (by decide)
  | link _ hentry | enter _ hentry | last _ hentry => exact absurd hempty.symm hentry.ne_empty

/-! ### Places of paths -/

/-- A path leads to a place when it can be a path at all and its pieces lead there. -/
theorem locate_eq_ok_iff {path : Path} :
    disk.locate path = .ok place ↔
      ¬ path.hasNul ∧ ¬ (path.pieces = [] ∧ !path.isAbsolute) ∧
        ∃ used ≤ linkLimit, Follows disk used (disk.origin path) path.pieces place := by
  rw [← followLinks_eq_ok_iff]
  unfold locate
  split
  case isTrue hnul => simp [hnul]
  case isFalse hnul =>
      split
      case isTrue hempty => simp [hempty]
      case isFalse hempty =>
          simp only [hnul, hempty, Bool.false_eq_true, not_false_eq_true, true_and]

theorem ne_empty_of_locate {path : String} (h : disk.locate (Path.parse path) = .ok place) :
    path ≠ "" := by
  intro hempty
  subst hempty
  exact (locate_eq_ok_iff.mp h).2.1 ⟨rfl, rfl⟩

/-- The pieces in front of a name that is joined to a path lead where the path leads. -/
theorem exists_follows_join {path name : String} {dir : Place}
    (hpath : disk.locate (Path.parse path) = .ok dir) (hname : Path.IsName name) :
    ∃ front, Path.parse (Path.join path name) = ⟨(Path.parse path).isAbsolute, front ++ [name]⟩ ∧
      (∀ piece ∈ front ++ [name], '\x00' ∉ piece.toList) ∧
      ∃ used ≤ linkLimit, Follows disk used (disk.origin (Path.parse path)) front dir := by
  obtain ⟨hnul, -, used, hused, hfollows⟩ := locate_eq_ok_iff.mp hpath
  obtain ⟨front, hpieces, hjoin⟩ := Path.parse_join (ne_empty_of_locate hpath) hname.no_slash
  refine ⟨front, hjoin, ?_, used, hused, ?_⟩
  · intro piece hmem hc
    rcases List.mem_append.mp hmem with hmem | hmem
    · refine hnul (List.any_eq_true.mpr ⟨piece, ?_, by simpa using hc⟩)
      rcases hpieces with heq | heq
      · exact heq ▸ hmem
      · exact heq ▸ List.mem_append_left _ hmem
    · obtain rfl := List.mem_singleton.mp hmem
      exact hname.no_nul hc
  · rcases hpieces with heq | heq
    · exact heq ▸ hfollows
    · exact Follows.dropEmpty (heq ▸ hfollows)

/-- **A name below a directory.** Where a path leads to a directory, the path with a name joined to
it leads to the entry of that name, unless the entry is a link. -/
theorem locate_join {path name : String} {dir : Place}
    (hpath : disk.locate (Path.parse path) = .ok dir) (hdir : disk.isDirectoryAt dir)
    (hname : Path.IsName name)
    (hnode : ∀ target, disk.node? (dir ++ [name]) ≠ some (.link target)) :
    disk.locate (Path.parse (Path.join path name)) = .ok (dir ++ [name]) := by
  obtain ⟨front, hjoin, hnul, used, hused, hfront⟩ := exists_follows_join hpath hname
  rw [hjoin]
  refine locate_eq_ok_iff.mpr ⟨?_, by simp, used, hused, ?_⟩
  · intro h
    obtain ⟨piece, hmem, hc⟩ := List.any_eq_true.mp h
    exact hnul piece hmem (by simpa using hc)
  · exact hfront.append hdir (.last hdir hname.toIsEntry hnode)

/-- A name that is joined to a path to the working directory may as well stand alone. -/
theorem locate_of_join {path name : String} (hpath : disk.locate (Path.parse path) = .ok disk.working)
    (hname : Path.IsName name) (hjoin : disk.locate (Path.parse (Path.join path name)) = .ok place) :
    disk.locate (Path.parse name) = .ok place := by
  obtain ⟨front, hparse, -, used, hused, hfront⟩ := exists_follows_join hpath hname
  obtain ⟨-, -, links, hlinks, hfollows⟩ := locate_eq_ok_iff.mp (hparse ▸ hjoin)
  obtain ⟨before, more, dir, rfl, hbefore, hback⟩ := hfollows.split
  obtain rfl : dir = disk.working := by
    have hleads := hbefore.followLinks (Nat.le_trans (Nat.le_add_right ..) hlinks)
    exact Except.ok.inj (hleads.symm.trans (hfront.followLinks hused))
  have hmore : more ≤ linkLimit := Nat.le_trans (Nat.le_add_left ..) hlinks
  rw [hname.parse_eq]
  refine locate_eq_ok_iff.mpr ⟨?_, by simp, more, hmore, hback⟩
  simpa [Path.hasNul] using hname.no_nul

/-! ### Ways through another disk -/

/-- The ways through a disk are ways through another one: directories and links are kept, and no link
is new. -/
structure KeepsWays (disk other : Disk) : Prop where
  working : other.working = disk.working
  directory : ∀ {place : Place}, disk.isDirectoryAt place → other.isDirectoryAt place
  link : ∀ {place : Place} {target : String},
    disk.node? place = some (.link target) ↔ other.node? place = some (.link target)

namespace KeepsWays

variable {other : Disk}

/-- Only directories and links matter on a way. -/
theorem follows (h : KeepsWays disk other) {links : Nat} {pieces : List String}
    (hfollows : Follows disk links here pieces place) : Follows other links here pieces place := by
  induction hfollows with
  | done => exact .done
  | stay hdir hpiece _ ih => exact .stay (h.directory hdir) hpiece ih
  | up hdir _ ih => exact .up (h.directory hdir) ih
  | link hdir hentry hnode _ ih => exact .link (h.directory hdir) hentry (h.link.mp hnode) ih
  | enter hdir hentry hnode _ ih => exact .enter (h.directory hdir) hentry (h.directory hnode) ih
  | last hdir hentry hnode =>
      exact .last (h.directory hdir) hentry fun target hlink => hnode target (h.link.mpr hlink)

theorem origin (h : KeepsWays disk other) (path : Path) : other.origin path = disk.origin path := by
  rw [Disk.origin, Disk.origin, h.working]

theorem locate (h : KeepsWays disk other) {path : Path} (hlocate : disk.locate path = .ok place) :
    other.locate path = .ok place := by
  obtain ⟨hnul, hempty, used, hused, hfollows⟩ := locate_eq_ok_iff.mp hlocate
  rw [← h.origin] at hfollows
  exact locate_eq_ok_iff.mpr ⟨hnul, hempty, used, hused, h.follows hfollows⟩

end KeepsWays

/-! ### Last pieces -/

theorem lastPiece_of_followLinks {path : Path} {holder : Place} {last : String}
    {front : List String} (hnul : ¬ path.hasNul) (hpieces : path.pieces.reverse = last :: front)
    (hfollow : disk.followLinks linkLimit (disk.origin path) front.reverse = .ok holder)
    (hdir : disk.isDirectoryAt holder) :
    disk.lastPiece path =
      .ok (holder, if last = "" ∨ last = "." ∨ last = ".." then none else some last) := by
  rw [isDirectoryAt_iff] at hdir
  unfold lastPiece
  rw [if_neg hnul, hpieces]
  dsimp only
  rw [hfollow]
  simp only [bind, Except.bind, hdir]
  rfl

/-- A last piece is only looked at in a directory, to which the other pieces lead. -/
theorem followLinks_of_lastPiece {path : Path} {holder : Place} {last? : Option String}
    {last : String} {front : List String} (hnul : ¬ path.hasNul)
    (hpieces : path.pieces.reverse = last :: front)
    (h : disk.lastPiece path = .ok (holder, last?)) :
    disk.followLinks linkLimit (disk.origin path) front.reverse = .ok holder ∧
      disk.isDirectoryAt holder := by
  unfold lastPiece at h
  rw [if_neg hnul, hpieces] at h
  dsimp only at h
  cases hfollow : disk.followLinks linkLimit (disk.origin path) front.reverse with
  | error e =>
      rw [hfollow] at h
      cases h
  | ok found =>
      rw [hfollow] at h
      simp only [bind, Except.bind] at h
      split at h
      case h_1 => cases h
      case h_2 hnode =>
          obtain ⟨rfl, -⟩ := Prod.mk.inj (Except.ok.inj h)
          exact ⟨rfl, isDirectoryAt_iff.mpr hnode⟩
      case h_3 => cases h

/-- The last piece of a path names an entry of the directory to which the other pieces lead. -/
theorem lastPiece_eq_ok_some_iff {path : Path} {holder : Place} {last : String} :
    disk.lastPiece path = .ok (holder, some last) ↔
      ¬ path.hasNul ∧ ∃ front, path.pieces.reverse = last :: front ∧
        disk.followLinks linkLimit (disk.origin path) front.reverse = .ok holder ∧
        disk.isDirectoryAt holder ∧ Path.IsEntry last := by
  constructor
  · intro h
    by_cases hnul : path.hasNul
    · rw [lastPiece, if_pos hnul] at h
      cases h
    · cases hpieces : path.pieces.reverse with
      | nil =>
          rw [lastPiece, if_neg hnul, hpieces] at h
          dsimp only at h
          split at h <;> cases h
      | cons piece front =>
          obtain ⟨hfollow, hdir⟩ := followLinks_of_lastPiece hnul hpieces h
          rw [lastPiece_of_followLinks hnul hpieces hfollow hdir] at h
          obtain ⟨-, hpiece⟩ := Prod.mk.inj (Except.ok.inj h)
          split at hpiece
          case isTrue => cases hpiece
          case isFalse hentry =>
              obtain rfl := Option.some.inj hpiece
              rw [not_or, not_or] at hentry
              exact ⟨hnul, front, rfl, hfollow, hdir, hentry.1, hentry.2.1, hentry.2.2⟩
  · intro h
    obtain ⟨hnul, front, hpieces, hfollow, hdir, hentry⟩ := h
    rw [lastPiece_of_followLinks hnul hpieces hfollow hdir, if_neg]
    intro hpiece
    rcases hpiece with hempty | hdot | hdots
    · exact hentry.ne_empty hempty
    · exact hentry.ne_dot hdot
    · exact hentry.ne_dots hdots

/-- A path is a link when its last piece names one. -/
theorem isLink_iff {path : Path} :
    disk.isLink path ↔
      ∃ holder last target, disk.lastPiece path = .ok (holder, some last) ∧
        disk.node? (holder ++ [last]) = some (.link target) := by
  unfold isLink
  split
  case h_1 holder last hlast =>
      split
      case h_1 target hnode =>
          simp only [true_iff]
          exact ⟨holder, last, target, hlast, hnode⟩
      case h_2 hnode =>
          simp only [Bool.false_eq_true, false_iff]
          intro h
          obtain ⟨found, piece, target, hfound, htarget⟩ := h
          obtain ⟨rfl, hpiece⟩ := Prod.mk.inj (Except.ok.inj (hlast.symm.trans hfound))
          obtain rfl := Option.some.inj hpiece
          exact hnode target htarget
  case h_2 hlast =>
      simp only [Bool.false_eq_true, false_iff]
      intro h
      obtain ⟨holder, last, target, hfound, -⟩ := h
      exact hlast holder last hfound

end Disk

end ActionCalls
