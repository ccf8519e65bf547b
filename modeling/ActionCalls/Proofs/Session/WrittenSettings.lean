import ActionCalls.Proofs.Files.Making
import ActionCalls.Proofs.Files.Steps
import ActionCalls.Proofs.Settings.Reload
import ActionCalls.Session

/-!
# Which settings the next run uses

Settings are written under the second of the names under which they are looked for. So a run in the
working directory **uses what was written there unless the first name leads elsewhere**
(`Disk.IsShadowed`), and then it uses what that name led to before
(`Session.loadOrDefault_writeSettings`). Nothing else is in the way: the directory is there already, so
writing changes the disk at one place, and no path leads anywhere else for it.
-/

namespace ActionCalls

/-- Does the first name under which settings are looked for lead to something, and not to where the name
leads under which they are written? -/
def Disk.IsShadowed (disk : Disk) : Prop :=
  ∃ place node, disk.open? (Path.parse "Actiongraph.toml") = .ok (place, node) ∧
    disk.locate (Path.parse Session.settingsName) ≠ .ok place

/-! ### Looking for settings -/

namespace Settings

variable {disk other : Disk} {place : Place} {node : Node}

theorem pathExists_of_open? {path : Path} (h : disk.open? path = .ok (place, node)) :
    disk.pathExists path = true := by
  rw [Disk.pathExists, h]
  rfl

/-- What is loaded depends on nothing but what the path leads to. -/
theorem load_congr {path : String}
    (h : disk.open? (Path.parse path) = other.open? (Path.parse path)) :
    load disk path = load other path := by
  rw [load, load, Disk.readText, Disk.readText, Disk.read, Disk.read, h]

theorem loadOrDefault_first (h : disk.open? (Path.parse "Actiongraph.toml") = .ok (place, node)) :
    loadOrDefault disk none = load disk "Actiongraph.toml" := by
  have hfind : (candidates.find? fun name => disk.pathExists (Path.parse name)) =
      some "Actiongraph.toml" :=
    List.find?_cons_of_pos (pathExists_of_open? h)
  rw [loadOrDefault, hfind]

theorem loadOrDefault_second
    (hfirst : ∀ place node, disk.open? (Path.parse "Actiongraph.toml") ≠ .ok (place, node))
    (h : disk.open? (Path.parse Session.settingsName) = .ok (place, node)) :
    loadOrDefault disk none = load disk Session.settingsName := by
  have hnone : ¬ disk.pathExists (Path.parse "Actiongraph.toml") = true := by
    intro hexists
    rw [Disk.pathExists] at hexists
    cases hopen : disk.open? (Path.parse "Actiongraph.toml") with
    | error e =>
        rw [hopen] at hexists
        cases hexists
    | ok found => exact hfirst found.1 found.2 hopen
  have hfind : (candidates.find? fun name => disk.pathExists (Path.parse name)) =
      some Session.settingsName := by
    refine (List.find?_cons_of_neg ?_).trans (List.find?_cons_of_pos ?_)
    · exact hnone
    · exact pathExists_of_open? h
  rw [loadOrDefault, hfind]

/-! ### Looking for settings that were put somewhere -/

section Put

variable {content : Bytes} (hdirectory : disk.node? place ≠ some .directory)
  (hlink : ∀ target, disk.node? place ≠ some (.link target))
  (hlocate : disk.locate (Path.parse Session.settingsName) = .ok place)

include hdirectory hlink hlocate

/-- With nothing else under the first name, what was put under the other one is found. -/
theorem exists_loadOrDefault_put_file (h : ¬ disk.IsShadowed) :
    ∃ path, disk.locate (Path.parse path) = .ok place ∧
      loadOrDefault (disk.put place (.file content)) none =
        load (disk.put place (.file content)) path := by
  by_cases hfirst : ∃ found node,
      (disk.put place (.file content)).open? (Path.parse "Actiongraph.toml") = .ok (found, node)
  · obtain ⟨found, node, hopen⟩ := hfirst
    have hfound : place = found := by
      by_contra hne
      refine h ⟨found, node, (Disk.open?_put_file hdirectory hlink hne).mp hopen, fun heq => ?_⟩
      exact hne (Except.ok.inj (hlocate.symm.trans heq))
    have hleads := (Disk.locate_put_file hdirectory hlink).mp (Disk.locate_of_open? hopen)
    exact ⟨_, hfound ▸ hleads, loadOrDefault_first hopen⟩
  · simp only [not_exists] at hfirst
    exact ⟨_, hlocate, loadOrDefault_second hfirst (Disk.open?_put_of_locate hdirectory hlocate)⟩

/-- What the first name leads to elsewhere is found as before. -/
theorem loadOrDefault_put_file (h : disk.IsShadowed) :
    loadOrDefault (disk.put place (.file content)) none = load disk "Actiongraph.toml" := by
  obtain ⟨found, node, hopen, hne⟩ := h
  have hplace : place ≠ found := fun heq => hne (heq ▸ hlocate)
  have hkept : (disk.put place (.file content)).open? (Path.parse "Actiongraph.toml") =
      .ok (found, node) := (Disk.open?_put_file hdirectory hlink hplace).mpr hopen
  rw [loadOrDefault_first hkept]
  exact load_congr (hkept.trans hopen.symm)

end Put

end Settings

/-! ### Writing settings -/

namespace Session

variable {session after : Session} {directory : Option String} {force : Bool}

/-- In a directory that is there, writing settings is saving them. -/
theorem writeSettings_inv {place : Place}
    (hthere : session.disk.open? (Path.parse (directory.getD ".")) = .ok (place, .directory))
    (h : session.writeSettings directory force = (after, .ok ())) :
    Settings.save session.disk session.engine.settings
      (Path.join (directory.getD ".") settingsName) = .ok after.disk := by
  unfold writeSettings at h
  dsimp only at h
  rw [Disk.makeDirectories_of_open? hthere] at h
  split at h
  case isTrue => cases (Prod.mk.inj h).2
  case isFalse =>
      dsimp only at h
      split at h
      case h_1 => cases (Prod.mk.inj h).2
      case h_2 disk hsave =>
          obtain ⟨rfl, -⟩ := Prod.mk.inj h
          exact hsave

/-- The settings are put where their name leads, in the place of no directory. -/
theorem exists_place_of_writeSettings
    (hcurrent : session.disk.open? (Path.parse (directory.getD ".")) =
      .ok (session.disk.working, .directory))
    (h : session.writeSettings directory force = (after, .ok ())) :
    session.engine.settings.analysis.annotationLookback < 2 ^ 63 ∧
      ∃ place, session.disk.locate (Path.parse settingsName) = .ok place ∧
        session.disk.node? place ≠ some .directory ∧
        after.disk = session.disk.put place
          (.file (Utf8.encode (Toml.renderTables session.engine.settings.tables))) := by
  obtain ⟨hlookback, place, hlocate, hplace, hput⟩ :=
    Settings.save_inv (writeSettings_inv hcurrent h)
  have hname : Path.IsName settingsName := by decide
  exact ⟨hlookback, place, Disk.locate_of_join (Disk.locate_of_open? hcurrent) hname hlocate, hplace,
    hput⟩

/-- **The next run uses the settings that were written, or those of the file in front.** After settings
that can be used are written to the working directory, by force or not, a run there finds exactly
these, if the first name leads to nothing or to the same file. Otherwise it finds what that name led to
before. -/
theorem loadOrDefault_writeSettings (h : session.disk.IsFileSystem)
    (husable : session.engine.settings.IsUsable)
    (hcurrent : session.disk.open? (Path.parse (directory.getD ".")) =
      .ok (session.disk.working, .directory))
    (hwrite : session.writeSettings directory force = (after, .ok ())) :
    (¬ session.disk.IsShadowed →
      Settings.loadOrDefault after.disk none = .ok session.engine.settings) ∧
    (session.disk.IsShadowed →
      Settings.loadOrDefault after.disk none = Settings.load session.disk "Actiongraph.toml") := by
  obtain ⟨hlookback, place, hlocate, hdirectory, hput⟩ := exists_place_of_writeSettings hcurrent hwrite
  have hlink : ∀ target, session.disk.node? place ≠ some (.link target) :=
    fun target => h.not_link_of_locate hlocate
  rw [hput]
  constructor
  · intro hshadow
    obtain ⟨path, hpath, hfound⟩ :=
      Settings.exists_loadOrDefault_put_file hdirectory hlink hlocate hshadow
    rw [hfound]
    exact (Settings.givesBack_load hlookback (Disk.open?_put_of_locate hdirectory hpath)).1 husable
  · exact Settings.loadOrDefault_put_file hdirectory hlink hlocate

/-! ### A file in front -/

/-- Does the next run use the settings whenever they are written? -/
def WritesWhatIsUsed (session : Session) (directory : Option String) (force : Bool) : Prop :=
  ∀ after, session.writeSettings directory force = (after, .ok ()) →
    Settings.loadOrDefault after.disk none = .ok session.engine.settings

/-- An engine with the defaults, on a disk with something under the first name only. -/
def frontSession (front : Node) : Session where
  engine := ⟨{}, ∅⟩
  disk := (Disk.mk ∅ []).put ([] ++ ["Actiongraph.toml"]) front

/-- A settings file that differs from the defaults. -/
def frontFile : Node :=
  .file (Utf8.encode "[output]\npretty = false\n".toList)

theorem isFileSystem_frontSession (front : Node) : (frontSession front).disk.IsFileSystem :=
  (Disk.isFileSystem_empty []).put [] (by decide : Path.IsName "Actiongraph.toml") rfl rfl front

theorem isUsable_default : ({} : Settings).IsUsable :=
  ⟨by decide, by decide, by decide⟩

/-- The first name may be a link to the other one, which leads nowhere as yet. With a file under it, the
next run uses that. -/
theorem loadOrDefault_writeSettings_frontSession :
    (∃ after, (frontSession (.link "actiongraph.toml")).writeSettings none false = (after, .ok ()) ∧
      ¬ (frontSession (.link "actiongraph.toml")).disk.IsShadowed ∧
        Settings.loadOrDefault after.disk none = .ok {}) ∧
    ∃ after, (frontSession frontFile).writeSettings none false = (after, .ok ()) ∧
      (frontSession frontFile).disk.IsShadowed ∧ Settings.loadOrDefault after.disk none =
        Settings.load (frontSession frontFile).disk "Actiongraph.toml" := by
  constructor
  · have hok : ((frontSession (.link "actiongraph.toml")).writeSettings none false).2 = .ok () := rfl
    have hwrite := Prod.ext rfl hok
    have hshadow : ¬ (frontSession (.link "actiongraph.toml")).disk.IsShadowed := by
      rintro ⟨place, node, hopen, -⟩
      have hnowhere : (frontSession (.link "actiongraph.toml")).disk.open?
          (Path.parse "Actiongraph.toml") = .error .notFound := rfl
      cases hnowhere.symm.trans hopen
    obtain ⟨hwritten, -⟩ :=
      loadOrDefault_writeSettings (isFileSystem_frontSession _) isUsable_default rfl hwrite
    exact ⟨_, hwrite, hshadow, hwritten hshadow⟩
  · have hok : ((frontSession frontFile).writeSettings none false).2 = .ok () := rfl
    have hwrite := Prod.ext rfl hok
    have hshadow : (frontSession frontFile).disk.IsShadowed :=
      ⟨["Actiongraph.toml"], frontFile, by decide +kernel, by decide +kernel⟩
    obtain ⟨-, hkept⟩ :=
      loadOrDefault_writeSettings (isFileSystem_frontSession _) isUsable_default rfl hwrite
    exact ⟨_, hwrite, hshadow, hkept hshadow⟩

/-- With a file under the first name, written settings are not used. -/
theorem not_writesWhatIsUsed_frontSession :
    (frontSession frontFile).disk.IsFileSystem ∧ (frontSession frontFile).engine.settings.IsUsable ∧
      (frontSession frontFile).engine.settings.analysis.annotationLookback ≤ 2 ^ 63 - 1 ∧
        ¬ WritesWhatIsUsed (frontSession frontFile) none false := by
  refine ⟨isFileSystem_frontSession _, isUsable_default, by decide, fun h => ?_⟩
  have hok : ((frontSession frontFile).writeSettings none false).2 = .ok () := rfl
  have hfound : Settings.loadOrDefault ((frontSession frontFile).writeSettings none false).1.disk none =
      .ok { output := { pretty := false } } := by decide +kernel
  cases hfound.symm.trans (h _ (Prod.ext rfl hok))

end Session

end ActionCalls
