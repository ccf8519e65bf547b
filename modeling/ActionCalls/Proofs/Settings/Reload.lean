import ActionCalls.Proofs.Files.Writing
import ActionCalls.Proofs.Json.Records
import ActionCalls.Proofs.Toml.Document
import ActionCalls.Settings.File

/-!
# Saved settings load as themselves

Settings whose lookback a settings file can hold are written as a text that is always read, and that
is read as **these settings** where they can be used, and refused as settings otherwise
(`Settings.load_save`). The text is a document of three tables that is read back as they are; the
value of these tables is that of the settings (`toJson_tables`), which decodes to them; and a disk
gives the text back where it was saved.
-/

namespace ActionCalls

open Json

/-! ### Settings as a value -/

variable (form : ArrayForm)

theorem AnalysisSettings.decode_toJson (s : AnalysisSettings) :
    AnalysisSettings.decode form
      (.object
        [("source_extension", .string s.sourceExtension), ("action_suffix", .string s.actionSuffix),
         ("annotation_lookback", .ofNat s.annotationLookback), ("follow_links", .bool s.followLinks),
         ("builtin_methods", .ofStrings s.builtinMethods),
         ("accessor_prefixes", .ofStrings s.accessorPrefixes)]) = .ok s := by
  refine RecordDecoder.decode_object (by simp) ?_ "struct AnalysisConfig" form
  exact RecordDecoder.Yields.pure AnalysisSettings.mk
    |>.field rfl rfl
    |>.field rfl rfl
    |>.field rfl rfl
    |>.field rfl rfl
    |>.field rfl (Decoder.list_ofStrings s.builtinMethods)
    |>.field rfl (Decoder.list_ofStrings s.accessorPrefixes)

theorem OutputSettings.decode_toJson (s : OutputSettings) :
    OutputSettings.decode form (.object [("path", .string s.path), ("pretty", .bool s.pretty)]) =
      .ok s := by
  refine RecordDecoder.decode_object (by simp) ?_ "struct OutputConfig" form
  exact RecordDecoder.Yields.pure OutputSettings.mk
    |>.field rfl rfl
    |>.field rfl rfl

/-- A blacklist file that is not set is left out, and its absence is the default. -/
theorem BlacklistSettings.decode_toJson (s : BlacklistSettings) :
    BlacklistSettings.decode form
      (.object ((s.file.map fun file => [("file", .string file)]).getD [])) = .ok s := by
  obtain ⟨file⟩ := s
  cases file with
  | none =>
      refine RecordDecoder.decode_object (by simp) ?_ _ _
      exact RecordDecoder.Yields.pure BlacklistSettings.mk |>.absent rfl
  | some file =>
      refine RecordDecoder.decode_object (by simp) ?_ _ _
      exact RecordDecoder.Yields.pure BlacklistSettings.mk |>.field rfl rfl

namespace Settings

/-- The value of settings decodes to them, however arrays may look. -/
theorem decode_toJson (s : Settings) : Settings.decode form s.toJson = .ok s := by
  refine RecordDecoder.decode_object (by simp) ?_ _ _
  exact RecordDecoder.Yields.pure Settings.mk
    |>.field rfl (AnalysisSettings.decode_toJson form s.analysis)
    |>.field rfl (OutputSettings.decode_toJson form s.output)
    |>.field rfl (BlacklistSettings.decode_toJson form s.blacklist)

/-! ### The tables of a settings file -/

theorem itemsToJson_map_string (items : List String) :
    Toml.itemsToJson (items.map .string) = items.map .string := by
  induction items with
  | nil => rfl
  | cons item items ih =>
      rw [List.map_cons, Toml.itemsToJson, ih]
      rfl

/-- What the tables of a settings file are read as is the value of the settings. -/
theorem toJson_tables (s : Settings) :
    .object (Toml.entriesToJson
      (s.tables.map fun table => (table.1, .table .headed (Toml.tomlEntries table.2)))) =
        s.toJson := by
  obtain ⟨analysis, output, ⟨file⟩⟩ := s
  cases file <;>
    simp [tables, Settings.toJson, Toml.tomlEntries, Toml.entriesToJson, Toml.toJson,
      Toml.Setting.toToml, itemsToJson_map_string, ofStrings, ofNat]

/-- The tables of a settings file can be read back when the lookback is an integer of 64 bits with a
sign. -/
theorem tables_writable {s : Settings} (h : s.analysis.annotationLookback < 2 ^ 63) :
    Toml.Writable s.tables := by
  have hbare : ∀ key ∈ ["analysis", "output", "blacklist", "source_extension", "action_suffix",
      "annotation_lookback", "follow_links", "builtin_methods", "accessor_prefixes", "path", "pretty",
      "file"], Toml.IsBareKey key := by decide
  obtain ⟨analysis, output, ⟨file⟩⟩ := s
  refine ⟨?_, ?_, ?_, ?_⟩
  · simp [tables, hbare]
  · have hlookback : analysis.annotationLookback < 2 ^ 63 := h
    cases file <;>
      simp only [tables, Option.map_some, Option.map_none, Option.getD_some, Option.getD_none,
        List.forall_mem_cons, Toml.Setting.InRange] <;>
      simpa [hbare] using hlookback
  · simp [tables]
  · cases file <;> simp [tables]

theorem renderTables_ne_nil (s : Settings) : Toml.renderTables s.tables ≠ [] := by
  rw [tables, Toml.renderTables]
  · exact List.append_ne_nil_of_right_ne_nil _ (List.cons_ne_nil _ _)
  · exact List.cons_ne_nil _ _

/-! ### Loading -/

/-- Settings that can be used: the extension is not empty and does not start with a dot, and the
suffix is not empty. -/
def IsUsable (s : Settings) : Prop :=
  s.analysis.sourceExtension ≠ "" ∧ s.analysis.sourceExtension.toList.head? ≠ some '.' ∧
    s.analysis.actionSuffix ≠ ""

/-- The outcome of loading is these settings where they can be used, and an error in the settings
otherwise. -/
def GivesBack (s : Settings) (outcome : Except Failure Settings) : Prop :=
  (s.IsUsable → outcome = .ok s) ∧ (¬ s.IsUsable → ∃ e, outcome = .error (.settings e))

theorem givesBack_validate (s : Settings) : s.GivesBack (s.validate.mapError .settings) := by
  constructor
  · rintro ⟨hempty, hdot, hsuffix⟩
    simp [validate, hempty, hdot, hsuffix]
  · intro h
    simp only [validate]
    split
    next => exact ⟨_, rfl⟩
    next hextension =>
        rw [not_or] at hextension
        split
        next => exact ⟨_, rfl⟩
        next hsuffix => exact absurd ⟨hextension.1, hextension.2, hsuffix⟩ h

variable {s : Settings}

/-- Settings that are loaded can be used. -/
theorem isUsable_of_load {disk : Disk} {path : String} (h : load disk path = .ok s) : s.IsUsable := by
  rw [load] at h
  split at h
  case h_1 => cases h
  case h_2 text _ =>
      rw [parse] at h
      split at h
      case h_1 => cases h
      case h_2 =>
          split at h
          case h_1 => cases h
          case h_2 decoded _ =>
              obtain ⟨hgives, hrefuses⟩ := givesBack_validate decoded
              by_cases husable : decoded.IsUsable
              · rw [hgives husable] at h
                exact Except.ok.inj h ▸ husable
              · obtain ⟨e, he⟩ := hrefuses husable
                rw [he] at h
                cases h

theorem parse?_renderTables (h : s.analysis.annotationLookback < 2 ^ 63) :
    Toml.parse? (Toml.renderTables s.tables) =
      some (s.tables.map fun table => (table.1, .table .headed (Toml.tomlEntries table.2))) :=
  Toml.parse?_renderTables (tables_writable h)

theorem givesBack_parse (h : s.analysis.annotationLookback < 2 ^ 63) :
    s.GivesBack (parse (Toml.renderTables s.tables)) := by
  have hparse : parse (Toml.renderTables s.tables) = s.validate.mapError .settings := by
    simp only [parse, parse?_renderTables h, toJson_tables, decode_toJson]
  rw [hparse]
  exact givesBack_validate s

/-- Saving puts the text of the settings where the path leads, in the place of no directory. -/
theorem save_inv {disk other : Disk} {path : String} (h : save disk s path = .ok other) :
    s.analysis.annotationLookback < 2 ^ 63 ∧
      ∃ place, disk.locate (Path.parse path) = .ok place ∧ disk.node? place ≠ some .directory ∧
        other = disk.put place (.file (Utf8.encode (Toml.renderTables s.tables))) := by
  by_cases hlookback : s.analysis.annotationLookback < 2 ^ 63
  · have hrender : s.render = .ok (Toml.renderTables s.tables) := if_pos hlookback
    rw [save, hrender] at h
    dsimp only at h
    cases hwrite : disk.write (Path.parse path) (Utf8.encode (Toml.renderTables s.tables)) with
    | error e =>
        rw [hwrite] at h
        cases h
    | ok written =>
        rw [hwrite] at h
        obtain rfl : written = other := Except.ok.inj h
        exact ⟨hlookback, Disk.write_inv (Utf8.encode_ne_nil (renderTables_ne_nil s)) hwrite⟩
  · have hrender : s.render = .error .lookbackTooLarge := if_neg hlookback
    rw [save, hrender] at h
    cases h

/-- Every path to a file with the text of the settings gives them back. -/
theorem givesBack_load {disk : Disk} {path : String} {place : Place}
    (hlookback : s.analysis.annotationLookback < 2 ^ 63)
    (hopen : disk.open? (Path.parse path) =
      .ok (place, .file (Utf8.encode (Toml.renderTables s.tables)))) :
    s.GivesBack (load disk path) := by
  have hread : disk.readText (Path.parse path) = .ok (Toml.renderTables s.tables) := by
    simp only [Disk.readText, Disk.read, hopen, bind, Except.bind, pure, Except.pure,
      Utf8.decode?_encode]
  rw [load, hread]
  exact givesBack_parse hlookback

/-- **Saving and loading.** With a lookback that is an integer of 64 bits with a sign, settings have a
text that is written when they are saved. It is a document, which gives the settings back, and so does
the file that it is saved to. -/
theorem load_save (h : s.analysis.annotationLookback ≤ 2 ^ 63 - 1) :
    ∃ text,
      (∀ disk path, save disk s path =
        (disk.write (Path.parse path) (Utf8.encode text)).mapError .file) ∧
      (Toml.parse? text).isSome ∧ s.GivesBack (parse text) ∧
      ∀ {disk other path}, save disk s path = .ok other → s.GivesBack (load other path) := by
  have hlookback : s.analysis.annotationLookback < 2 ^ 63 := by omega
  have hrender : s.render = .ok (Toml.renderTables s.tables) := if_pos hlookback
  have hsave : ∀ disk path, save disk s path =
      (disk.write (Path.parse path) (Utf8.encode (Toml.renderTables s.tables))).mapError .file := by
    intro disk path
    rw [save, hrender]
  refine ⟨Toml.renderTables s.tables, hsave, ?_, givesBack_parse hlookback, ?_⟩
  · rw [parse?_renderTables hlookback]
    rfl
  · intro disk other path hother
    rw [hsave] at hother
    cases hwrite : disk.write (Path.parse path) (Utf8.encode (Toml.renderTables s.tables)) with
    | error e =>
        rw [hwrite] at hother
        cases hother
    | ok written =>
        rw [hwrite] at hother
        obtain rfl : written = other := Except.ok.inj hother
        rw [load, Disk.readText_of_write (renderTables_ne_nil s) hwrite]
        exact givesBack_parse hlookback

/-- Settings whose strings need every form: quotes of both kinds in a row, at the start and before the
closing ones, a leading line end, a carriage return, a backslash, and control characters. -/
def oddSettings (extension : String) : Settings where
  analysis :=
    { sourceExtension := extension
      actionSuffix := "\n'''\"\"\""
      annotationLookback := 2 ^ 63 - 1
      followLinks := true
      builtinMethods := ["", "\r\n", "it's \"so\"", "\\'''", "\"\"\"\"\"", "\x00\t\x7f", "é😀"]
      accessorPrefixes := ["'\n\\''"] }
  output := { path := "a\\b", pretty := false }
  blacklist := { file := some "\n" }

/-- Odd settings are saved on an empty disk and load as themselves, but for an extension that starts
with a dot. -/
theorem load_save_oddSettings :
    (oddSettings "ja va").analysis.annotationLookback ≤ 2 ^ 63 - 1 ∧
      (∃ disk, save ⟨∅, []⟩ (oddSettings "ja va") "a.toml" = .ok disk ∧
        load disk "a.toml" = .ok (oddSettings "ja va")) ∧
      ∃ disk e, save ⟨∅, []⟩ (oddSettings ".java") "a.toml" = .ok disk ∧
        load disk "a.toml" = .error (.settings e) := by
  have hwritten : ∀ content, ∃ disk,
      (⟨∅, []⟩ : Disk).write (Path.parse "a.toml") content = .ok disk :=
    fun _ => ⟨_, rfl⟩
  refine ⟨Nat.le_refl _, ?_, ?_⟩
  · obtain ⟨text, hsave, -, -, hload⟩ := load_save (s := oddSettings "ja va") (Nat.le_refl _)
    obtain ⟨disk, hdisk⟩ := hwritten (Utf8.encode text)
    have hsaved : save ⟨∅, []⟩ (oddSettings "ja va") "a.toml" = .ok disk := by
      rw [hsave, hdisk]
      rfl
    exact ⟨disk, hsaved, (hload hsaved).1 ⟨by decide, by decide, by decide⟩⟩
  · obtain ⟨text, hsave, -, -, hload⟩ := load_save (s := oddSettings ".java") (Nat.le_refl _)
    obtain ⟨disk, hdisk⟩ := hwritten (Utf8.encode text)
    have hsaved : save ⟨∅, []⟩ (oddSettings ".java") "a.toml" = .ok disk := by
      rw [hsave, hdisk]
      rfl
    obtain ⟨e, he⟩ := (hload hsaved).2 fun h => absurd h.2.1 (by decide)
    exact ⟨disk, e, hsaved, he⟩

end Settings

end ActionCalls
