import ActionCalls.Proofs.Analysis.OwnPackage
import ActionCalls.Proofs.Files.Making
import ActionCalls.Session

/-!
# What a request changes

A request goes through its steps in a fixed order: it loads its blacklist, analyzes, and only then
prints or writes. So there are five ways in which it ends (`Session.Ends`), and before the last step
nothing happens to the disk. All that a request changes is read off the way in which it ends.

A document that is written goes where its path leads **once the directories above it are there**. The
disk that receives it has gained these directories and then one file, which is read back under the
path, whatever links lead to it.
-/

namespace ActionCalls

/-! ### Writing documents -/

/-- Another disk has what the disk has, the directories above a path, and a text where the path
leads. -/
structure Disk.Receives (disk : Disk) (path : Path) (text : Text) (other : Disk) : Prop where
  reads : other.readText path = .ok text
  changes : ∃ prepared place, disk.Gains (Path.IsAbove · path) prepared ∧
    prepared.locate path = .ok place ∧ prepared.node? place ≠ some .directory ∧
    other = prepared.put place (.file (Utf8.encode text))

namespace Disk

variable {disk other : Disk} {path : String} {text : Text}

/-- Makes the directories above a file that are missing. -/
def prepareOutput (disk : Disk) (path : String) : Disk × Except FileError Unit :=
  match ((Path.parse path).parent?).filter fun parent => !parent.isEmpty with
  | some parent => disk.makeDirectories parent
  | none => (disk, .ok ())

theorem writeOutput_eq (disk : Disk) (text : Text) (path : String) :
    disk.writeOutput text path =
      match disk.prepareOutput path with
      | (prepared, .error e) => (prepared, .error (.file e))
      | (prepared, .ok ()) =>
          match prepared.write (Path.parse path) (Utf8.encode text) with
          | .error e => (prepared, .error (.file e))
          | .ok other => (other, .ok ()) := by
  unfold writeOutput prepareOutput
  cases ((Path.parse path).parent?).filter fun parent => !parent.isEmpty with
  | none => rfl
  | some parent =>
      dsimp only
      obtain ⟨prepared, made⟩ := disk.makeDirectories parent
      cases made <;> rfl

theorem gains_prepareOutput (disk : Disk) (path : String) :
    disk.Gains (Path.IsAbove · (Path.parse path)) (disk.prepareOutput path).1 := by
  unfold prepareOutput
  split
  case h_1 parent hparent =>
      obtain ⟨hparent, -⟩ := Option.filter_eq_some_iff.mp hparent
      refine (gains_makeDirectories disk parent).mono ?_
      rintro upper (rfl | hupper)
      · exact .parent hparent
      · exact .above hparent hupper
  case h_2 => exact .refl ..

/-- Writing a document prepares directories, and then it fails or writes. -/
theorem writeOutput_cases (disk : Disk) (text : Text) (path : String) :
    ∃ prepared, disk.Gains (Path.IsAbove · (Path.parse path)) prepared ∧
      ((∃ e, disk.writeOutput text path = (prepared, .error e)) ∨
        ∃ other, prepared.write (Path.parse path) (Utf8.encode text) = .ok other ∧
          disk.writeOutput text path = (other, .ok ())) := by
  refine ⟨(disk.prepareOutput path).1, gains_prepareOutput disk path, ?_⟩
  rw [writeOutput_eq]
  obtain ⟨prepared, made⟩ := disk.prepareOutput path
  cases made with
  | error e => exact Or.inl ⟨.file e, rfl⟩
  | ok _ =>
      cases hwrite : prepared.write (Path.parse path) (Utf8.encode text) with
      | error e => exact Or.inl ⟨.file e, by simp only [hwrite]⟩
      | ok other => exact Or.inr ⟨other, rfl, by simp only [hwrite]⟩

theorem receives_of_writeOutput (htext : text ≠ [])
    (h : disk.writeOutput text path = (other, .ok ())) :
    disk.Receives (Path.parse path) text other := by
  obtain ⟨prepared, hgains, ⟨e, hfails⟩ | ⟨written, hwrite, hwrites⟩⟩ :=
    writeOutput_cases disk text path
  · rw [hfails] at h
    cases h
  · rw [hwrites] at h
    obtain ⟨rfl, -⟩ := Prod.mk.inj h
    obtain ⟨place, hlocate, hplace, hput⟩ := write_inv (Utf8.encode_ne_nil htext) hwrite
    exact ⟨readText_of_write htext hwrite, prepared, place, hgains, hlocate, hplace, hput⟩

theorem gains_of_writeOutput_error {e : Failure}
    (h : disk.writeOutput text path = (other, .error e)) :
    disk.Gains (Path.IsAbove · (Path.parse path)) other := by
  obtain ⟨prepared, hgains, ⟨e, hfails⟩ | ⟨written, hwrite, hwrites⟩⟩ :=
    writeOutput_cases disk text path
  · rw [hfails] at h
    obtain ⟨rfl, -⟩ := Prod.mk.inj h
    exact hgains
  · rw [hwrites] at h
    cases (Prod.mk.inj h).2

end Disk

/-! ### Analyzing -/

/-- A document is never empty. -/
theorem CallGraph.emit_ne_nil (graph : CallGraph) (pretty : Bool) : graph.emit pretty ≠ [] := by
  exact List.cons_ne_nil _ _

namespace Engine

variable {engine other : Engine} {disk : Disk}

theorem ne_nil_of_analyze {root : String} {document : Text}
    (h : engine.analyze disk root = .ok document) : document ≠ [] := by
  unfold analyze at h
  cases hgraph : engine.analyzeGraph disk root with
  | error e =>
      rw [hgraph] at h
      cases h
  | ok graph =>
      rw [hgraph] at h
      obtain rfl := Except.ok.inj h
      exact graph.emit_ne_nil _

/-- Loading a blacklist leaves the settings as they are. -/
theorem settings_of_loadBlacklist? {path? : Option String}
    (h : engine.loadBlacklist? disk path? = .ok other) : other.settings = engine.settings := by
  cases path? with
  | none =>
      obtain rfl := Except.ok.inj h
      rfl
  | some path =>
      simp only [loadBlacklist?, loadBlacklist] at h
      split at h
      case h_1 => cases h
      case h_2 =>
          obtain rfl := Except.ok.inj h
          rfl

end Engine

/-! ### How a request ends -/

namespace Session

/-- The file in which the document of a request belongs. -/
def outputOf (session : Session) (request : AnalysisRequest) : String :=
  request.output.getD session.engine.settings.output.path

/-- How a request ends: the session that it leaves, and what it printed or why it failed. -/
inductive Ends (session : Session) (request : AnalysisRequest) :
    Session → Except CommandFailure Text → Prop where
  | notLoaded {e : CommandFailure}
      (hload : session.engine.loadBlacklist? session.disk request.blacklist = .error e) :
      Ends session request session (.error e)
  | notAnalyzed {engine : Engine} {e : Failure}
      (hload : session.engine.loadBlacklist? session.disk request.blacklist = .ok engine)
      (hanalyze : engine.analyze session.disk request.root = .error e) :
      Ends session request ⟨engine, session.disk⟩ (.error (.attempt (.analyze request.root) e))
  | printed {engine : Engine} {document : Text}
      (hload : session.engine.loadBlacklist? session.disk request.blacklist = .ok engine)
      (hanalyze : engine.analyze session.disk request.root = .ok document)
      (hsink : request.toStdout = true) :
      Ends session request ⟨engine, session.disk⟩ (.ok (document ++ ['\n']))
  | notWritten {engine : Engine} {document : Text} {disk : Disk} {e : Failure}
      (hload : session.engine.loadBlacklist? session.disk request.blacklist = .ok engine)
      (hanalyze : engine.analyze session.disk request.root = .ok document)
      (hsink : request.toStdout = false)
      (hdisk : session.disk.Gains (Path.IsAbove · (Path.parse (session.outputOf request))) disk) :
      Ends session request ⟨engine, disk⟩
        (.error (.attempt (.writeOutput (session.outputOf request)) e))
  | written {engine : Engine} {document : Text} {disk : Disk}
      (hload : session.engine.loadBlacklist? session.disk request.blacklist = .ok engine)
      (hanalyze : engine.analyze session.disk request.root = .ok document)
      (hsink : request.toStdout = false)
      (hdisk : session.disk.Receives (Path.parse (session.outputOf request)) document disk) :
      Ends session request ⟨engine, disk⟩ (.ok [])

variable {session : Session} {request : AnalysisRequest}

theorem ends_runAnalysis (session : Session) (request : AnalysisRequest) :
    session.Ends request (session.runAnalysis request).1 (session.runAnalysis request).2 := by
  unfold runAnalysis
  cases hload : session.engine.loadBlacklist? session.disk request.blacklist with
  | error e => exact .notLoaded hload
  | ok engine =>
      dsimp only
      cases hanalyze : engine.analyze session.disk request.root with
      | error e => exact .notAnalyzed hload hanalyze
      | ok document =>
          dsimp only
          unfold deliver
          cases hsink : request.toStdout with
          | true => exact .printed hload hanalyze hsink
          | false =>
              rw [Engine.settings_of_loadBlacklist? hload]
              unfold Session.writeOutput
              cases hwrite : session.disk.writeOutput document (session.outputOf request) with
              | mk disk result =>
                  rw [outputOf] at hwrite
                  cases result with
                  | error e =>
                      have hgains := Disk.gains_of_writeOutput_error hwrite
                      simpa only [hwrite] using .notWritten hload hanalyze hsink hgains
                  | ok _ =>
                      have hreceives :=
                        Disk.receives_of_writeOutput (Engine.ne_nil_of_analyze hanalyze) hwrite
                      simpa only [hwrite] using .written hload hanalyze hsink hreceives

/-! ### What a request changes -/

/-- What a request changes, in terms of the session before it and of what it leaves behind. -/
structure Effects (session : Session) (request : AnalysisRequest) (after : Session)
    (result : Except CommandFailure Text) : Prop where
  notLoaded : ∀ e, session.engine.loadBlacklist? session.disk request.blacklist = .error e →
    after = session ∧ result = .error e
  notAnalyzed : ∀ engine e,
    session.engine.loadBlacklist? session.disk request.blacklist = .ok engine →
    engine.analyze session.disk request.root = .error e →
      after = ⟨engine, session.disk⟩ ∧ result = .error (.attempt (.analyze request.root) e)
  printed : request.toStdout = true → after.disk = session.disk ∧
    ∀ text, result = .ok text ↔ ∃ engine document,
      session.engine.loadBlacklist? session.disk request.blacklist = .ok engine ∧
      engine.analyze session.disk request.root = .ok document ∧ text = document ++ ['\n']
  written : request.toStdout = false → ∀ text, result = .ok text → ∃ engine document,
    session.engine.loadBlacklist? session.disk request.blacklist = .ok engine ∧
    engine.analyze session.disk request.root = .ok document ∧ text = [] ∧
    session.disk.Receives (Path.parse (session.outputOf request)) document after.disk
  failed : ∀ e, result = .error e →
    session.disk.Gains (Path.IsAbove · (Path.parse (session.outputOf request))) after.disk

namespace Ends

variable {after : Session} {result : Except CommandFailure Text}

theorem of_notLoaded (h : session.Ends request after result) {e : CommandFailure}
    (hload : session.engine.loadBlacklist? session.disk request.blacklist = .error e) :
    after = session ∧ result = .error e := by
  cases h with
  | notLoaded hload' =>
      obtain rfl := Except.error.inj (hload.symm.trans hload')
      exact ⟨rfl, rfl⟩
  | notAnalyzed hload' | printed hload' | notWritten hload' | written hload' =>
      cases hload.symm.trans hload'

theorem of_notAnalyzed (h : session.Ends request after result) {engine : Engine} {e : Failure}
    (hload : session.engine.loadBlacklist? session.disk request.blacklist = .ok engine)
    (hanalyze : engine.analyze session.disk request.root = .error e) :
    after = ⟨engine, session.disk⟩ ∧ result = .error (.attempt (.analyze request.root) e) := by
  cases h with
  | notLoaded hload' => cases hload.symm.trans hload'
  | notAnalyzed hload' hanalyze' =>
      obtain rfl := Except.ok.inj (hload.symm.trans hload')
      obtain rfl := Except.error.inj (hanalyze.symm.trans hanalyze')
      exact ⟨rfl, rfl⟩
  | printed hload' hanalyze' | notWritten hload' hanalyze' | written hload' hanalyze' =>
      obtain rfl := Except.ok.inj (hload.symm.trans hload')
      cases hanalyze.symm.trans hanalyze'

theorem of_toStdout (h : session.Ends request after result) (hsink : request.toStdout = true) :
    after.disk = session.disk ∧ ∀ text, result = .ok text ↔ ∃ engine document,
      session.engine.loadBlacklist? session.disk request.blacklist = .ok engine ∧
      engine.analyze session.disk request.root = .ok document ∧ text = document ++ ['\n'] := by
  cases h with
  | notLoaded hload =>
      refine ⟨rfl, fun text => iff_of_false (by simp) ?_⟩
      rintro ⟨engine, document, hload', -⟩
      cases hload.symm.trans hload'
  | notAnalyzed hload hanalyze =>
      refine ⟨rfl, fun text => iff_of_false (by simp) ?_⟩
      rintro ⟨engine, document, hload', hanalyze', -⟩
      obtain rfl := Except.ok.inj (hload.symm.trans hload')
      cases hanalyze.symm.trans hanalyze'
  | printed hload hanalyze =>
      refine ⟨rfl, fun text => ⟨?_, ?_⟩⟩
      · intro htext
        exact ⟨_, _, hload, hanalyze, (Except.ok.inj htext).symm⟩
      · rintro ⟨engine, document, hload', hanalyze', rfl⟩
        obtain rfl := Except.ok.inj (hload.symm.trans hload')
        obtain rfl := Except.ok.inj (hanalyze.symm.trans hanalyze')
        rfl
  | notWritten _ _ hsink' | written _ _ hsink' => cases hsink.symm.trans hsink'

theorem of_ok (h : session.Ends request after result) (hsink : request.toStdout = false)
    {text : Text} (hresult : result = .ok text) : ∃ engine document,
    session.engine.loadBlacklist? session.disk request.blacklist = .ok engine ∧
      engine.analyze session.disk request.root = .ok document ∧ text = [] ∧
      session.disk.Receives (Path.parse (session.outputOf request)) document after.disk := by
  cases h with
  | notLoaded | notAnalyzed | notWritten => cases hresult
  | printed _ _ hsink' => cases hsink.symm.trans hsink'
  | written hload hanalyze _ hdisk =>
      exact ⟨_, _, hload, hanalyze, (Except.ok.inj hresult).symm, hdisk⟩

theorem of_error (h : session.Ends request after result) {e : CommandFailure}
    (hresult : result = .error e) :
    session.disk.Gains (Path.IsAbove · (Path.parse (session.outputOf request))) after.disk := by
  cases h with
  | notLoaded | notAnalyzed => exact .refl ..
  | printed | written => cases hresult
  | notWritten _ _ _ hdisk => exact hdisk

end Ends

/-- **A request changes files only when it succeeds, and only its output.** Where the blacklist
cannot be loaded or the analysis fails, the disk is as it was. What is printed is the document and a
line break, and printing leaves the disk alone. What is written is the document of the disk as it
was, with the blacklist that was loaded, and the disk has gained nothing but the file and the
directories above it. At worst these directories are left behind by a request that fails. -/
theorem effects_runAnalysis (session : Session) (request : AnalysisRequest) :
    session.Effects request (session.runAnalysis request).1 (session.runAnalysis request).2 where
  notLoaded := fun _ => (ends_runAnalysis session request).of_notLoaded
  notAnalyzed := fun _ _ => (ends_runAnalysis session request).of_notAnalyzed
  printed := (ends_runAnalysis session request).of_toStdout
  written := fun hsink _ => (ends_runAnalysis session request).of_ok hsink
  failed := fun _ => (ends_runAnalysis session request).of_error

/-- The directory of the output is missing at first, and the document is written all the same. -/
theorem effects_runAnalysis_shop :
    let session : Session := ⟨{ settings := {} }, Disk.shop⟩
    let request : AnalysisRequest := { root := "/", output := some "out/graph.json" }
    Disk.shop.node? ["out"] = none ∧
      ∃ document, session.engine.analyze Disk.shop "/" = .ok document ∧
        (session.runAnalysis request).2 = .ok [] ∧
        Disk.shop.Receives (Path.parse "out/graph.json") document
          (session.runAnalysis request).1.disk := by
  intro session request
  obtain ⟨result, hresult, -⟩ := Disk.analyze_shop
  have hanalyze : session.engine.analyze session.disk request.root =
      .ok (result.graph.emit true) := by
    rw [Engine.analyze, Engine.analyzeGraph, hresult]
    rfl
  have hok : (session.runAnalysis request).2 = .ok [] := by
    have hrun : session.runAnalysis request = session.deliver request (result.graph.emit true) := by
      rw [runAnalysis, Engine.loadBlacklist?]
      dsimp only
      rw [hanalyze]
    have hwrite : ∀ text, (Disk.shop.writeOutput text "out/graph.json").2 = .ok () := fun _ => rfl
    rw [hrun]
    simp only [deliver, Session.writeOutput, session, request, Option.getD_some, hwrite,
      Bool.false_eq_true, if_false]
  obtain ⟨engine, document, hload, hanalyze', -, hreceives⟩ :=
    (effects_runAnalysis session request).written rfl [] hok
  obtain rfl := Except.ok.inj hload
  exact ⟨by decide +kernel, document, hanalyze', hok, hreceives⟩

end Session

end ActionCalls
