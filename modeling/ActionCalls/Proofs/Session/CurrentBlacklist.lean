import Mathlib.Data.List.Induction
import ActionCalls.Proofs.Session.Interleaving

/-!
# The current blacklist is the last one supplied

Of the operations of a session, three can supply a blacklist: one gives it, one names a file that has
it, and a request for an analysis may name such a file. A file that cannot be read supplies nothing.
Each operation leaves the blacklist that it supplies, if it does, and otherwise the one that it found
(`engine_perform`); whether it succeeds does not matter. So after any operations the blacklist is
**the last one supplied**, and there is nothing in it of those before.

An analysis works with this blacklist, for a request with the one that is there after its own file has
been read (`analyzesWith_perform`).
-/

namespace ActionCalls

/-- The blacklist that the file at a path gives, if it can be read. -/
def Disk.blacklistAt? (disk : Disk) (path : String) : Option Blacklist :=
  (disk.readText (Path.parse path)).toOption.map Blacklist.parse

/-- The blacklist that an operation supplies: the names that it is given, or those in the file that it
names. -/
def Operation.supplied? (disk : Disk) : Operation → Option Blacklist
  | .setBlacklist names => some names
  | .loadBlacklist path => disk.blacklistAt? path
  | .runAnalysis request => request.blacklist.bind disk.blacklistAt?
  | .analyze _ | .analyzeGraph _ | .writeOutput .. | .writeSettings .. => none

namespace Session

/-- The blacklists that operations supply, in their order. A file is read when the turn of its
operation comes. -/
def supplies (session : Session) : List Operation → List Blacklist
  | [] => []
  | operation :: rest =>
      (operation.supplied? session.disk).toList ++ (session.perform operation).1.supplies rest

/-- The last blacklist that operations supply; without any, the one that there was at first. -/
def lastSupplied (session : Session) (operations : List Operation) : Blacklist :=
  (session.supplies operations).getLastD session.engine.blacklist

/-- The blacklist that an operation works with: the one that it supplies, or else the one that it
finds. -/
def held (session : Session) (operation : Operation) : Blacklist :=
  (operation.supplied? session.disk).getD session.engine.blacklist

/-- The session with some blacklist in the place of its own. -/
def holding (session : Session) (names : Blacklist) : Session :=
  { session with engine := session.engine.setBlacklist names }

/-- The graph of the tree below a root, as it is with some blacklist. -/
def graphWith (session : Session) (names : Blacklist) (root : String) : Except Failure CallGraph :=
  (ActionCalls.analyze session.disk session.engine.settings.analysis names root).map
    AnalysisResult.graph

/-- The document of the tree below a root, as it is with some blacklist. -/
def documentWith (session : Session) (names : Blacklist) (root : String) : Except Failure Text :=
  (session.graphWith names root).map (CallGraph.emit session.engine.settings.output.pretty)

/-- What becomes of a request when its analysis has ended. -/
def conclude (session : Session) (request : AnalysisRequest) :
    Except Failure Text → Session × Except CommandFailure Text
  | .error e => (session, .error (.attempt (.analyze request.root) e))
  | .ok document => session.deliver request document

/-- Is some blacklist the one that an operation analyzes with, as far as it analyzes? A request that
cannot read its file does not come to its analysis. -/
def AnalyzesWith (session : Session) (names : Blacklist) : Operation → Prop
  | .analyze root =>
      session.perform (.analyze root) =
        (session, ((session.documentWith names root).map .document).mapError .plain)
  | .analyzeGraph root =>
      session.perform (.analyzeGraph root) =
        (session, ((session.graphWith names root).map .graph).mapError .plain)
  | .runAnalysis request =>
      match request.blacklist.map session.disk.blacklistAt? with
      | some none => ∃ e, session.perform (.runAnalysis request) = (session, .error e)
      | _ =>
          session.perform (.runAnalysis request) =
            Prod.map id (Except.map .printed)
              ((session.holding names).conclude request (session.documentWith names request.root))
  | .setBlacklist _ | .loadBlacklist _ | .writeOutput .. | .writeSettings .. => True

/-- Does the session take the blacklist of a file, and stay as it is when the file cannot be read? -/
def LoadsOrStays (session : Session) (path : String) : Prop :=
  match session.disk.blacklistAt? path with
  | some names =>
      session.perform (.loadBlacklist path) = (session.holding names, .ok (.count names.size))
  | none => ∃ e, session.perform (.loadBlacklist path) = (session, .error e)

end Session

/-! ### Loading -/

namespace Engine

variable {engine other : Engine} {disk : Disk} {path : String}

theorem loadBlacklist_of_some {names : Blacklist} (h : disk.blacklistAt? path = some names) :
    engine.loadBlacklist disk path = .ok (engine.setBlacklist names) := by
  unfold Disk.blacklistAt? at h
  unfold loadBlacklist Blacklist.load
  cases hread : disk.readText (Path.parse path) with
  | error e =>
      rw [hread] at h
      cases h
  | ok text =>
      rw [hread] at h
      obtain rfl := Option.some.inj h
      rfl

theorem loadBlacklist_of_none (engine : Engine) (h : disk.blacklistAt? path = none) :
    ∃ e, engine.loadBlacklist disk path = .error e := by
  unfold Disk.blacklistAt? at h
  unfold loadBlacklist Blacklist.load
  cases hread : disk.readText (Path.parse path) with
  | error e => exact ⟨_, rfl⟩
  | ok text =>
      rw [hread] at h
      cases h

/-- An engine that is told to load a blacklist keeps its settings, and it has the blacklist of the
file, or its own if no file is named. -/
theorem loadBlacklist?_eq_ok_iff {path? : Option String} :
    engine.loadBlacklist? disk path? = .ok other ↔
      other.settings = engine.settings ∧
        path?.elim (some engine.blacklist) disk.blacklistAt? = some other.blacklist := by
  obtain ⟨settings, blacklist⟩ := engine
  obtain ⟨settings', blacklist'⟩ := other
  cases path? with
  | none => simp [loadBlacklist?, eq_comm]
  | some path =>
      rw [loadBlacklist?, Option.elim_some]
      cases hfile : disk.blacklistAt? path with
      | none =>
          obtain ⟨e, hfails⟩ := loadBlacklist_of_none ⟨settings, blacklist⟩ hfile
          simp [hfails]
      | some names => simp [loadBlacklist_of_some hfile, setBlacklist, eq_comm]

/-- The blacklist that an engine has at first, if it can have any: that of the file that its settings
name, and no names if they name none. -/
def initialBlacklist? (disk : Disk) (settings : Settings) : Option Blacklist :=
  settings.blacklist.file.elim (some ∅) disk.blacklistAt?

/-- An engine starts when its settings and the blacklist that they name can be read, and these are
what it has. -/
theorem start_eq_ok_iff {path? : Option String} :
    start disk path? = .ok engine ↔
      Settings.loadOrDefault disk path? = .ok engine.settings ∧
        initialBlacklist? disk engine.settings = some engine.blacklist := by
  unfold start
  cases Settings.loadOrDefault disk path? with
  | error e => simp
  | ok settings =>
      rw [loadBlacklist?_eq_ok_iff, Except.ok.injEq, eq_comm (a := settings), initialBlacklist?]
      refine and_congr_right fun hsettings => ?_
      rw [hsettings]

end Engine

namespace Session

/-! ### One operation -/

variable {session : Session}

theorem engine_deliver (session : Session) (request : AnalysisRequest) (document : Text) :
    (session.deliver request document).1.engine = session.engine := by
  unfold deliver
  split <;> rfl

theorem engine_writeSettings (session : Session) (directory : Option String) (force : Bool) :
    (session.writeSettings directory force).1.engine = session.engine := by
  unfold writeSettings
  dsimp only
  split
  · rfl
  · split
    · rfl
    · split <;> rfl

theorem engine_conclude (session : Session) (request : AnalysisRequest)
    (result : Except Failure Text) :
    (session.conclude request result).1.engine = session.engine := by
  cases result with
  | error e => rfl
  | ok document => exact session.engine_deliver request document

/-- A request whose file cannot be read ends there. -/
theorem runAnalysis_of_unreadable {request : AnalysisRequest}
    (h : request.blacklist.map session.disk.blacklistAt? = some none) :
    ∃ e, session.runAnalysis request = (session, .error e) := by
  obtain ⟨path, hpath, hfile⟩ := Option.map_eq_some_iff.mp h
  obtain ⟨e, hload⟩ := session.engine.loadBlacklist_of_none hfile
  refine ⟨e, ?_⟩
  rw [runAnalysis, hpath, Engine.loadBlacklist?, hload]

/-- Any other request goes on to its analysis. -/
theorem runAnalysis_of_readable {request : AnalysisRequest}
    (h : request.blacklist.map session.disk.blacklistAt? ≠ some none) :
    session.runAnalysis request =
      (session.holding (session.held (.runAnalysis request))).conclude request
        (session.documentWith (session.held (.runAnalysis request)) request.root) := by
  generalize hnames : session.held (.runAnalysis request) = names
  have hload : session.engine.loadBlacklist? session.disk request.blacklist =
      .ok (session.engine.setBlacklist names) := by
    refine Engine.loadBlacklist?_eq_ok_iff.mpr ⟨rfl, ?_⟩
    subst hnames
    rw [held, Operation.supplied?]
    cases hpath : request.blacklist with
    | none => rfl
    | some path =>
        cases hfile : session.disk.blacklistAt? path with
        | none => exact absurd (by rw [hpath, Option.map_some, hfile]) h
        | some names => simp [hfile, Engine.setBlacklist]
  have hdocument : (session.engine.setBlacklist names).analyze session.disk request.root =
      session.documentWith names request.root := rfl
  rw [runAnalysis, hload]
  dsimp only
  rw [hdocument]
  cases session.documentWith names request.root <;> rfl

theorem perform_runAnalysis (session : Session) (request : AnalysisRequest) :
    session.perform (.runAnalysis request) =
      Prod.map id (Except.map .printed) (session.runAnalysis request) := rfl

theorem loadsOrStays (session : Session) (path : String) : session.LoadsOrStays path := by
  unfold LoadsOrStays
  split
  case h_1 names hfile =>
      show Prod.map id (Except.map Reply.count) (session.loadBlacklist path) = _
      rw [loadBlacklist, Engine.loadBlacklist_of_some hfile]
      rfl
  case h_2 hfile =>
      obtain ⟨e, hload⟩ := session.engine.loadBlacklist_of_none hfile
      refine ⟨e, ?_⟩
      show Prod.map id (Except.map Reply.count) (session.loadBlacklist path) = _
      rw [loadBlacklist, hload]
      rfl

/-- **What one operation leaves.** Nothing of the engine changes but the blacklist, which is then the
one that the operation works with. -/
theorem engine_perform (session : Session) (operation : Operation) :
    (session.perform operation).1.engine = session.engine.setBlacklist (session.held operation) := by
  cases operation with
  | setBlacklist names => rfl
  | analyze root => rfl
  | analyzeGraph root => rfl
  | writeOutput text path => rfl
  | writeSettings directory force => exact session.engine_writeSettings directory force
  | loadBlacklist path =>
      have hloads := session.loadsOrStays path
      unfold LoadsOrStays at hloads
      rw [held, Operation.supplied?]
      split at hloads
      case h_1 names hfile =>
          rw [hloads, hfile]
          rfl
      case h_2 hfile =>
          obtain ⟨e, hstays⟩ := hloads
          rw [hstays, hfile]
          rfl
  | runAnalysis request =>
      rw [perform_runAnalysis]
      by_cases hfile : request.blacklist.map session.disk.blacklistAt? = some none
      · obtain ⟨e, hends⟩ := runAnalysis_of_unreadable hfile
        obtain ⟨path, hpath, hnone⟩ := Option.map_eq_some_iff.mp hfile
        rw [hends, held, Operation.supplied?, hpath, Option.bind_some, hnone]
        rfl
      · rw [runAnalysis_of_readable hfile]
        exact engine_conclude ..

/-- **With what one operation analyzes.** -/
theorem analyzesWith_perform (session : Session) (operation : Operation) :
    session.AnalyzesWith (session.held operation) operation := by
  cases operation with
  | setBlacklist names => trivial
  | loadBlacklist path => trivial
  | writeOutput text path => trivial
  | writeSettings directory force => trivial
  | analyze root => rfl
  | analyzeGraph root => rfl
  | runAnalysis request =>
      unfold AnalyzesWith
      dsimp only
      split
      case h_1 hfile =>
          obtain ⟨e, hends⟩ := runAnalysis_of_unreadable hfile
          exact ⟨e, by rw [perform_runAnalysis, hends]; rfl⟩
      case h_2 hfile =>
          rw [perform_runAnalysis, runAnalysis_of_readable hfile]

/-! ### All operations -/

theorem performAll_concat (session : Session) (operations : List Operation)
    (operation : Operation) :
    session.performAll (operations ++ [operation]) =
      ((session.performAll operations).perform operation).1 := by
  rw [performAll, List.foldl_append]
  rfl

theorem supplies_concat (session : Session) (operations : List Operation) (operation : Operation) :
    session.supplies (operations ++ [operation]) =
      session.supplies operations ++
        (operation.supplied? (session.performAll operations).disk).toList := by
  induction operations generalizing session with
  | nil => exact List.append_nil _
  | cons first rest ih =>
      rw [List.cons_append, supplies, ih, supplies, List.append_assoc]
      rfl

/-- One more operation supplies a blacklist, or leaves the last one as it is. -/
theorem lastSupplied_concat (session : Session) (operations : List Operation)
    (operation : Operation) :
    session.lastSupplied (operations ++ [operation]) =
      (operation.supplied? (session.performAll operations).disk).getD
        (session.lastSupplied operations) := by
  rw [lastSupplied, supplies_concat]
  cases operation.supplied? (session.performAll operations).disk with
  | none => rw [Option.toList_none, List.append_nil, Option.getD_none, lastSupplied]
  | some names => exact List.getLastD_concat

/-- After any operations, nothing of the engine has changed but the blacklist, which is the last one
supplied. -/
theorem engine_performAll (session : Session) (operations : List Operation) :
    (session.performAll operations).engine =
      session.engine.setBlacklist (session.lastSupplied operations) := by
  induction operations using List.reverseRecOn with
  | nil => rfl
  | append_singleton operations operation ih =>
      rw [performAll_concat, engine_perform, held, lastSupplied_concat, ih]
      rfl

theorem held_performAll (session : Session) (operations : List Operation) (operation : Operation) :
    (session.performAll operations).held operation =
      session.lastSupplied (operations ++ [operation]) := by
  rw [held, engine_performAll, lastSupplied_concat]
  rfl

/-- What holds of the blacklist after some operations. -/
structure KeepsLastSupplied (session : Session) (operations : List Operation) : Prop where
  blacklist : (session.performAll operations).engine.blacklist = session.lastSupplied operations
  loads : ∀ path, (session.performAll operations).LoadsOrStays path
  analyses : ∀ operation, (session.performAll operations).AnalyzesWith
    (session.lastSupplied (operations ++ [operation])) operation

/-- **The current blacklist is the last one supplied.** A new engine has none, and an engine that is
started has the one that its settings name. After any operations the engine has the last blacklist
that was given or read; a file that cannot be read changes nothing; and the next analysis works with
the last blacklist supplied, where a request supplies its own before its analysis. -/
theorem keepsLastSupplied_performAll :
    (∀ settings : Settings, ({ settings := settings } : Engine).blacklist = ∅) ∧
    (∀ disk path? engine, Engine.start disk path? = .ok engine ↔
      Settings.loadOrDefault disk path? = .ok engine.settings ∧
        Engine.initialBlacklist? disk engine.settings = some engine.blacklist) ∧
    ∀ (session : Session) (operations : List Operation), session.KeepsLastSupplied operations := by
  refine ⟨fun _ => rfl, fun _ _ _ => Engine.start_eq_ok_iff, ?_⟩
  intro session operations
  refine ⟨?_, ?_, ?_⟩
  · rw [engine_performAll]
    rfl
  · exact fun path => loadsOrStays _ path
  · intro operation
    rw [← held_performAll]
    exact analyzesWith_perform _ operation

/-- A request that reads its blacklist and then fails at its root. -/
def failingRequest : AnalysisRequest := { root := "nowhere", blacklist := some "two.txt" }

/-- A blacklist is given, a file is named that is missing, and then a request fails. -/
def failingOperations : List Operation :=
  [.setBlacklist (.ofList ["add", "clear"]), .loadBlacklist "missing.txt",
   .runAnalysis failingRequest]

/-- What the failing request has read stays, and nothing else does. -/
theorem keepsLastSupplied_failingOperations :
    (Concurrent.twoBlacklists.runAnalysis failingRequest).2 =
        .error (.attempt (.analyze "nowhere") (.rootUnreadable "nowhere" .notFound)) ∧
      Concurrent.twoBlacklists.KeepsLastSupplied failingOperations ∧
      (Concurrent.twoBlacklists.performAll failingOperations).engine.blacklist =
        .ofList ["pay"] := by
  have hkeeps := keepsLastSupplied_performAll.2.2 Concurrent.twoBlacklists failingOperations
  refine ⟨rfl, hkeeps, ?_⟩
  rw [hkeeps.blacklist]
  rfl

end Session

end ActionCalls
