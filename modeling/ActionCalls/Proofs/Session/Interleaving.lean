import ActionCalls.Concurrent
import ActionCalls.Proofs.Analysis.OwnPackage

/-!
# Which blacklist a request gets

A request stores its blacklist in one step and copies what is there in the next, so what it copies is
**the blacklist that was stored last**. This is its own one, unless the other request stores in
between: then it is *overtaken* (`Concurrent.Overtaken`), and it analyzes with the blacklist of the
other. As each request stores once, at most one of the two is overtaken.

How far a request has come is known from the number of its turns alone. The invariant of a schedule
(`Concurrent.After`) says so for both requests, and that the engine holds what a request is about to
copy. One turn keeps it (`After.turn`), since a turn moves one request on, and the other has either
copied already or has its blacklist replaced only by a first turn.
-/

namespace ActionCalls

namespace Side

theorem other_other (side : Side) : side.other.other = side := by
  cases side <;> rfl

theorem other_ne (side : Side) : side.other ≠ side := by
  cases side <;> decide

theorem eq_or_eq_other (side who : Side) : who = side ∨ who = side.other := by
  cases side <;> cases who <;> decide

theorem count_concat_self (side : Side) (schedule : List Side) :
    (schedule ++ [side]).count side = schedule.count side + 1 := by
  rw [List.count_append, List.count_singleton_self]

theorem count_concat_other (side : Side) (schedule : List Side) :
    (schedule ++ [side.other]).count side = schedule.count side := by
  rw [List.count_append, List.count_singleton, if_neg, Nat.add_zero]
  simpa using side.other_ne

end Side

namespace Concurrent

@[simp] theorem reach_session (state : Concurrent) (side : Side) (progress : Progress) :
    (state.reach side progress).session = state.session := rfl

@[simp] theorem reach_self (state : Concurrent) (side : Side) (progress : Progress) :
    (state.reach side progress).progress side = progress :=
  if_pos rfl

@[simp] theorem reach_other (state : Concurrent) (side : Side) (progress : Progress) :
    (state.reach side progress).progress side.other = state.progress side.other :=
  if_neg side.other_ne

/-! ### One turn -/

section Turn

variable {requests : Side → AnalysisRequest} {state : Concurrent} {side : Side}

theorem turn_asked (h : state.progress side = .asked) :
    state.turn requests side = state.store side (requests side) := by
  simp only [turn, h]

theorem turn_loaded (h : state.progress side = .loaded) :
    state.turn requests side = state.reach side (.copied state.session.engine.blacklist) := by
  simp only [turn, h]

theorem turn_copied {names : Blacklist} (h : state.progress side = .copied names) :
    state.turn requests side =
      state.reach side (.answered (answer state.session (requests side) names)) := by
  simp only [turn, h]

theorem turn_answered {result : Except CommandFailure Text}
    (h : state.progress side = .answered result) : state.turn requests side = state := by
  simp only [turn, h]

end Turn

/-! ### One request alone -/

/-- The three steps of a request, without those of another one, and the delivery of its document are
what a session does. -/
theorem runAnalysis_eq_run (session : Session) (requests : Side → AnalysisRequest) (side : Side) :
    ∃ result, ((start session).run requests [side, side, side]).progress side = .answered result ∧
      session.runAnalysis (requests side) =
        match result with
        | .error e => (((start session).run requests [side, side, side]).session, .error e)
        | .ok document =>
            ((start session).run requests [side, side, side]).session.deliver (requests side)
              document := by
  have hasked : (start session).turn requests side = (start session).store side (requests side) :=
    turn_asked rfl
  have hsession : (start session).session = session := rfl
  simp only [run, List.foldl_cons, List.foldl_nil, hasked, store, hsession]
  unfold Session.runAnalysis
  cases session.engine.loadBlacklist? session.disk (requests side).blacklist with
  | error e =>
      dsimp only
      rw [turn_answered (reach_self ..), turn_answered (reach_self ..)]
      exact ⟨.error e, reach_self .., rfl⟩
  | ok engine =>
      dsimp only
      rw [turn_loaded (reach_self ..), turn_copied (reach_self ..)]
      refine ⟨_, reach_self .., ?_⟩
      -- The copy that it analyzes with is what it has stored.
      have hcopy : engine.setBlacklist engine.blacklist = engine := rfl
      simp only [reach_session, answer, hcopy]
      cases engine.analyze session.disk (requests side).root <;> rfl

/-! ### Overtaking -/

/-- The other request stores its blacklist when this one has stored, but not yet copied. -/
def Overtaken (side : Side) (schedule : List Side) : Prop :=
  ∃ before after, schedule = before ++ side.other :: after ∧
    before.count side.other = 0 ∧ before.count side = 1

variable {side : Side} {schedule : List Side}

theorem overtaken_concat {who : Side} :
    Overtaken side (schedule ++ [who]) ↔ Overtaken side schedule ∨
      who = side.other ∧ schedule.count side.other = 0 ∧ schedule.count side = 1 := by
  constructor
  · rintro ⟨before, after, heq, hother, hside⟩
    rcases List.eq_nil_or_concat after with rfl | ⟨front, last, rfl⟩
    · obtain ⟨rfl, hwho⟩ := List.append_inj' heq rfl
      exact Or.inr ⟨List.singleton_inj.mp hwho, hother, hside⟩
    · rw [List.concat_eq_append, ← List.cons_append, ← List.append_assoc] at heq
      exact Or.inl ⟨before, front, (List.append_inj' heq rfl).1, hother, hside⟩
  · rintro (⟨before, after, rfl, hother, hside⟩ | ⟨rfl, hother, hside⟩)
    · exact ⟨before, after ++ [who], by simp, hother, hside⟩
    · exact ⟨schedule, [], rfl, hother, hside⟩

theorem Overtaken.count_pos (h : Overtaken side schedule) : schedule.count side ≠ 0 := by
  obtain ⟨before, after, rfl, -, hside⟩ := h
  rw [List.count_append, hside]
  omega

/-- At most one of two requests is overtaken. -/
theorem Overtaken.not_other (h : Overtaken side schedule) : ¬ Overtaken side.other schedule := by
  obtain ⟨before, after, heq, hother, hside⟩ := h
  rintro ⟨before', after', heq', hside', hother'⟩
  rw [Side.other_other] at hside'
  -- Whichever of the two moments comes first, one request has not had its turn by the other.
  rcases List.prefix_or_prefix_of_prefix ⟨_, heq.symm⟩ ⟨_, heq'.symm⟩ with hprefix | hprefix
  · have hle := hprefix.sublist.count_le side
    omega
  · have hle := hprefix.sublist.count_le side.other
    omega

/-- Is this the blacklist that a request gets? -/
structure Gets (names : Side → Blacklist) (schedule : List Side) (side : Side) (used : Blacklist) :
    Prop where
  own : ¬ Overtaken side schedule → used = names side
  others : Overtaken side schedule → used = names side.other

section Invariant

variable {session : Session} {requests : Side → AnalysisRequest} {names : Side → Blacklist}
  {stored used : Blacklist} {progress : Progress}

/-- A turn does not change what a request gets, unless it overtakes the request. -/
theorem Gets.concat {who : Side} (h : Gets names schedule side used)
    (hnot : ¬ (who = side.other ∧ schedule.count side.other = 0 ∧ schedule.count side = 1)) :
    Gets names (schedule ++ [who]) side used where
  own := by
    intro hown
    exact h.own fun hovertaken => hown (overtaken_concat.mpr (Or.inl hovertaken))
  others := by
    intro hovertaken
    exact h.others ((overtaken_concat.mp hovertaken).resolve_right hnot)

/-- A turn of its own never does. -/
theorem Gets.concat_self (h : Gets names schedule side used) :
    Gets names (schedule ++ [side]) side used :=
  h.concat fun hlast => side.other_ne hlast.1.symm

/-- What a request has just stored is what it gets, as long as nothing else happens. -/
theorem gets_of_store (hasked : schedule.count side = 0) :
    Gets names (schedule ++ [side]) side (names side) := by
  have hnot : ¬ Overtaken side schedule := fun hovertaken => hovertaken.count_pos hasked
  exact Gets.concat_self ⟨fun _ => rfl, fun hovertaken => absurd hovertaken hnot⟩

/-! ### One side -/

/-- How far a request has come after its turns in a schedule, `stored` being in the engine by
then. -/
inductive Stands (session : Session) (requests : Side → AnalysisRequest) (names : Side → Blacklist)
    (schedule : List Side) (side : Side) (stored : Blacklist) : Progress → Prop where
  | asked (hcount : schedule.count side = 0) :
      Stands session requests names schedule side stored .asked
  | loaded (hcount : schedule.count side = 1) (hgets : Gets names schedule side stored) :
      Stands session requests names schedule side stored .loaded
  | copied {used : Blacklist} (hcount : schedule.count side = 2)
      (hgets : Gets names schedule side used) :
      Stands session requests names schedule side stored (.copied used)
  | answered {used : Blacklist} (hcount : 3 ≤ schedule.count side)
      (hgets : Gets names schedule side used) :
      Stands session requests names schedule side stored
        (.answered (answer session (requests side) used))

/-- A turn of the other leaves a request where it is. Only the first one changes what is stored. -/
theorem Stands.concat_other {who : Side} {later : Blacklist}
    (h : Stands session requests names schedule side stored progress) (hwho : who = side.other)
    (hlater : later = if schedule.count who = 0 then names who else stored) :
    Stands session requests names (schedule ++ [who]) side later progress := by
  subst hwho
  have hcount := side.count_concat_other schedule
  cases h with
  | asked hasked => exact .asked (hcount.trans hasked)
  | loaded hloaded hgets =>
      refine .loaded (hcount.trans hloaded) ?_
      by_cases hfirst : schedule.count side.other = 0
      · rw [hlater, if_pos hfirst]
        have hovertaken : Overtaken side (schedule ++ [side.other]) :=
          overtaken_concat.mpr (Or.inr ⟨rfl, hfirst, hloaded⟩)
        exact ⟨fun hnot => absurd hovertaken hnot, fun _ => rfl⟩
      · rw [hlater, if_neg hfirst]
        exact hgets.concat fun hlast => hfirst hlast.2.1
  | copied hcopied hgets =>
      exact .copied (hcount.trans hcopied) (hgets.concat fun hlast => by omega)
  | answered hanswered hgets =>
      exact .answered (hcount ▸ hanswered) (hgets.concat fun hlast => by omega)

/-! ### Both sides -/

/-- What holds after the turns of a schedule. -/
structure After (session : Session) (requests : Side → AnalysisRequest) (names : Side → Blacklist)
    (schedule : List Side) (state : Concurrent) : Prop where
  disk : state.session.disk = session.disk
  settings : state.session.engine.settings = session.engine.settings
  stands : ∀ side, Stands session requests names schedule side state.session.engine.blacklist
    (state.progress side)

variable {state next : Concurrent}

theorem after_start (session : Session) (requests : Side → AnalysisRequest)
    (names : Side → Blacklist) : After session requests names [] (start session) where
  disk := rfl
  settings := rfl
  stands := fun _ => .asked rfl

/-- A state after one more turn is told by the side whose turn it was. -/
theorem After.of_side (h : After session requests names schedule state)
    (hdisk : next.session.disk = state.session.disk)
    (hsettings : next.session.engine.settings = state.session.engine.settings)
    (hstored : next.session.engine.blacklist =
      if schedule.count side = 0 then names side else state.session.engine.blacklist)
    (hother : next.progress side.other = state.progress side.other)
    (hside : Stands session requests names (schedule ++ [side]) side
      next.session.engine.blacklist (next.progress side)) :
    After session requests names (schedule ++ [side]) next where
  disk := hdisk.trans h.disk
  settings := hsettings.trans h.settings
  stands := by
    intro who
    rcases side.eq_or_eq_other who with rfl | rfl
    · exact hside
    · rw [hother]
      exact (h.stands side.other).concat_other side.other_other.symm hstored

/-- Does each request name a file that can be read, with the blacklist that is given for it? -/
def NamesReadable (session : Session) (requests : Side → AnalysisRequest)
    (names : Side → Blacklist) : Prop :=
  ∀ side, ∃ path, (requests side).blacklist = some path ∧
    Blacklist.load session.disk path = .ok (names side)

theorem After.store_eq (h : After session requests names schedule state)
    (hreadable : NamesReadable session requests names) (side : Side) :
    state.store side (requests side) =
      { state with session.engine := state.session.engine.setBlacklist (names side) }.reach side
        .loaded := by
  obtain ⟨path, hpath, hload⟩ := hreadable side
  rw [store, hpath, Engine.loadBlacklist?, Engine.loadBlacklist, h.disk, hload]

/-- What an analysis answers is a matter of the disk, the settings and the blacklist it uses. -/
theorem After.answer_eq (h : After session requests names schedule state)
    (request : AnalysisRequest) (used : Blacklist) :
    answer state.session request used = answer session request used := by
  have hengine : state.session.engine.setBlacklist used = session.engine.setBlacklist used := by
    rw [Engine.setBlacklist, Engine.setBlacklist, h.settings]
  rw [answer, answer, hengine, h.disk]

/-- **One turn.** -/
theorem After.turn (h : After session requests names schedule state)
    (hreadable : NamesReadable session requests names) (side : Side) :
    After session requests names (schedule ++ [side]) (state.turn requests side) := by
  have hcount := side.count_concat_self schedule
  have hstands := h.stands side
  generalize hprogress : state.progress side = progress at hstands
  cases hstands with
  | asked hasked =>
      rw [turn_asked hprogress, h.store_eq hreadable]
      refine h.of_side rfl rfl (if_pos hasked).symm (reach_other ..) ?_
      rw [reach_self]
      exact .loaded (by omega) (gets_of_store hasked)
  | loaded hloaded hgets =>
      rw [turn_loaded hprogress]
      refine h.of_side rfl rfl (if_neg (by omega)).symm (reach_other ..) ?_
      rw [reach_self]
      exact .copied (by omega) hgets.concat_self
  | copied hcopied hgets =>
      rw [turn_copied hprogress]
      refine h.of_side rfl rfl (if_neg (by omega)).symm (reach_other ..) ?_
      rw [reach_self, h.answer_eq]
      exact .answered (by omega) hgets.concat_self
  | answered hanswered hgets =>
      rw [turn_answered hprogress]
      refine h.of_side rfl rfl (if_neg (by omega)).symm rfl ?_
      rw [hprogress]
      exact .answered (by omega) hgets.concat_self

/-- **All turns.** -/
theorem After.run (h : After session requests names schedule state)
    (hreadable : NamesReadable session requests names) (more : List Side) :
    After session requests names (schedule ++ more) (state.run requests more) := by
  induction more generalizing schedule state with
  | nil => rwa [List.append_nil]
  | cons side rest ih =>
      rw [← List.singleton_append, ← List.append_assoc]
      exact ih (h.turn hreadable side)

theorem answered_run (hreadable : NamesReadable session requests names)
    (hturns : 3 ≤ schedule.count side) :
    ∃ used, ((start session).run requests schedule).progress side =
        .answered (answer session (requests side) used) ∧ Gets names schedule side used := by
  have hstands := ((after_start session requests names).run hreadable schedule).stands side
  rw [List.nil_append] at hstands
  generalize ((start session).run requests schedule).progress side = progress at hstands ⊢
  cases hstands with
  | asked hcount | loaded hcount | copied hcount => omega
  | answered _ hgets => exact ⟨_, rfl, hgets⟩

end Invariant

/-- **Each request gets its own blacklist, unless it is overtaken.** Of two requests that name
readable blacklists, each one that has had its turns has analyzed with the blacklist that it names.
Only if the other one stored its blacklist between the first two turns of this one, it has analyzed
with the blacklist that the other names. -/
theorem progress_run {session : Session} {requests : Side → AnalysisRequest}
    {names : Side → Blacklist} (hreadable : NamesReadable session requests names)
    {schedule : List Side} {side : Side} (hturns : 3 ≤ schedule.count side) :
    (¬ Overtaken side schedule → ((start session).run requests schedule).progress side =
      .answered (answer session (requests side) (names side))) ∧
    (Overtaken side schedule → ((start session).run requests schedule).progress side =
      .answered (answer session (requests side) (names side.other))) := by
  obtain ⟨used, hanswered, hgets⟩ := answered_run hreadable hturns
  refine ⟨?_, ?_⟩
  · intro hnot
    rw [hanswered, hgets.own hnot]
  · intro hovertaken
    rw [hanswered, hgets.others hovertaken]

/-! ### A request that is overtaken -/

/-- A session on a disk that has a class with two methods, and two blacklists with one of them
each. -/
def twoBlacklists : Session where
  engine := { settings := {} }
  disk :=
    ((((Disk.mk ∅ []).put ["src"] .directory).put ["src", "Cart.java"] (.file (Utf8.encode
      "package cart;public class CartAction{void add(){}void pay(){}}".toList))).put
      ["one.txt"] (.file (Utf8.encode "add".toList))).put
      ["two.txt"] (.file (Utf8.encode "pay".toList))

/-- An analysis with each of the blacklists. -/
def twoRequests : Side → AnalysisRequest
  | .first => { root := "src", blacklist := some "one.txt", toStdout := true }
  | .second => { root := "src", blacklist := some "two.txt", toStdout := true }

/-- The names in the two blacklists. -/
def twoNames : Side → Blacklist
  | .first => Blacklist.parse "add".toList
  | .second => Blacklist.parse "pay".toList

/-- The first request stores, then the second one goes through all its turns. -/
def overtakingSchedule : List Side := [.first, .second, .second, .second, .first, .first]

theorem namesReadable_twoRequests : NamesReadable twoBlacklists twoRequests twoNames := by
  intro side
  cases side with
  | first => exact ⟨"one.txt", rfl, rfl⟩
  | second => exact ⟨"two.txt", rfl, rfl⟩

theorem overtaken_overtakingSchedule : Overtaken .first overtakingSchedule :=
  ⟨[.first], [.second, .second, .first, .first], rfl, by decide, by decide⟩

theorem progress_run_twoRequests :
    let state := (start twoBlacklists).run twoRequests overtakingSchedule
    NamesReadable twoBlacklists twoRequests twoNames ∧
      state.progress .first =
        .answered (answer twoBlacklists (twoRequests .first) (twoNames .second)) ∧
      state.progress .second =
        .answered (answer twoBlacklists (twoRequests .second) (twoNames .second)) := by
  have hreadable := namesReadable_twoRequests
  have hfirst := overtaken_overtakingSchedule
  exact ⟨hreadable, (progress_run hreadable (by decide)).2 hfirst,
    (progress_run hreadable (by decide)).1 hfirst.not_other⟩

theorem answer_twoRequests (names : Blacklist) :
    answer twoBlacklists (twoRequests .first) names =
      .ok ((analyzeFiles twoBlacklists.disk {} names ["src/Cart.java"]).graph.emit true) := by
  have hopen : twoBlacklists.disk.open? (Path.parse "src") = .ok (["src"], .directory) := rfl
  have hnames : twoBlacklists.disk.namesIn ["src"] = ["Cart.java"] := by decide +kernel
  have hfiles : SourceTree.files twoBlacklists.disk ⟨"src", "java", false⟩ =
      .ok ["src/Cart.java"] := by
    rw [SourceTree.files_of_directory hopen, SourceTree.filesBelow_eq, hnames]
    exact congrArg Except.ok (by decide +kernel)
  show Except.mapError _ (Except.map _ (Except.map _ (Except.map _
    (SourceTree.files twoBlacklists.disk ⟨"src", "java", false⟩)))) = _
  rw [hfiles]
  rfl

/-- The first request is answered, but not with what it would get with its own blacklist. -/
theorem not_own_twoRequests :
    NamesReadable twoBlacklists twoRequests twoNames ∧
      ((start twoBlacklists).run twoRequests overtakingSchedule).progress .first ≠
        .answered (answer twoBlacklists (twoRequests .first) (twoNames .first)) := by
  refine ⟨namesReadable_twoRequests, ?_⟩
  obtain ⟨used, hanswered, hgets⟩ :=
    answered_run namesReadable_twoRequests (show 3 ≤ overtakingSchedule.count .first by decide)
  obtain rfl := hgets.others overtaken_overtakingSchedule
  rw [hanswered, answer_twoRequests, answer_twoRequests]
  intro hsame
  refine absurd (Except.ok.inj (Progress.answered.inj hsame)) ?_
  decide +kernel

end Concurrent

end ActionCalls
