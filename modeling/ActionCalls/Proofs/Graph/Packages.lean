import ActionCalls.Proofs.Graph.Closure

/-!
# The packages of a graph

A graph under assembly notes each call in the records of the two packages it leads between. The
package that a call comes from is that of the node of its source **at that moment**. Later calls
change nothing but the statistics of this node, so it is also the package of the source in the
assembled graph (`bare_sourceNode_foldl`), and all that the run notes can be listed afterwards:
`packageCalls`.

Each record is again followed on its own. A package depends on another one exactly when a call of the
list leads from the first to the second, and then the second has the first as a dependent; names and
totals stay as they are.
-/

namespace ActionCalls

/-! ### Noting calls in one record -/

theorem NameSet.mem_ite_insert {p : Prop} [Decidable p] {names : NameSet} {name other : String} :
    other ∈ (if p then names.insert name else names) ↔ other ∈ names ∨ p ∧ name = other := by
  split
  case isTrue hp => simp [hp, or_comm]
  case isFalse hp => simp [hp]

namespace PackageRecord

/-- What the record of the package `name` makes of a call between two packages. -/
def noteCall (name : String) (record : PackageRecord) (call : String × String) : PackageRecord :=
  if call.2 = call.1 then record
  else
    { record with
      dependencies :=
        if call.1 = name then record.dependencies.insert call.2 else record.dependencies
      dependents :=
        if call.2 = name then record.dependents.insert call.1 else record.dependents }

/-- The record of the package `name` with some calls between packages noted. -/
def noteCalls (name : String) (calls : List (String × String)) (record : PackageRecord) :
    PackageRecord :=
  calls.foldl (noteCall name) record

variable {name other : String} {record : PackageRecord} {call : String × String}
  {calls : List (String × String)}

theorem noteCall_totals :
    (record.noteCall name call).name = record.name ∧
      (record.noteCall name call).totalMethods = record.totalMethods ∧
      (record.noteCall name call).totalClasses = record.totalClasses := by
  unfold noteCall
  split <;> exact ⟨rfl, rfl, rfl⟩

theorem noteCalls_totals :
    (noteCalls name calls record).name = record.name ∧
      (noteCalls name calls record).totalMethods = record.totalMethods ∧
      (noteCalls name calls record).totalClasses = record.totalClasses := by
  induction calls generalizing record with
  | nil => exact ⟨rfl, rfl, rfl⟩
  | cons call rest ih =>
      obtain ⟨hname, hmethods, hclasses⟩ := @ih (record.noteCall name call)
      obtain ⟨hname', hmethods', hclasses'⟩ := @noteCall_totals name record call
      exact ⟨hname.trans hname', hmethods.trans hmethods', hclasses.trans hclasses'⟩

theorem mem_dependencies_noteCall :
    other ∈ (record.noteCall name call).dependencies ↔
      other ∈ record.dependencies ∨ (name, other) = call ∧ other ≠ name := by
  obtain ⟨source, target⟩ := call
  rw [noteCall, Prod.mk.injEq]
  split
  case isTrue hwithin => grind
  case isFalse hcross =>
      rw [NameSet.mem_ite_insert]
      grind

theorem mem_dependents_noteCall :
    other ∈ (record.noteCall name call).dependents ↔
      other ∈ record.dependents ∨ (other, name) = call ∧ other ≠ name := by
  obtain ⟨source, target⟩ := call
  rw [noteCall, Prod.mk.injEq]
  split
  case isTrue hwithin => grind
  case isFalse hcross =>
      rw [NameSet.mem_ite_insert]
      grind

theorem mem_dependencies_noteCalls :
    other ∈ (noteCalls name calls record).dependencies ↔
      other ∈ record.dependencies ∨ (name, other) ∈ calls ∧ other ≠ name := by
  induction calls generalizing record with
  | nil => simp [noteCalls]
  | cons call rest ih =>
      show other ∈ (noteCalls name rest (record.noteCall name call)).dependencies ↔ _
      rw [ih, mem_dependencies_noteCall, List.mem_cons, or_and_right, or_assoc]

theorem mem_dependents_noteCalls :
    other ∈ (noteCalls name calls record).dependents ↔
      other ∈ record.dependents ∨ (other, name) ∈ calls ∧ other ≠ name := by
  induction calls generalizing record with
  | nil => simp [noteCalls]
  | cons call rest ih =>
      show other ∈ (noteCalls name rest (record.noteCall name call)).dependents ↔ _
      rw [ih, mem_dependents_noteCall, List.mem_cons, or_and_right, or_assoc]

end PackageRecord

/-! ### Noting calls in all records -/

namespace Assembly

/-- Notes one call after the other. -/
def linkAll (calls : List (String × String))
    (packages : Std.ExtTreeMap String PackageRecord) : Std.ExtTreeMap String PackageRecord :=
  calls.foldl (fun packages call => linkPackages call.1 call.2 packages) packages

theorem linkAll_append (first second : List (String × String))
    (packages : Std.ExtTreeMap String PackageRecord) :
    linkAll (first ++ second) packages = linkAll second (linkAll first packages) :=
  List.foldl_append

theorem linkPackages_getElem? (source target name : String)
    (packages : Std.ExtTreeMap String PackageRecord) :
    (linkPackages source target packages)[name]? =
      packages[name]?.map fun record => PackageRecord.noteCall name record (source, target) := by
  unfold linkPackages PackageRecord.noteCall
  by_cases hwithin : target = source
  · simp [hwithin]
  · rw [if_neg hwithin, Std.ExtTreeMap.getElem?_modify, Std.ExtTreeMap.getElem?_modify,
      Std.ExtTreeMap.getElem?_modify]
    simp only [Std.LawfulEqCmp.compare_eq_iff_eq, if_neg hwithin]
    -- The package is the target, or the source, or neither.
    by_cases htarget : target = name
    · subst htarget
      simp [Ne.symm hwithin]
    · by_cases hsource : source = name
      · subst hsource
        simp [htarget]
      · simp [htarget, hsource]

theorem linkAll_getElem? (calls : List (String × String)) (name : String)
    (packages : Std.ExtTreeMap String PackageRecord) :
    (linkAll calls packages)[name]? = packages[name]?.map (PackageRecord.noteCalls name calls) := by
  induction calls generalizing packages with
  | nil => exact Option.map_id'.symm
  | cons call rest ih =>
      show (linkAll rest (linkPackages call.1 call.2 packages))[name]? = _
      rw [ih, linkPackages_getElem?, Option.map_map]
      rfl

/-! ### The calls that a run notes -/

/-- From when a source is added its node keeps everything but its statistics. -/
theorem bare_sourceNode_foldl (a : Assembly) (source : String)
    (targets : Std.ExtTreeSet CallTarget) (rest : List (String × Std.ExtTreeSet CallTarget)) :
    ((rest.foldl (fun a entry => a.addSource entry.1 entry.2)
      (a.addSource source targets)).sourceNode source).bare = (a.sourceNode source).bare := by
  -- Adding the source makes a node of what `sourceNode` gave, if there was none.
  have hadded : ((a.addSource source targets).nodes[source]?).map MethodNode.bare =
      some (a.sourceNode source).bare := by
    rw [addSource_nodes_getElem?, visit, visitSource, if_pos rfl]
    exact bare_visitTarget ..
  obtain ⟨node, hnode, hbare⟩ := Option.map_eq_some_iff.mp hadded
  obtain ⟨last, hlast, hkept⟩ := Option.map_eq_some_iff.mp (bare_foldl_visit source rest node)
  rw [sourceNode, foldl_addSource_nodes_getElem?, hnode, hlast, Option.getD_some, hkept, hbare]

/-- The package that the calls of a source come from. -/
def sourcePackage (a : Assembly) (source : String) : String :=
  (a.sourceNode source).package

theorem foldl_addCall_packages (source package : String) (targets : List CallTarget)
    (a : Assembly) :
    (targets.foldl (addCall source package) a).packages =
      linkAll (targets.map fun target => (package, target.package)) a.packages := by
  induction targets generalizing a with
  | nil => rfl
  | cons target rest ih => exact ih (addCall source package a target)

theorem addSource_packages (a : Assembly) (source : String)
    (targets : Std.ExtTreeSet CallTarget) :
    (a.addSource source targets).packages =
      linkAll (targets.toList.map fun target => (a.sourcePackage source, target.package))
        a.packages :=
  foldl_addCall_packages ..

/-- The packages that the calls of a call table lead between, where `a` says what package a source
has. -/
def packageCallsOf (a : Assembly) (entries : List (String × Std.ExtTreeSet CallTarget)) :
    List (String × String) :=
  entries.flatMap fun entry =>
    entry.2.toList.map fun target => (a.sourcePackage entry.1, target.package)

theorem foldl_addSource_packages (entries : List (String × Std.ExtTreeSet CallTarget))
    (a : Assembly) :
    let last := entries.foldl (fun a entry => a.addSource entry.1 entry.2) a
    last.packages = linkAll (last.packageCallsOf entries) a.packages := by
  induction entries generalizing a with
  | nil => rfl
  | cons entry rest ih =>
      intro last
      have hbare : (last.sourceNode entry.1).bare = (a.sourceNode entry.1).bare :=
        bare_sourceNode_foldl a entry.1 entry.2 rest
      have hpackage : last.sourcePackage entry.1 = a.sourcePackage entry.1 := by
        rw [sourcePackage, ← MethodNode.bare_package, hbare]
        rfl
      have hrest := ih (a.addSource entry.1 entry.2)
      show last.packages = _
      rw [packageCallsOf, List.flatMap_cons, hpackage, linkAll_append, ← addSource_packages]
      exact hrest

/-- All calls between packages that are noted while tables are assembled. -/
def packageCalls (tables : Tables) : List (String × String) :=
  (run tables).packageCallsOf tables.calls.toList

theorem mem_packageCalls {tables : Tables} {package other : String} :
    (package, other) ∈ packageCalls tables ↔
      ∃ source, ∃ target ∈ tables.callSet source,
        (run tables).sourcePackage source = package ∧ target.package = other := by
  simp only [packageCalls, packageCallsOf, List.mem_flatMap, List.mem_map, Prod.mk.injEq,
    Std.ExtTreeSet.mem_toList]
  constructor
  · intro h
    obtain ⟨⟨source, targets⟩, hentry, target, hmem, hpackages⟩ := h
    rw [Std.ExtTreeMap.mem_toList_iff_getElem?_eq_some] at hentry
    exact ⟨source, target, Tables.mem_callSet.mpr ⟨targets, hentry, hmem⟩, hpackages⟩
  · intro h
    obtain ⟨source, target, hmem, hpackages⟩ := h
    obtain ⟨targets, hentry, hmem⟩ := Tables.mem_callSet.mp hmem
    exact ⟨(source, targets), Std.ExtTreeMap.mem_toList_iff_getElem?_eq_some.mpr hentry, target,
      hmem, hpackages⟩

/-- **One record at a time.** The record of a package after assembly is the one before it, with the
calls between packages noted. -/
theorem run_packages_getElem? (tables : Tables) (name : String) :
    (run tables).packages[name]? =
      tables.packages[name]?.map (PackageRecord.noteCalls name (packageCalls tables)) := by
  have hrun : (run tables).packages = linkAll (packageCalls tables) tables.packages :=
    foldl_addSource_packages tables.calls.toList (start tables)
  rw [hrun, linkAll_getElem?]

end Assembly

/-! ### The records of a graph -/

namespace CallGraph

open Assembly (packageCalls run_packages_getElem?)

variable {findings : List Finding}

/-- Every record of the graph of some findings stands under its own name. -/
theorem name_of_run_packages {name : String} {record : PackageRecord}
    (h : (Assembly.run (Tables.empty.enterAll findings)).packages[name]? = some record) :
    record.name = name := by
  rw [run_packages_getElem?] at h
  obtain ⟨old, hold, rfl⟩ := Option.map_eq_some_iff.mp h
  rw [PackageRecord.noteCalls_totals.1, (Tables.isFresh_of_ofFindings_packages hold).name_eq]

/-- A record is looked up in the graph as in the package table. -/
theorem package?_assemble (findings : List Finding) (name : String) :
    (assemble (Tables.empty.enterAll findings)).package? name =
      (Assembly.run (Tables.empty.enterAll findings)).packages[name]? :=
  Ordered.find?_values (fun _ _ => name_of_run_packages) name

theorem mem_assemble_packages {record : PackageRecord} :
    record ∈ (assemble (Tables.empty.enterAll findings)).packages ↔
      (Assembly.run (Tables.empty.enterAll findings)).packages[record.name]? = some record :=
  Ordered.mem_values_iff_getElem? fun _ _ => name_of_run_packages

theorem assemble_packages_ascending (findings : List Finding) :
    (assemble (Tables.empty.enterAll findings)).packages.Pairwise fun a b => a.name < b.name :=
  Ordered.values_ascending fun _ _ => name_of_run_packages

/-- The names of the records are those that the tables have records for. -/
theorem exists_assemble_package_iff {name : String} :
    (∃ record ∈ (assemble (Tables.empty.enterAll findings)).packages, record.name = name) ↔
      ((Tables.empty.enterAll findings).packages[name]?).isSome := by
  have hisSome : ((Tables.empty.enterAll findings).packages[name]?).isSome =
      ((Assembly.run (Tables.empty.enterAll findings)).packages[name]?).isSome := by
    rw [run_packages_getElem?, Option.isSome_map]
  rw [hisSome, Option.isSome_iff_exists]
  constructor
  · intro h
    obtain ⟨record, hmem, hname⟩ := h
    exact ⟨record, hname ▸ mem_assemble_packages.mp hmem⟩
  · intro h
    obtain ⟨record, hrecord⟩ := h
    obtain rfl := name_of_run_packages hrecord
    exact ⟨record, mem_assemble_packages.mpr hrecord, rfl⟩

/-- A package of the graph depends on the other packages that it calls. -/
theorem mem_dependencies_run {name other : String} {record : PackageRecord}
    (h : (Assembly.run (Tables.empty.enterAll findings)).packages[name]? = some record) :
    other ∈ record.dependencies ↔
      (name, other) ∈ packageCalls (Tables.empty.enterAll findings) ∧ other ≠ name := by
  rw [run_packages_getElem?] at h
  obtain ⟨old, hold, rfl⟩ := Option.map_eq_some_iff.mp h
  rw [PackageRecord.mem_dependencies_noteCalls,
    (Tables.isFresh_of_ofFindings_packages hold).dependencies]
  exact or_iff_right Std.ExtTreeSet.not_mem_empty

/-- The dependents of a package of the graph are the other packages that call it. -/
theorem mem_dependents_run {name other : String} {record : PackageRecord}
    (h : (Assembly.run (Tables.empty.enterAll findings)).packages[name]? = some record) :
    other ∈ record.dependents ↔
      (other, name) ∈ packageCalls (Tables.empty.enterAll findings) ∧ other ≠ name := by
  rw [run_packages_getElem?] at h
  obtain ⟨old, hold, rfl⟩ := Option.map_eq_some_iff.mp h
  rw [PackageRecord.mem_dependents_noteCalls,
    (Tables.isFresh_of_ofFindings_packages hold).dependents]
  exact or_iff_right Std.ExtTreeSet.not_mem_empty

end CallGraph

end ActionCalls
