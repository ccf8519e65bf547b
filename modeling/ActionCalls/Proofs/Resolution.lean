import ActionCalls.Proofs.Graph.Segment
import ActionCalls.Proofs.Source.Names
import ActionCalls.Resolution

/-!
# Where calls go

A called name is looked up in three places, one after the other: the methods of the calling class,
the package of the class, and the imports. The first two give the name at most one target. The
imports give it that of the **first one that fits**: an import that gives the name no package, or one
that is not of the project, is passed over and does not end the search.

An import fits a name as `q.*` or as `q.name`, and it can do so with one `q` only, as the name has no
dot (`importedPackage?_eq_some_iff`). So `a.record` does not fit the name `cord`, although it ends in
it.
-/

namespace ActionCalls

/-! ### Resolved calls -/

/-- Calls of a name are left out when it is listed or starts as an accessor does. -/
theorem CallFilter.ignores_iff {filter : CallFilter} {name : String} :
    filter.ignores name ↔
      name ∈ filter.builtins ∨
        (∃ beginning ∈ filter.accessorPrefixes, beginning.toList <+: name.toList) ∨
        name ∈ filter.blacklist := by
  simp [CallFilter.ignores, startsWithAny, or_assoc]

/-- Where a call goes: to a method of the class, to a name in the package of the class if the project
has it, and otherwise to a name in a package of the project that an import gives to the name. -/
theorem resolve?_cases {project : NameSet} {context : CallContext} {name : String}
    {target : CallTarget} (h : resolve? project context name = some target) :
    name ∈ context.localMethods ∧ target = .inClass context.package context.owner name ∨
      context.package ∈ project ∧ target = .inPackage context.package name ∨
      context.package ∉ project ∧ ∃ clause ∈ context.imports, ∃ package ∈ project,
        importedPackage? name clause = some package ∧ target = .inPackage package name := by
  unfold resolve? at h
  split at h
  case isTrue hlocal => exact Or.inl ⟨hlocal, (Option.some.inj h).symm⟩
  case isFalse =>
      split at h
      case isTrue hown => exact Or.inr (Or.inl ⟨hown, (Option.some.inj h).symm⟩)
      case isFalse hunknown =>
          obtain ⟨package, himported, rfl⟩ := Option.map_eq_some_iff.mp h
          obtain ⟨clause, hclause, hpackage⟩ := List.exists_of_findSome?_eq_some himported
          obtain ⟨hpackage, hmem⟩ := Option.filter_eq_some_iff.mp hpackage
          exact Or.inr (Or.inr ⟨hunknown, clause, hclause, package, of_decide_eq_true hmem, hpackage,
            rfl⟩)

theorem method_of_resolve? {project : NameSet} {context : CallContext} {name : String}
    {target : CallTarget} (h : resolve? project context name = some target) :
    target.method = name := by
  rcases resolve?_cases h with ⟨-, rfl⟩ | ⟨-, rfl⟩ | ⟨-, -, -, -, -, -, rfl⟩ <;> rfl

theorem mem_resolveBody {project : NameSet} {filter : CallFilter} {context : CallContext}
    {body : Text} {target : CallTarget} :
    target ∈ resolveBody project filter context body ↔
      ∃ name ∈ Source.callNames body, ¬ filter.ignores name ∧
        resolve? project context name = some target := by
  simp [resolveBody, Std.ExtTreeSet.mem_ofList, and_assoc]

/-- The method of a resolved target is the last segment of the id of the target. -/
theorem lastSegment_of_mem_resolveBody {project : NameSet} {filter : CallFilter}
    {context : CallContext} {body : Text} {target : CallTarget}
    (h : target ∈ resolveBody project filter context body) :
    lastSegment target.id = target.method := by
  obtain ⟨name, hname, -, hresolve⟩ := mem_resolveBody.mp h
  refine CallTarget.lastSegment_id ?_
  rw [method_of_resolve? hresolve]
  exact (Source.isName_of_mem_callNames hname).not_mem_dot

/-! ### What imports give to a name -/

/-- Does an import give a package to a name, together with all names or for this name only? -/
def Gives (clause name package : String) : Prop :=
  clause = package ++ ".*" ∨ clause = package ++ "." ++ name

/-- Is the package that of the first import which gives the name a package of the project? -/
def FirstGiven (project : NameSet) (imports : List String) (name package : String) : Prop :=
  ∃ earlier clause later, imports = earlier ++ clause :: later ∧
    package ∈ project ∧ Gives clause name package ∧
    ∀ passed ∈ earlier, ∀ other ∈ project, ¬ Gives passed name other

theorem FirstGiven.mem_project {project : NameSet} {imports : List String} {name package : String}
    (h : FirstGiven project imports name package) : package ∈ project := by
  obtain ⟨-, -, -, -, hmem, -⟩ := h
  exact hmem

theorem Text.before?_eq_some_iff {s ending front : Text} :
    s.before? ending = some front ↔ s = front ++ ending := by
  unfold before?
  rw [Option.map_eq_some_iff]
  constructor
  · intro h
    obtain ⟨reversed, hafter, rfl⟩ := h
    rw [← List.reverse_reverse s, after?_eq_some_iff.mp hafter, List.reverse_append,
      List.reverse_reverse]
  · intro h
    subst h
    exact ⟨front.reverse, after?_eq_some_iff.mpr List.reverse_append, List.reverse_reverse front⟩

theorem gives_iff_toList {clause name package : String} :
    Gives clause name package ↔
      clause.toList = package.toList ++ '.' :: ['*'] ∨
        clause.toList = package.toList ++ '.' :: name.toList := by
  rw [Gives, ← String.toList_inj, ← String.toList_inj]
  simp [String.toList_append]

/-- An import gives a name without dots at most one package, that which is read from it. -/
theorem importedPackage?_eq_some_iff {clause name package : String} (hname : '.' ∉ name.toList) :
    importedPackage? name clause = some package ↔ Gives clause name package := by
  rw [gives_iff_toList]
  unfold importedPackage?
  split
  case h_1 front hfront =>
      have hclause : clause.toList = front ++ '.' :: ['*'] := Text.before?_eq_some_iff.mp hfront
      rw [hclause, Option.some.injEq]
      constructor
      · intro h
        subst h
        exact Or.inl (by rw [String.toList_ofList])
      · intro h
        -- With either ending the clause is cut at its last dot.
        have hcut : front = package.toList := by
          rcases h with h | h
          · exact List.append_cancel_right h
          · exact (Text.append_dot_inj (by rw [List.count_eq_zero_of_not_mem hname]; rfl) h).1
        rw [hcut, String.ofList_toList]
  case h_2 hnone =>
      have hwhole : clause.toList ≠ package.toList ++ '.' :: ['*'] := fun h =>
        absurd (hnone.symm.trans (Text.before?_eq_some_iff.mpr h)) (by simp)
      rw [or_iff_right hwhole, ← Text.before?_eq_some_iff, Option.map_eq_some_iff]
      constructor
      · intro h
        obtain ⟨front, hfront, rfl⟩ := h
        rw [String.toList_ofList, hfront]
      · intro h
        exact ⟨package.toList, h, String.ofList_toList⟩

section Given

variable {project : NameSet} {imports : List String} {clause name package : String}

theorem givenInProject_eq_some_iff (hname : '.' ∉ name.toList) :
    (importedPackage? name clause).filter (· ∈ project) = some package ↔
      package ∈ project ∧ Gives clause name package := by
  rw [Option.filter_eq_some_iff, importedPackage?_eq_some_iff hname, decide_eq_true_iff, and_comm]

theorem givenInProject_eq_none_iff (hname : '.' ∉ name.toList) :
    (importedPackage? name clause).filter (· ∈ project) = none ↔
      ∀ package ∈ project, ¬ Gives clause name package := by
  rw [Option.eq_none_iff_forall_ne_some]
  refine forall_congr' fun package => ?_
  rw [ne_eq, givenInProject_eq_some_iff hname, not_and]

theorem findSome?_eq_some_iff_firstGiven (hname : '.' ∉ name.toList) :
    (imports.findSome? fun clause => (importedPackage? name clause).filter (· ∈ project)) =
        some package ↔
      FirstGiven project imports name package := by
  rw [List.findSome?_eq_some_iff, FirstGiven]
  simp only [givenInProject_eq_some_iff hname, givenInProject_eq_none_iff hname, and_assoc]

theorem findSome?_eq_none_iff_forall_not_gives (hname : '.' ∉ name.toList) :
    (imports.findSome? fun clause => (importedPackage? name clause).filter (· ∈ project)) = none ↔
      ∀ clause ∈ imports, ∀ package ∈ project, ¬ Gives clause name package := by
  rw [List.findSome?_eq_none_iff]
  simp only [givenInProject_eq_none_iff hname]

end Given

/-! ### The target of a name -/

/-- The result of resolving a name: the method of the class for local names only, else the name in the
package of the class if the project has that package, else the name in the package of the first import
that fits, and nothing only where none fits. -/
structure ResolvesTo (project : NameSet) (context : CallContext) (name : String)
    (result : Option CallTarget) : Prop where
  inClass_iff : result = some (.inClass context.package context.owner name) ↔
    name ∈ context.localMethods
  inPackage_iff : name ∉ context.localMethods →
    (result = some (.inPackage context.package name) ↔ context.package ∈ project)
  imported_iff : name ∉ context.localMethods → context.package ∉ project →
    ∀ target, result = some target ↔
      ∃ package, FirstGiven project context.imports name package ∧ target = .inPackage package name
  none_iff : result = none ↔
    name ∉ context.localMethods ∧ context.package ∉ project ∧
      ∀ clause ∈ context.imports, ∀ package ∈ project, ¬ Gives clause name package

/-- The targets called in a body: which ones they are, and where those lie that are not methods of the
class. -/
structure ResolvesBody (project : NameSet) (filter : CallFilter) (context : CallContext)
    (body : Text) (targets : Std.ExtTreeSet CallTarget) : Prop where
  mem_iff : ∀ target, target ∈ targets ↔
    ∃ name ∈ Source.callNames body, name ∉ filter.builtins ∧
      (∀ beginning ∈ filter.accessorPrefixes, ¬ beginning.toList <+: name.toList) ∧
      name ∉ filter.blacklist ∧ resolve? project context name = some target
  located : ∀ target ∈ targets,
    (∃ name ∈ context.localMethods, target = .inClass context.package context.owner name) ∨
      target.owner = none ∧ target.package ∈ project ∧
        (target.package = context.package ∨
          ∃ clause ∈ context.imports, Gives clause target.method target.package)

theorem CallTarget.inClass_ne_inPackage {package owner method package' method' : String} :
    inClass package owner method ≠ inPackage package' method' := by
  simp [inClass, inPackage]

section Resolve

variable {project : NameSet} {context : CallContext} {name : String}

theorem resolve?_of_local (hlocal : name ∈ context.localMethods) :
    resolve? project context name = some (.inClass context.package context.owner name) :=
  if_pos hlocal

theorem resolve?_of_own (hforeign : name ∉ context.localMethods) (hown : context.package ∈ project) :
    resolve? project context name = some (.inPackage context.package name) :=
  (if_neg hforeign).trans (if_pos hown)

theorem resolve?_of_imported (hforeign : name ∉ context.localMethods)
    (hunknown : context.package ∉ project) :
    resolve? project context name =
      (context.imports.findSome? fun clause =>
        (importedPackage? name clause).filter (· ∈ project)).map (.inPackage · name) :=
  (if_neg hforeign).trans (if_neg hunknown)

theorem resolve?_eq_some_iff_firstGiven (hname : '.' ∉ name.toList)
    (hforeign : name ∉ context.localMethods) (hunknown : context.package ∉ project)
    (target : CallTarget) :
    resolve? project context name = some target ↔
      ∃ package, FirstGiven project context.imports name package ∧
        target = .inPackage package name := by
  rw [resolve?_of_imported hforeign hunknown, Option.map_eq_some_iff]
  refine exists_congr fun package => ?_
  rw [findSome?_eq_some_iff_firstGiven hname]
  exact and_congr_right fun _ => eq_comm

/-- Each of the three places decides a name that the places before it do not know. -/
theorem resolvesTo_resolve? (hname : '.' ∉ name.toList) :
    ResolvesTo project context name (resolve? project context name) := by
  by_cases hlocal : name ∈ context.localMethods
  · have hresult : resolve? project context name = some _ := resolve?_of_local hlocal
    exact {
      inClass_iff := iff_of_true hresult hlocal
      inPackage_iff := fun hforeign => absurd hlocal hforeign
      imported_iff := fun hforeign => absurd hlocal hforeign
      none_iff := iff_of_false (by rw [hresult]; simp) fun h => h.1 hlocal }
  · by_cases hown : context.package ∈ project
    · have hresult := resolve?_of_own hlocal hown
      exact {
        inClass_iff := iff_of_false
          (by rw [hresult]; simp [CallTarget.inClass_ne_inPackage.symm]) hlocal
        inPackage_iff := fun _ => iff_of_true hresult hown
        imported_iff := fun _ hunknown => absurd hown hunknown
        none_iff := iff_of_false (by rw [hresult]; simp) fun h => h.2.1 hown }
    · have hiff := resolve?_eq_some_iff_firstGiven hname hlocal hown
      have hnone : resolve? project context name = none ↔
          ∀ clause ∈ context.imports, ∀ package ∈ project, ¬ Gives clause name package := by
        rw [resolve?_of_imported hlocal hown, Option.map_eq_none_iff,
          findSome?_eq_none_iff_forall_not_gives hname]
      refine {
        inClass_iff := iff_of_false (fun h => ?_) hlocal
        inPackage_iff := fun _ => iff_of_false (fun h => ?_) hown
        imported_iff := fun _ _ => hiff
        none_iff := hnone.trans ⟨fun h => ⟨hlocal, hown, h⟩, fun h => h.2.2⟩ }
      · obtain ⟨package, -, htarget⟩ := (hiff _).mp h
        exact CallTarget.inClass_ne_inPackage htarget
      · -- What an import gives is a package of the project, and that of the class is not.
        obtain ⟨package, hfirst, htarget⟩ := (hiff _).mp h
        obtain rfl : context.package = package := congrArg CallTarget.package htarget
        exact hown hfirst.mem_project

end Resolve

/-! ### The targets of a body -/

theorem resolvesBody_resolveBody (project : NameSet) (filter : CallFilter) (context : CallContext)
    (body : Text) :
    ResolvesBody project filter context body (resolveBody project filter context body) := by
  refine ⟨fun target => ?_, fun target hmem => ?_⟩
  · rw [mem_resolveBody]
    refine exists_congr fun name => and_congr_right fun _ => ?_
    rw [CallFilter.ignores_iff, not_or, not_or]
    simp only [not_exists, not_and, and_assoc]
  · obtain ⟨name, hcalled, -, hresolve⟩ := mem_resolveBody.mp hmem
    have hname := (Source.isName_of_mem_callNames hcalled).not_mem_dot
    rcases resolve?_cases hresolve with ⟨hlocal, rfl⟩ | ⟨hown, rfl⟩ |
      ⟨-, clause, hclause, package, hpackage, himported, rfl⟩
    · exact Or.inl ⟨name, hlocal, rfl⟩
    · exact Or.inr ⟨rfl, hown, Or.inl rfl⟩
    · have hgives := (importedPackage?_eq_some_iff hname).mp himported
      exact Or.inr ⟨rfl, hpackage, Or.inr ⟨clause, hclause, hgives⟩⟩

/-- **Resolution is sound and complete.** A name without dots has the target that the first of the
three places gives it, and none only where no place has any. The targets of a body are those of its
called names that are not left out. -/
theorem resolution_exact (project : NameSet) (context : CallContext) :
    (∀ name : String, '.' ∉ name.toList →
      ResolvesTo project context name (resolve? project context name)) ∧
    ∀ filter body,
      ResolvesBody project filter context body (resolveBody project filter context body) :=
  ⟨fun _ hname => resolvesTo_resolve? hname, fun filter body =>
    resolvesBody_resolveBody project filter context body⟩

/-- A class of a package that the project does not have. Its imports name a foreign package, one name of
a package of the project, and then two packages of the project. -/
def CallContext.login : CallContext :=
  ⟨"vendor.actions", "LoginAction", ["java.util.*", "app.audit.record", "app.helpers.*", "app.audit.*"],
    .ofList ["check"]⟩

/-- The import of `record` is passed over for `cord`, so that `cord` comes from the import behind it. -/
theorem resolution_exact_login :
    let project : NameSet := .ofList ["app.audit", "app.helpers"]
    FirstGiven project CallContext.login.imports "record" "app.audit" ∧
      FirstGiven project CallContext.login.imports "cord" "app.helpers" ∧
      ∀ filter body, ∀ target ∈ resolveBody project filter .login body,
        target.owner = none → target.package ∈ project := by
  intro project
  obtain ⟨hnames, hbodies⟩ := resolution_exact project .login
  have hunknown : CallContext.login.package ∉ project := by decide +kernel
  have hfirst : ∀ name package : String, '.' ∉ name.toList → name ∉ CallContext.login.localMethods →
      resolve? project .login name = some (.inPackage package name) →
      FirstGiven project CallContext.login.imports name package := by
    intro name package hname hforeign hresolve
    obtain ⟨found, hfound, htarget⟩ :=
      ((hnames name hname).imported_iff hforeign hunknown _).mp hresolve
    obtain rfl : package = found := congrArg CallTarget.package htarget
    exact hfound
  refine ⟨hfirst _ _ (by decide) (by decide +kernel) (by decide +kernel),
    hfirst _ _ (by decide) (by decide +kernel) (by decide +kernel), ?_⟩
  intro filter body target hmem howner
  rcases (hbodies filter body).located target hmem with ⟨name, -, rfl⟩ | ⟨-, hproject, -⟩
  · cases howner
  · exact hproject

end ActionCalls
