import ActionCalls.Proofs.Scan.Union

/-!
# Which packages have records

The record of a package is made by a file with an action class. A call that crosses packages is noted
on either side in the record there is: the caller becomes a **dependent** of the called package, and
the called package a **dependency** of the caller.

The caller always has a record, as its calls stand in the file of a class. So all dependents are
recorded packages. The called package need not have one. A call leaves its package only where the
project does not know the package, and then it goes to a package that an import names and that the
project knows, with or without action classes in it (`Scanner.ImportsProject`). Where every package
of the project has an action class, all dependencies are recorded too.
-/

namespace ActionCalls

namespace CallGraph

/-- Does the graph have a record of the package? -/
def HasRecord (graph : CallGraph) (package : String) : Prop :=
  ∃ record ∈ graph.packages, record.name = package

instance (graph : CallGraph) : DecidablePred graph.HasRecord :=
  fun _ => inferInstanceAs (Decidable (∃ record ∈ graph.packages, _))

/-- All packages that the records mention have records themselves. -/
def MentionsRecorded (graph : CallGraph) : Prop :=
  ∀ record ∈ graph.packages, ∀ name,
    name ∈ record.dependencies ∨ name ∈ record.dependents → graph.HasRecord name

end CallGraph

/-- Is a package of the project imported by a file of a package that the project does not know, with
some name that may be called? -/
def Scanner.ImportsProject (scanner : Scanner) (texts : List Text) (package other : String) :
    Prop :=
  package ∉ scanner.project ∧ other ∈ scanner.project ∧
    ∃ s ∈ texts, Source.packageName? s = some package ∧
      ∃ clause ∈ Source.imports s, ∃ name, importedPackage? name clause = some other

/-- The packages that the records of a graph mention: the dependents have records, and the
dependencies are imported. -/
structure CallGraph.MentionsKnown (graph : CallGraph) (scanner : Scanner) (texts : List Text) :
    Prop where
  dependents : ∀ record ∈ graph.packages, ∀ name ∈ record.dependents, graph.HasRecord name
  dependencies : ∀ record ∈ graph.packages, ∀ name ∈ record.dependencies,
    scanner.ImportsProject texts record.name name

namespace Scanner

variable {scanner : Scanner} {texts : List Text} {package other : String}

/-- The package that a call comes from has a record. -/
theorem hasRecord_of_mem_packageCalls
    (h : (package, other) ∈ Assembly.packageCalls (scanner.scanAll .empty texts)) :
    (CallGraph.assemble (scanner.scanAll .empty texts)).HasRecord package := by
  obtain ⟨s, c, declaration, hdeclared, hpackage, -⟩ := mem_packageCalls_scanAll.mp h
  exact exists_package_iff.mpr ⟨s, hdeclared.1, c, hdeclared.2.1, hpackage⟩

/-- A call that leaves its package goes to an imported one. -/
theorem importsProject_of_mem_packageCalls
    (h : (package, other) ∈ Assembly.packageCalls (scanner.scanAll .empty texts))
    (hne : other ≠ package) : scanner.ImportsProject texts package other := by
  obtain ⟨s, c, declaration, hdeclared, rfl, target, htarget, rfl⟩ := mem_packageCalls_scanAll.mp h
  obtain ⟨name, -, -, hresolve⟩ := mem_resolveBody.mp htarget
  rcases resolve?_cases hresolve with ⟨-, rfl⟩ | ⟨-, rfl⟩ | ⟨hunknown, clause, hclause, package, hmem,
    himported, rfl⟩
  · exact absurd rfl hne
  · exact absurd rfl hne
  · exact ⟨hunknown, hmem, s, hdeclared.1, (classRecord?_inv hdeclared.2.1).1, clause, hclause,
      name, himported⟩

end Scanner

/-! ### What the records mention -/

namespace CallGraph

open Scanner

theorem hasRecord_of_mem_dependents {scanner : Scanner} {texts : List Text}
    {record : PackageRecord} {name : String}
    (hmem : record ∈ (assemble (scanner.scanAll .empty texts)).packages)
    (hname : name ∈ record.dependents) :
    (assemble (scanner.scanAll .empty texts)).HasRecord name := by
  rw [scanAll_eq_enterAll] at hmem
  have hcall := (mem_dependents_run (mem_assemble_packages.mp hmem)).mp hname
  rw [← scanAll_eq_enterAll] at hcall
  exact hasRecord_of_mem_packageCalls hcall.1

theorem importsProject_of_mem_dependencies {scanner : Scanner} {texts : List Text}
    {record : PackageRecord} {name : String}
    (hmem : record ∈ (assemble (scanner.scanAll .empty texts)).packages)
    (hname : name ∈ record.dependencies) : scanner.ImportsProject texts record.name name := by
  rw [scanAll_eq_enterAll] at hmem
  have hcall := (mem_dependencies_run (mem_assemble_packages.mp hmem)).mp hname
  rw [← scanAll_eq_enterAll] at hcall
  exact importsProject_of_mem_packageCalls hcall.1 hcall.2

/-- **Dependents are recorded, dependencies are imported.** Every package that the records of a scan
name as a dependent has a record of its own. A dependency is a package of the project, which a file
of the dependent package imports. -/
theorem mentionsKnown_scanAll (scanner : Scanner) (texts : List Text) :
    (assemble (scanner.scanAll .empty texts)).MentionsKnown scanner texts where
  dependents := fun _ hmem _ hname => hasRecord_of_mem_dependents hmem hname
  dependencies := fun _ hmem _ hname => importsProject_of_mem_dependencies hmem hname

/-- Where every package of the project has an action class, all packages mentioned are recorded. -/
theorem mentionsRecorded_scanAll {scanner : Scanner} {texts : List Text}
    (h : ∀ package ∈ scanner.project,
      (assemble (scanner.scanAll .empty texts)).HasRecord package) :
    (assemble (scanner.scanAll .empty texts)).MentionsRecorded := by
  intro record hmem name hname
  rcases hname with hdependency | hdependent
  · exact h name (importsProject_of_mem_dependencies hmem hdependency).2.1
  · exact hasRecord_of_mem_dependents hmem hdependent

end CallGraph

/-- A class of a package outside the project that imports a package of the project. -/
def Scanner.vendorLogin : List Text :=
  ["package vendor.actions;import app.helpers.*;public class LoginAction{void run(){render();}}".toList]

/-- The imported package has no action class, so it is a dependency without a record. -/
theorem not_mentionsRecorded_vendorLogin :
    let scanner := Scanner.ofSettings {} ∅ (.ofList ["app.helpers"])
    ¬ (CallGraph.assemble (scanner.scanAll .empty Scanner.vendorLogin)).MentionsRecorded := by
  intro scanner h
  obtain ⟨record, hmem, hdependency, hnone⟩ :
      ∃ record ∈ (CallGraph.assemble (scanner.scanAll .empty Scanner.vendorLogin)).packages,
        "app.helpers" ∈ record.dependencies ∧
          ¬ (CallGraph.assemble (scanner.scanAll .empty Scanner.vendorLogin)).HasRecord
            "app.helpers" := by
    decide +kernel
  exact hnone (h record hmem _ (Or.inl hdependency))

end ActionCalls
