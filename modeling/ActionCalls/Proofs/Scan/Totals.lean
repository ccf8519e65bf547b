import Mathlib.Algebra.GroupWithZero.Nat
import ActionCalls.Proofs.Graph.Packages
import ActionCalls.Proofs.Scan.Findings

/-!
# The totals of packages

The findings in a file count for the package of its class and for no other: first the class, which
makes the record where there is none, then each of the declarations. So after a scan a package has a
record exactly when some file has its class in it, and the record counts **these files and their
declarations**, each as often as it occurs.
-/

namespace ActionCalls

/-- The record with some more files of the package and the methods they declare. -/
def PackageRecord.addFiles (files methods : Nat) (record : PackageRecord) : PackageRecord :=
  { record with
    totalMethods := record.totalMethods + methods
    totalClasses := record.totalClasses + files }

theorem PackageRecord.addFiles_addFiles (record : PackageRecord)
    (files methods files' methods' : Nat) :
    (record.addFiles files methods).addFiles files' methods' =
      record.addFiles (files + files') (methods + methods') := by
  simp only [addFiles, Nat.add_assoc]

namespace Scanner

/-- The texts with a class in the package, in their order. -/
def filesOf (scanner : Scanner) (package : String) (texts : List Text) : List Text :=
  texts.filter fun s => (scanner.classRecord? s).any fun c => c.package = package

/-- The number of declarations in some texts. -/
def methodCount (scanner : Scanner) (texts : List Text) : Nat :=
  (texts.map fun s => (scanner.declarations s).length).sum

/-- The record that some texts give a package. -/
def packageRecord? (scanner : Scanner) (texts : List Text) (package : String) :
    Option PackageRecord :=
  if scanner.filesOf package texts = [] then none
  else some ((PackageRecord.empty package).addFiles (scanner.filesOf package texts).length
    (scanner.methodCount (scanner.filesOf package texts)))

variable {scanner : Scanner} {package : String}

theorem mem_filesOf {texts : List Text} {s : Text} :
    s ∈ scanner.filesOf package texts ↔
      s ∈ texts ∧ ∃ c, scanner.classRecord? s = some c ∧ c.package = package := by
  rw [filesOf, List.mem_filter]
  cases scanner.classRecord? s <;> simp

theorem filesOf_cons (scanner : Scanner) (package : String) (s : Text) (rest : List Text) :
    scanner.filesOf package (s :: rest) =
      if (scanner.classRecord? s).any fun c => c.package = package then
        s :: scanner.filesOf package rest
      else scanner.filesOf package rest :=
  List.filter_cons

theorem filesOf_append (scanner : Scanner) (package : String) (first second : List Text) :
    scanner.filesOf package (first ++ second) =
      scanner.filesOf package first ++ scanner.filesOf package second :=
  List.filter_append ..

theorem methodCount_append (scanner : Scanner) (first second : List Text) :
    scanner.methodCount (first ++ second) =
      scanner.methodCount first + scanner.methodCount second := by
  rw [methodCount, List.map_append, List.sum_append]
  rfl

/-! ### What findings count for -/

theorem foldl_tally_declarations (c : ClassRecord) (context : CallContext)
    (declarations : List Source.MethodDeclaration) (record? : Option PackageRecord) :
    (declarations.flatMap (scanner.declarationFindings c context)).foldl
        (Finding.tally package) record? =
      if c.package = package then record?.map (.addFiles 0 declarations.length) else record? := by
  induction declarations generalizing record? with
  | nil =>
      split
      · exact Option.map_id'.symm
      · rfl
  | cons declaration rest ih =>
      rw [List.flatMap_cons, List.foldl_append, ih]
      show (if c.package = package then
        (if c.package = package then _ else record?).map _ else
          if c.package = package then _ else record?) = _
      by_cases hpackage : c.package = package
      · simp only [if_pos hpackage, Option.map_map]
        refine congrArg (Option.map · record?) ?_
        funext record
        show (PackageRecord.addFiles 0 1 record).addFiles 0 rest.length = _
        rw [PackageRecord.addFiles_addFiles, Nat.add_comm 1, List.length_cons]
      · simp only [if_neg hpackage]

theorem foldl_tally_fileFindings (s : Text) (record? : Option PackageRecord) :
    (scanner.fileFindings s).foldl (Finding.tally package) record? =
      if (scanner.classRecord? s).any fun c => c.package = package then
        some ((record?.getD (.empty package)).addFiles 1 (scanner.declarations s).length)
      else record? := by
  unfold fileFindings
  cases scanner.classRecord? s with
  | none => rfl
  | some c =>
      rw [Option.elim_some, findings, List.foldl_cons, foldl_tally_declarations, Finding.tally,
        Option.any_some]
      by_cases hpackage : c.package = package
      · simp only [hpackage, decide_true, if_true]
        show some ((PackageRecord.addFiles 1 0 _).addFiles 0 _) = _
        rw [PackageRecord.addFiles_addFiles, Nat.zero_add]
      · simp [hpackage]

theorem foldl_tally_allFindings (texts : List Text) (record? : Option PackageRecord) :
    (scanner.allFindings texts).foldl (Finding.tally package) record? =
      if scanner.filesOf package texts = [] then record?
      else some ((record?.getD (.empty package)).addFiles (scanner.filesOf package texts).length
        (scanner.methodCount (scanner.filesOf package texts))) := by
  induction texts generalizing record? with
  | nil => rfl
  | cons s rest ih =>
      rw [allFindings_cons, List.foldl_append, ih, foldl_tally_fileFindings, filesOf_cons]
      by_cases hfile : (scanner.classRecord? s).any fun c => c.package = package
      · simp only [if_pos hfile, reduceCtorEq, if_false, Option.getD_some]
        split
        case isTrue hnone => simp [hnone, methodCount]
        case isFalse =>
            rw [PackageRecord.addFiles_addFiles, Nat.add_comm 1, List.length_cons]
            rfl
      · simp only [if_neg hfile]

/-- After a scan a package has the record that its files give it. -/
theorem scanAll_packages_getElem? (scanner : Scanner) (texts : List Text) (package : String) :
    (scanner.scanAll .empty texts).packages[package]? = scanner.packageRecord? texts package := by
  rw [scanAll_eq_enterAll, Tables.enterAll_packages_getElem?, foldl_tally_allFindings]
  rfl

/-- A package has a record exactly when it has a class. -/
theorem isSome_packageRecord? {texts : List Text} :
    (scanner.packageRecord? texts package).isSome ↔
      ∃ s ∈ texts, ∃ c, scanner.classRecord? s = some c ∧ c.package = package := by
  have hisSome : (scanner.packageRecord? texts package).isSome ↔
      scanner.filesOf package texts ≠ [] := by
    unfold packageRecord?
    split <;> simp [*]
  rw [hisSome]
  constructor
  · intro h
    obtain ⟨s, hmem⟩ := List.exists_mem_of_ne_nil _ h
    obtain ⟨htext, hclass⟩ := mem_filesOf.mp hmem
    exact ⟨s, htext, hclass⟩
  · intro h
    obtain ⟨s, htext, hclass⟩ := h
    exact List.ne_nil_of_mem (mem_filesOf.mpr ⟨htext, hclass⟩)

/-- The packages of the graph are those of the classes in the texts. -/
theorem exists_package_iff {texts : List Text} :
    (∃ record ∈ (CallGraph.assemble (scanner.scanAll .empty texts)).packages,
      record.name = package) ↔
      ∃ s ∈ texts, ∃ c, scanner.classRecord? s = some c ∧ c.package = package := by
  rw [← isSome_packageRecord?, ← scanAll_packages_getElem?, scanAll_eq_enterAll]
  exact CallGraph.exists_assemble_package_iff

end Scanner

end ActionCalls
