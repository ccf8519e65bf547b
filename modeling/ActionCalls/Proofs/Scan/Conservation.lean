import Mathlib.Data.List.Nodup
import Mathlib.Data.List.Perm.Subperm
import ActionCalls.Proofs.Graph.Degrees
import ActionCalls.Proofs.Scan.Union

/-!
# Nothing is lost in the totals

The totals of a package are counted in one table, and what is listed of the package comes from two
others, in which records and nodes collide: of two files with one class only the last is listed, and
overloads of one method share a node. The totals count each of them.

Both sides are about one list, that of the classes and methods **found** in the texts. The totals of
a package count those of its members that lie in the package (`countP_classes_allFindings`,
`countP_nodes_allFindings`), and what is listed is part of the list, without repeats
(`classes_subperm`, `declaredNodes_subperm`). No class that is found is left out, as each has exactly
one record to be counted in (`countP_packages`).
-/

namespace ActionCalls

namespace Scanner

/-- The texts with what their scans return, as they are scanned one after the other. -/
def answers (scanner : Scanner) : Tables → List Text → List (Text × Option String)
  | _, [] => []
  | tables, s :: rest =>
      (s, (scanner.scan tables s).2) :: scanner.answers (scanner.scan tables s).1 rest

/-- The texts of a package whose scans return a class. -/
def answered (scanner : Scanner) (package : String) (texts : List Text) : List Text :=
  ((scanner.answers .empty texts).filter fun (s, name?) =>
    Source.packageName? s = some package ∧ name?.isSome).map Prod.fst

end Scanner

/-- The totals of a graph count each class and each declaration in the texts that were scanned. -/
structure CallGraph.TotalsConserved (graph : CallGraph) (scanner : Scanner) (texts : List Text) :
    Prop where
  totalClasses : ∀ record ∈ graph.packages,
    record.totalClasses = (scanner.answered record.name texts).length
  totalMethods : ∀ record ∈ graph.packages, record.totalMethods =
    ((scanner.answered record.name texts).map fun s => (scanner.declarations s).length).sum
  sum_totalClasses : (graph.packages.map (·.totalClasses)).sum =
    (scanner.answers .empty texts).countP fun (_, name?) => name?.isSome
  classes_le : ∀ record ∈ graph.packages,
    graph.classes.countP (fun c => c.package = record.name) ≤ record.totalClasses
  declared_le : ∀ record ∈ graph.packages,
    graph.nodes.countP (fun node => node.package = record.name ∧
      node.id ∈ (scanner.scanAll .empty texts).nodes) ≤ record.totalMethods
  isAction_declared : ∀ node ∈ graph.nodes, node.isAction = true →
    node.id ∈ (scanner.scanAll .empty texts).nodes

namespace Scanner

variable {scanner : Scanner} {texts : List Text} {package : String}

/-! ### What is found -/

/-- What a scan returns does not depend on the tables so far. -/
theorem answers_eq (scanner : Scanner) (tables : Tables) (texts : List Text) :
    scanner.answers tables texts =
      texts.map fun s => (s, (scanner.classRecord? s).map ClassRecord.qualifiedName) := by
  induction texts generalizing tables with
  | nil => rfl
  | cons s rest ih => rw [answers, ih, scan_snd, List.map_cons]

/-- The texts that are answered for a package are the files of the package. -/
theorem answered_eq_filesOf (scanner : Scanner) (package : String) (texts : List Text) :
    scanner.answered package texts = scanner.filesOf package texts := by
  rw [answered, answers_eq, List.filter_map, List.map_map]
  refine (List.map_id' _).trans (List.filter_congr ?_)
  intro s _
  cases hclass : scanner.classRecord? s with
  | none => simp [hclass]
  | some c =>
      obtain ⟨hpackage, -⟩ := classRecord?_inv hclass
      simp [hclass, hpackage]

/-- A package has as many files as classes are found in it. -/
theorem countP_classes_allFindings (scanner : Scanner) (texts : List Text) (package : String) :
    (Findings.classes (scanner.allFindings texts)).countP (fun c => c.package = package) =
      (scanner.filesOf package texts).length := by
  rw [classes_allFindings, List.countP_filterMap, filesOf, ← List.countP_eq_length_filter]
  refine List.countP_congr ?_
  intro s _
  cases scanner.classRecord? s <;> simp

/-- A package has as many declarations in its files as methods are found in it. -/
theorem countP_nodes_allFindings (scanner : Scanner) (texts : List Text) (package : String) :
    (Findings.nodes (scanner.allFindings texts)).countP (fun node => node.package = package) =
      scanner.methodCount (scanner.filesOf package texts) := by
  rw [nodes_allFindings]
  induction texts with
  | nil => rfl
  | cons s rest ih =>
      rw [List.flatMap_cons, List.countP_append, ih, filesOf_cons]
      cases hclass : scanner.classRecord? s with
      | none => simp
      | some c =>
          by_cases hpackage : c.package = package <;>
            simp [methodCount, MethodNode.declared, hpackage]

/-! ### What is listed -/

/-- The classes that are listed are among those found, each once. -/
theorem classes_subperm (scanner : Scanner) (texts : List Text) :
    (CallGraph.assemble (scanner.scanAll .empty texts)).classes.Subperm
      (Findings.classes (scanner.allFindings texts)) := by
  have hascending := CallGraph.assemble_classes_ascending (scanner.allFindings texts)
  rw [← scanAll_eq_enterAll] at hascending
  refine List.Nodup.subperm (.of_map _ (Ordered.nodup_map_of_ascending hascending)) ?_
  intro c hc
  obtain ⟨s, hs, hclass⟩ := exists_text_of_mem_classes hc
  rw [classes_allFindings]
  exact List.mem_filterMap.mpr ⟨s, hs, hclass⟩

/-- The declared nodes that are listed are, without their statistics, among those found, each
once. -/
theorem declaredNodes_subperm (scanner : Scanner) (texts : List Text) :
    (CallGraph.declaredNodes (scanner.scanAll .empty texts)).Subperm
      ((Findings.nodes (scanner.allFindings texts)).map MethodNode.bare) := by
  have hkeyed := keyed_scanAll scanner texts
  refine List.Nodup.subperm (.of_map _
    (Ordered.nodup_map_of_ascending (CallGraph.declaredNodes_ascending hkeyed))) ?_
  intro node hmem
  obtain ⟨first, hfirst, hbare⟩ :=
    Option.map_eq_some_iff.mp ((CallGraph.mem_declaredNodes hkeyed).mp hmem)
  rw [scanAll_eq_enterAll] at hfirst
  exact List.mem_map.mpr
    ⟨first, Findings.mem_nodes.mpr (Tables.methodFound_of_ofFindings_nodes hfirst), hbare⟩

/-- A node of an action class is declared: one that is made from a call has no class. -/
theorem mem_nodes_of_isAction {node : MethodNode}
    (hmem : node ∈ (CallGraph.assemble (scanner.scanAll .empty texts)).nodes)
    (haction : node.isAction = true) : node.id ∈ (scanner.scanAll .empty texts).nodes := by
  have hnode := (CallGraph.mem_assemble_nodes (keyed_scanAll scanner texts)).mp hmem
  have hmade : ∀ target, node.bare ≠ .synthesized target := by
    intro target same
    rw [← MethodNode.bare_isAction, same] at haction
    exact Bool.false_ne_true haction
  cases Assembly.origin_of_run_nodes hnode with
  | declared first found => exact Ordered.mem_iff_exists_getElem?.mpr ⟨first, found⟩
  | source undeclared hsource same => exact absurd same (hmade _)
  | target undeclared source target htarget hid same => exact absurd same (hmade _)

/-! ### The records -/

/-- Each class that is found has one record to be counted in. -/
theorem countP_packages (scanner : Scanner) {c : ClassRecord}
    (hmem : c ∈ Findings.classes (scanner.allFindings texts)) :
    (CallGraph.assemble (scanner.scanAll .empty texts)).packages.countP
      (fun record => record.name = c.package) = 1 := by
  rw [classes_allFindings] at hmem
  obtain ⟨s, hs, hclass⟩ := List.mem_filterMap.mp hmem
  have hascending := CallGraph.assemble_packages_ascending (scanner.allFindings texts)
  rw [← scanAll_eq_enterAll] at hascending
  exact Ordered.countP_key_eq_one hascending (exists_package_iff.mpr ⟨s, hs, c, hclass, rfl⟩)

/-- A record counts the classes and the methods found in its package. -/
theorem totals_of_mem_packages {record : PackageRecord}
    (hmem : record ∈ (CallGraph.assemble (scanner.scanAll .empty texts)).packages) :
    record.totalClasses = (scanner.filesOf record.name texts).length ∧
      record.totalMethods = scanner.methodCount (scanner.filesOf record.name texts) := by
  have hrecord : (CallGraph.assemble (scanner.scanAll .empty texts)).recordOf record.name =
      record := by
    rw [scanAll_eq_enterAll] at hmem ⊢
    rw [CallGraph.recordOf, CallGraph.package?_assemble, CallGraph.mem_assemble_packages.mp hmem]
    rfl
  have htotals := totals_recordOf_scanAll scanner texts record.name
  rw [hrecord] at htotals
  exact ⟨htotals.2, htotals.1⟩

end Scanner

/-! ### Conservation -/

namespace CallGraph

open Scanner

/-- **Totals are conserved.** In the graph of a scan each package counts the texts whose scans
returned a class in it, and the declarations in these texts, each as often as it occurs. So all
packages together count as many classes as scans returned one, and no package lists more classes or
declared methods than it counts. -/
theorem totalsConserved_scanAll (scanner : Scanner) (texts : List Text) :
    (assemble (scanner.scanAll .empty texts)).TotalsConserved scanner texts where
  totalClasses := by
    intro record hmem
    rw [(totals_of_mem_packages hmem).1, answered_eq_filesOf]
  totalMethods := by
    intro record hmem
    rw [(totals_of_mem_packages hmem).2, answered_eq_filesOf]
    rfl
  sum_totalClasses := by
    have hcounted : ∀ record ∈ (assemble (scanner.scanAll .empty texts)).packages,
        record.totalClasses = (Findings.classes (scanner.allFindings texts)).countP
          fun c => c.package = record.name := by
      intro record hmem
      rw [(totals_of_mem_packages hmem).1, countP_classes_allFindings]
    rw [List.map_congr_left hcounted, sum_countP_eq_length fun _ => countP_packages scanner,
      classes_allFindings, List.length_filterMap_eq_countP, answers_eq, List.countP_map]
    simp only [Function.comp_def, Option.isSome_map]
  classes_le := by
    intro record hmem
    rw [(totals_of_mem_packages hmem).1, ← countP_classes_allFindings]
    exact (classes_subperm scanner texts).countP_le _
  declared_le := by
    intro record hmem
    have hle := (declaredNodes_subperm scanner texts).countP_le fun node =>
      node.package = record.name
    rw [declaredNodes, List.countP_map, List.countP_filter, List.countP_map] at hle
    rw [(totals_of_mem_packages hmem).2, ← countP_nodes_allFindings]
    simp only [Bool.decide_and]
    exact hle
  isAction_declared := fun _ => mem_nodes_of_isAction

end CallGraph

/-- A class with an overloaded method, in two files. -/
def Scanner.overloads : List Text :=
  ["package cart;public class CartAction{void add(){}void add(int n){}}".toList,
   "package cart;public class CartAction{void add(){}void clear(){}}".toList]

theorem totalsConserved_overloads :
    let scanner := Scanner.ofSettings {} ∅ (.ofList ["cart"])
    let graph := CallGraph.assemble (scanner.scanAll .empty Scanner.overloads)
    (graph.packages.map fun record => (record.name, record.totalClasses, record.totalMethods)) =
        [("cart", 2, 4)] ∧
      graph.classes.length = 1 ∧
      graph.nodes.map MethodNode.id = ["cart.CartAction.add", "cart.CartAction.clear"] ∧
      graph.TotalsConserved scanner Scanner.overloads := by
  intro scanner graph
  obtain ⟨hpackages, hclasses, hnodes⟩ : (graph.packages.map fun record =>
        (record.name, record.totalClasses, record.totalMethods)) = [("cart", 2, 4)] ∧
      graph.classes.length = 1 ∧
      graph.nodes.map MethodNode.id = ["cart.CartAction.add", "cart.CartAction.clear"] := by
    decide +kernel
  exact ⟨hpackages, hclasses, hnodes, CallGraph.totalsConserved_scanAll ..⟩

end ActionCalls
