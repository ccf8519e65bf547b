import ActionCalls.Proofs.Scan.Identity
import ActionCalls.Proofs.Scan.Totals

/-!
# Scanning in parts

Files may be scanned together or in two parts. This module says what the graph of a scan says of an
id or of a package **in terms of the files alone**: a link is there for each call in a file, a node
for each declared method and each called one, a package counts its files and depends on the other
packages that these call. Each of these is a union, or a sum, over the files, so the graph of all
files is the union of the graphs of the two parts (`CallGraph.IsUnionOf`).

What a part does not know counts as nothing: a method that is declared in one part and only called
in the other has a node in both, and a package without files in a part has no record there. For the
*dependents* of a package there is no such law: a call into a package whose files are all in the
other part finds no record to be noted in.
-/

namespace ActionCalls

namespace CallGraph

/-- The statistics of the node with an id, those of an uncalled method if there is none. -/
def statisticsOf (graph : CallGraph) (id : String) : CallStatistics :=
  (graph.node? id).elim .empty MethodNode.statistics

/-- The record of a package, an empty one if there is none. -/
def recordOf (graph : CallGraph) (package : String) : PackageRecord :=
  (graph.package? package).getD (.empty package)

/-- The graph has the links and the nodes of two graphs together. -/
structure IsUnionOf (graph first second : CallGraph) : Prop where
  links : ∀ link, link ∈ graph.links ↔ link ∈ first.links ∨ link ∈ second.links
  ids : ∀ id, (∃ node ∈ graph.nodes, node.id = id) ↔
    (∃ node ∈ first.nodes, node.id = id) ∨ ∃ node ∈ second.nodes, node.id = id
  calls : ∀ id, (graph.statisticsOf id).calls =
    (first.statisticsOf id).calls ∪ (second.statisticsOf id).calls
  calledBy : ∀ id, (graph.statisticsOf id).calledBy =
    (first.statisticsOf id).calledBy ∪ (second.statisticsOf id).calledBy
  totalMethods : ∀ package, (graph.recordOf package).totalMethods =
    (first.recordOf package).totalMethods + (second.recordOf package).totalMethods
  totalClasses : ∀ package, (graph.recordOf package).totalClasses =
    (first.recordOf package).totalClasses + (second.recordOf package).totalClasses
  dependencies : ∀ package, (graph.recordOf package).dependencies =
    (first.recordOf package).dependencies ∪ (second.recordOf package).dependencies

end CallGraph

namespace Scanner

variable {scanner : Scanner} {texts xs ys : List Text}

theorem allFindings_append (scanner : Scanner) (xs ys : List Text) :
    scanner.allFindings (xs ++ ys) = scanner.allFindings xs ++ scanner.allFindings ys :=
  List.flatMap_append

theorem declared_append {s : Text} {c : ClassRecord} {declaration : Source.MethodDeclaration} :
    scanner.Declared (xs ++ ys) s c declaration ↔
      scanner.Declared xs s c declaration ∨ scanner.Declared ys s c declaration := by
  simp only [Declared, List.mem_append, or_and_right]

/-! ### Links and nodes -/

theorem mem_links_scanAll {link : CallLink} :
    link ∈ (CallGraph.assemble (scanner.scanAll .empty texts)).links ↔
      ∃ target, Findings.Calls (scanner.allFindings texts) link.source target ∧
        target.id = link.target := by
  rw [CallGraph.mem_assemble_links, scanAll_eq_enterAll]
  simp only [Tables.mem_ofFindings_callSet]

/-- An id has a node when it is declared or called. -/
theorem exists_node_scanAll_iff {id : String} :
    (∃ node ∈ (CallGraph.assemble (scanner.scanAll .empty texts)).nodes, node.id = id) ↔
      Findings.Declares (scanner.allFindings texts) id ∨
        ∃ source target, Findings.Calls (scanner.allFindings texts) source target ∧
          target.id = id := by
  have hdeclared : Findings.Declares (scanner.allFindings texts) id ∨
      Findings.CallsFrom (scanner.allFindings texts) id ↔
        Findings.Declares (scanner.allFindings texts) id := or_iff_left_of_imp declares_of_callsFrom
  rw [CallGraph.exists_assemble_node_iff (keyed_scanAll scanner texts), Assembly.mem_run_nodes,
    scanAll_eq_enterAll, Tables.mem_ofFindings_nodes, Tables.mem_ofFindings_calls, hdeclared,
    ← or_assoc, or_self]
  simp only [Tables.mem_ofFindings_callSet]

theorem mem_calls_scanAll {id callee : String} :
    callee ∈ ((CallGraph.assemble (scanner.scanAll .empty texts)).statisticsOf id).calls ↔
      ⟨id, callee⟩ ∈ (CallGraph.assemble (scanner.scanAll .empty texts)).links := by
  have hfresh := Assembly.callees_of_fresh (statistics_of_scanAll_nodes scanner texts id)
  rw [CallGraph.mem_assemble_links, ← Assembly.mem_callees_run hfresh, CallGraph.statisticsOf,
    CallGraph.node?_assemble (keyed_scanAll scanner texts)]
  cases (Assembly.run (scanner.scanAll .empty texts)).nodes[id]? <;> exact Iff.rfl

theorem mem_calledBy_scanAll {id caller : String} :
    caller ∈ ((CallGraph.assemble (scanner.scanAll .empty texts)).statisticsOf id).calledBy ↔
      ⟨caller, id⟩ ∈ (CallGraph.assemble (scanner.scanAll .empty texts)).links := by
  have hfresh := Assembly.callers_of_fresh (statistics_of_scanAll_nodes scanner texts id)
  rw [CallGraph.mem_assemble_links, ← Assembly.mem_callers_run hfresh, CallGraph.statisticsOf,
    CallGraph.node?_assemble (keyed_scanAll scanner texts)]
  cases (Assembly.run (scanner.scanAll .empty texts)).nodes[id]? <;> exact Iff.rfl

/-! ### Packages -/

variable {package : String}

theorem recordOf_scanAll (scanner : Scanner) (texts : List Text) (package : String) :
    (CallGraph.assemble (scanner.scanAll .empty texts)).recordOf package =
      ((scanner.packageRecord? texts package).map (PackageRecord.noteCalls package
        (Assembly.packageCalls (scanner.scanAll .empty texts)))).getD (.empty package) := by
  rw [CallGraph.recordOf, scanAll_eq_enterAll, CallGraph.package?_assemble,
    Assembly.run_packages_getElem?, ← scanAll_eq_enterAll, scanAll_packages_getElem?]

/-- A package counts its files and their declarations. -/
theorem totals_recordOf_scanAll (scanner : Scanner) (texts : List Text) (package : String) :
    ((CallGraph.assemble (scanner.scanAll .empty texts)).recordOf package).totalMethods =
        scanner.methodCount (scanner.filesOf package texts) ∧
      ((CallGraph.assemble (scanner.scanAll .empty texts)).recordOf package).totalClasses =
        (scanner.filesOf package texts).length := by
  rw [recordOf_scanAll, packageRecord?]
  split
  case isTrue hnone =>
      rw [hnone]
      exact ⟨rfl, rfl⟩
  case isFalse =>
      rw [Option.map_some, Option.getD_some, PackageRecord.noteCalls_totals.2.1,
        PackageRecord.noteCalls_totals.2.2]
      exact ⟨Nat.zero_add _, Nat.zero_add _⟩

/-- A package depends on the other packages that its files call. -/
theorem mem_dependencies_scanAll {other : String} :
    other ∈ ((CallGraph.assemble (scanner.scanAll .empty texts)).recordOf package).dependencies ↔
      (package, other) ∈ Assembly.packageCalls (scanner.scanAll .empty texts) ∧
        other ≠ package := by
  rw [recordOf_scanAll, packageRecord?]
  split
  case isTrue hnone =>
      -- A call comes from a file, and the package has none.
      refine iff_of_false Std.ExtTreeSet.not_mem_empty ?_
      intro h
      obtain ⟨s, c, declaration, hdeclared, hpackage, -⟩ := mem_packageCalls_scanAll.mp h.1
      have hfile : s ∈ scanner.filesOf package texts :=
        mem_filesOf.mpr ⟨hdeclared.1, c, hdeclared.2.1, hpackage⟩
      rw [hnone] at hfile
      exact List.not_mem_nil hfile
  case isFalse =>
      rw [Option.map_some, Option.getD_some, PackageRecord.mem_dependencies_noteCalls]
      exact or_iff_right Std.ExtTreeSet.not_mem_empty

theorem packageCalls_append {other : String} :
    (package, other) ∈ Assembly.packageCalls (scanner.scanAll .empty (xs ++ ys)) ↔
      (package, other) ∈ Assembly.packageCalls (scanner.scanAll .empty xs) ∨
        (package, other) ∈ Assembly.packageCalls (scanner.scanAll .empty ys) := by
  simp only [mem_packageCalls_scanAll, declared_append, or_and_right, exists_or]

end Scanner

/-! ### The union -/

namespace CallGraph

open Scanner

/-- The graph of all files is the union of the graphs of the files scanned in two parts. -/
theorem assemble_scanAll_append (scanner : Scanner) (xs ys : List Text) :
    (assemble (scanner.scanAll .empty (xs ++ ys))).IsUnionOf
      (assemble (scanner.scanAll .empty xs)) (assemble (scanner.scanAll .empty ys)) := by
  have hlinks : ∀ link, link ∈ (assemble (scanner.scanAll .empty (xs ++ ys))).links ↔
      link ∈ (assemble (scanner.scanAll .empty xs)).links ∨
        link ∈ (assemble (scanner.scanAll .empty ys)).links := by
    intro link
    simp only [mem_links_scanAll, allFindings_append, Findings.calls_append, or_and_right,
      exists_or]
  refine ⟨hlinks, ?_, ?_, ?_, ?_, ?_, ?_⟩
  · intro id
    simp only [exists_node_scanAll_iff, allFindings_append, Findings.declares_append,
      Findings.calls_append, or_and_right, exists_or]
    exact or_or_or_comm
  · intro id
    refine Std.ExtTreeSet.ext_mem ?_
    intro callee
    rw [Std.ExtTreeSet.mem_union_iff, mem_calls_scanAll, mem_calls_scanAll, mem_calls_scanAll,
      hlinks]
  · intro id
    refine Std.ExtTreeSet.ext_mem ?_
    intro caller
    rw [Std.ExtTreeSet.mem_union_iff, mem_calledBy_scanAll, mem_calledBy_scanAll,
      mem_calledBy_scanAll, hlinks]
  · intro package
    rw [(totals_recordOf_scanAll ..).1, (totals_recordOf_scanAll ..).1,
      (totals_recordOf_scanAll ..).1, filesOf_append, methodCount_append]
  · intro package
    rw [(totals_recordOf_scanAll ..).2, (totals_recordOf_scanAll ..).2,
      (totals_recordOf_scanAll ..).2, filesOf_append, List.length_append]
  · intro package
    refine Std.ExtTreeSet.ext_mem ?_
    intro other
    rw [Std.ExtTreeSet.mem_union_iff, mem_dependencies_scanAll, mem_dependencies_scanAll,
      mem_dependencies_scanAll, packageCalls_append, or_and_right]

end CallGraph

end ActionCalls
