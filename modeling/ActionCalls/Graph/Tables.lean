import Std.Data.ExtTreeMap
import ActionCalls.Graph.Record

/-!
# Tables

What scanning leaves behind: the classes, the declared methods and the calls found so far, each
under its own key. The tables keep different winners: of two class records with one qualified name
the later stays, of two nodes with one id the earlier, and the targets of one source are united.
-/

namespace ActionCalls

/-- The tables that are filled while files are scanned. -/
structure Tables where
  packages : Std.ExtTreeMap String PackageRecord
  /-- Class records by qualified name. -/
  classes : Std.ExtTreeMap String ClassRecord
  /-- Declared nodes by id. -/
  nodes : Std.ExtTreeMap String MethodNode
  /-- The targets called from each source, by the id of the source. -/
  calls : Std.ExtTreeMap String (Std.ExtTreeSet CallTarget)

/-- One finding of a scan. -/
inductive Finding where
  | classFound (c : ClassRecord)
  | methodFound (node : MethodNode)
  | callsFound (source : String) (targets : Std.ExtTreeSet CallTarget)

namespace Tables

def empty : Tables := ⟨∅, ∅, ∅, ∅⟩

/-- Enters a class: it counts for its package, and replaces an earlier record of its name. -/
def recordClass (tables : Tables) (c : ClassRecord) : Tables :=
  { tables with
    packages := tables.packages.alter c.package fun old? =>
      let old := old?.getD (PackageRecord.empty c.package)
      some { old with totalClasses := old.totalClasses + 1 }
    classes := tables.classes.insert c.qualifiedName c }

/-- Enters the targets called from a source, beside those already known. -/
def addCalls (tables : Tables) (source : String) (targets : Std.ExtTreeSet CallTarget) : Tables :=
  { tables with
    calls := tables.calls.alter source fun old? => some (old?.getD ∅ ∪ targets) }

/-- Enters a declared method: it counts for its package if that has a record, becomes a source of
calls, and gives the node of its id unless there is one. -/
def declareMethod (tables : Tables) (node : MethodNode) : Tables :=
  { tables.addCalls node.id ∅ with
    packages := tables.packages.modify node.package fun old =>
      { old with totalMethods := old.totalMethods + 1 }
    nodes := tables.nodes.insertIfNew node.id node }

/-- Enters a finding. -/
def enter (tables : Tables) : Finding → Tables
  | .classFound c => tables.recordClass c
  | .methodFound node => tables.declareMethod node
  | .callsFound source targets => tables.addCalls source targets

/-- Enters findings one after the other. -/
def enterAll (tables : Tables) (findings : List Finding) : Tables :=
  findings.foldl enter tables

end Tables

end ActionCalls
