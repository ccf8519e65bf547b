import ActionCalls.Graph.Tables

/-!
# Assembly

A graph is assembled from tables by going through the call table in order. Each source and each
target becomes a node, unless it is declared; a source is given the calls that leave it, and a
target counts the sources that call it. A call that crosses packages is noted with the two
packages, where they have records.
-/

namespace ActionCalls

/-- A graph under assembly. -/
structure Assembly where
  packages : Std.ExtTreeMap String PackageRecord
  nodes : Std.ExtTreeMap String MethodNode
  links : Std.ExtTreeSet CallLink

/-- The node with the calls that leave it set to those of a call set. -/
def MethodNode.withCalls (node : MethodNode) (targets : Std.ExtTreeSet CallTarget) : MethodNode :=
  { node with
    statistics :=
      { node.statistics with
        outgoingCalls := targets.size
        calls := .ofList (targets.toList.map CallTarget.id) } }

/-- The node with one more caller. A caller that is known already is not counted again. -/
def MethodNode.calledFrom (node : MethodNode) (source : String) : MethodNode :=
  if source ∈ node.statistics.calledBy then node
  else
    { node with
      statistics :=
        { node.statistics with
          incomingCalls := node.statistics.incomingCalls + 1
          calledBy := node.statistics.calledBy.insert source } }

namespace Assembly

/-- The node of a source: the declared one, or one made from the id alone. -/
def sourceNode (a : Assembly) (source : String) : MethodNode :=
  (a.nodes[source]?).getD (.synthesized (.ofQualified source))

/-- The node of a target: the one with its id, or one made from the target. -/
def targetNode (a : Assembly) (target : CallTarget) : MethodNode :=
  (a.nodes[target.id]?).getD (.synthesized target)

/-- Notes a call between two packages in the records of both; a call within a package is not
noted. -/
def linkPackages (source target : String)
    (packages : Std.ExtTreeMap String PackageRecord) : Std.ExtTreeMap String PackageRecord :=
  if target = source then packages
  else
    (packages.modify source fun record =>
        { record with dependencies := record.dependencies.insert target }).modify target
      fun record => { record with dependents := record.dependents.insert source }

/-- Adds one call of a source that lies in `package`. -/
def addCall (source package : String) (a : Assembly) (target : CallTarget) : Assembly where
  packages := linkPackages package target.package a.packages
  nodes := a.nodes.insert target.id ((a.targetNode target).calledFrom source)
  links := a.links.insert ⟨source, target.id⟩

/-- Adds a source with all its calls. -/
def addSource (a : Assembly) (source : String) (targets : Std.ExtTreeSet CallTarget) : Assembly :=
  let node := a.sourceNode source
  targets.toList.foldl (addCall source node.package)
    { a with nodes := a.nodes.insert source (node.withCalls targets) }

/-- What there is before the first call is added. -/
def start (tables : Tables) : Assembly := ⟨tables.packages, tables.nodes, ∅⟩

/-- Adds all sources of a call table, in order. -/
def run (tables : Tables) : Assembly :=
  tables.calls.toList.foldl (fun a (source, targets) => a.addSource source targets) (start tables)

end Assembly

/-- The graph of the tables, each part in the order of its keys. -/
def CallGraph.assemble (tables : Tables) : CallGraph :=
  let assembled := Assembly.run tables
  { packages := assembled.packages.values
    classes := tables.classes.values
    nodes := assembled.nodes.values
    links := assembled.links.toList }

end ActionCalls
