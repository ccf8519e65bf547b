import ActionCalls.Graph.Target
import ActionCalls.Source.Declaration

/-!
# The records of a call graph

Packages, classes, methods and the links between methods, in the shape in which a graph is
published.
-/

namespace ActionCalls

open Source (AccessLevel MethodDeclaration)

/-- The totals of a package that has an action class. -/
structure PackageRecord where
  name : String
  totalMethods : Nat
  totalClasses : Nat
  /-- The packages that this one calls into. -/
  dependencies : NameSet
  /-- The packages that call into this one. -/
  dependents : NameSet
  deriving DecidableEq

/-- The record of a package before anything is counted. -/
def PackageRecord.empty (name : String) : PackageRecord := ⟨name, 0, 0, ∅, ∅⟩

structure ClassRecord where
  name : String
  package : String
  isAction : Bool
  superClass : Option String
  interfaces : NameSet
  /-- All annotations of the file, not only those of the class. -/
  annotations : NameSet
  deriving DecidableEq

/-- The name of a class with that of its package before it. -/
def ClassRecord.qualifiedName (c : ClassRecord) : String :=
  c.package ++ "." ++ c.name

/-- The calls into and out of a method. -/
structure CallStatistics where
  incomingCalls : Nat
  outgoingCalls : Nat
  calledBy : NameSet
  calls : NameSet
  deriving DecidableEq

/-- The statistics of a method that no call has touched. -/
def CallStatistics.empty : CallStatistics := ⟨0, 0, ∅, ∅⟩

/-- A method as a node of the graph. -/
structure MethodNode where
  /-- `package.Class.method`, or `package.method` where the class is unknown. -/
  id : String
  package : String
  /-- The class; empty where it is unknown. -/
  owner : String
  method : String
  isAction : Bool
  accessLevel : AccessLevel
  isStatic : Bool
  statistics : CallStatistics
  annotations : NameSet
  deriving DecidableEq

namespace MethodNode

/-- The node of a method that a class declares. -/
def declared (c : ClassRecord) (declaration : MethodDeclaration) : MethodNode where
  id := c.qualifiedName ++ "." ++ declaration.name
  package := c.package
  owner := c.name
  method := declaration.name
  isAction := c.isAction
  accessLevel := declaration.accessLevel
  isStatic := declaration.isStatic
  statistics := .empty
  annotations := declaration.annotations

/-- The node of a method that is known only from calls to it or out of it. -/
def synthesized (target : CallTarget) : MethodNode where
  id := target.id
  package := target.package
  owner := target.owner.getD ""
  method := target.method
  isAction := false
  accessLevel := .packageAccess
  isStatic := false
  statistics := .empty
  annotations := ∅

end MethodNode

/-- A call between two methods, given by their ids. -/
structure CallLink where
  source : String
  target : String
  deriving Repr, DecidableEq

namespace CallLink

/-- Links are ordered by source, then target. -/
instance : Ord CallLink where
  compare := compareLex (compareOn source) (compareOn target)

instance : Std.TransOrd CallLink :=
  inferInstanceAs (Std.TransCmp (compareLex (compareOn source) (compareOn target)))

instance : Std.LawfulEqOrd CallLink where
  eq_of_compare {a b} h := by
    obtain ⟨hs, ht⟩ := compareLex_eq_eq.mp h
    have hs := Std.LawfulEqOrd.eq_of_compare hs
    have ht := Std.LawfulEqOrd.eq_of_compare ht
    cases a
    cases b
    simp_all

end CallLink

/-- A complete graph, in the order in which it is published. -/
structure CallGraph where
  packages : List PackageRecord
  classes : List ClassRecord
  nodes : List MethodNode
  links : List CallLink
  deriving DecidableEq

namespace CallGraph

def empty : CallGraph := ⟨[], [], [], []⟩

/-- The node with an id. -/
def node? (graph : CallGraph) (id : String) : Option MethodNode :=
  graph.nodes.find? fun node => node.id = id

/-- The record of a package. -/
def package? (graph : CallGraph) (name : String) : Option PackageRecord :=
  graph.packages.find? fun record => record.name = name

/-- Does the first method call the second? -/
def hasLink (graph : CallGraph) (source target : String) : Bool :=
  graph.links.contains ⟨source, target⟩

end CallGraph

/-- The sizes of a graph. -/
structure GraphSummary where
  packages : Nat
  classes : Nat
  nodes : Nat
  /-- The nodes of methods that an action class declares. -/
  declaredNodes : Nat
  links : Nat
  maxInDegree : Nat
  maxOutDegree : Nat
  deriving Repr, DecidableEq

/-- The sizes of a graph; the greatest degree of no nodes is zero. -/
def CallGraph.summary (graph : CallGraph) : GraphSummary where
  packages := graph.packages.length
  classes := graph.classes.length
  nodes := graph.nodes.length
  declaredNodes := graph.nodes.countP MethodNode.isAction
  links := graph.links.length
  maxInDegree := (graph.nodes.map (·.statistics.incomingCalls)).max?.getD 0
  maxOutDegree := (graph.nodes.map (·.statistics.outgoingCalls)).max?.getD 0

end ActionCalls
