import ActionCalls.Blacklist
import ActionCalls.Graph.Target
import ActionCalls.Settings.Basic
import ActionCalls.Source.Call

/-!
# Resolution of calls

A called name is resolved by name alone; whether the method exists is not checked. A method of the
calling class comes first, then the package of the caller if the project has it, then the imports:
the first one that gives the name a package of the project.
-/

namespace ActionCalls

/-! ## Names that are never resolved -/

/-- The names whose calls are left out. -/
structure CallFilter where
  builtins : List String
  accessorPrefixes : List String
  blacklist : Blacklist

/-- The filter that the settings and a blacklist give. -/
def CallFilter.ofSettings (settings : AnalysisSettings) (blacklist : Blacklist) : CallFilter :=
  ⟨settings.builtinMethods, settings.accessorPrefixes, blacklist⟩

/-- Does a name start with one of some beginnings? -/
def startsWithAny (beginnings : List String) (name : String) : Bool :=
  beginnings.any fun beginning => beginning.toList.isPrefixOf name.toList

/-- Are calls of the name left out? -/
def CallFilter.ignores (filter : CallFilter) (name : String) : Bool :=
  filter.builtins.contains name || startsWithAny filter.accessorPrefixes name ||
    filter.blacklist.contains name

/-! ## The package of a name -/

/-- What stands before a fixed ending, if the text ends in it. -/
def Text.before? (s ending : Text) : Option Text :=
  (Text.after? s.reverse ending.reverse).map List.reverse

/-- The package that an import gives to a name: `q` when it is `q.*`, and otherwise `q` when it is
`q.name`. -/
def importedPackage? (name clause : String) : Option String :=
  match Text.before? clause.toList ".*".toList with
  | some package => some (String.ofList package)
  | none => (Text.before? clause.toList ('.' :: name.toList)).map String.ofList

/-- What is known about the class that a body belongs to. -/
structure CallContext where
  package : String
  owner : String
  /-- The imports of the file, in their order. -/
  imports : List String
  /-- The methods that the class declares. -/
  localMethods : NameSet

/-- The target of a called name, `project` being the packages of the project. -/
def resolve? (project : NameSet) (context : CallContext) (name : String) : Option CallTarget :=
  if name ∈ context.localMethods then some (.inClass context.package context.owner name)
  else if context.package ∈ project then some (.inPackage context.package name)
  else
    (context.imports.findSome? fun clause =>
      (importedPackage? name clause).filter (· ∈ project)).map fun package =>
        .inPackage package name

/-- The targets called in a body, without the names that are left out. -/
def resolveBody (project : NameSet) (filter : CallFilter) (context : CallContext)
    (body : Text) : Std.ExtTreeSet CallTarget :=
  .ofList (((Source.callNames body).filter fun name => !filter.ignores name).filterMap
    (resolve? project context))

end ActionCalls
