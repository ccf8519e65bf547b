/-!
# Settings

What a run can be told: how the sources are scanned, where the document goes, and where the
blacklist comes from. Every setting has a default.
-/

namespace ActionCalls

/-- How sources are found, scanned and resolved. -/
structure AnalysisSettings where
  /-- The extension of source files, without its dot. -/
  sourceExtension : String := "java"
  /-- The end of the name of every action class. -/
  actionSuffix : String := "Action"
  /-- How many bytes before a declaration are searched for its annotations. -/
  annotationLookback : Nat := 200
  /-- Are symbolic links below the root followed? -/
  followLinks : Bool := false
  /-- Names whose calls are never resolved. -/
  builtinMethods : List String :=
    ["toString", "equals", "hashCode", "getClass", "wait", "notify", "notifyAll", "println",
     "print", "format", "append", "substring", "length", "indexOf"]
  /-- Beginnings of names whose calls are never resolved. -/
  accessorPrefixes : List String := ["get", "set", "is"]
  deriving Repr, DecidableEq

/-- Where and how the document is written. -/
structure OutputSettings where
  path : String := "function_network.json"
  /-- Is the document laid out over several lines? -/
  pretty : Bool := true
  deriving Repr, DecidableEq

/-- Where the blacklist is read from. -/
structure BlacklistSettings where
  file : Option String := none
  deriving Repr, DecidableEq

/-- All settings of a run. -/
structure Settings where
  analysis : AnalysisSettings := {}
  output : OutputSettings := {}
  blacklist : BlacklistSettings := {}
  deriving Repr, DecidableEq

end ActionCalls
