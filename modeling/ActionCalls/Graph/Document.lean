import ActionCalls.Graph.Record
import ActionCalls.Json.Decode
import ActionCalls.Json.Parser
import ActionCalls.Json.Printer

/-!
# The network document

The document in which a graph is published: an object with the packages, classes, nodes and links,
each with its fields in a fixed order. A set of names is written as the list of its members. Every
record can be read back from its value.
-/

namespace ActionCalls

open Json
open Source (AccessLevel)

/-! ## Writing -/

/-- The spelling of an access level in a document. -/
def AccessLevel.label : AccessLevel → String
  | .publicAccess => "PUBLIC"
  | .protectedAccess => "PROTECTED"
  | .privateAccess => "PRIVATE"
  | .packageAccess => "PACKAGE_PRIVATE"

/-- A set of names as the list of its members. -/
def NameSet.toJson (names : NameSet) : Json := Json.ofStrings names.toList

def PackageRecord.toJson (r : PackageRecord) : Json :=
  .object
    [("name", .string r.name), ("totalMethods", .ofNat r.totalMethods),
     ("totalClasses", .ofNat r.totalClasses), ("dependencies", NameSet.toJson r.dependencies),
     ("dependents", NameSet.toJson r.dependents)]

def ClassRecord.toJson (c : ClassRecord) : Json :=
  .object
    [("name", .string c.name), ("packageName", .string c.package), ("isAction", .bool c.isAction),
     ("superClass", .ofString? c.superClass), ("interfaces", NameSet.toJson c.interfaces),
     ("annotations", NameSet.toJson c.annotations)]

def CallStatistics.toJson (s : CallStatistics) : Json :=
  .object
    [("incomingCalls", .ofNat s.incomingCalls), ("outgoingCalls", .ofNat s.outgoingCalls),
     ("calledBy", NameSet.toJson s.calledBy), ("calls", NameSet.toJson s.calls)]

def MethodNode.toJson (n : MethodNode) : Json :=
  .object
    [("id", .string n.id), ("packageName", .string n.package), ("className", .string n.owner),
     ("methodName", .string n.method), ("isAction", .bool n.isAction),
     ("accessLevel", .string (AccessLevel.label n.accessLevel)), ("isStatic", .bool n.isStatic),
     ("statistics", n.statistics.toJson), ("annotations", NameSet.toJson n.annotations)]

def CallLink.toJson (l : CallLink) : Json :=
  .object [("source", .string l.source), ("target", .string l.target)]

/-- The document of a graph. -/
def CallGraph.toJson (g : CallGraph) : Json :=
  .object
    [("packages", .array (g.packages.map PackageRecord.toJson)),
     ("classes", .array (g.classes.map ClassRecord.toJson)),
     ("nodes", .array (g.nodes.map MethodNode.toJson)),
     ("links", .array (g.links.map CallLink.toJson))]

/-- The text of the document, laid out over several lines or on one. -/
def CallGraph.emit (pretty : Bool) (g : CallGraph) : Text :=
  g.toJson.render (if pretty then .pretty else .compact)

/-! ## Reading -/

/-- The access level with a given spelling. -/
def AccessLevel.ofLabel (label : String) : Except DecodeError AccessLevel :=
  let levels : List AccessLevel := [.publicAccess, .protectedAccess, .privateAccess, .packageAccess]
  match levels.find? fun level => AccessLevel.label level = label with
  | some level => .ok level
  | none => .error (.unknownVariant label (levels.map AccessLevel.label))

/-- An access level is written as its spelling, or as an object that has its spelling as the only
key and null as the value. -/
def AccessLevel.decode : Decoder AccessLevel
  | .string label => ofLabel label
  | .object [(label, value)] => do
      let level ← ofLabel label
      match value with
      | .null => return level
      | found => .error (.wrongKind found "unit")
  | .object members => .error (.wrongValue (.object members) "map with a single key")
  | found => .error (.wrongKind found "string or map")

/-- A set of names is written as a list of strings, in any order and with repeats. -/
def NameSet.decode : Decoder NameSet := fun value =>
  (Decoder.list Decoder.string value).map fun names => .ofList names

def PackageRecord.decode : Decoder PackageRecord :=
  (RecordDecoder.pure PackageRecord.mk
    |>.required "name" Decoder.string
    |>.required "totalMethods" Decoder.count
    |>.required "totalClasses" Decoder.count
    |>.required "dependencies" NameSet.decode
    |>.required "dependents" NameSet.decode).decode "struct PackageRecord" .exact

def ClassRecord.decode : Decoder ClassRecord :=
  (RecordDecoder.pure ClassRecord.mk
    |>.required "name" Decoder.string
    |>.required "packageName" Decoder.string
    |>.required "isAction" Decoder.bool
    |>.withDefault "superClass" (Decoder.optional Decoder.string) none
    |>.required "interfaces" NameSet.decode
    |>.required "annotations" NameSet.decode).decode "struct ClassRecord" .exact

def CallStatistics.decode : Decoder CallStatistics :=
  (RecordDecoder.pure CallStatistics.mk
    |>.required "incomingCalls" Decoder.count
    |>.required "outgoingCalls" Decoder.count
    |>.required "calledBy" NameSet.decode
    |>.required "calls" NameSet.decode).decode "struct CallStatistics" .exact

def MethodNode.decode : Decoder MethodNode :=
  (RecordDecoder.pure MethodNode.mk
    |>.required "id" Decoder.string
    |>.required "packageName" Decoder.string
    |>.required "className" Decoder.string
    |>.required "methodName" Decoder.string
    |>.required "isAction" Decoder.bool
    |>.required "accessLevel" AccessLevel.decode
    |>.required "isStatic" Decoder.bool
    |>.required "statistics" CallStatistics.decode
    |>.required "annotations" NameSet.decode).decode "struct MethodNode" .exact

def CallLink.decode : Decoder CallLink :=
  (RecordDecoder.pure CallLink.mk
    |>.required "source" Decoder.string
    |>.required "target" Decoder.string).decode "struct CallEdge" .exact

def CallGraph.decode : Decoder CallGraph :=
  (RecordDecoder.pure CallGraph.mk
    |>.required "packages" (Decoder.list PackageRecord.decode)
    |>.required "classes" (Decoder.list ClassRecord.decode)
    |>.required "nodes" (Decoder.list MethodNode.decode)
    |>.required "links" (Decoder.list CallLink.decode)).decode "struct CallGraph" .exact

/-- The graph that the text of a document describes, if it is one. -/
def CallGraph.read? (s : Text) : Option CallGraph := do
  let value ← Json.parse? s
  (CallGraph.decode value).toOption

end ActionCalls
