import ActionCalls.Graph.Document
import ActionCalls.Proofs.Json.Records
import ActionCalls.Proofs.Json.RoundTrip

/-!
# The document gives the graph back

Reading the document of a graph gives exactly this graph, in either layout, whatever its names and
its lists are, as long as its counts have 64 bits. So the two layouts say the same, and **different
graphs have different documents**.

Three facts make this up. The value of a graph is exact, so that its text gives the value back. The
value of every record decodes to the record. A set of names is given back by the list of its members.
-/

namespace ActionCalls

open Json

/-! ### Values of records -/

/-- All counts of a graph have 64 bits. -/
structure CallGraph.Within64Bits (g : CallGraph) : Prop where
  packages : ∀ r ∈ g.packages, r.totalMethods < 2 ^ 64 ∧ r.totalClasses < 2 ^ 64
  nodes : ∀ n ∈ g.nodes, n.statistics.incomingCalls < 2 ^ 64 ∧ n.statistics.outgoingCalls < 2 ^ 64

@[simp] theorem NameSet.toJson_isExact (names : NameSet) : (NameSet.toJson names).IsExact :=
  isExact_ofStrings names.toList

/-- The value of a graph is exact: it has no numbers but the counts. -/
theorem CallGraph.toJson_isExact {g : CallGraph} (h : g.Within64Bits) : g.toJson.IsExact := by
  have hpackages : ∀ r ∈ g.packages, r.toJson.IsExact := by
    intro r hr
    simpa [PackageRecord.toJson] using h.packages r hr
  have hclasses : ∀ c ∈ g.classes, c.toJson.IsExact := by
    intro c _
    simp [ClassRecord.toJson]
  have hnodes : ∀ n ∈ g.nodes, n.toJson.IsExact := by
    intro n hn
    simpa [MethodNode.toJson, CallStatistics.toJson] using h.nodes n hn
  have hlinks : ∀ l ∈ g.links, l.toJson.IsExact := by
    intro l _
    simp [CallLink.toJson]
  simpa [CallGraph.toJson] using ⟨hpackages, hclasses, hnodes, hlinks⟩

/-! ### Records decoded -/

@[simp] theorem NameSet.decode_toJson (names : NameSet) :
    NameSet.decode (NameSet.toJson names) = .ok names := by
  rw [NameSet.decode, NameSet.toJson, Decoder.list_ofStrings]
  exact congrArg Except.ok (NameSet.ofList_toList names)

theorem AccessLevel.decode_label (level : Source.AccessLevel) :
    AccessLevel.decode (.string (AccessLevel.label level)) = .ok level := by
  cases level <;> rfl

theorem optional_ofString? (name : Option String) :
    Decoder.optional Decoder.string (ofString? name) = .ok name := by
  cases name <;> rfl

theorem PackageRecord.decode_toJson (r : PackageRecord) : PackageRecord.decode r.toJson = .ok r := by
  refine RecordDecoder.decode_object (by simp) ?_ _ _
  exact RecordDecoder.Yields.pure PackageRecord.mk
    |>.field rfl rfl
    |>.field rfl rfl
    |>.field rfl rfl
    |>.field rfl (NameSet.decode_toJson r.dependencies)
    |>.field rfl (NameSet.decode_toJson r.dependents)

theorem ClassRecord.decode_toJson (c : ClassRecord) : ClassRecord.decode c.toJson = .ok c := by
  refine RecordDecoder.decode_object (by simp) ?_ _ _
  exact RecordDecoder.Yields.pure ClassRecord.mk
    |>.field rfl rfl
    |>.field rfl rfl
    |>.field rfl rfl
    |>.field rfl (optional_ofString? c.superClass)
    |>.field rfl (NameSet.decode_toJson c.interfaces)
    |>.field rfl (NameSet.decode_toJson c.annotations)

theorem CallStatistics.decode_toJson (s : CallStatistics) :
    CallStatistics.decode s.toJson = .ok s := by
  refine RecordDecoder.decode_object (by simp) ?_ _ _
  exact RecordDecoder.Yields.pure CallStatistics.mk
    |>.field rfl rfl
    |>.field rfl rfl
    |>.field rfl (NameSet.decode_toJson s.calledBy)
    |>.field rfl (NameSet.decode_toJson s.calls)

theorem MethodNode.decode_toJson (n : MethodNode) : MethodNode.decode n.toJson = .ok n := by
  refine RecordDecoder.decode_object (by simp) ?_ _ _
  exact RecordDecoder.Yields.pure MethodNode.mk
    |>.field rfl rfl
    |>.field rfl rfl
    |>.field rfl rfl
    |>.field rfl rfl
    |>.field rfl rfl
    |>.field rfl (AccessLevel.decode_label n.accessLevel)
    |>.field rfl rfl
    |>.field rfl (CallStatistics.decode_toJson n.statistics)
    |>.field rfl (NameSet.decode_toJson n.annotations)

theorem CallLink.decode_toJson (l : CallLink) : CallLink.decode l.toJson = .ok l := by
  refine RecordDecoder.decode_object (by simp) ?_ _ _
  exact RecordDecoder.Yields.pure CallLink.mk
    |>.field rfl rfl
    |>.field rfl rfl

theorem CallGraph.decode_toJson (g : CallGraph) : CallGraph.decode g.toJson = .ok g := by
  refine RecordDecoder.decode_object (by simp) ?_ _ _
  exact RecordDecoder.Yields.pure CallGraph.mk
    |>.field rfl (Decoder.list_map fun r _ => r.decode_toJson)
    |>.field rfl (Decoder.list_map fun c _ => c.decode_toJson)
    |>.field rfl (Decoder.list_map fun n _ => n.decode_toJson)
    |>.field rfl (Decoder.list_map fun l _ => l.decode_toJson)

/-! ### The document -/

namespace CallGraph

theorem parse?_emit {g : CallGraph} (h : g.Within64Bits) (pretty : Bool) :
    Json.parse? (g.emit pretty) = some g.toJson := by
  cases pretty
  case false => exact parse?_render Layout.compact_isSpacing (toJson_isExact h)
  case true => exact parse?_render Layout.pretty_isSpacing (toJson_isExact h)

theorem read?_of_parse? {g : CallGraph} {s : Text} (h : Json.parse? s = some g.toJson) :
    read? s = some g := by
  simp only [read?, h, Option.bind_eq_bind, Option.bind_some, g.decode_toJson]
  rfl

/-- The document of a graph is read back as this graph in both layouts, the two layouts are read as
the same graph, and in one layout no other graph has the same document. -/
theorem read?_emit_and_emit_injective {g : CallGraph} (h : g.Within64Bits) :
    (∀ pretty, read? (g.emit pretty) = some g) ∧
      read? (g.emit true) = read? (g.emit false) ∧
        ∀ {other : CallGraph}, other.Within64Bits → ∀ pretty, g.emit pretty = other.emit pretty →
          g = other := by
  have hread : ∀ {graph : CallGraph}, graph.Within64Bits → ∀ pretty,
      read? (graph.emit pretty) = some graph :=
    fun hgraph pretty => read?_of_parse? (parse?_emit hgraph pretty)
  refine ⟨hread h, ?_, ?_⟩
  · rw [hread h, hread h]
  · intro other hother pretty hemit
    have heq : some g = some other := by rw [← hread h pretty, ← hread hother pretty, hemit]
    exact Option.some.inj heq

/-- A graph whose names need all kinds of escapes, and whose counts are the greatest there are. -/
def oddNames (superClass : Option String) : CallGraph where
  packages := [⟨"", 2 ^ 64 - 1, 0, .ofList ["\"", "\\", "/"], ∅⟩]
  classes := [⟨"\x00\x08\x0c\n\r\t\x1f\x7f", "é€😀", true, superClass, ∅, .ofList ["\\u0041"]⟩]
  nodes := [⟨"a.B.c", "a", "B", "c", false, .packageAccess, true,
    ⟨0, 2 ^ 64 - 1, ∅, .ofList ["\"\"", "]"]⟩, ∅⟩]
  links := [⟨"a.B.c", "\"\""⟩, ⟨"a.B.c", "]"⟩]

theorem oddNames_within64Bits (superClass : Option String) : (oddNames superClass).Within64Bits := by
  constructor <;> simp [oddNames]

/-- A class without a superclass is told apart from one whose superclass is called `null`. -/
theorem read?_emit_oddNames :
    (oddNames none).Within64Bits ∧
      read? ((oddNames none).emit true) = some (oddNames none) ∧
        read? ((oddNames none).emit false) = some (oddNames none) ∧
          (oddNames none).emit true ≠ (oddNames (some "null")).emit true := by
  have h := oddNames_within64Bits none
  obtain ⟨hread, -, hinjective⟩ := read?_emit_and_emit_injective h
  refine ⟨h, hread true, hread false, ?_⟩
  intro hemit
  have heq := hinjective (oddNames_within64Bits (some "null")) true hemit
  exact absurd (congrArg (fun g => g.classes.map ClassRecord.superClass) heq) (by decide)

end CallGraph

end ActionCalls
