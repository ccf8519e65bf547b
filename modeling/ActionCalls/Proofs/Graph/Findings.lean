import ActionCalls.Graph.Tables
import ActionCalls.Proofs.Ordered

/-!
# What the tables hold after a list of findings

Tables are filled one finding after another, and every reachable state of them is
`Tables.empty.enterAll findings`. This module says what is then found under a key in terms of the
**list of findings** alone, so that nothing later opens a single entry step:

* under an id, the node table has the *first* declaration of that id;
* under a qualified name, the class table has the *last* class recorded with that name;
* under a source, the call table has the *union* of the target sets found for it;
* a source is in the call table when it is declared or has calls of its own;
* under a package, the package table has what each finding in turn makes of the record (`tally`).
-/

namespace ActionCalls

/-! ### Reading findings -/

/-- The node that a finding declares. -/
def Finding.node? : Finding → Option MethodNode
  | .methodFound node => some node
  | _ => none

/-- The class that a finding records. -/
def Finding.class? : Finding → Option ClassRecord
  | .classFound c => some c
  | _ => none

/-- The source of calls that a finding brings: a declared method is one, even without calls. -/
def Finding.source? : Finding → Option String
  | .methodFound node => some node.id
  | .callsFound source _ => some source
  | .classFound _ => none

/-- What a finding makes of the record of a package: a class counts for its package, and a method
counts if its package has a record already. -/
def Finding.tally (package : String) (record? : Option PackageRecord) :
    Finding → Option PackageRecord
  | .classFound c =>
      if c.package = package then
        let old := record?.getD (.empty package)
        some { old with totalClasses := old.totalClasses + 1 }
      else record?
  | .methodFound node =>
      if node.package = package then
        record?.map fun old => { old with totalMethods := old.totalMethods + 1 }
      else record?
  | .callsFound _ _ => record?

/-- The record of the package `name`, with no call noted in it. -/
structure PackageRecord.IsFresh (name : String) (record : PackageRecord) : Prop where
  name_eq : record.name = name
  dependencies : record.dependencies = ∅
  dependents : record.dependents = ∅

theorem Finding.isFresh_tally {package : String} {record? : Option PackageRecord}
    {finding : Finding} (hold : ∀ record ∈ record?, record.IsFresh package) :
    ∀ record ∈ finding.tally package record?, record.IsFresh package := by
  intro record hrecord
  cases finding with
  | classFound c =>
      rw [tally] at hrecord
      split at hrecord
      · obtain rfl := Option.some.inj hrecord
        cases record? with
        | none => exact ⟨rfl, rfl, rfl⟩
        | some old =>
            obtain ⟨hname, hdependencies, hdependents⟩ := hold old rfl
            exact ⟨hname, hdependencies, hdependents⟩
      · exact hold record hrecord
  | methodFound node =>
      rw [tally] at hrecord
      split at hrecord
      · obtain ⟨old, hold', rfl⟩ := Option.map_eq_some_iff.mp hrecord
        obtain ⟨hname, hdependencies, hdependents⟩ := hold old hold'
        exact ⟨hname, hdependencies, hdependents⟩
      · exact hold record hrecord
  | callsFound source targets => exact hold record hrecord

namespace Findings

/-- The nodes that some findings declare, in their order. -/
def nodes (findings : List Finding) : List MethodNode :=
  findings.filterMap Finding.node?

/-- The classes that some findings record, in their order. -/
def classes (findings : List Finding) : List ClassRecord :=
  findings.filterMap Finding.class?

/-- Is a method with this id declared? -/
def Declares (findings : List Finding) (id : String) : Prop :=
  ∃ node, .methodFound node ∈ findings ∧ node.id = id

/-- Are calls, perhaps none, entered for this source? -/
def CallsFrom (findings : List Finding) (source : String) : Prop :=
  ∃ targets, .callsFound source targets ∈ findings

/-- Is a call from the source to the target among the findings? -/
def Calls (findings : List Finding) (source : String) (target : CallTarget) : Prop :=
  ∃ targets, .callsFound source targets ∈ findings ∧ target ∈ targets

theorem nodes_cons (finding : Finding) (rest : List Finding) :
    nodes (finding :: rest) = finding.node?.toList ++ nodes rest := by
  cases h : finding.node? <;> simp [nodes, h]

theorem nodes_append (first second : List Finding) :
    nodes (first ++ second) = nodes first ++ nodes second :=
  List.filterMap_append

theorem classes_append (first second : List Finding) :
    classes (first ++ second) = classes first ++ classes second :=
  List.filterMap_append

theorem classes_cons (finding : Finding) (rest : List Finding) :
    classes (finding :: rest) = finding.class?.toList ++ classes rest := by
  cases h : finding.class? <;> simp [classes, h]

theorem declares_append {first second : List Finding} {id : String} :
    Declares (first ++ second) id ↔ Declares first id ∨ Declares second id := by
  simp only [Declares, List.mem_append, or_and_right, exists_or]

theorem calls_append {first second : List Finding} {source : String} {target : CallTarget} :
    Calls (first ++ second) source target ↔
      Calls first source target ∨ Calls second source target := by
  simp only [Calls, List.mem_append, or_and_right, exists_or]

theorem mem_nodes {findings : List Finding} {node : MethodNode} :
    node ∈ nodes findings ↔ .methodFound node ∈ findings := by
  rw [nodes, List.mem_filterMap]
  constructor
  · intro h
    obtain ⟨finding, hmem, hnode⟩ := h
    cases finding with
    | methodFound other =>
        obtain rfl := Option.some.inj hnode
        exact hmem
    | _ => exact absurd hnode (by simp [Finding.node?])
  · intro hmem
    exact ⟨_, hmem, rfl⟩

end Findings

/-! ### One finding -/

namespace Tables

/-- The targets called from a source, none if the source is not in the call table. -/
def callSet (tables : Tables) (source : String) : Std.ExtTreeSet CallTarget :=
  tables.calls[source]?.getD ∅

theorem mem_callSet {tables : Tables} {source : String} {target : CallTarget} :
    target ∈ tables.callSet source ↔
      ∃ targets, tables.calls[source]? = some targets ∧ target ∈ targets := by
  rw [callSet]
  cases tables.calls[source]? <;> simp

/-- To go through the entries of a source is to go through its call set. -/
theorem exists_entry_iff {tables : Tables} {source : String} {p : CallTarget → Prop} :
    (∃ entry ∈ tables.calls.toList, entry.1 = source ∧ ∃ target, target ∈ entry.2 ∧ p target) ↔
      ∃ target ∈ tables.callSet source, p target := by
  constructor
  · intro h
    obtain ⟨⟨other, targets⟩, hentry, heq, target, hmem, hp⟩ := h
    obtain rfl : other = source := heq
    rw [Std.ExtTreeMap.mem_toList_iff_getElem?_eq_some] at hentry
    exact ⟨target, mem_callSet.mpr ⟨targets, hentry, hmem⟩, hp⟩
  · intro h
    obtain ⟨target, hmem, hp⟩ := h
    obtain ⟨targets, hentry, hmem⟩ := mem_callSet.mp hmem
    exact ⟨(source, targets), Std.ExtTreeMap.mem_toList_iff_getElem?_eq_some.mpr hentry, rfl,
      target, hmem, hp⟩

theorem mem_calls_of_mem_callSet {tables : Tables} {source : String} {target : CallTarget}
    (h : target ∈ tables.callSet source) : source ∈ tables.calls := by
  obtain ⟨targets, hentry, -⟩ := mem_callSet.mp h
  exact Ordered.mem_iff_exists_getElem?.mpr ⟨targets, hentry⟩

/-- An entry of the call table is the call set of a source. -/
theorem calls_getElem?_eq (tables : Tables) (source : String) :
    tables.calls[source]? =
      if source ∈ tables.calls then some (tables.callSet source) else none := by
  simp only [Std.ExtTreeMap.mem_iff_isSome_getElem?, callSet]
  cases tables.calls[source]? <;> rfl

@[simp] theorem recordClass_nodes (tables : Tables) (c : ClassRecord) :
    (tables.recordClass c).nodes = tables.nodes := rfl

@[simp] theorem recordClass_calls (tables : Tables) (c : ClassRecord) :
    (tables.recordClass c).calls = tables.calls := rfl

@[simp] theorem addCalls_nodes (tables : Tables) (source : String)
    (targets : Std.ExtTreeSet CallTarget) :
    (tables.addCalls source targets).nodes = tables.nodes := rfl

@[simp] theorem addCalls_classes (tables : Tables) (source : String)
    (targets : Std.ExtTreeSet CallTarget) :
    (tables.addCalls source targets).classes = tables.classes := rfl

@[simp] theorem declareMethod_calls (tables : Tables) (node : MethodNode) :
    (tables.declareMethod node).calls = (tables.addCalls node.id ∅).calls := rfl

@[simp] theorem declareMethod_classes (tables : Tables) (node : MethodNode) :
    (tables.declareMethod node).classes = tables.classes := rfl

/-- A declaration is entered under its id unless there is one already. -/
theorem declareMethod_nodes_getElem? (tables : Tables) (node : MethodNode) (id : String) :
    (tables.declareMethod node).nodes[id]? =
      tables.nodes[id]?.or (if node.id = id then some node else none) := by
  show (tables.nodes.insertIfNew node.id node)[id]? = _
  rw [Std.ExtTreeMap.getElem?_insertIfNew]
  by_cases hid : node.id = id
  · subst hid
    cases hnode : tables.nodes[node.id]? with
    | none => simp [Std.ExtTreeMap.mem_iff_isSome_getElem?, hnode]
    | some old => simp [Std.ExtTreeMap.mem_iff_isSome_getElem?, hnode]
  · simp [hid]

theorem addCalls_calls_getElem? (tables : Tables) (source key : String)
    (targets : Std.ExtTreeSet CallTarget) :
    (tables.addCalls source targets).calls[key]? =
      if source = key then some (tables.callSet source ∪ targets) else tables.calls[key]? := by
  show (tables.calls.alter source _)[key]? = _
  rw [Std.ExtTreeMap.getElem?_alter]
  simp [callSet]

theorem mem_callSet_addCalls {tables : Tables} {source key : String}
    {targets : Std.ExtTreeSet CallTarget} {target : CallTarget} :
    target ∈ (tables.addCalls source targets).callSet key ↔
      target ∈ tables.callSet key ∨ source = key ∧ target ∈ targets := by
  rw [callSet, addCalls_calls_getElem?]
  by_cases hkey : source = key
  · subst hkey
    simp [Std.ExtTreeSet.mem_union_iff]
  · simp [hkey, callSet]

theorem mem_calls_addCalls {tables : Tables} {source key : String}
    {targets : Std.ExtTreeSet CallTarget} :
    key ∈ (tables.addCalls source targets).calls ↔ key ∈ tables.calls ∨ source = key := by
  rw [Std.ExtTreeMap.mem_iff_isSome_getElem?, addCalls_calls_getElem?]
  by_cases hkey : source = key
  · simp [hkey]
  · simp [hkey]

theorem enter_nodes_getElem? (tables : Tables) (finding : Finding) (id : String) :
    (tables.enter finding).nodes[id]? =
      tables.nodes[id]?.or (finding.node?.filter fun node => node.id = id) := by
  cases finding with
  | methodFound node =>
      rw [enter, declareMethod_nodes_getElem?]
      simp [Finding.node?, Option.filter]
  | _ => simp [enter, Finding.node?]

theorem mem_calls_enter {tables : Tables} {finding : Finding} {key : String} :
    key ∈ (tables.enter finding).calls ↔ key ∈ tables.calls ∨ finding.source? = some key := by
  cases finding with
  | classFound c => simp [enter, Finding.source?]
  | methodFound node =>
      rw [enter, declareMethod_calls, mem_calls_addCalls]
      simp [Finding.source?]
  | callsFound source targets =>
      rw [enter, mem_calls_addCalls]
      simp [Finding.source?]

theorem mem_callSet_enter {tables : Tables} {finding : Finding} {key : String}
    {target : CallTarget} :
    target ∈ (tables.enter finding).callSet key ↔
      target ∈ tables.callSet key ∨
        ∃ targets, finding = .callsFound key targets ∧ target ∈ targets := by
  cases finding with
  | classFound c => simp [enter, callSet]
  | methodFound node =>
      -- A declared method becomes a source, but its call set gains no target.
      rw [enter, callSet, declareMethod_calls, ← callSet, mem_callSet_addCalls]
      simp
  | callsFound source targets =>
      rw [enter, mem_callSet_addCalls]
      constructor
      · intro h
        rcases h with hold | ⟨rfl, hnew⟩
        · exact Or.inl hold
        · exact Or.inr ⟨targets, rfl, hnew⟩
      · intro h
        rcases h with hold | ⟨others, heq, hnew⟩
        · exact Or.inl hold
        · obtain ⟨rfl, rfl⟩ := Finding.callsFound.inj heq
          exact Or.inr ⟨rfl, hnew⟩

theorem enter_packages_getElem? (tables : Tables) (finding : Finding) (package : String) :
    (tables.enter finding).packages[package]? =
      finding.tally package tables.packages[package]? := by
  cases finding with
  | classFound c =>
      show (tables.packages.alter c.package _)[package]? = _
      rw [Std.ExtTreeMap.getElem?_alter, Finding.tally]
      by_cases hpackage : c.package = package
      · subst hpackage
        simp
      · simp [hpackage]
  | methodFound node =>
      show (tables.packages.modify node.package _)[package]? = _
      rw [Std.ExtTreeMap.getElem?_modify, Finding.tally]
      by_cases hpackage : node.package = package
      · subst hpackage
        simp
      · simp [hpackage]
  | callsFound source targets => rfl

/-! ### All findings -/

theorem enterAll_append (tables : Tables) (first second : List Finding) :
    tables.enterAll (first ++ second) = (tables.enterAll first).enterAll second :=
  List.foldl_append

/-- Under an id stands what stood there before, or else the first declaration of that id. -/
theorem enterAll_nodes_getElem? (tables : Tables) (findings : List Finding) (id : String) :
    (tables.enterAll findings).nodes[id]? =
      tables.nodes[id]?.or ((Findings.nodes findings).find? fun node => node.id = id) := by
  induction findings generalizing tables with
  | nil => simp [enterAll, Findings.nodes]
  | cons finding rest ih =>
      show ((tables.enter finding).enterAll rest).nodes[id]? = _
      rw [ih, enter_nodes_getElem?, Option.or_assoc, Findings.nodes_cons]
      cases finding.node? with
      | none => simp
      | some node =>
          rw [Option.toList_some, List.singleton_append, List.find?_cons]
          -- A declaration of this id hides those in the rest, as `find?` has it.
          by_cases hid : node.id = id
          · simp only [Option.filter, hid, decide_true, if_true, Option.some_or]
          · simp only [Option.filter, hid, decide_false, Bool.false_eq_true, if_false,
              Option.none_or]

/-- The class table depends on the recorded classes alone: they are entered in order. -/
theorem enterAll_classes (tables : Tables) (findings : List Finding) :
    (tables.enterAll findings).classes =
      (Findings.classes findings).foldl (fun classes c => classes.insert c.qualifiedName c)
        tables.classes := by
  induction findings generalizing tables with
  | nil => rfl
  | cons finding rest ih =>
      show ((tables.enter finding).enterAll rest).classes = _
      rw [ih, Findings.classes_cons]
      cases finding with
      | classFound c => rfl
      | methodFound node => rfl
      | callsFound source targets => rfl

theorem enterAll_packages_getElem? (tables : Tables) (findings : List Finding)
    (package : String) :
    (tables.enterAll findings).packages[package]? =
      findings.foldl (Finding.tally package) tables.packages[package]? := by
  induction findings generalizing tables with
  | nil => rfl
  | cons finding rest ih =>
      show ((tables.enter finding).enterAll rest).packages[package]? = _
      rw [ih, enter_packages_getElem?, List.foldl_cons]

/-- Of the classes entered under a name the last one stays. -/
theorem foldl_insert_class_getElem? (classes : List ClassRecord)
    (entered : Std.ExtTreeMap String ClassRecord) (name : String) :
    (classes.foldl (fun entered c => entered.insert c.qualifiedName c) entered)[name]? =
      (classes.reverse.find? fun c => c.qualifiedName = name).or entered[name]? := by
  induction classes generalizing entered with
  | nil => rfl
  | cons c rest ih =>
      rw [List.foldl_cons, ih, List.reverse_cons, List.find?_append, Option.or_assoc,
        Std.ExtTreeMap.getElem?_insert]
      by_cases hname : c.qualifiedName = name
      · simp [hname]
      · simp [hname]

theorem mem_calls_enterAll {tables : Tables} {findings : List Finding} {key : String} :
    key ∈ (tables.enterAll findings).calls ↔
      key ∈ tables.calls ∨ ∃ finding ∈ findings, finding.source? = some key := by
  induction findings generalizing tables with
  | nil => simp [enterAll]
  | cons finding rest ih =>
      show key ∈ ((tables.enter finding).enterAll rest).calls ↔ _
      rw [ih, mem_calls_enter]
      simp [or_assoc]

theorem mem_callSet_enterAll {tables : Tables} {findings : List Finding} {key : String}
    {target : CallTarget} :
    target ∈ (tables.enterAll findings).callSet key ↔
      target ∈ tables.callSet key ∨ Findings.Calls findings key target := by
  induction findings generalizing tables with
  | nil => simp [enterAll, Findings.Calls]
  | cons finding rest ih =>
      show target ∈ ((tables.enter finding).enterAll rest).callSet key ↔ _
      rw [ih, mem_callSet_enter, or_assoc]
      simp only [Findings.Calls, List.mem_cons]
      refine or_congr_right ?_
      constructor
      · intro h
        rcases h with ⟨targets, rfl, hmem⟩ | ⟨targets, hfinding, hmem⟩
        · exact ⟨targets, Or.inl rfl, hmem⟩
        · exact ⟨targets, Or.inr hfinding, hmem⟩
      · intro h
        obtain ⟨targets, hfinding | hfinding, hmem⟩ := h
        · exact Or.inl ⟨targets, hfinding.symm, hmem⟩
        · exact Or.inr ⟨targets, hfinding, hmem⟩

/-! ### The tables of a list of findings -/

variable {findings : List Finding}

theorem ofFindings_nodes_getElem? (id : String) :
    (empty.enterAll findings).nodes[id]? =
      (Findings.nodes findings).find? fun node => node.id = id := by
  rw [enterAll_nodes_getElem?]
  simp [empty]

/-- Every declared node stands under its own id. -/
theorem id_of_ofFindings_nodes {id : String} {node : MethodNode}
    (h : (empty.enterAll findings).nodes[id]? = some node) : node.id = id := by
  rw [ofFindings_nodes_getElem?] at h
  simpa using List.find?_some h

theorem methodFound_of_ofFindings_nodes {id : String} {node : MethodNode}
    (h : (empty.enterAll findings).nodes[id]? = some node) : .methodFound node ∈ findings := by
  rw [ofFindings_nodes_getElem?] at h
  exact Findings.mem_nodes.mp (List.mem_of_find?_eq_some h)

theorem mem_ofFindings_nodes {id : String} :
    id ∈ (empty.enterAll findings).nodes ↔ Findings.Declares findings id := by
  rw [Std.ExtTreeMap.mem_iff_isSome_getElem?, ofFindings_nodes_getElem?, List.find?_isSome]
  simp [Findings.Declares, Findings.mem_nodes]

theorem ofFindings_classes_getElem? (name : String) :
    (empty.enterAll findings).classes[name]? =
      (Findings.classes findings).reverse.find? fun c => c.qualifiedName = name := by
  rw [enterAll_classes, foldl_insert_class_getElem?]
  simp [empty]

/-- Every class stands under its qualified name. -/
theorem qualifiedName_of_ofFindings_classes {name : String} {c : ClassRecord}
    (h : (empty.enterAll findings).classes[name]? = some c) : c.qualifiedName = name := by
  rw [ofFindings_classes_getElem?] at h
  simpa using List.find?_some h

theorem mem_ofFindings_calls {source : String} :
    source ∈ (empty.enterAll findings).calls ↔
      Findings.Declares findings source ∨ Findings.CallsFrom findings source := by
  rw [mem_calls_enterAll]
  constructor
  · intro h
    rcases h with hempty | ⟨finding, hmem, hsource⟩
    · exact absurd hempty (by simp [empty])
    · cases finding with
      | classFound c => exact absurd hsource (by simp [Finding.source?])
      | methodFound node => exact Or.inl ⟨node, hmem, Option.some.inj hsource⟩
      | callsFound other targets =>
          obtain rfl := Option.some.inj hsource
          exact Or.inr ⟨targets, hmem⟩
  · intro h
    rcases h with ⟨node, hmem, rfl⟩ | ⟨targets, hmem⟩
    · exact Or.inr ⟨_, hmem, rfl⟩
    · exact Or.inr ⟨_, hmem, rfl⟩

theorem mem_ofFindings_callSet {source : String} {target : CallTarget} :
    target ∈ (empty.enterAll findings).callSet source ↔
      Findings.Calls findings source target := by
  rw [mem_callSet_enterAll]
  simp [empty, callSet]

/-- The call table does not depend on the order of the findings. -/
theorem ofFindings_calls_eq {others : List Finding}
    (hmem : ∀ finding, finding ∈ findings ↔ finding ∈ others) :
    (empty.enterAll findings).calls = (empty.enterAll others).calls := by
  have hsource : ∀ source, source ∈ (empty.enterAll findings).calls ↔
      source ∈ (empty.enterAll others).calls := by
    intro source
    simp only [mem_ofFindings_calls, Findings.Declares, Findings.CallsFrom, hmem]
  have hset : ∀ source, (empty.enterAll findings).callSet source =
      (empty.enterAll others).callSet source := by
    intro source
    refine Std.ExtTreeSet.ext_mem ?_
    intro target
    simp only [mem_ofFindings_callSet, Findings.Calls, hmem]
  refine Std.ExtTreeMap.ext_getElem? ?_
  intro source
  rw [calls_getElem?_eq, calls_getElem?_eq, hset]
  simp only [hsource]

/-- Every package record stands under its own name, and no call is noted in it yet. -/
theorem isFresh_of_ofFindings_packages {package : String} {record : PackageRecord}
    (h : (empty.enterAll findings).packages[package]? = some record) : record.IsFresh package := by
  have hfold : ∀ (findings : List Finding) (record? : Option PackageRecord),
      (∀ record ∈ record?, record.IsFresh package) →
      ∀ record ∈ findings.foldl (Finding.tally package) record?, record.IsFresh package := by
    intro findings
    induction findings with
    | nil => intro record? hold; exact hold
    | cons finding rest ih => exact fun record? hold => ih _ (Finding.isFresh_tally hold)
  rw [enterAll_packages_getElem?] at h
  exact hfold findings _ (by simp [empty]) record h

end Tables

end ActionCalls
