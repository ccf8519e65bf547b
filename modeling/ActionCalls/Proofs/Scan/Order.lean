import ActionCalls.Graph.Document
import ActionCalls.Proofs.Scan.Identity
import ActionCalls.Proofs.Scan.Totals

/-!
# The order of the files

Each table has a merge of its own: of two class records under one name the later stays, of two
declarations under one id the earlier, call sets are united, and totals are added up. Unions and
sums are the same in any order of the files.

Which record or which declaration stays does depend on the order, but only where two files have
classes with **one qualified name**, since the id of a method gives the qualified name of its class.
And even then the nodes that may stay have the same outline. So the graph of the files in another
order differs in single declarations and class records at most (`CallGraph.SameOutlines`), and it is
the same graph where no two files name the same class.
-/

namespace ActionCalls

/-- The graphs are the same, except for what a node has outside its outline and for what is recorded
of a class besides its qualified name. -/
structure CallGraph.SameOutlines (graph other : CallGraph) : Prop where
  links : graph.links = other.links
  packages : graph.packages = other.packages
  classes : graph.classes.map ClassRecord.qualifiedName =
    other.classes.map ClassRecord.qualifiedName
  nodes : graph.nodes.map MethodNode.outline = other.nodes.map MethodNode.outline

/-- The class names that scans of the texts give, in their order. -/
def Scanner.classNames (scanner : Scanner) (texts : List Text) : List String :=
  texts.filterMap fun s => (scanner.scan .empty s).2

/-- Where at most one element gives anything, what is found first does not depend on the order. -/
theorem findSome?_eq_of_perm {α β : Type} {f : α → Option β} {l l' : List α} (h : l.Perm l')
    (hone : l.Pairwise fun a b => f a = none ∨ f b = none) : l.findSome? f = l'.findSome? f := by
  induction h with
  | nil => rfl
  | cons a _ ih => rw [List.findSome?_cons, List.findSome?_cons, ih hone.of_cons]
  | swap a b rest =>
      have hpair : f b = none ∨ f a = none := List.rel_of_pairwise_cons hone (List.mem_cons_self ..)
      rcases hpair with hnone | hnone
      · simp only [List.findSome?_cons, hnone]
      · simp only [List.findSome?_cons, hnone]
  | trans hfirst _ ih ih' => exact (ih hone).trans (ih' (hfirst.pairwise hone fun h => h.symm))

namespace Scanner

variable {scanner : Scanner} {texts others : List Text}

/-! ### Tables up to outlines -/

theorem scanAll_calls_of_perm (scanner : Scanner) (h : texts.Perm others) :
    (scanner.scanAll .empty texts).calls = (scanner.scanAll .empty others).calls := by
  have hmem : ∀ finding, finding ∈ scanner.allFindings texts ↔
      finding ∈ scanner.allFindings others := fun _ => (h.flatMap_right scanner.fileFindings).mem_iff
  rw [scanAll_eq_enterAll, scanAll_eq_enterAll, Tables.ofFindings_calls_eq hmem]

theorem packageRecord?_of_perm (scanner : Scanner) (h : texts.Perm others) (package : String) :
    scanner.packageRecord? texts package = scanner.packageRecord? others package := by
  have hfiles : (scanner.filesOf package texts).Perm (scanner.filesOf package others) := h.filter _
  have hcount : scanner.methodCount (scanner.filesOf package texts) =
      scanner.methodCount (scanner.filesOf package others) := (hfiles.map _).sum_nat
  have hlength := hfiles.length_eq
  simp only [packageRecord?, ← List.length_eq_zero_iff, hlength, hcount]

/-- The declarations of an id share an outline, whichever of them comes first. -/
theorem scanAll_outline_of_perm (scanner : Scanner) (h : texts.Perm others) (id : String) :
    (scanner.scanAll .empty texts).nodes[id]?.map MethodNode.outline =
      (scanner.scanAll .empty others).nodes[id]?.map MethodNode.outline := by
  have hmem : id ∈ (scanner.scanAll .empty texts).nodes ↔
      id ∈ (scanner.scanAll .empty others).nodes := by
    simp only [scanAll_eq_enterAll, Tables.mem_ofFindings_nodes, Findings.Declares,
      methodFound_mem_allFindings, Declared, h.mem_iff]
  by_cases hid : id ∈ (scanner.scanAll .empty texts).nodes
  · obtain ⟨node, hnode⟩ := Ordered.mem_iff_exists_getElem?.mp hid
    obtain ⟨other, hother⟩ := Ordered.mem_iff_exists_getElem?.mp (hmem.mp hid)
    obtain ⟨_, _, _, hdeclared, rfl, hsame⟩ := exists_declared_of_nodes hnode
    obtain ⟨_, _, _, hdeclared', rfl, hsame'⟩ := exists_declared_of_nodes hother
    have houtline := hdeclared.outline_eq hdeclared' (hsame.trans hsame'.symm)
    rw [hnode, hother, Option.map_some, Option.map_some, houtline]
  · rw [Std.ExtTreeMap.getElem?_eq_none hid, Std.ExtTreeMap.getElem?_eq_none (mt hmem.mpr hid)]

theorem sameOutlines_scanAll (scanner : Scanner) (h : texts.Perm others) :
    (scanner.scanAll .empty texts).SameOutlines (scanner.scanAll .empty others) where
  packages := by
    refine Std.ExtTreeMap.ext_getElem? ?_
    intro package
    rw [scanAll_packages_getElem?, scanAll_packages_getElem?, packageRecord?_of_perm scanner h]
  calls := scanAll_calls_of_perm scanner h
  nodes := scanAll_outline_of_perm scanner h

/-! ### Tables without a class named twice -/

/-- The node declared under an id is that of the first file that declares one. -/
theorem scanAll_nodes_eq_findSome? (scanner : Scanner) (texts : List Text) (id : String) :
    (scanner.scanAll .empty texts).nodes[id]? =
      texts.findSome? fun s => (scanner.scan .empty s).1.nodes[id]? := by
  simp only [scan_fst, scanAll_eq_enterAll, Tables.ofFindings_nodes_getElem?]
  rw [Findings.nodes, allFindings, List.filterMap_flatMap, List.find?_flatMap]
  rfl

/-- The class recorded under a name is that of the last file that records one. -/
theorem scanAll_classes_eq_findSome? (scanner : Scanner) (texts : List Text) (name : String) :
    (scanner.scanAll .empty texts).classes[name]? =
      texts.reverse.findSome? fun s => (scanner.scan .empty s).1.classes[name]? := by
  simp only [scan_fst, scanAll_eq_enterAll, Tables.ofFindings_classes_getElem?]
  rw [Findings.classes, allFindings, List.filterMap_flatMap, List.reverse_flatMap,
    List.find?_flatMap]
  rfl

/-- A file that declares a method names the class that the id gives. -/
theorem exists_class_of_nodes {s : Text} {id : String} {node : MethodNode}
    (h : (scanner.scan .empty s).1.nodes[id]? = some node) :
    ∃ c declaration, scanner.Declared [s] s c declaration ∧
      (MethodNode.declared c declaration).id = id ∧
      (scanner.scan .empty s).2 = some c.qualifiedName := by
  have hscan : (scanner.scanAll .empty [s]).nodes[id]? = some node := h
  obtain ⟨s', c, declaration, hdeclared, rfl, hid⟩ := exists_declared_of_nodes hscan
  obtain rfl := List.mem_singleton.mp hdeclared.1
  exact ⟨c, declaration, hdeclared, hid, by rw [scan_snd, hdeclared.2.1, Option.map_some]⟩

theorem scan_snd_of_classes {s : Text} {name : String} {c : ClassRecord}
    (h : (scanner.scan .empty s).1.classes[name]? = some c) :
    (scanner.scan .empty s).2 = some name := by
  have hentered : (Tables.empty.enterAll (scanner.allFindings [s])).classes[name]? = some c := by
    rw [← scanAll_eq_enterAll]
    exact h
  obtain rfl := Tables.qualifiedName_of_ofFindings_classes hentered
  rw [Tables.ofFindings_classes_getElem?, classes_allFindings] at hentered
  have hmem := List.mem_reverse.mp (List.mem_of_find?_eq_some hentered)
  obtain ⟨s', hs', hclass⟩ := List.mem_filterMap.mp hmem
  obtain rfl := List.mem_singleton.mp hs'
  rw [scan_snd, hclass, Option.map_some]

/-- Of two files at most one declares a method with a given id. -/
theorem scanAll_nodes_of_perm (h : texts.Perm others) (hnames : (scanner.classNames texts).Nodup) :
    (scanner.scanAll .empty texts).nodes = (scanner.scanAll .empty others).nodes := by
  refine Std.ExtTreeMap.ext_getElem? ?_
  intro id
  rw [scanAll_nodes_eq_findSome?, scanAll_nodes_eq_findSome?]
  refine findSome?_eq_of_perm h ((List.pairwise_filterMap.mp hnames).imp ?_)
  intro s s' hne
  cases hnode : (scanner.scan .empty s).1.nodes[id]? with
  | none => exact Or.inl rfl
  | some node =>
      refine Or.inr (Option.eq_none_iff_forall_ne_some.mpr ?_)
      intro node' hnode'
      obtain ⟨c, _, hdeclared, hid, hname⟩ := exists_class_of_nodes hnode
      obtain ⟨c', _, hdeclared', hid', hname'⟩ := exists_class_of_nodes hnode'
      exact hne _ hname _ hname' (hdeclared.eq_of_id_eq hdeclared' (hid.trans hid'.symm)).1

/-- Of two files at most one has a class with a given qualified name. -/
theorem scanAll_classes_of_perm (h : texts.Perm others)
    (hnames : (scanner.classNames texts).Nodup) :
    (scanner.scanAll .empty texts).classes = (scanner.scanAll .empty others).classes := by
  refine Std.ExtTreeMap.ext_getElem? ?_
  intro name
  rw [scanAll_classes_eq_findSome?, scanAll_classes_eq_findSome?]
  have hreverse : texts.reverse.Perm others.reverse :=
    texts.reverse_perm.trans (h.trans others.reverse_perm.symm)
  refine findSome?_eq_of_perm hreverse (List.pairwise_reverse.mpr ?_)
  refine (List.pairwise_filterMap.mp hnames).imp ?_
  intro s s' hne
  cases hclass : (scanner.scan .empty s).1.classes[name]? with
  | none => exact Or.inr rfl
  | some c =>
      refine Or.inl (Option.eq_none_iff_forall_ne_some.mpr ?_)
      intro c' hclass'
      exact hne _ (scan_snd_of_classes hclass) _ (scan_snd_of_classes hclass') rfl

end Scanner

/-! ### Graphs -/

namespace CallGraph

open Scanner (sameOutlines_scanAll scanAll_classes_of_perm scanAll_eq_enterAll
  scanAll_nodes_of_perm)

variable {texts others : List Text}

/-- Whichever class record stays under a name, the names are the same, and they are in order. -/
theorem classes_scanAll_of_perm (scanner : Scanner) (h : texts.Perm others) :
    (assemble (scanner.scanAll .empty texts)).classes.map ClassRecord.qualifiedName =
      (assemble (scanner.scanAll .empty others)).classes.map ClassRecord.qualifiedName := by
  have hascending : ∀ findings, ((assemble (Tables.empty.enterAll findings)).classes.map
      ClassRecord.qualifiedName).Pairwise fun a b => a < b := fun findings =>
    List.pairwise_map.mpr (assemble_classes_ascending findings)
  rw [scanAll_eq_enterAll, scanAll_eq_enterAll]
  refine Ordered.eq_of_pairwise (fun _ _ => String.lt_asymm) (hascending _) (hascending _) ?_
  intro name
  rw [List.mem_map, List.mem_map, exists_assemble_class_iff, exists_assemble_class_iff,
    Scanner.classes_allFindings, Scanner.classes_allFindings]
  simp only [(h.filterMap scanner.classRecord?).mem_iff]

theorem sameOutlines_assemble_scanAll (scanner : Scanner) (h : texts.Perm others) :
    (assemble (scanner.scanAll .empty texts)).SameOutlines
      (assemble (scanner.scanAll .empty others)) where
  links := congrArg Std.ExtTreeSet.toList (Assembly.run_links_eq (sameOutlines_scanAll scanner h))
  packages :=
    congrArg Std.ExtTreeMap.values (Assembly.run_packages_eq (sameOutlines_scanAll scanner h))
  classes := classes_scanAll_of_perm scanner h
  nodes := Ordered.map_values_eq (Assembly.run_outlines (sameOutlines_scanAll scanner h))

/-- The graph assembled from a scan does not depend on the order of the files, but for single
declarations and class records; and not at all where no two files name the same class, so that it is
then published as the same document. -/
theorem assemble_scanAll_perm (scanner : Scanner) (h : texts.Perm others) :
    (assemble (scanner.scanAll .empty texts)).SameOutlines
        (assemble (scanner.scanAll .empty others)) ∧
      ((scanner.classNames texts).Nodup →
        assemble (scanner.scanAll .empty texts) = assemble (scanner.scanAll .empty others) ∧
        ∀ pretty, (assemble (scanner.scanAll .empty texts)).emit pretty =
          (assemble (scanner.scanAll .empty others)).emit pretty) := by
  refine ⟨sameOutlines_assemble_scanAll scanner h, ?_⟩
  intro hnames
  have htables := sameOutlines_scanAll scanner h
  have heq : scanner.scanAll .empty texts = scanner.scanAll .empty others := by
    rw [Tables.mk.injEq]
    exact ⟨htables.packages, scanAll_classes_of_perm h hnames, scanAll_nodes_of_perm h hnames,
      htables.calls⟩
  rw [heq]
  exact ⟨rfl, fun _ => rfl⟩

end CallGraph

/-- Two files with classes of different names, of which the first calls into the package of the
second. -/
def Scanner.cartAndPay : List Text :=
  ["package cart;import pay.*;public class CartAction{void add(){pay();}}".toList,
   "package pay;public class PayAction{void pay(){}}".toList]

theorem assemble_scanAll_perm_cartAndPay :
    let scanner := Scanner.ofSettings {} ∅ (.ofList ["pay"])
    let graph := CallGraph.assemble (scanner.scanAll .empty Scanner.cartAndPay)
    Scanner.cartAndPay.Perm Scanner.cartAndPay.reverse ∧
      scanner.classNames Scanner.cartAndPay = ["cart.CartAction", "pay.PayAction"] ∧
      graph.links = [⟨"cart.CartAction.add", "pay.pay"⟩] ∧
      graph = CallGraph.assemble (scanner.scanAll .empty Scanner.cartAndPay.reverse) := by
  intro scanner graph
  have hperm := Scanner.cartAndPay.reverse_perm.symm
  have hnames : scanner.classNames Scanner.cartAndPay = ["cart.CartAction", "pay.PayAction"] := by
    decide +kernel
  have hdistinct : (scanner.classNames Scanner.cartAndPay).Nodup := by
    rw [hnames]
    decide
  exact ⟨hperm, hnames, by decide +kernel,
    ((CallGraph.assemble_scanAll_perm scanner hperm).2 hdistinct).1⟩

end ActionCalls
