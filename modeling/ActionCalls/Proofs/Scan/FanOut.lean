import ActionCalls.Proofs.Analysis.OwnPackage
import ActionCalls.Proofs.Graph.Degrees

/-!
# A scan counts every call once

Two targets may share an id: `p.C.m` is the method `m` of the class `C` of `p`, and also the method
`m` of a package `p.C`. A source that called both would be given two calls for one link.

Scanned sources do not, as long as their own packages are known. All files that declare a source agree
on its package `p` and its class `C`, however many there are, and **every target lies in `p`**. It has
the class `C` or none, so the ids are `p.C.m` and `p.n` with names `m` and `n`, and such ids differ
where the targets do: the method is the last segment, and `p.C.m` is longer than `p.m`. So the number
that a node is given as its outgoing calls is that of its links, and over all nodes the calls out are
as many as the calls in.
-/

namespace ActionCalls

/-- Every node counts the links that leave it, and all links are counted once at either end. -/
structure CallGraph.Balanced (graph : CallGraph) : Prop where
  outgoing_eq_calls : ∀ node ∈ graph.nodes,
    node.statistics.outgoingCalls = node.statistics.calls.size
  outgoing_eq_links : ∀ node ∈ graph.nodes,
    node.statistics.outgoingCalls = graph.links.countP fun link => link.source = node.id
  sum_outgoing : (graph.nodes.map (·.statistics.outgoingCalls)).sum = graph.links.length
  sum_incoming : (graph.nodes.map (·.statistics.incomingCalls)).sum = graph.links.length

/-! ### Targets of one source -/

/-- A class between package and method makes an id longer. -/
theorem CallTarget.id_inClass_ne_id_inPackage {package owner method : String}
    (hpackage : package ≠ "") :
    (inClass package owner method).id ≠ (inPackage package method).id := by
  rw [id_inPackage method hpackage]
  intro h
  have hlength := congrArg String.length h
  simp only [inClass, id, String.length_append] at hlength
  have hdot : (".").length = 1 := rfl
  omega

namespace Scanner

variable {scanner : Scanner} {texts : List Text}

/-- The targets that one source calls in two files are the same if they have the same id. -/
theorem Declared.target_eq_of_id_eq (hknown : scanner.KnowsPackages texts) {s s' : Text}
    {c c' : ClassRecord} {declaration declaration' : Source.MethodDeclaration}
    {target other : CallTarget} (h : scanner.Declared texts s c declaration)
    (h' : scanner.Declared texts s' c' declaration')
    (hsource : (MethodNode.declared c declaration).id = (MethodNode.declared c' declaration').id)
    (hmem : target ∈
      resolveBody scanner.project scanner.filter (scanner.context s c) declaration.body)
    (hmem' : other ∈
      resolveBody scanner.project scanner.filter (scanner.context s' c') declaration'.body)
    (hid : target.id = other.id) : target = other := by
  obtain ⟨hpackage, hname⟩ := eq_of_qualifiedName_eq h.2.1 h'.2.1 (h.eq_of_id_eq h' hsource).1
  have hne := package_ne_empty h'.2.1
  have hmethod : target.method = other.method := by
    rw [← lastSegment_of_mem_resolveBody hmem, ← lastSegment_of_mem_resolveBody hmem', hid]
  have hcases := h.target_cases hknown hmem
  rw [hpackage, hname] at hcases
  -- Each target is a method of the class or a name in the package.
  rcases hcases with ⟨callee, -, rfl⟩ | ⟨name, -, rfl⟩ <;>
    rcases h'.target_cases hknown hmem' with ⟨callee', -, rfl⟩ | ⟨name', -, rfl⟩
  · obtain hmethod : callee.name = callee'.name := hmethod
    rw [hmethod]
  · obtain hmethod : callee.name = name' := hmethod
    exact absurd (hmethod ▸ hid) (CallTarget.id_inClass_ne_id_inPackage hne)
  · obtain hmethod : name = callee'.name := hmethod
    exact absurd (hmethod ▸ hid).symm (CallTarget.id_inClass_ne_id_inPackage hne)
  · obtain hmethod : name = name' := hmethod
    rw [hmethod]

theorem targetsApart_scanAll (hknown : scanner.KnowsPackages texts) (source : String) :
    (scanner.scanAll .empty texts).TargetsApart source := by
  intro target hmem other hmem' hid
  rw [scanAll_eq_enterAll, Tables.mem_ofFindings_callSet] at hmem hmem'
  obtain ⟨s, c, declaration, hdeclared, hsource, hmem⟩ := calls_allFindings.mp hmem
  obtain ⟨s', c', declaration', hdeclared', hsource', hmem'⟩ := calls_allFindings.mp hmem'
  exact hdeclared.target_eq_of_id_eq hknown hdeclared' (hsource.trans hsource'.symm) hmem hmem' hid

end Scanner

/-! ### The graph of a scan -/

namespace CallGraph

variable {scanner : Scanner} {texts : List Text}

/-- A node of a scan is given the size of its call set as its number of calls. -/
theorem outgoingCalls_scanAll {node : MethodNode}
    (hmem : node ∈ (assemble (scanner.scanAll .empty texts)).nodes) :
    node.statistics.outgoingCalls = ((scanner.scanAll .empty texts).callSet node.id).size :=
  outgoingCalls_of_mem_assemble (Scanner.keyed_scanAll scanner texts)
    (Scanner.statistics_of_scanAll_nodes scanner texts) hmem

/-- Where the packages of all files are known, no two targets that a source calls share an id, and in
the assembled graph calls, links and their numbers agree at every node and over all nodes. -/
theorem assemble_scanAll_balanced (hknown : scanner.KnowsPackages texts) :
    (∀ source, (scanner.scanAll .empty texts).TargetsApart source) ∧
      (assemble (scanner.scanAll .empty texts)).Balanced := by
  have hapart := Scanner.targetsApart_scanAll hknown
  have hclosed := closed_of_keyed (Scanner.keyed_scanAll scanner texts)
  have hcounts : ∀ node ∈ (assemble (scanner.scanAll .empty texts)).nodes,
      node.Counts (assemble (scanner.scanAll .empty texts)).links := fun node hmem =>
    counts_of_mem_assemble (Scanner.keyed_scanAll scanner texts)
      (Scanner.statistics_of_scanAll_nodes scanner texts) hmem
  have houtgoing : ∀ node ∈ (assemble (scanner.scanAll .empty texts)).nodes,
      node.statistics.outgoingCalls = node.statistics.calls.size := by
    intro node hmem
    rw [outgoingCalls_scanAll hmem, size_calls_eq (hcounts node hmem) (hapart node.id)]
  refine ⟨hapart, houtgoing, ?_, ?_, hclosed.sum_incomingCalls hcounts⟩
  · intro node hmem
    rw [houtgoing node hmem, (hcounts node hmem).size_calls hclosed.links_distinct]
  · rw [← hclosed.sum_size_calls hcounts]
    exact congrArg List.sum (List.map_congr_left houtgoing)

end CallGraph

/-- Two files that declare the same method of the same class. Only the second one declares `pay`, so
that of the calls of `add` to it one goes to the package and one to the class. -/
def Scanner.cartTwice : List Text :=
  ["package cart;public class CartAction{void add(){pay();add();}}".toList,
   "package cart;public class CartAction{void add(){pay();}void pay(){}}".toList]

theorem assemble_scanAll_balanced_cartTwice :
    let scanner := Scanner.ofSettings {} ∅ (.ofList ["cart"])
    let graph := CallGraph.assemble (scanner.scanAll .empty Scanner.cartTwice)
    scanner.KnowsPackages Scanner.cartTwice ∧
      graph.links = [⟨"cart.CartAction.add", "cart.CartAction.add"⟩,
        ⟨"cart.CartAction.add", "cart.CartAction.pay"⟩, ⟨"cart.CartAction.add", "cart.pay"⟩] ∧
      (scanner.scanAll .empty Scanner.cartTwice).TargetsApart "cart.CartAction.add" ∧
      (graph.nodes.map (·.statistics.outgoingCalls)).sum = 3 := by
  intro scanner graph
  have hknown : scanner.KnowsPackages Scanner.cartTwice := by
    have hall : ∀ s ∈ Scanner.cartTwice, ∀ c ∈ scanner.classRecord? s,
        c.package ∈ scanner.project := by
      decide +kernel
    exact fun s hs c hc => hall s hs c hc
  have hlinks : graph.links = [⟨"cart.CartAction.add", "cart.CartAction.add"⟩,
      ⟨"cart.CartAction.add", "cart.CartAction.pay"⟩, ⟨"cart.CartAction.add", "cart.pay"⟩] := by
    decide +kernel
  obtain ⟨hapart, hbalanced⟩ := CallGraph.assemble_scanAll_balanced hknown
  refine ⟨hknown, hlinks, hapart _, ?_⟩
  rw [hbalanced.sum_outgoing, hlinks]
  rfl

end ActionCalls
