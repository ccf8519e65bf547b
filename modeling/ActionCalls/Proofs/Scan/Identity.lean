import ActionCalls.Proofs.Graph.Outline
import ActionCalls.Proofs.Scan.Findings

/-!
# What the id of a declared method says

A declared method has the id `package.Class.method`, and the package and the class may have dots of
their own. Still **the three parts can be read off the id**: a method is a name and has no dot, and
how many dots a class has is a matter of the suffix that all classes of a scan share.

Two files therefore declare methods under one id only if they declare the same method of the same
class in the same package. They may differ in what they say about the method, and there the first one
counts, but the **outline** of its node is common to all of them (`Declared.exists_node`). So a source
of calls has the package of every file that declares it, whichever came first.
-/

namespace ActionCalls

namespace Scanner

variable {scanner : Scanner} {texts others : List Text} {s s' : Text} {c c' : ClassRecord}
  {declaration declaration' : Source.MethodDeclaration}

/-! ### Classes -/

/-- What is read of a class besides its supertypes and annotations. -/
theorem classRecord?_inv (h : scanner.classRecord? s = some c) :
    Source.packageName? s = some c.package ∧
      Source.actionClass? scanner.classSuffix s = some c.name ∧
      c.isAction = scanner.actionSuffix.toList.isSuffixOf c.name.toList := by
  unfold classRecord? at h
  obtain ⟨package, hpackage, h⟩ := Option.bind_eq_some_iff.mp h
  obtain ⟨name, hname, h⟩ := Option.bind_eq_some_iff.mp h
  obtain rfl := Option.some.inj h
  exact ⟨hpackage, hname, rfl⟩

theorem package_ne_empty (h : scanner.classRecord? s = some c) : c.package ≠ "" :=
  Source.packageName?_ne_empty (classRecord?_inv h).1

theorem isSuffixed_name (h : scanner.classRecord? s = some c) :
    Source.IsSuffixed scanner.classSuffix.toList c.name.toList :=
  Source.isSuffixed_of_actionClass? (classRecord?_inv h).2.1

/-- The qualified name of a class gives its package and its name. -/
theorem eq_of_qualifiedName_eq (h : scanner.classRecord? s = some c)
    (h' : scanner.classRecord? s' = some c') (heq : c.qualifiedName = c'.qualifiedName) :
    c.package = c'.package ∧ c.name = c'.name := by
  refine append_dot_inj ?_ heq
  rw [(isSuffixed_name h).count_dot, (isSuffixed_name h').count_dot]

/-- Whether a class is an action class is a matter of its name. -/
theorem isAction_eq (h : scanner.classRecord? s = some c) (h' : scanner.classRecord? s' = some c')
    (heq : c.name = c'.name) : c.isAction = c'.isAction := by
  rw [(classRecord?_inv h).2.2, (classRecord?_inv h').2.2, heq]

/-! ### Declared methods -/

/-- The id of a method gives the qualified name of its class and its own name. -/
theorem Declared.eq_of_id_eq (h : scanner.Declared texts s c declaration)
    (h' : scanner.Declared others s' c' declaration')
    (hid : (MethodNode.declared c declaration).id = (MethodNode.declared c' declaration').id) :
    c.qualifiedName = c'.qualifiedName ∧ declaration.name = declaration'.name := by
  refine append_dot_inj ?_ hid
  rw [List.count_eq_zero_of_not_mem h.isName.not_mem_dot,
    List.count_eq_zero_of_not_mem h'.isName.not_mem_dot]

/-- Nodes that are declared under one id have the same outline. -/
theorem Declared.outline_eq (h : scanner.Declared texts s c declaration)
    (h' : scanner.Declared others s' c' declaration')
    (hid : (MethodNode.declared c declaration).id = (MethodNode.declared c' declaration').id) :
    (MethodNode.declared c declaration).outline = (MethodNode.declared c' declaration').outline := by
  obtain ⟨hqualified, hmethod⟩ := h.eq_of_id_eq h' hid
  obtain ⟨hpackage, hname⟩ := eq_of_qualifiedName_eq h.2.1 h'.2.1 hqualified
  have haction := isAction_eq h.2.1 h'.2.1 hname
  simp only [MethodNode.outline, MethodNode.declared, hqualified, hpackage, hname, hmethod, haction]

theorem Declared.declares (h : scanner.Declared texts s c declaration) :
    Findings.Declares (scanner.allFindings texts) (MethodNode.declared c declaration).id :=
  ⟨_, methodFound_mem_allFindings.mpr ⟨s, c, declaration, h, rfl⟩, rfl⟩

/-- What is declared under an id is declared by one of the texts. -/
theorem exists_declared_of_nodes {id : String} {node : MethodNode}
    (h : (scanner.scanAll .empty texts).nodes[id]? = some node) :
    ∃ s c declaration, scanner.Declared texts s c declaration ∧
      MethodNode.declared c declaration = node ∧ node.id = id := by
  rw [scanAll_eq_enterAll] at h
  obtain ⟨s, c, declaration, hdeclared, hnode⟩ :=
    methodFound_mem_allFindings.mp (Tables.methodFound_of_ofFindings_nodes h)
  exact ⟨s, c, declaration, hdeclared, hnode, Tables.id_of_ofFindings_nodes h⟩

/-- The node of a declared method has the outline of each of its declarations, as far as it does not
count calls. -/
theorem Declared.exists_node (h : scanner.Declared texts s c declaration) :
    ∃ node, (Assembly.run (scanner.scanAll .empty texts)).nodes[
        (MethodNode.declared c declaration).id]? = some node ∧
      node.bare.outline = (MethodNode.declared c declaration).outline := by
  have hmem : (MethodNode.declared c declaration).id ∈ (scanner.scanAll .empty texts).nodes := by
    rw [scanAll_eq_enterAll, Tables.mem_ofFindings_nodes]
    exact h.declares
  obtain ⟨first, hfirst⟩ := Ordered.mem_iff_exists_getElem?.mp hmem
  obtain ⟨node, hnode, same⟩ := Assembly.exists_run_node hfirst
  obtain ⟨s', c', declaration', hdeclared, rfl, hid⟩ := exists_declared_of_nodes hfirst
  refine ⟨node, hnode, ?_⟩
  rw [same]
  exact hdeclared.outline_eq h hid

/-- The calls of a declared method come from the package of its class. -/
theorem Declared.sourcePackage (h : scanner.Declared texts s c declaration) :
    (Assembly.run (scanner.scanAll .empty texts)).sourcePackage
      (MethodNode.declared c declaration).id = c.package := by
  obtain ⟨node, hnode, houtline⟩ := h.exists_node
  rw [Assembly.sourcePackage, Assembly.sourceNode, hnode]
  exact (MethodNode.eq_of_outline_eq houtline).2.1

/-- The calls between packages are those in the bodies of declarations. -/
theorem mem_packageCalls_scanAll {package other : String} :
    (package, other) ∈ Assembly.packageCalls (scanner.scanAll .empty texts) ↔
      ∃ s c declaration, scanner.Declared texts s c declaration ∧ c.package = package ∧
        ∃ target ∈
          resolveBody scanner.project scanner.filter (scanner.context s c) declaration.body,
          target.package = other := by
  rw [Assembly.mem_packageCalls]
  constructor
  · intro h
    obtain ⟨source, target, hmem, hpackage, hother⟩ := h
    rw [scanAll_eq_enterAll, Tables.mem_ofFindings_callSet] at hmem
    obtain ⟨s, c, declaration, hdeclared, rfl, htarget⟩ := calls_allFindings.mp hmem
    rw [hdeclared.sourcePackage] at hpackage
    exact ⟨s, c, declaration, hdeclared, hpackage, target, htarget, hother⟩
  · intro h
    obtain ⟨s, c, declaration, hdeclared, hpackage, target, htarget, hother⟩ := h
    refine ⟨(MethodNode.declared c declaration).id, target, ?_, ?_, hother⟩
    · rw [scanAll_eq_enterAll, Tables.mem_ofFindings_callSet]
      exact calls_allFindings.mpr ⟨s, c, declaration, hdeclared, rfl, htarget⟩
    · rw [hdeclared.sourcePackage, hpackage]

end Scanner

end ActionCalls
