import ActionCalls.Proofs.Source.Signature
import ActionCalls.Proofs.Text.Bytes

/-!
# What stands in front of a declared name

A declaration says where it starts and what it declares. The text from there to the name is its
**head** (`IsHead`), and there is one only: no parenthesis stands in it, so its end is found from the
first parenthesis back over blanks and over the name.

A call has nothing in front of its name, so a head is meant to hold a word, a modifier or a type. But
the characters of a type are not only those of words: a type of nothing but marks is read as one too,
and there are operators that are written with these marks. Therefore **a head holds a word, or it is
a run of marks with blanks behind it**; in the second case the declaration has no modifiers.
-/

namespace ActionCalls.Source

open Text (StopsAt IsGap)

/-- The text is what stands between the start of the declaration and its name. Only blanks stand
between the name and the first parenthesis. -/
def IsHead (s : Text) (declaration : MethodDeclaration) (head : Text) : Prop :=
  ∃ before blanks rest,
    s = before ++ (head ++ (declaration.name.toList ++ (blanks ++ '(' :: rest))) ∧
      before.byteLength = declaration.offset ∧ '(' ∉ head ∧ ∀ c ∈ blanks, isBlank c

/-- Is the text made of the marks of types, at least one? -/
def AreMarks (marks : Text) : Prop :=
  marks ≠ [] ∧ ∀ c ∈ marks, c ∈ typeMarks

section Unique

variable {name : String} {head other blanks blanks' rest rest' : Text}

theorem IsName.not_mem_paren (h : IsName name) : '(' ∉ name.toList := by
  intro hmem
  exact absurd (h.2 '(' hmem) (by decide)

theorem IsName.stopsAt_reverse (h : IsName name) (front : Text) :
    StopsAt isBlank (name.toList.reverse ++ front) := by
  obtain ⟨c, word, hcons⟩ := List.exists_cons_of_ne_nil (List.reverse_ne_nil_iff.mpr h.1)
  have hc : isWord c = true := h.2 c (List.mem_reverse.mp (hcons ▸ List.mem_cons_self))
  rw [hcons]
  exact Text.stopsAt_cons (isBlank_of_isTypeChar (isTypeChar_of_isWord hc))

/-- What stands in front of a name, with blanks and a parenthesis behind it, is cut off in one way
only. -/
theorem head_unique (hname : IsName name) (hhead : '(' ∉ head) (hother : '(' ∉ other)
    (hblanks : ∀ c ∈ blanks, isBlank c) (hblanks' : ∀ c ∈ blanks', isBlank c)
    (h : head ++ (name.toList ++ (blanks ++ '(' :: rest)) =
      other ++ (name.toList ++ (blanks' ++ '(' :: rest'))) : head = other := by
  have hmem : ∀ {head blanks : Text}, '(' ∉ head → (∀ c ∈ blanks, isBlank c) →
      '(' ∉ head ++ (name.toList ++ blanks) := by
    intro head blanks hhead hblanks hmem
    rcases List.mem_append.mp hmem with hmem | hmem
    · exact hhead hmem
    · rcases List.mem_append.mp hmem with hmem | hmem
      · exact hname.not_mem_paren hmem
      · exact absurd (hblanks '(' hmem) (by decide)
  have hparen : head ++ (name.toList ++ blanks) ++ '(' :: rest =
      other ++ (name.toList ++ blanks') ++ '(' :: rest' := by
    simpa using h
  obtain ⟨hcut, -⟩ := Text.append_mark_inj hparen (hmem hhead hblanks) (hmem hother hblanks')
  -- Read backwards, the blanks are a run that stops at the last character of the name.
  have hback : blanks.reverse ++ (name.toList.reverse ++ head.reverse) =
      blanks'.reverse ++ (name.toList.reverse ++ other.reverse) := by
    simpa using congrArg List.reverse hcut
  obtain ⟨-, hsame⟩ := Text.run_unique hback
    (fun c hc => hblanks c (List.mem_reverse.mp hc)) (hname.stopsAt_reverse _)
    (fun c hc => hblanks' c (List.mem_reverse.mp hc)) (hname.stopsAt_reverse _)
  exact List.reverse_inj.mp (List.append_cancel_left hsame)

end Unique

/-- A declaration has one head. -/
theorem IsHead.unique {s : Text} {declaration : MethodDeclaration} {head other : Text}
    (hname : IsName declaration.name) (h : IsHead s declaration head)
    (hother : IsHead s declaration other) : head = other := by
  obtain ⟨before, blanks, rest, rfl, hoffset, hmem, hblanks⟩ := h
  obtain ⟨before', blanks', rest', hcut, hoffset', hmem', hblanks'⟩ := hother
  obtain ⟨-, hbehind⟩ := Text.append_inj_of_byteLength hcut (hoffset.trans hoffset'.symm)
  exact head_unique hname hmem hmem' hblanks hblanks' hbehind

/-- A type has a character of a word, or it is made of marks. -/
theorem IsType.exists_isWord_or_areMarks {type : Text} (h : IsType type) :
    (∃ c ∈ type, isWord c = true) ∨ AreMarks type := by
  by_cases hword : ∃ c ∈ type, isWord c = true
  · exact Or.inl hword
  · refine Or.inr ⟨h.1, fun c hc => ?_⟩
    exact (isTypeChar_iff.mp (h.2 c hc)).resolve_left fun hc' => hword ⟨c, hc, hc'⟩

/-- The head of what declares a method holds a word, or it is a run of marks without modifiers. -/
theorem WrittenSignature.head_of_declares {w : WrittenSignature} (h : w.signature.declares = true) :
    (∃ c ∈ w.head, isWord c = true) ∨
      ∃ marks gap, w.head = marks ++ gap ∧ AreMarks marks ∧ IsGap gap ∧ w.modifiers = [] := by
  cases hmodifiers : w.modifiers with
  | cons modifier modifiers =>
      obtain ⟨c, word, hcons⟩ := List.exists_cons_of_ne_nil modifier.isName.1
      refine Or.inl ⟨c, ?_, modifier.isName.2 c (hcons ▸ List.mem_cons_self)⟩
      rw [head, hmodifiers, List.flatMap_cons, WrittenModifier.text, hcons]
      exact List.mem_cons_self
  | nil =>
      cases htype : w.returnType with
      | none => simp [Signature.declares, signature, hmodifiers, htype] at h
      | some type =>
          have hhead : w.head = type.type.toList ++ type.gap := by
            rw [head, hmodifiers, htype]
            rfl
          rw [hhead]
          refine type.isType.exists_isWord_or_areMarks.imp ?_ fun hmarks => ?_
          · rintro ⟨c, hc, hword⟩
            exact ⟨c, List.mem_append_left _ hc, hword⟩
          · exact ⟨_, _, rfl, hmarks, type.isGap, rfl⟩

/-- **A declared name has a word in front of it, or nothing but marks.** -/
theorem exists_head_of_mem_methodDeclarations {lookback : Nat} {s : Text}
    {declaration : MethodDeclaration} (h : declaration ∈ methodDeclarations lookback s) :
    ∃ head, IsHead s declaration head ∧ (∀ other, IsHead s declaration other → other = head) ∧
      ((∃ c ∈ head, isWord c = true) ∨
        ∃ marks gap, head = marks ++ gap ∧ AreMarks marks ∧ IsGap gap ∧
          declaration.accessLevel = .packageAccess ∧ declaration.isStatic = false) := by
  have hname := isName_of_mem_methodDeclarations h
  obtain ⟨w, before, after, rfl, hdeclares, rfl⟩ := exists_written_of_mem_methodDeclarations h
  have hhead : IsHead (before ++ (w.text ++ after))
      (Signature.toDeclaration lookback ⟨before, w.signature, after⟩) w.head := by
    refine ⟨before, w.blanks, w.arguments ++ ')' :: after, ?_, rfl, ?_, w.areBlank⟩
    · simp [w.text_append, WrittenSignature.front, WrittenCall.front, Signature.toDeclaration,
        WrittenSignature.signature]
    · exact fun hmem => w.not_mem_front (List.mem_append_left _ hmem)
  refine ⟨w.head, hhead, fun other hother => hother.unique hname hhead, ?_⟩
  refine (WrittenSignature.head_of_declares hdeclares).imp_right ?_
  rintro ⟨marks, gap, hmarks, hare, hgap, hnil⟩
  refine ⟨marks, gap, hmarks, hare, hgap, ?_⟩
  simp [Signature.toDeclaration, WrittenSignature.signature, hnil, accessLevel]

/-! ### A call behind an operator -/

/-- A method that compares with the result of a call. -/
def lessSource : Text :=
  "boolean less() { return a < f(b); }".toList

/-- What is found of the call. -/
def comparedCall : MethodDeclaration where
  name := "f"
  accessLevel := .packageAccess
  isStatic := false
  annotations := ∅
  body := []
  offset := 26

theorem comparedCall_mem : comparedCall ∈ methodDeclarations 200 lessSource := by
  decide +kernel

theorem isHead_comparedCall : IsHead lessSource comparedCall "< ".toList :=
  ⟨lessSource.take 26, [], lessSource.drop 30, by decide +kernel, by decide +kernel, by decide,
    by simp⟩

theorem exists_head_of_mem_methodDeclarations_lessSource :
    comparedCall ∈ methodDeclarations 200 lessSource ∧
      ∀ head, IsHead lessSource comparedCall head → head = "< ".toList := by
  obtain ⟨head, -, hunique, -⟩ := exists_head_of_mem_methodDeclarations comparedCall_mem
  refine ⟨comparedCall_mem, fun other hother => ?_⟩
  rw [hunique other hother, hunique _ isHead_comparedCall]

/-- Does every declared name have a word in front of it? -/
def HeadsHaveWords (lookback : Nat) (s : Text) : Prop :=
  ∀ declaration ∈ methodDeclarations lookback s, ∀ head, IsHead s declaration head →
    ∃ c ∈ head, isWord c = true

/-- The operator is read as a type, so the call is found like a declaration. -/
theorem not_headsHaveWords_lessSource : ¬ HeadsHaveWords 200 lessSource := by
  intro h
  obtain ⟨c, hc, hword⟩ := h comparedCall comparedCall_mem _ isHead_comparedCall
  exact Text.not_mem_of_kind hword (by decide) hc

end ActionCalls.Source
