import Mathlib.Data.Option.Basic
import ActionCalls.Proofs.Source.Names
import ActionCalls.Source.Declaration

/-!
# Signatures as they are written

A signature is read from modifiers, a return type, a name and its arguments, each as it is written
(`WrittenSignature`). Whatever is read was written so: that is one lemma for each part, up to
`exists_written_of_signature`.

The way back needs that a text is written in one way only. Modifiers and types are runs of the same
characters, with blanks behind them, so where one stands no other does (`IsType.unique`). A type that
is no modifier therefore ends the modifiers, and a signature that has such a type is read as it was
written (`signature_written`).
-/

namespace ActionCalls.Source

open Text (StopsAt IsGap)

/-! ### Runs of type characters -/

/-- Is the text a return type, which is one run without blanks? -/
def IsType (type : Text) : Prop :=
  type ≠ [] ∧ ∀ c ∈ type, isTypeChar c = true

/-- The characters other than those of words that a type may have. -/
def typeMarks : List Char :=
  ['.', '<', '>', '[', ']', '?']

theorem isTypeChar_iff {c : Char} : isTypeChar c = true ↔ isWord c = true ∨ c ∈ typeMarks := by
  simp [isTypeChar, typeMarks]

theorem isTypeChar_of_isWord {c : Char} (h : isWord c = true) : isTypeChar c = true :=
  isTypeChar_iff.mpr (Or.inl h)

theorem isTypeChar_of_isBlank {c : Char} (h : isBlank c = true) : isTypeChar c = false := by
  refine Bool.eq_false_iff.mpr fun htype => ?_
  rcases isTypeChar_iff.mp htype with hword | hmark
  · exact absurd hword (by simp [isWord_of_isBlank h])
  · exact Text.not_mem_of_kind h (by decide) hmark

theorem isBlank_of_isTypeChar {c : Char} (h : isTypeChar c = true) : isBlank c = false := by
  refine Bool.eq_false_iff.mpr fun hblank => ?_
  exact absurd (isTypeChar_of_isBlank hblank) (by simp [h])

section Unique

variable {type other gap gap' rest rest' : Text}

theorem IsType.stopsAt_isBlank (h : IsType type) : StopsAt isBlank (type ++ rest) := by
  obtain ⟨c, type, rfl⟩ := List.exists_cons_of_ne_nil h.1
  exact Text.stopsAt_cons (isBlank_of_isTypeChar (h.2 c List.mem_cons_self))

theorem stopsAt_isTypeChar_of_isGap (h : IsGap gap) : StopsAt isTypeChar (gap ++ rest) := by
  obtain ⟨c, gap, rfl⟩ := List.exists_cons_of_ne_nil h.1
  exact Text.stopsAt_cons (isTypeChar_of_isBlank (h.2 c List.mem_cons_self))

/-- Where a type stands with blanks behind it, no other one stands. -/
theorem IsType.unique (h : type ++ (gap ++ rest) = other ++ (gap' ++ rest'))
    (htype : IsType type) (hgap : IsGap gap) (hrest : StopsAt isBlank rest)
    (hother : IsType other) (hgap' : IsGap gap') (hrest' : StopsAt isBlank rest') :
    type = other ∧ rest = rest' := by
  obtain ⟨hsame, hbehind⟩ := Text.run_unique h htype.2 (stopsAt_isTypeChar_of_isGap hgap)
    hother.2 (stopsAt_isTypeChar_of_isGap hgap')
  exact ⟨hsame, (Text.run_unique hbehind hgap.2 hrest hgap'.2 hrest').2⟩

end Unique

theorem IsName.isType {name : String} (h : IsName name) : IsType name.toList :=
  ⟨h.1, fun c hc => isTypeChar_of_isWord (h.2 c hc)⟩

/-! ### Names with their arguments -/

/-- A name with its argument list, as it is written. It alone is a call. -/
structure WrittenCall where
  name : String
  /-- What stands between the name and the arguments. -/
  blanks : Text
  arguments : Text
  isName : IsName name
  areBlank : ∀ c ∈ blanks, isBlank c
  not_mem : ')' ∉ arguments

/-- The text of a call up to its opening parenthesis. -/
def WrittenCall.front (w : WrittenCall) : Text :=
  w.name.toList ++ w.blanks

def WrittenCall.text (w : WrittenCall) : Text :=
  w.front ++ '(' :: (w.arguments ++ [')'])

theorem WrittenCall.text_append (w : WrittenCall) (rest : Text) :
    w.text ++ rest = w.name.toList ++ (w.blanks ++ '(' :: (w.arguments ++ ')' :: rest)) := by
  simp [text, front]

theorem WrittenCall.stopsAt_isBlank (w : WrittenCall) (rest : Text) :
    StopsAt isBlank (w.text ++ rest) := by
  rw [w.text_append]
  exact w.isName.isType.stopsAt_isBlank

section Name

variable {s rest : Text} {name : String}

theorem afterArguments?_eq_some_iff :
    afterArguments? s = some rest ↔
      ∃ arguments, s = '(' :: (arguments ++ ')' :: rest) ∧ ')' ∉ arguments := by
  unfold afterArguments?
  constructor
  · intro h
    obtain ⟨inside, hopen, hclose⟩ := Option.bind_eq_some_iff.mp h
    obtain rfl := Text.after?_eq_some_iff.mp hopen
    obtain ⟨arguments, rfl, hmem⟩ := Text.dropWhile_ne_eq_iff.mp (Text.after?_eq_some_iff.mp hclose)
    exact ⟨arguments, rfl, hmem⟩
  · intro h
    obtain ⟨arguments, rfl, hmem⟩ := h
    refine Option.bind_eq_some_iff.mpr ⟨_, Text.after?_eq_some_iff.mpr rfl, ?_⟩
    exact Text.after?_eq_some_iff.mpr (Text.dropWhile_ne_eq_iff.mpr ⟨arguments, rfl, hmem⟩)

/-- A name with its arguments is read where one stands: the name is not cut short, since neither a
blank nor a parenthesis can stand in it. -/
theorem nameWithArguments?_eq_some_iff :
    nameWithArguments? s = some (name, rest) ↔
      ∃ w : WrittenCall, w.name = name ∧ s = w.text ++ rest := by
  unfold nameWithArguments?
  constructor
  · intro h
    obtain ⟨⟨word, behind⟩, hword, h⟩ := Option.bind_eq_some_iff.mp h
    obtain ⟨rest', harguments, h⟩ := Option.bind_eq_some_iff.mp h
    obtain ⟨rfl, rfl⟩ := Prod.mk.inj (Option.some.inj h)
    obtain ⟨arguments, hskip, hmem⟩ := afterArguments?_eq_some_iff.mp harguments
    obtain ⟨blanks, rfl, hblanks, -⟩ := Text.skipBlanks_eq_iff.mp hskip
    obtain ⟨-, rfl, -, -⟩ := Text.word?_eq_some_iff.mp hword
    refine ⟨⟨_, blanks, arguments, isName_of_word? hword, hblanks, hmem⟩, rfl, ?_⟩
    rw [WrittenCall.text_append, String.toList_ofList]
  · intro h
    obtain ⟨w, rfl, rfl⟩ := h
    rw [w.text_append]
    have hparen : StopsAt isBlank ('(' :: (w.arguments ++ ')' :: rest)) :=
      Text.stopsAt_cons (by decide)
    have hstops : StopsAt isWord (w.blanks ++ '(' :: (w.arguments ++ ')' :: rest)) := by
      cases hcons : w.blanks with
      | nil => exact Text.stopsAt_cons (by decide)
      | cons c blanks =>
          have hc := w.areBlank c (hcons ▸ List.mem_cons_self)
          exact Text.stopsAt_cons (isWord_of_isBlank hc)
    have hword := Text.word?_eq_some_iff.mpr ⟨w.isName.1, rfl, w.isName.2, hstops⟩
    have hskip := Text.skipBlanks_eq_iff.mpr ⟨w.blanks, rfl, w.areBlank, hparen⟩
    have harguments := afterArguments?_eq_some_iff.mpr ⟨w.arguments, hskip, w.not_mem⟩
    rw [hword]
    refine Option.bind_eq_some_iff.mpr ⟨_, rfl, Option.bind_eq_some_iff.mpr ⟨rest, harguments, ?_⟩⟩
    rw [String.ofList_toList]
    rfl

end Name

/-! ### Return types -/

/-- A return type as it is written, with the blanks behind it. -/
structure WrittenType where
  type : String
  gap : Text
  isType : IsType type.toList
  isGap : IsGap gap

def WrittenType.text (w : WrittenType) : Text :=
  w.type.toList ++ w.gap

theorem WrittenType.stopsAt_isBlank (w : WrittenType) (rest : Text) :
    StopsAt isBlank (w.text ++ rest) := by
  rw [text, List.append_assoc]
  exact w.isType.stopsAt_isBlank

theorem typedName?_eq_some_iff {s rest : Text} {type name : String} :
    typedName? s = some (type, name, rest) ↔
      ∃ (w : WrittenType) (call : WrittenCall), w.type = type ∧ call.name = name ∧
        s = w.text ++ (call.text ++ rest) := by
  unfold typedName?
  constructor
  · intro h
    obtain ⟨_, hguard, h⟩ := Option.bind_eq_some_iff.mp h
    obtain ⟨behind, hbehind, h⟩ := Option.bind_eq_some_iff.mp h
    obtain ⟨⟨name', rest'⟩, hname, h⟩ := Option.bind_eq_some_iff.mp h
    obtain ⟨rfl, hfields⟩ := Prod.mk.inj (Option.some.inj h)
    obtain ⟨rfl, rfl⟩ := Prod.mk.inj hfields
    obtain ⟨gap, hcut, hgap, -⟩ := Text.afterBlanks?_eq_some_iff.mp hbehind
    obtain ⟨call, hcall, rfl⟩ := nameWithArguments?_eq_some_iff.mp hname
    have htype : IsType (String.ofList (s.takeWhile isTypeChar)).toList := by
      rw [String.toList_ofList]
      exact ⟨(Option.guard_eq_some' _).mp hguard,
        fun c hc => List.all_eq_true.mp List.all_takeWhile c hc⟩
    refine ⟨⟨_, gap, htype, hgap⟩, call, rfl, hcall, ?_⟩
    rw [WrittenType.text, String.toList_ofList, List.append_assoc, ← hcut,
      List.takeWhile_append_dropWhile]
  · intro h
    obtain ⟨w, call, rfl, rfl, rfl⟩ := h
    have hstops : StopsAt isTypeChar (w.gap ++ (call.text ++ rest)) :=
      stopsAt_isTypeChar_of_isGap w.isGap
    have hrest := Text.afterBlanks?_eq_some_iff.mpr
      ⟨w.gap, rfl, w.isGap, call.stopsAt_isBlank rest⟩
    have hname : nameWithArguments? (call.text ++ rest) = some (call.name, rest) :=
      nameWithArguments?_eq_some_iff.mpr ⟨call, rfl, rfl⟩
    rw [WrittenType.text, List.append_assoc, Text.takeWhile_run w.isType.2 hstops,
      Text.dropWhile_run w.isType.2 hstops]
    refine Option.bind_eq_some_iff.mpr ⟨(), (Option.guard_eq_some' _).mpr w.isType.1, ?_⟩
    refine Option.bind_eq_some_iff.mpr ⟨_, hrest, Option.bind_eq_some_iff.mpr ⟨_, hname, ?_⟩⟩
    rw [String.ofList_toList]
    rfl

/-! ### Modifiers -/

/-- A modifier as it is written, with the blanks behind it. -/
structure WrittenModifier where
  word : String
  modifier : Modifier
  gap : Text
  spelled : (word, modifier) ∈ Modifier.spellings
  isGap : IsGap gap

def WrittenModifier.text (w : WrittenModifier) : Text :=
  w.word.toList ++ w.gap

theorem WrittenModifier.isName (w : WrittenModifier) : IsName w.word := by
  have hall : ∀ entry ∈ Modifier.spellings, entry.1.toList ≠ [] ∧ entry.1.toList.all isWord := by
    decide
  obtain ⟨hne, hword⟩ := hall _ w.spelled
  exact ⟨hne, List.all_eq_true.mp hword⟩

/-- A word spells one modifier. -/
theorem Modifier.unique {word : String} {modifier other : Modifier}
    (h : (word, modifier) ∈ spellings) (hother : (word, other) ∈ spellings) : modifier = other := by
  have hall : ∀ a ∈ spellings, ∀ b ∈ spellings, a.1 = b.1 → a.2 = b.2 := by decide
  exact hall _ h _ hother rfl

section Modifiers

variable {s rest : Text} {modifier : Modifier} {modifiers : List Modifier} {n : Nat}

theorem exists_written_of_modifier? (h : modifier? s = some (modifier, rest)) :
    ∃ w : WrittenModifier, w.modifier = modifier ∧ s = w.text ++ rest ∧ StopsAt isBlank rest := by
  obtain ⟨⟨word, found⟩, hspelled, hread⟩ := List.exists_of_findSome?_eq_some h
  obtain ⟨behind, hbehind, hresult⟩ := Option.map_eq_some_iff.mp hread
  obtain ⟨rfl, rfl⟩ := Prod.mk.inj hresult
  obtain ⟨afterWord, hword, hgap⟩ := Option.bind_eq_some_iff.mp hbehind
  obtain rfl := Text.after?_eq_some_iff.mp hword
  obtain ⟨gap, rfl, hgap, hstops⟩ := Text.afterBlanks?_eq_some_iff.mp hgap
  exact ⟨⟨word, found, gap, hspelled, hgap⟩, rfl, (List.append_assoc ..).symm, hstops⟩

/-- A modifier is read where one stands: it is the only one that stands there. -/
theorem modifier?_written (w : WrittenModifier) (hrest : StopsAt isBlank rest) :
    modifier? (w.text ++ rest) = some (w.modifier, rest) := by
  have hsome : (modifier? (w.text ++ rest)).isSome := by
    refine List.findSome?_isSome_iff.mpr ⟨(w.word, w.modifier), w.spelled, ?_⟩
    have hword := Text.after?_eq_some_iff.mpr (List.append_assoc w.word.toList w.gap rest)
    have hgap := Text.afterBlanks?_eq_some_iff.mpr ⟨w.gap, rfl, w.isGap, hrest⟩
    show (((Text.after? (w.word.toList ++ w.gap ++ rest) w.word.toList).bind Text.afterBlanks?).map
      (w.modifier, ·)).isSome
    rw [hword, Option.bind_some, hgap]
    rfl
  obtain ⟨⟨modifier, rest'⟩, hread⟩ := Option.isSome_iff_exists.mp hsome
  obtain ⟨other, rfl, hcut, hrest'⟩ := exists_written_of_modifier? hread
  simp only [WrittenModifier.text, List.append_assoc] at hcut
  obtain ⟨hword, rfl⟩ :=
    IsType.unique hcut w.isName.isType w.isGap hrest other.isName.isType other.isGap hrest'
  have hspelled := other.spelled
  rw [← String.toList_inj.mp hword] at hspelled
  rw [hread, Modifier.unique hspelled w.spelled]

/-- A type that is no modifier is not read as one. -/
theorem modifier?_eq_none_of_type (w : WrittenType)
    (hfree : w.type ∉ Modifier.spellings.map Prod.fst) (hrest : StopsAt isBlank rest) :
    modifier? (w.text ++ rest) = none := by
  refine Option.eq_none_iff_forall_ne_some.mpr fun ⟨modifier, rest'⟩ hread => ?_
  obtain ⟨other, -, hcut, hrest'⟩ := exists_written_of_modifier? hread
  simp only [WrittenType.text, WrittenModifier.text, List.append_assoc] at hcut
  have hword :=
    (IsType.unique hcut w.isType w.isGap hrest other.isName.isType other.isGap hrest').1
  rw [String.toList_inj.mp hword] at hfree
  exact hfree (List.mem_map_of_mem other.spelled)

/-- However many of the modifiers are taken, they were written in front of the rest. -/
theorem exists_written_of_mem_modifierSplits (h : (modifiers, rest) ∈ modifierSplits n s) :
    ∃ written : List WrittenModifier, modifiers = written.map WrittenModifier.modifier ∧
      s = written.flatMap WrittenModifier.text ++ rest := by
  induction n generalizing s modifiers with
  | zero =>
      obtain ⟨rfl, rfl⟩ := Prod.mk.inj (List.mem_singleton.mp h)
      exact ⟨[], rfl, rfl⟩
  | succ n ih =>
      unfold modifierSplits at h
      split at h
      case h_1 modifier behind hread =>
          rcases List.mem_append.mp h with hmem | hmem
          · obtain ⟨⟨modifiers', rest'⟩, hsplit, heq⟩ := List.mem_map.mp hmem
            obtain ⟨rfl, rfl⟩ := Prod.mk.inj heq
            obtain ⟨w, rfl, rfl, -⟩ := exists_written_of_modifier? hread
            obtain ⟨written, rfl, rfl⟩ := ih hsplit
            exact ⟨w :: written, rfl, by rw [List.flatMap_cons, List.append_assoc]⟩
          · obtain ⟨rfl, rfl⟩ := Prod.mk.inj (List.mem_singleton.mp hmem)
            exact ⟨[], rfl, rfl⟩
      case h_2 =>
          obtain ⟨rfl, rfl⟩ := Prod.mk.inj (List.mem_singleton.mp h)
          exact ⟨[], rfl, rfl⟩

theorem stopsAt_isBlank_modifiers (written : List WrittenModifier) (hrest : StopsAt isBlank rest) :
    StopsAt isBlank (written.flatMap WrittenModifier.text ++ rest) := by
  cases written with
  | nil => exact hrest
  | cons w written =>
      rw [List.flatMap_cons, WrittenModifier.text, List.append_assoc, List.append_assoc]
      exact w.isName.isType.stopsAt_isBlank

theorem length_le_length_modifiers (written : List WrittenModifier) :
    written.length ≤ (written.flatMap WrittenModifier.text).length := by
  induction written with
  | nil => exact Nat.le_refl 0
  | cons w written ih =>
      have hpos : 0 < w.word.toList.length := List.length_pos_iff.mpr w.isName.1
      rw [List.flatMap_cons, List.length_append, List.length_cons, WrittenModifier.text,
        List.length_append]
      omega

/-- The split that is tried first takes all modifiers that are written. -/
theorem head?_modifierSplits (written : List WrittenModifier) (hn : written.length ≤ n)
    (hrest : StopsAt isBlank rest) (hnone : modifier? rest = none) :
    (modifierSplits n (written.flatMap WrittenModifier.text ++ rest)).head? =
      some (written.map WrittenModifier.modifier, rest) := by
  induction written generalizing n with
  | nil =>
      cases n with
      | zero => rfl
      | succ n => rw [List.flatMap_nil, List.nil_append, modifierSplits, hnone]; rfl
  | cons w written ih =>
      obtain ⟨n, rfl⟩ : ∃ m, n = m + 1 := ⟨n - 1, by rw [List.length_cons] at hn; omega⟩
      have hread := modifier?_written w (stopsAt_isBlank_modifiers written hrest)
      rw [List.flatMap_cons, List.append_assoc, modifierSplits, hread]
      have hfirst := ih (Nat.le_of_succ_le_succ hn)
      rw [List.head?_append, List.head?_map, hfirst]
      rfl

end Modifiers

/-! ### Signatures -/

/-- A signature as it is written. -/
structure WrittenSignature extends WrittenCall where
  modifiers : List WrittenModifier
  returnType : Option WrittenType

namespace WrittenSignature

/-- What stands in front of the name. -/
def head (w : WrittenSignature) : Text :=
  w.modifiers.flatMap WrittenModifier.text ++ w.returnType.elim [] WrittenType.text

def text (w : WrittenSignature) : Text :=
  w.head ++ w.toWrittenCall.text

/-- What is read where the signature stands. -/
def signature (w : WrittenSignature) : Signature where
  modifiers := w.modifiers.map WrittenModifier.modifier
  returnType := w.returnType.map WrittenType.type
  name := w.name

/-- The text of a signature up to its opening parenthesis. -/
def front (w : WrittenSignature) : Text :=
  w.head ++ w.toWrittenCall.front

theorem text_append (w : WrittenSignature) (rest : Text) :
    w.text ++ rest = w.front ++ '(' :: (w.arguments ++ ')' :: rest) := by
  simp [text, front, WrittenCall.text]

theorem isTypeChar_or_isBlank_of_mem_front {w : WrittenSignature} {c : Char} (h : c ∈ w.front) :
    isTypeChar c = true ∨ isBlank c = true := by
  have hword : ∀ {type gap : Text}, IsType type → (∀ d ∈ gap, isBlank d) → c ∈ type ++ gap →
      isTypeChar c = true ∨ isBlank c = true := by
    intro type gap htype hgap hmem
    exact (List.mem_append.mp hmem).imp (htype.2 c) (hgap c)
  rw [front, head, List.append_assoc, List.mem_append, List.mem_append] at h
  rcases h with hmem | hmem | hmem
  · obtain ⟨modifier, -, hmem⟩ := List.mem_flatMap.mp hmem
    exact hword modifier.isName.isType modifier.isGap.2 hmem
  · cases htype : w.returnType with
    | none => rw [htype] at hmem; cases hmem
    | some type => rw [htype] at hmem; exact hword type.isType type.isGap.2 hmem
  · exact hword w.isName.isType w.areBlank hmem

theorem not_mem_front (w : WrittenSignature) : '(' ∉ w.front := by
  intro hmem
  exact absurd (isTypeChar_or_isBlank_of_mem_front hmem) (by decide)

theorem stopsAt_isBlank (w : WrittenSignature) (rest : Text) : StopsAt isBlank (w.text ++ rest) := by
  rw [text, head, List.append_assoc, List.append_assoc]
  refine stopsAt_isBlank_modifiers w.modifiers ?_
  cases w.returnType with
  | none => exact w.toWrittenCall.stopsAt_isBlank rest
  | some type => exact type.stopsAt_isBlank _

end WrittenSignature

section Signature

variable {before : Option Char} {s rest : Text} {found : Signature} {modifiers : List Modifier}

theorem exists_written_of_signatureAfter?
    (h : signatureAfter? modifiers s = some (found, rest)) :
    ∃ (type : Option WrittenType) (call : WrittenCall),
      found = ⟨modifiers, type.map WrittenType.type, call.name⟩ ∧
        s = type.elim [] WrittenType.text ++ (call.text ++ rest) := by
  unfold signatureAfter? at h
  split at h
  case h_1 type name rest' htyped =>
      obtain ⟨rfl, rfl⟩ := Prod.mk.inj (Option.some.inj h)
      obtain ⟨type, call, rfl, rfl, rfl⟩ := typedName?_eq_some_iff.mp htyped
      exact ⟨some type, call, rfl, rfl⟩
  case h_2 =>
      obtain ⟨⟨name, rest'⟩, hname, hresult⟩ := Option.map_eq_some_iff.mp h
      obtain ⟨rfl, rfl⟩ := Prod.mk.inj hresult
      obtain ⟨call, rfl, rfl⟩ := nameWithArguments?_eq_some_iff.mp hname
      exact ⟨none, call, rfl, rfl⟩

/-- Whatever is read as a signature was written as one. -/
theorem exists_written_of_signature (h : signature before s = some (found, rest)) :
    ∃ w : WrittenSignature, found = w.signature ∧ s = w.text ++ rest := by
  unfold signature at h
  obtain ⟨⟨modifiers, behind⟩, hsplit, hread⟩ := List.exists_of_findSome?_eq_some h
  have hmodifiers : ∃ written : List WrittenModifier,
      modifiers = written.map WrittenModifier.modifier ∧
        s = written.flatMap WrittenModifier.text ++ behind := by
    split at hsplit
    · obtain ⟨rfl, rfl⟩ := Prod.mk.inj (List.mem_singleton.mp hsplit)
      exact ⟨[], rfl, rfl⟩
    · exact exists_written_of_mem_modifierSplits hsplit
  obtain ⟨written, rfl, rfl⟩ := hmodifiers
  obtain ⟨type, call, rfl, rfl⟩ := exists_written_of_signatureAfter? hread
  refine ⟨⟨call, written, type⟩, rfl, ?_⟩
  rw [WrittenSignature.text, WrittenSignature.head, List.append_assoc, List.append_assoc]

/-- A signature with a return type that is no modifier is read as it was written. -/
theorem signature_written (w : WrittenSignature) {type : WrittenType}
    (htype : w.returnType = some type) (hfree : type.type ∉ Modifier.spellings.map Prod.fst)
    (hbefore : before.any isWord = false) (rest : Text) :
    signature before (w.text ++ rest) = some (w.signature, rest) := by
  let tail := type.text ++ (w.toWrittenCall.text ++ rest)
  have htext : w.text ++ rest = w.modifiers.flatMap WrittenModifier.text ++ tail := by
    rw [WrittenSignature.text, WrittenSignature.head, htype, List.append_assoc, List.append_assoc]
    rfl
  have hnone : modifier? tail = none :=
    modifier?_eq_none_of_type type hfree (w.toWrittenCall.stopsAt_isBlank rest)
  have hstops : StopsAt isBlank tail := type.stopsAt_isBlank _
  have hlength : w.modifiers.length ≤ (w.text ++ rest).length := by
    rw [htext, List.length_append]
    exact Nat.le_add_right_of_le (length_le_length_modifiers w.modifiers)
  have hfirst := head?_modifierSplits w.modifiers hlength hstops hnone
  rw [← htext] at hfirst
  obtain ⟨splits, hsplits⟩ := List.head?_eq_some_iff.mp hfirst
  have hread : signatureAfter? (w.modifiers.map WrittenModifier.modifier) tail =
      some (w.signature, rest) := by
    rw [signatureAfter?, typedName?_eq_some_iff.mpr ⟨type, w.toWrittenCall, rfl, rfl, rfl⟩,
      WrittenSignature.signature, htype]
    rfl
  unfold signature
  rw [hbefore, if_neg Bool.false_ne_true, hsplits]
  exact Eq.trans (List.findSome?_cons_of_isSome (Option.isSome_of_eq_some hread)) hread

end Signature

/-! ### Declarations -/

section Declaration

variable {lookback : Nat} {s : Text} {declaration : MethodDeclaration}

/-- Whatever is declared stands where a signature is written that declares it. -/
theorem exists_written_of_mem_methodDeclarations (h : declaration ∈ methodDeclarations lookback s) :
    ∃ (w : WrittenSignature) (before after : Text), s = before ++ (w.text ++ after) ∧
      w.signature.declares = true ∧
        declaration = Signature.toDeclaration lookback ⟨before, w.signature, after⟩ := by
  obtain ⟨⟨before, found, after⟩, hfound, rfl⟩ := List.mem_map.mp h
  obtain ⟨hmatch, hdeclares⟩ := List.mem_filter.mp hfound
  obtain ⟨rest, rfl, hread⟩ := Pattern.mem_allMatches hmatch
  obtain ⟨w, rfl, rfl⟩ := exists_written_of_signature hread
  exact ⟨w, before, after, rfl, hdeclares, rfl⟩

theorem isName_of_mem_methodDeclarations (h : declaration ∈ methodDeclarations lookback s) :
    IsName declaration.name := by
  obtain ⟨w, before, after, -, -, rfl⟩ := exists_written_of_mem_methodDeclarations h
  exact w.isName

end Declaration

end ActionCalls.Source
