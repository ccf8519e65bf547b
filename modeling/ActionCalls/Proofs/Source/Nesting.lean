import ActionCalls.Proofs.Ordered
import ActionCalls.Proofs.Source.Calls
import ActionCalls.Proofs.Source.Slicing

/-!
# Bodies are nested or apart

The body of each declaration is searched for on its own: from the end of its match to the next opening
brace, and from there to the brace that closes it. Two such searches go over the same text with
different depths, and one may end where the other never does. Still two bodies never overlap in part:
they are **the same, one strictly inside of the other, or apart**.

The reason lies in the blocks alone. What stands in a block in front of an inner opening brace stays
open, so at that brace at least as many blocks are open as before; behind it, up to the end of the
block, all of them are closed. A search that starts at the inner brace therefore ends before the block
does (`IsBlock.exists_inner`).

A call that stands in a body is a call of the whole text at the same place, since the braces around a
body belong to no word and to no gap between a word and its parenthesis. So each call of the text is
listed for exactly those declarations whose bodies hold its place, and these bodies form a chain.
-/

namespace ActionCalls

/-! ### Spans -/

/-- A part of a text, from one byte offset to another one. -/
structure Span where
  start : Nat
  stop : Nat
  deriving DecidableEq

namespace Span

/-- Does the byte at the offset stand in the part? -/
def Holds (span : Span) (offset : Nat) : Prop :=
  span.start ≤ offset ∧ offset < span.stop

instance (span : Span) (offset : Nat) : Decidable (span.Holds offset) :=
  inferInstanceAs (Decidable (_ ∧ _))

/-- Does the part lie in the other one, and touch neither of its ends? -/
def StrictlyInside (inner outer : Span) : Prop :=
  outer.start < inner.start ∧ inner.stop < outer.stop

/-- Does the part lie in the other one? -/
def Inside (inner outer : Span) : Prop :=
  outer.start ≤ inner.start ∧ inner.stop ≤ outer.stop

/-- Does the part end before the other one starts? -/
def Before (first second : Span) : Prop :=
  first.stop < second.start

/-- Are the parts the same, one strictly inside of the other, or apart? -/
def Laminar (a b : Span) : Prop :=
  a = b ∨ a.StrictlyInside b ∨ b.StrictlyInside a ∨ a.Before b ∨ b.Before a

end Span

namespace Source

/-! ### Blocks of one text -/

section Block

variable {s front front' block block' inside rest rest' : Text}

/-- What a block has in front of an inner opening brace leaves more to be closed behind that brace. -/
theorem IsBlock.count_inner_lt (h : IsBlock s front (front' ++ '{' :: inside) rest) :
    inside.count '{' < inside.count '}' := by
  have hstays := h.staysOpen front' (List.prefix_append ..)
  have hcount := h.balanced
  rw [List.count_append, List.count_append, List.count_cons_of_ne (by decide), List.count_cons_self]
    at hcount
  omega

/-- **A block that opens in a block is closed in it.** -/
theorem IsBlock.exists_inner (h : IsBlock s front (front' ++ '{' :: inside) rest)
    (h' : IsBlock s (front ++ '{' :: front') block' rest') :
    ∃ behind, inside = block' ++ '}' :: behind := by
  have hlt := h.count_inner_lt
  have hcut : inside ++ '}' :: rest = block' ++ '}' :: rest' := by
    have hboth := h.cut.symm.trans h'.cut
    simpa using hboth
  rcases List.append_eq_append_iff.mp hcut with ⟨more, hblock, -⟩ | ⟨more, hinside, hmore⟩
  · -- The inner block would stay open up to the end of the outer one.
    have hle := h'.staysOpen inside (hblock ▸ List.prefix_append ..)
    omega
  · cases more with
    | nil =>
        rw [List.append_nil] at hinside
        rw [hinside, h'.balanced] at hlt
        exact absurd hlt (Nat.lt_irrefl _)
    | cons c more =>
        obtain ⟨rfl, -⟩ := List.cons.inj hmore
        exact ⟨more, hinside⟩

/-- A block does not go on behind the brace that closes it. -/
theorem IsBlock.eq_nil_of_append {more : Text} (h : IsBlock s front block rest)
    (h' : IsBlock s front (block ++ more) rest') : more = [] := by
  have hcut : '}' :: rest = more ++ '}' :: rest' := by
    have hboth := h.cut.symm.trans h'.cut
    simpa using hboth
  cases more with
  | nil => rfl
  | cons c more =>
      obtain ⟨rfl, -⟩ := List.cons.inj hcut
      have hnone : ['}'].count '{' = 0 := by decide
      have hle := h'.staysOpen (block ++ ['}']) ⟨more, by simp⟩
      rw [List.count_append, List.count_append, h.balanced, List.count_singleton_self] at hle
      omega

/-- There is one block behind an opening brace. -/
theorem IsBlock.unique (h : IsBlock s front block rest) (h' : IsBlock s front block' rest') :
    block = block' := by
  have hcut : block ++ '}' :: rest = block' ++ '}' :: rest' := by
    have hboth := h.cut.symm.trans h'.cut
    simpa using hboth
  rcases List.append_eq_append_iff.mp hcut with ⟨more, rfl, -⟩ | ⟨more, rfl, -⟩
  · rw [h.eq_nil_of_append h', List.append_nil]
  · rw [h'.eq_nil_of_append h, List.append_nil]

end Block

/-! ### Where blocks stand -/

/-- Where a block stands: from behind its opening brace up to its closing one. -/
def blockSpan (front block : Text) : Span :=
  ⟨front.byteLength + 1, (front ++ '{' :: block).byteLength⟩

theorem utf8Size_opening : '{'.utf8Size = 1 :=
  rfl

theorem utf8Size_closing : '}'.utf8Size = 1 :=
  rfl

section BlockSpan

variable {s front front' block block' rest rest' : Text}

/-- Of two blocks, the one that opens further behind is inside of the other one or behind it. -/
theorem IsBlock.inside_or_before (h : IsBlock s front block rest) (h' : IsBlock s front' block' rest')
    (hle : front.byteLength ≤ front'.byteLength) :
    blockSpan front' block' = blockSpan front block ∨
      (blockSpan front' block').StrictlyInside (blockSpan front block) ∨
        (blockSpan front block).Before (blockSpan front' block') := by
  have hcut := h.cut.symm.trans h'.cut
  obtain ⟨more, rfl, hmore⟩ := Text.exists_append_of_byteLength_le hcut hle
  cases more with
  | nil =>
      rw [List.append_nil] at h' ⊢
      rw [h.unique h']
      exact Or.inl rfl
  | cons c more =>
      obtain ⟨rfl, hbehind⟩ := List.cons.inj hmore
      right
      rcases List.append_eq_append_iff.mp hbehind with ⟨gap, rfl, hgap⟩ | ⟨gap, rfl, hgap⟩
      · -- The other block opens behind this one.
        right
        cases gap with
        | nil => exact absurd (List.cons.inj hgap).1 (by decide)
        | cons d gap =>
            simp only [Span.Before, blockSpan, Text.byteLength_append, Text.byteLength,
              utf8Size_opening]
            omega
      · left
        cases gap with
        | nil => exact absurd (List.cons.inj hgap).1 (by decide)
        | cons d inside =>
            obtain ⟨rfl, -⟩ := List.cons.inj hgap
            obtain ⟨behind, rfl⟩ := h.exists_inner h'
            simp only [Span.StrictlyInside, blockSpan, Text.byteLength_append, Text.byteLength,
              utf8Size_opening, utf8Size_closing]
            omega

theorem IsBlock.laminar (h : IsBlock s front block rest) (h' : IsBlock s front' block' rest') :
    (blockSpan front block).Laminar (blockSpan front' block') := by
  rcases Nat.le_total front.byteLength front'.byteLength with hle | hle
  · rcases h.inside_or_before h' hle with heq | hinside | hbefore
    · exact Or.inl heq.symm
    · exact Or.inr (Or.inr (Or.inl hinside))
    · exact Or.inr (Or.inr (Or.inr (Or.inl hbefore)))
  · rcases h'.inside_or_before h hle with heq | hinside | hbefore
    · exact Or.inl heq
    · exact Or.inr (Or.inl hinside)
    · exact Or.inr (Or.inr (Or.inr (Or.inr hbefore)))

end BlockSpan

/-! ### The calls in a block -/

/-- A part of a block with what stands before and behind it, as a part of the text. -/
def inBlock (front rest : Text) (m : Match Text) : Match Text :=
  ⟨front ++ '{' :: m.before, m.value, m.after ++ '}' :: rest⟩

section Calls

variable {s front block rest : Text} {m call : Match Text}

theorem getLast?_opening (front before : Text) :
    (front ++ '{' :: before).getLast? = before.getLast?.or (some '{') := by
  rw [List.getLast?_append, ← Option.or_none (o := ('{' :: before).getLast?),
    Pattern.getLast?_cons_or, Option.or_assoc]
  rfl

/-- A brace beside a word takes no part in it. -/
theorem forall_mem_or_brace {brace : Char} (hbrace : isWord brace = false) (c? : Option Char) :
    (∀ c ∈ c?.or (some brace), isWord c = false) ↔ ∀ c ∈ c?, isWord c = false := by
  cases c? <;> simp [hbrace]

/-- The words of a block are words of the text. -/
theorem isRun_inBlock_iff (h : IsBlock s front block rest)
    (hcut : block = m.before ++ m.value ++ m.after) :
    IsRun s (inBlock front rest m) ↔ IsRun block m := by
  have hwhole : s = (inBlock front rest m).before ++ (inBlock front rest m).value ++
      (inBlock front rest m).after := by
    rw [h.cut, hcut]
    simp [inBlock]
  have hstarts : (∀ c ∈ (inBlock front rest m).before.getLast?, isWord c = false) ↔
      ∀ c ∈ m.before.getLast?, isWord c = false := by
    rw [inBlock, getLast?_opening]
    exact forall_mem_or_brace (by decide) _
  have hends : (∀ c ∈ (inBlock front rest m).after.head?, isWord c = false) ↔
      ∀ c ∈ m.after.head?, isWord c = false := by
    rw [inBlock, List.head?_append]
    exact forall_mem_or_brace (by decide) _
  constructor
  · intro hrun
    exact ⟨hcut, hrun.ne_nil, hrun.word, hstarts.mp hrun.starts, hends.mp hrun.ends⟩
  · intro hrun
    exact ⟨hwhole, hrun.ne_nil, hrun.word, hstarts.mpr hrun.starts, hends.mpr hrun.ends⟩

/-- A word in a block calls a method there if it does so in the text: the closing brace is no blank, so
no parenthesis behind it is looked for. -/
theorem isCall_inBlock_iff : IsCall (inBlock front rest m) ↔ IsCall m := by
  have hfollowed : (inBlock front rest m).after.find? (fun c => !isBlank c) = some '(' ↔
      m.after.find? (fun c => !isBlank c) = some '(' := by
    have hbrace : ('}' :: rest).find? (fun c => !isBlank c) = some '}' :=
      List.find?_cons_of_pos (by decide)
    rw [inBlock, List.find?_append, hbrace]
    cases m.after.find? fun c => !isBlank c with
    | none => simp
    | some c => exact Iff.rfl
  constructor
  · intro hcall
    exact ⟨hfollowed.mp hcall.followed, hcall.not_keyword, hcall.not_digit⟩
  · intro hcall
    exact ⟨hfollowed.mpr hcall.followed, hcall.not_keyword, hcall.not_digit⟩

/-- A word that starts in a block ends in it. -/
theorem exists_inBlock_of_holds (h : IsBlock s front block rest) (hrun : IsRun s call)
    (hholds : (blockSpan front block).Holds call.start) :
    ∃ m, call = inBlock front rest m ∧ block = m.before ++ m.value ++ m.after := by
  obtain ⟨before, word, after⟩ := call
  obtain ⟨hstart, hstop⟩ := hholds
  have hcut : (front ++ ['{']) ++ (block ++ '}' :: rest) = before ++ (word ++ after) := by
    have hboth := h.cut.symm.trans hrun.cut
    simpa using hboth
  have hopening : Text.byteLength (front ++ ['{']) = front.byteLength + 1 := by
    rw [Text.byteLength_append]
    rfl
  obtain ⟨inner, rfl, hinner⟩ := Text.exists_append_of_byteLength_le hcut (hopening ▸ hstart)
  have hle : Text.byteLength inner ≤ block.byteLength := by
    simp only [Match.start, blockSpan, Text.byteLength_append, Text.byteLength, utf8Size_opening]
      at hstop
    omega
  obtain ⟨more, rfl, hmore⟩ := Text.exists_append_of_byteLength_le hinner.symm hle
  have hword : '}' ∉ word := fun hmem => absurd (hrun.word '}' hmem) (by decide)
  obtain ⟨behind, rfl⟩ := Text.prefix_of_not_mem hword hmore
  rw [List.append_assoc] at hmore
  obtain rfl := List.append_cancel_left hmore
  exact ⟨⟨inner, word, behind⟩, by simp [inBlock], (List.append_assoc ..).symm⟩

theorem holds_inBlock (h : IsRun block m) : (blockSpan front block).Holds (inBlock front rest m).start := by
  have hpos : Text.byteLength m.value ≠ 0 := fun hzero => h.ne_nil (Text.byteLength_eq_zero_iff.mp hzero)
  rw [h.cut]
  simp only [Span.Holds, Match.start, inBlock, blockSpan, Text.byteLength_append, Text.byteLength,
    utf8Size_opening]
  omega

/-- **The calls of a block are those of the text that stand in it.** -/
theorem filter_calls_of_isBlock (h : IsBlock s front block rest) :
    (calls s).filter (fun call => (blockSpan front block).Holds call.start) =
      (calls block).map (inBlock front rest) := by
  refine Ordered.eq_of_pairwise (r := fun a b => a.before.length < b.before.length)
    (fun a b => Nat.lt_asymm) ((listsCalls_calls s).ascending.filter _) ?_ ?_
  · refine List.pairwise_map.mpr ((listsCalls_calls block).ascending.imp fun {a b} hlt => ?_)
    simpa [inBlock] using hlt
  · intro call
    rw [List.mem_filter, (listsCalls_calls s).mem_iff, List.mem_map, decide_eq_true_iff]
    constructor
    · intro hcall
      obtain ⟨⟨hrun, hcall⟩, hholds⟩ := hcall
      obtain ⟨m, rfl, hcut⟩ := exists_inBlock_of_holds h hrun hholds
      have hmem : m ∈ calls block :=
        ((listsCalls_calls block).mem_iff m).mpr
          ⟨(isRun_inBlock_iff h hcut).mp hrun, isCall_inBlock_iff.mp hcall⟩
      exact ⟨m, hmem, rfl⟩
    · intro hcall
      obtain ⟨m, hmem, rfl⟩ := hcall
      obtain ⟨hrun, hcall⟩ := ((listsCalls_calls block).mem_iff m).mp hmem
      exact ⟨⟨(isRun_inBlock_iff h hrun.cut).mpr hrun, isCall_inBlock_iff.mpr hcall⟩,
        holds_inBlock hrun⟩

theorem callNames_of_isBlock (h : IsBlock s front block rest) :
    callNames block =
      ((calls s).filter fun call => (blockSpan front block).Holds call.start).map
        fun call => String.ofList call.value := by
  rw [filter_calls_of_isBlock h, callNames_eq_map_calls, List.map_map]
  rfl

end Calls

/-! ### The bodies of declarations -/

/-- The body of the declaration stands there: behind the first opening brace at or behind the end of its
match, up to the brace that closes the block. -/
def IsBodyAt (lookback : Nat) (s : Text) (declaration : MethodDeclaration) (span : Span) : Prop :=
  ∃ found ∈ signature.allMatches s, found.value.declares = true ∧
    Signature.toDeclaration lookback found = declaration ∧
      ∃ opening, OpensAt (Utf8.encode s) (found.stop s) opening ∧ span.start = opening + 1 ∧
        ClosesAt (Utf8.encode s) opening span.stop

section Declarations

variable {lookback : Nat} {s : Text} {found : Match Signature} {a b declaration : MethodDeclaration}
  {span span' : Span}

/-- The text is cut where a match ends. -/
theorem exists_cut_at_stop (h : found ∈ signature.allMatches s) :
    ∃ front, s = front ++ found.after ∧ front.byteLength = found.stop s ∧
      found.before.byteLength ≤ front.byteLength := by
  obtain ⟨w, -, hcut⟩ := (liesAt_toDeclaration 0 h).takes
  refine ⟨found.before ++ w.text, by rw [hcut, List.append_assoc], ?_, ?_⟩
  · rw [Match.stop]
    have htotal := congrArg Text.byteLength hcut
    rw [Text.byteLength_append, Text.byteLength_append] at htotal
    rw [Text.byteLength_append]
    omega
  · rw [Text.byteLength_append]
    exact Nat.le_add_right _ _

theorem IsBodyAt.exists_isBlock (h : IsBodyAt lookback s declaration span) :
    ∃ front rest, IsBlock s front declaration.body rest ∧ span = blockSpan front declaration.body := by
  obtain ⟨start, stop⟩ := span
  obtain ⟨found, hmem, -, rfl, opening, hopens, hstart, hcloses⟩ := h
  obtain rfl : start = opening + 1 := hstart
  obtain ⟨before, hcut, hstop, -⟩ := exists_cut_at_stop hmem
  have hfirst : IsFirstBlock (before ++ found.after) before.byteLength (firstBlock found.after) :=
    isFirstBlock_iff.mpr rfl
  rw [← hcut, hstop] at hfirst
  obtain ⟨front, rest, hblock, rfl, rfl⟩ := hfirst.between _ _ hopens hcloses
  rw [List.append_assoc] at hblock
  exact ⟨front, rest, ⟨hblock, hfirst.staysOpen, hfirst.balanced⟩, rfl⟩

theorem exists_isBodyAt (h : declaration ∈ methodDeclarations lookback s) (hbody : declaration.body ≠ []) :
    ∃ span, IsBodyAt lookback s declaration span := by
  obtain ⟨found, hfound, rfl⟩ := List.mem_map.mp h
  obtain ⟨hmatch, hdeclares⟩ := List.mem_filter.mp hfound
  obtain ⟨before, hcut, hstop, -⟩ := exists_cut_at_stop hmatch
  obtain ⟨quiet, rest, hquiet, hblock⟩ := exists_isBlock_firstBlock hbody
  have hopens := opensAt_encode before (firstBlock found.after ++ '}' :: rest) hquiet
  have hcloses := closesAt_encode (before ++ quiet) rest hblock.staysOpen hblock.balanced
  rw [List.append_assoc, ← hblock.cut, ← hcut] at hopens hcloses
  exact ⟨⟨_, _⟩, found, hmatch, hdeclares, rfl, _, hstop ▸ hopens, rfl, hcloses⟩

/-- Two declarations at one offset were found by one match. -/
theorem eq_of_start_eq {other : Match Signature} (h : found ∈ signature.allMatches s)
    (hother : other ∈ signature.allMatches s) (hstart : found.start = other.start) :
    found = other := by
  obtain ⟨rest, hcut, -⟩ := Pattern.mem_allMatches h
  obtain ⟨rest', hcut', -⟩ := Pattern.mem_allMatches hother
  have hboth := hcut.symm.trans hcut'
  exact Pattern.eq_of_before_eq h hother (Text.append_inj_of_byteLength hboth hstart).1

theorem IsBodyAt.unique (h : IsBodyAt lookback s declaration span)
    (h' : IsBodyAt lookback s declaration span') : span' = span := by
  obtain ⟨start, stop⟩ := span
  obtain ⟨start', stop'⟩ := span'
  obtain ⟨found, hmem, -, rfl, opening, hopens, hstart, hcloses⟩ := h
  obtain ⟨found', hmem', -, hsame, opening', hopens', hstart', hcloses'⟩ := h'
  obtain rfl := eq_of_start_eq hmem' hmem (congrArg MethodDeclaration.offset hsame)
  obtain rfl := hopens.unique hopens'
  rw [Span.mk.injEq]
  exact ⟨hstart'.trans hstart.symm, hcloses'.unique hcloses⟩

/-- A match ends where the next one starts, or in front of that. -/
theorem stop_le_stop {other : Match Signature} (h : found ∈ signature.allMatches s)
    (hother : other ∈ signature.allMatches s) (hle : found.start ≤ other.start) :
    found.stop s ≤ other.stop s := by
  rcases Nat.eq_or_lt_of_le hle with heq | hlt
  · rw [eq_of_start_eq h hother heq]
  · obtain ⟨front, hcut, hstop, -⟩ := exists_cut_at_stop h
    obtain ⟨front', -, hstop', hbefore⟩ := exists_cut_at_stop hother
    obtain ⟨rest, hcut', -⟩ := Pattern.mem_allMatches hother
    have hlength := Pattern.length_le_of_before_lt h hother ((length_lt_iff_start_lt h hother).mpr hlt)
    rw [hcut, List.length_append] at hlength
    have hfront := Text.byteLength_le_of_length_le (hcut.symm.trans hcut') (by omega)
    rw [← hstop, ← hstop']
    exact Nat.le_trans hfront hbefore

/-- The body of a declaration further behind is inside of that of one further in front, or behind it. -/
theorem IsBodyAt.inside_or_before (h : IsBodyAt lookback s a span) (h' : IsBodyAt lookback s b span')
    (hle : a.offset ≤ b.offset) :
    span' = span ∨ span'.StrictlyInside span ∨ span.Before span' := by
  have hstart : span.start ≤ span'.start := by
    obtain ⟨found, hmem, -, rfl, opening, hopens, hstart, -⟩ := h
    obtain ⟨found', hmem', -, rfl, opening', hopens', hstart', -⟩ := h'
    have hopening := hopens.le_of_le hopens' (stop_le_stop hmem hmem' hle)
    omega
  obtain ⟨front, rest, hblock, rfl⟩ := h.exists_isBlock
  obtain ⟨front', rest', hblock', rfl⟩ := h'.exists_isBlock
  exact hblock.inside_or_before hblock' (Nat.le_of_succ_le_succ hstart)

theorem IsBodyAt.slice_eq (h : IsBodyAt lookback s declaration span) :
    s.slice span.start span.stop = .ok declaration.body := by
  obtain ⟨front, rest, hblock, rfl⟩ := h.exists_isBlock
  have hslice := Text.slice_append (front ++ ['{']) declaration.body ('}' :: rest)
  have hcut : (front ++ ['{']) ++ (declaration.body ++ '}' :: rest) = s := by
    rw [hblock.cut]
    simp
  rw [hcut, List.append_assoc, Text.byteLength_append] at hslice
  exact hslice

end Declarations

/-- How the bodies of the declarations of a text stand to each other, and which calls are listed for
them. -/
structure BodiesNest (lookback : Nat) (s : Text) : Prop where
  /-- A body that is not empty stands at one place of the text. -/
  located : ∀ declaration ∈ methodDeclarations lookback s, declaration.body ≠ [] →
    ∃ span, IsBodyAt lookback s declaration span ∧
      s.slice span.start span.stop = .ok declaration.body ∧
        ∀ other, IsBodyAt lookback s declaration other → other = span
  laminar : ∀ a b span span', IsBodyAt lookback s a span → IsBodyAt lookback s b span' →
    span.Laminar span'
  /-- A declaration lists the calls of the text that stand in its body, and no others. -/
  listed : ∀ declaration span, IsBodyAt lookback s declaration span →
    callNames declaration.body =
      ((calls s).filter fun call => span.Holds call.start).map fun call => String.ofList call.value
  /-- Of the bodies that hold one place, that of a declaration further in front holds the others. -/
  chain : ∀ a b span span' place, IsBodyAt lookback s a span → IsBodyAt lookback s b span' →
    span.Holds place → span'.Holds place → a.offset ≤ b.offset → span'.Inside span

/-- **Bodies never overlap in part.** Any two of them are the same, one strictly inside of the other, or
apart, so each call is listed for a chain of declarations whose bodies hold one another. -/
theorem bodies_nest (lookback : Nat) (s : Text) : BodiesNest lookback s where
  located := by
    intro declaration hmem hbody
    obtain ⟨span, hspan⟩ := exists_isBodyAt hmem hbody
    exact ⟨span, hspan, hspan.slice_eq, fun other hother => hspan.unique hother⟩
  laminar := by
    intro a b span span' h h'
    obtain ⟨front, rest, hblock, rfl⟩ := h.exists_isBlock
    obtain ⟨front', rest', hblock', rfl⟩ := h'.exists_isBlock
    exact hblock.laminar hblock'
  listed := by
    intro declaration span h
    obtain ⟨front, rest, hblock, rfl⟩ := h.exists_isBlock
    exact callNames_of_isBlock hblock
  chain := by
    intro a b span span' place h h' hplace hplace' hle
    rcases h.inside_or_before h' hle with rfl | hinside | hbefore
    · exact ⟨Nat.le_refl _, Nat.le_refl _⟩
    · exact ⟨Nat.le_of_lt hinside.1, Nat.le_of_lt hinside.2⟩
    · have hbehind : place < span'.start := Nat.lt_trans hplace.2 hbefore
      exact absurd hplace'.1 (Nat.not_le_of_lt hbehind)

/-- A method that makes a listener with a method of its own. -/
def listenerSource : Text :=
  "void run(){new B(){void tick(){go();}};}".toList

/-- What is found of the method with that name. -/
def listenerMethod (name : String) (body : Text) (offset : Nat) : MethodDeclaration where
  name := name
  accessLevel := .packageAccess
  isStatic := false
  annotations := ∅
  body := body
  offset := offset

def listenerRun : MethodDeclaration :=
  listenerMethod "run" "new B(){void tick(){go();}};".toList 0

def listenerTick : MethodDeclaration :=
  listenerMethod "tick" "go();".toList 19

theorem methodDeclarations_listenerSource :
    methodDeclarations 0 listenerSource = [listenerRun, listenerTick] := by
  decide +kernel

/-- The call of `go` is listed for both methods, since the body of the one holds that of the other. -/
theorem bodies_nest_listenerSource :
    ∃ outer inner, IsBodyAt 0 listenerSource listenerRun outer ∧
      IsBodyAt 0 listenerSource listenerTick inner ∧ outer ≠ inner ∧ outer.Laminar inner ∧
        "go" ∈ callNames listenerRun.body ∧ "go" ∈ callNames listenerTick.body := by
  have hnest := bodies_nest 0 listenerSource
  have hmem : ∀ declaration ∈ [listenerRun, listenerTick],
      declaration ∈ methodDeclarations 0 listenerSource := by
    rw [methodDeclarations_listenerSource]
    exact fun _ h => h
  obtain ⟨outer, hrun, hsliceRun, -⟩ := hnest.located listenerRun (hmem _ (by simp)) (by decide)
  obtain ⟨inner, htick, hsliceTick, -⟩ := hnest.located listenerTick (hmem _ (by simp)) (by decide)
  refine ⟨outer, inner, hrun, htick, ?_, hnest.laminar _ _ _ _ hrun htick, by decide +kernel,
    by decide +kernel⟩
  intro heq
  rw [heq, hsliceTick] at hsliceRun
  exact absurd hsliceRun (by decide)

end Source

end ActionCalls
