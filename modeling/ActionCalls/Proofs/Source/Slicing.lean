import ActionCalls.Proofs.Source.Body
import ActionCalls.Proofs.Source.Signature
import ActionCalls.Source.Slicing

/-!
# Slices of a text never fail

Every offset at which a declaration is cut out of a text falls between two characters: where its match
starts and ends, where the window before it starts, and where its body starts and ends (`LiesAt`). So no
access fails, and what is cut out is what is read character by character (`sliceDeclarations_eq`).

A window reaches back a number of bytes and from there to the nearest boundary below (`IsFloor`), which
the search for it finds, one byte after the other. The search for the end of a body goes over bytes too,
and braces are bytes of their own, so it ends where the one over characters does (`closingByte_encode`).
-/

namespace ActionCalls

namespace Text

/-! ### Offsets between two characters -/

/-- The greatest offset between two characters that is not above another one. -/
structure IsFloor (s : Text) (offset floor : Nat) : Prop where
  boundary : s.IsBoundary floor
  le : floor ≤ offset
  greatest : ∀ other, s.IsBoundary other → other ≤ offset → other ≤ floor

section Offsets

variable {s front part rest : Text} {offset floor n : Nat}

theorem isBoundary_append (front rest : Text) : (front ++ rest).IsBoundary front.byteLength :=
  ⟨front, rest, rfl, rfl⟩

theorem IsBoundary.append (h : front.IsBoundary offset) (rest : Text) :
    (front ++ rest).IsBoundary offset := by
  obtain ⟨first, second, rfl, hlength⟩ := h
  exact ⟨first, second ++ rest, List.append_assoc .., hlength⟩

theorem IsBoundary.le (h : s.IsBoundary offset) : offset ≤ s.byteLength := by
  obtain ⟨front, rest, rfl, rfl⟩ := h
  rw [byteLength_append]
  exact Nat.le_add_right _ _

/-- An offset in the first of two parts falls between two characters of that part. -/
theorem IsBoundary.of_append (h : (front ++ rest).IsBoundary offset)
    (hle : offset ≤ front.byteLength) : front.IsBoundary offset := by
  obtain ⟨first, second, hcut, rfl⟩ := h
  rcases List.append_eq_append_iff.mp hcut with ⟨more, rfl, -⟩ | ⟨more, rfl, -⟩
  · -- The other part begins where the first one ends.
    rw [byteLength_append] at *
    obtain rfl : more = [] := byteLength_eq_zero_iff.mp (by omega)
    exact ⟨front, [], by simp, by simp [byteLength]⟩
  · exact ⟨first, more, rfl, rfl⟩

theorem sliceFrom_append (front rest : Text) :
    (front ++ rest).sliceFrom front.byteLength = .ok rest := by
  rw [sliceFrom, atByte?_eq_some_iff.mpr ⟨front, rfl, rfl⟩]

theorem slice_append (front part rest : Text) :
    (front ++ (part ++ rest)).slice front.byteLength (front ++ part).byteLength = .ok part := by
  have hstop : (front ++ (part ++ rest)).sliceFrom (front ++ part).byteLength = .ok rest := by
    rw [← List.append_assoc]
    exact sliceFrom_append _ _
  have hle : ¬ (front ++ part).byteLength < front.byteLength := by
    rw [byteLength_append]
    omega
  rw [slice, if_neg hle, sliceFrom_append, hstop]
  simp [bind, Except.bind, pure, Except.pure]

/-- The offset goes down to the greatest boundary. -/
theorem IsFloor.floorBoundary (h : IsFloor s offset floor) : s.floorBoundary offset = .ok floor := by
  induction offset with
  | zero =>
      obtain rfl : floor = 0 := Nat.le_zero.mp h.le
      rw [Text.floorBoundary, if_pos (isSome_atByte?_iff.mpr h.boundary)]
  | succ offset ih =>
      rw [Text.floorBoundary]
      split
      case isTrue hsome =>
          have hle := h.greatest _ (isSome_atByte?_iff.mp hsome) (Nat.le_refl _)
          rw [Nat.le_antisymm hle h.le]
      case isFalse hnone =>
          have hne : floor ≠ offset + 1 := by
            intro heq
            exact hnone (isSome_atByte?_iff.mpr (heq ▸ h.boundary))
          have hle := h.le
          exact ih ⟨h.boundary, by omega, fun other hother hle =>
            h.greatest other hother (Nat.le_succ_of_le hle)⟩

/-- In front of the last `n` bytes of a part, widened to whole characters, is the greatest boundary
that leaves so many bytes behind it. -/
theorem isFloor_of_lastBytes {before : Text} (h : before = front ++ before.lastBytes n) :
    IsFloor (before ++ rest) (before.byteLength - n) front.byteLength := by
  have hlength : before.byteLength = front.byteLength + (before.lastBytes n).byteLength := by
    rw [← byteLength_append, ← h]
  refine ⟨?_, ?_, ?_⟩
  · refine IsBoundary.append ?_ rest
    rw [h]
    exact isBoundary_append front _
  · have hmin := min_le_byteLength_lastBytes n before
    omega
  · intro other hother hle
    obtain ⟨first, second, hcut, rfl⟩ := hother.of_append (Nat.le_trans hle (Nat.sub_le _ _))
    have htotal := congrArg byteLength hcut
    rw [byteLength_append] at htotal
    rcases List.suffix_or_suffix_of_suffix ⟨first, hcut.symm⟩ ⟨front, h.symm⟩ with hshort | hlong
    · by_cases heq : second = before.lastBytes n
      · rw [heq] at htotal
        omega
      · -- So few bytes are left only if no more are asked for than there are.
        have hlt := byteLength_lt_of_suffix_lastBytes hshort heq
        omega
    · obtain ⟨more, rfl⟩ := hlong
      rw [byteLength_append] at htotal
      omega

end Offsets

end Text

namespace Source

/-! ### The body -/

section Body

variable {depth : Nat} {c : Char} {bytes quiet : Bytes}

/-- The search goes over bytes that are no braces. -/
theorem closingByte_append (hopen : '{'.toUInt8 ∉ quiet) (hclose : '}'.toUInt8 ∉ quiet) :
    closingByte depth (quiet ++ bytes) =
      (closingByte depth bytes).map (Option.map (· + quiet.length)) := by
  induction quiet with
  | nil =>
      rw [List.nil_append]
      cases closingByte depth bytes <;> simp [Except.map]
  | cons byte quiet ih =>
      rw [List.mem_cons, not_or] at hopen hclose
      rw [List.cons_append, closingByte.eq_def]
      dsimp only
      rw [if_neg (Ne.symm hopen.1), if_neg (Ne.symm hclose.1), ih hopen.2 hclose.2]
      cases closingByte depth bytes <;> simp [Except.map, Function.comp_def, Nat.add_assoc]

theorem closingByte_encode_cons (hopen : c ≠ '{') (hclose : c ≠ '}') (s : Text) :
    closingByte depth (Utf8.encode (c :: s)) =
      (closingByte depth (Utf8.encode s)).map (Option.map (· + c.utf8Size)) := by
  rw [Utf8.encode_cons, closingByte_append, String.length_utf8EncodeChar]
  · rw [Utf8.mem_utf8EncodeChar_iff isAscii_opening]
    exact hopen
  · rw [Utf8.mem_utf8EncodeChar_iff isAscii_closing]
    exact hclose

theorem map_byteLength_cons (c : Char) (body? : Option Text) :
    (body?.map (c :: ·)).map Text.byteLength =
      (body?.map Text.byteLength).map (· + c.utf8Size) := by
  cases body? with
  | none => rfl
  | some body => exact congrArg some (Nat.add_comm _ _)

/-- The search over bytes ends behind as many bytes as the one over characters takes. The counter never
falls below zero, since it starts with the block that is searched open. -/
theorem closingByte_encode (depth : Nat) (s : Text) :
    closingByte (depth + 1) (Utf8.encode s) =
      .ok ((upToClosing? depth s).map Text.byteLength) := by
  fun_induction upToClosing? depth s with
  | case1 depth => rfl
  | case2 depth s ih =>
      rw [Utf8.encode_cons, Utf8.utf8EncodeChar_of_ascii isAscii_opening, List.singleton_append,
        closingByte.eq_def]
      dsimp only
      rw [if_pos rfl, ih, map_byteLength_cons]
      rfl
  | case3 s => rfl
  | case4 s depth hne ih =>
      rw [Utf8.encode_cons, Utf8.utf8EncodeChar_of_ascii isAscii_closing, List.singleton_append,
        closingByte.eq_def]
      dsimp only
      rw [if_neg (by decide), if_pos rfl, ih, map_byteLength_cons]
      rfl
  | case5 depth c s hopen hclose ih =>
      rw [closingByte_encode_cons hopen hclose, ih, map_byteLength_cons]
      rfl

/-- Where a body stands: behind the first opening brace, up to the closing one. -/
theorem exists_isBlock_firstBlock {s : Text} (h : firstBlock s ≠ []) :
    ∃ quiet rest, '{' ∉ quiet ∧ IsBlock s quiet (firstBlock s) rest := by
  by_cases hmem : '{' ∈ s
  · obtain ⟨quiet, inside, rfl, hquiet⟩ := List.eq_append_cons_of_mem hmem
    rw [firstBlock_append hquiet] at *
    cases hclosing : upToClosing? 0 inside with
    | none =>
        rw [hclosing] at h
        exact absurd rfl h
    | some body =>
        obtain ⟨rest, rfl, hstays, hcount⟩ := upToClosing?_eq_some hclosing
        rw [Nat.zero_add] at hcount
        exact ⟨quiet, rest, hquiet, rfl, hstays, hcount⟩
  · exact absurd (firstBlock_of_not_mem hmem) h

/-- The body that is cut out is the one that is read. -/
theorem sliceBody_append (before rest : Text) :
    sliceBody (before ++ rest) before.byteLength = .ok (firstBlock rest) := by
  rw [sliceBody, Text.sliceFrom_append]
  by_cases hmem : '{' ∈ rest
  · obtain ⟨quiet, inside, rfl, hquiet⟩ := List.eq_append_cons_of_mem hmem
    have htake : (quiet ++ '{' :: inside).takeWhile (· ≠ '{') = quiet := by
      refine Text.takeWhile_run (fun c hc => ?_) (Text.stopsAt_cons (by decide))
      exact decide_eq_true (ne_of_mem_of_not_mem hc hquiet)
    have hopening : before.byteLength + Text.byteLength quiet = (before ++ quiet).byteLength :=
      (Text.byteLength_append before quiet).symm
    have hbytes : (Utf8.encode (before ++ (quiet ++ '{' :: inside))).drop (before ++ quiet).byteLength =
        '{'.toUInt8 :: Utf8.encode inside := by
      rw [← List.append_assoc, Utf8.encode_append, ← Utf8.length_encode, List.drop_left,
        Utf8.encode_cons, Utf8.utf8EncodeChar_of_ascii isAscii_opening]
      rfl
    have hwithin : ¬ (Utf8.encode (before ++ (quiet ++ '{' :: inside))).length <
        (before ++ quiet).byteLength := by
      rw [← List.append_assoc, Utf8.length_encode, Text.byteLength_append]
      omega
    have hclosing : closingByte 0 ('{'.toUInt8 :: Utf8.encode inside) =
        .ok (((upToClosing? 0 inside).map Text.byteLength).map (· + 1)) := by
      rw [closingByte.eq_def]
      dsimp only
      rw [if_pos rfl, closingByte_encode]
      rfl
    simp only [bind, Except.bind, hmem, not_true_eq_false, if_false, htake, hopening, hbytes, hwithin,
      hclosing]
    rw [firstBlock_append hquiet]
    cases hbody : upToClosing? 0 inside with
    | none => rfl
    | some body =>
        obtain ⟨rest, rfl, -, -⟩ := upToClosing?_eq_some hbody
        have hslice := Text.slice_append (before ++ quiet ++ ['{']) body ('}' :: rest)
        have hbrace : Text.byteLength ['{'] = 1 := rfl
        rw [Text.byteLength_append _ body, Text.byteLength_append _ ['{'], hbrace, Nat.add_assoc _ 1,
          Nat.add_comm 1] at hslice
        simpa using hslice
  · rw [firstBlock_of_not_mem hmem]
    simp [bind, Except.bind, hmem]
    rfl

/-- A body stands in the text where it can be cut out. -/
theorem exists_slice_firstBlock {rest : Text} (before : Text) (h : firstBlock rest ≠ []) :
    ∃ start, before.byteLength ≤ start ∧
      (before ++ rest).slice start (start + Text.byteLength (firstBlock rest)) =
        .ok (firstBlock rest) := by
  obtain ⟨quiet, behind, -, hblock⟩ := exists_isBlock_firstBlock h
  refine ⟨Text.byteLength (before ++ (quiet ++ ['{'])), ?_, ?_⟩
  · rw [Text.byteLength_append]
    exact Nat.le_add_right _ _
  · have hwhole : before ++ rest =
        (before ++ (quiet ++ ['{'])) ++ (firstBlock rest ++ '}' :: behind) := by
      simpa using congrArg (before ++ ·) hblock.cut
    rw [hwhole, ← Text.byteLength_append]
    exact Text.slice_append _ _ _

end Body

/-! ### Declarations -/

/-- Where in a text a declaration lies that was found by a match: the match itself, the window before
it, and the body behind it. -/
structure LiesAt (lookback : Nat) (s : Text) (found : Match Signature)
    (declaration : MethodDeclaration) : Prop where
  /-- The match takes a signature. -/
  takes : ∃ w : WrittenSignature, w.signature = found.value ∧
    s = found.before ++ (w.text ++ found.after)
  offset_eq : declaration.offset = found.start
  isBoundary_offset : s.IsBoundary declaration.offset
  /-- The window starts at the last boundary `lookback` bytes before the match or further away, and it
  ends where the match starts. -/
  window : ∃ start window, Text.IsFloor s (declaration.offset - lookback) start ∧
    s.slice start declaration.offset = .ok window ∧ window.byteLength ≤ lookback + 3 ∧
      declaration.annotations = annotations window
  isBoundary_stop : s.IsBoundary (found.stop s)
  stop_le : found.stop s ≤ s.byteLength
  offset_lt_stop : declaration.offset < found.stop s
  /-- The body is looked for where the match ends, and lies there or further behind. -/
  body : sliceBody s (found.stop s) = .ok declaration.body
  body_behind : declaration.body ≠ [] → ∃ start, found.stop s ≤ start ∧
    s.slice start (start + declaration.body.byteLength) = .ok declaration.body

section Declarations

variable {lookback : Nat} {s : Text} {found : Match Signature}

theorem stop_append (before taken after : Text) (value : Signature) :
    Match.stop (before ++ (taken ++ after)) ⟨before, value, after⟩ = (before ++ taken).byteLength := by
  rw [Match.stop, ← List.append_assoc, Text.byteLength_append _ after]
  exact Nat.add_sub_cancel _ _

/-- The window before a match is cut out at its floor. -/
theorem slice_lastBytes (lookback : Nat) (before rest : Text) :
    ∃ start, Text.IsFloor (before ++ rest) (before.byteLength - lookback) start ∧
      (before ++ rest).slice start before.byteLength = .ok (before.lastBytes lookback) := by
  obtain ⟨front, hfront⟩ := Text.lastBytes_suffix lookback before
  refine ⟨Text.byteLength front, Text.isFloor_of_lastBytes hfront.symm, ?_⟩
  have hslice := Text.slice_append front (before.lastBytes lookback) rest
  rwa [← List.append_assoc, hfront] at hslice

/-- What a match stands for lies where the match says. -/
theorem liesAt_toDeclaration (lookback : Nat) (h : found ∈ signature.allMatches s) :
    LiesAt lookback s found (Signature.toDeclaration lookback found) := by
  obtain ⟨before, value, after⟩ := found
  obtain ⟨rest, rfl, hread⟩ := Pattern.mem_allMatches h
  obtain ⟨w, rfl, rfl⟩ := exists_written_of_signature hread
  have hstop := stop_append before w.text after w.signature
  have hbehind : before ++ (w.text ++ after) = before ++ w.text ++ after :=
    (List.append_assoc ..).symm
  have hboundary : (before ++ (w.text ++ after)).IsBoundary
      (Match.stop (before ++ (w.text ++ after)) ⟨before, w.signature, after⟩) := by
    rw [hstop, hbehind]
    exact Text.isBoundary_append _ after
  exact {
    takes := ⟨w, rfl, rfl⟩
    offset_eq := rfl
    isBoundary_offset := Text.isBoundary_append before _
    window := by
      obtain ⟨start, hfloor, hslice⟩ := slice_lastBytes lookback before (w.text ++ after)
      exact ⟨start, _, hfloor, hslice, Text.byteLength_lastBytes_le _ _, rfl⟩
    isBoundary_stop := hboundary
    stop_le := hboundary.le
    offset_lt_stop := by
      have hne : Text.byteLength w.text ≠ 0 := by
        rw [Ne, Text.byteLength_eq_zero_iff]
        simp [WrittenSignature.text, WrittenCall.text]
      have hstart : Text.byteLength before < Text.byteLength (before ++ w.text) := by
        rw [Text.byteLength_append]
        omega
      rwa [hstop]
    body := by
      rw [hstop, hbehind]
      exact sliceBody_append _ after
    body_behind := by
      rw [hstop, hbehind]
      exact exists_slice_firstBlock _ }

/-- Cutting a declaration out of the text never fails. -/
theorem slice_eq_toDeclaration (h : found ∈ signature.allMatches s) :
    Signature.slice lookback s found = .ok (Signature.toDeclaration lookback found) := by
  have hlies := liesAt_toDeclaration lookback h
  obtain ⟨start, window, hfloor, hwindow, -, hannotations⟩ := hlies.window
  have hfloor' : s.floorBoundary (found.start - lookback) = .ok start := hfloor.floorBoundary
  have hwindow' : s.slice start found.start = .ok window := hwindow
  have hannotations' : annotations (found.before.lastBytes lookback) = annotations window :=
    hannotations
  rw [Signature.slice, hfloor']
  simp only [bind, Except.bind, hwindow', hlies.body, pure, Except.pure]
  rw [← hannotations']
  rfl

/-- The declarations that are cut out of the text are those that are read. -/
theorem sliceDeclarations_eq (lookback : Nat) (s : Text) :
    sliceDeclarations lookback s = .ok (methodDeclarations lookback s) := by
  have hall : ∀ found ∈ (signature.allMatches s).filter fun found => found.value.declares,
      Signature.slice lookback s found = .ok (Signature.toDeclaration lookback found) :=
    fun found hfound => slice_eq_toDeclaration (List.mem_filter.mp hfound).1
  rw [sliceDeclarations, methodDeclarations]
  generalize (signature.allMatches s).filter _ = declaring at hall ⊢
  induction declaring with
  | nil => rfl
  | cons found declaring ih =>
      rw [List.mapM_cons, hall found List.mem_cons_self,
        ih fun other hother => hall other (List.mem_cons_of_mem found hother)]
      rfl

/-- A match with more characters before it has more bytes before it. -/
theorem length_lt_iff_start_lt {other : Match Signature} (h : found ∈ signature.allMatches s)
    (hother : other ∈ signature.allMatches s) :
    found.before.length < other.before.length ↔ found.start < other.start := by
  obtain ⟨rest, hcut, -⟩ := Pattern.mem_allMatches h
  obtain ⟨rest', hcut', -⟩ := Pattern.mem_allMatches hother
  have hboth := hcut.symm.trans hcut'
  constructor
  · intro hlt
    by_contra hge
    obtain ⟨more, hmore, -⟩ := Text.exists_append_of_byteLength_le hboth.symm (Nat.le_of_not_lt hge)
    rw [hmore, List.length_append] at hlt
    omega
  · intro hlt
    by_contra hge
    exact Nat.not_le_of_lt hlt (Text.byteLength_le_of_length_le hboth.symm (Nat.le_of_not_lt hge))

/-- A match further behind starts at a greater offset. -/
theorem offsets_ascending (lookback : Nat) (s : Text) :
    ((methodDeclarations lookback s).map MethodDeclaration.offset).Pairwise (· < ·) := by
  rw [methodDeclarations, List.map_map, List.pairwise_map]
  refine List.Pairwise.filter _ ?_
  exact (Pattern.allMatches_ascending signature s).imp_of_mem fun ha hb hlength =>
    (length_lt_iff_start_lt ha hb).mp hlength

end Declarations

/-- **Declarations are cut out of a text without ever reaching outside of it**, for any text and any
lookback: no access fails, every declaration lies where its match says, and the offsets of the
declarations ascend. -/
theorem sliceDeclarations_within_text (lookback : Nat) (s : Text) :
    sliceDeclarations lookback s = .ok (methodDeclarations lookback s) ∧
      ((methodDeclarations lookback s).map MethodDeclaration.offset).Pairwise (· < ·) ∧
      ∀ declaration ∈ methodDeclarations lookback s,
        ∃ found ∈ signature.allMatches s, found.value.declares = true ∧
          LiesAt lookback s found declaration := by
  refine ⟨sliceDeclarations_eq lookback s, offsets_ascending lookback s, fun declaration h => ?_⟩
  obtain ⟨found, hfound, rfl⟩ := List.mem_map.mp h
  obtain ⟨hmatch, hdeclares⟩ := List.mem_filter.mp hfound
  exact ⟨found, hmatch, hdeclares, liesAt_toDeclaration lookback hmatch⟩

/-- A method behind an annotation with a character of two bytes, at the bytes 7 and 8. -/
def umlautSource : Text :=
  "@Bean(\"ö\") int f() { g(); }".toList

/-- What is found of the method when the window reaches back four bytes, into the umlaut. -/
def umlautMethod : MethodDeclaration where
  name := "f"
  accessLevel := .packageAccess
  isStatic := false
  annotations := ∅
  body := " g(); ".toList
  offset := 12

theorem methodDeclarations_umlautSource : methodDeclarations 4 umlautSource = [umlautMethod] := by
  decide +kernel

/-- Eight bytes from the front is inside of the umlaut, seven is in front of it. -/
example : umlautSource.floorBoundary 8 = .ok 7 := rfl

theorem sliceDeclarations_within_text_umlautSource :
    sliceDeclarations 4 umlautSource = .ok [umlautMethod] ∧
      ∃ start window, Text.IsFloor umlautSource 8 start ∧ window.byteLength ≤ 7 ∧
        umlautSource.slice start 12 = .ok window := by
  obtain ⟨hslice, -, hlies⟩ := sliceDeclarations_within_text 4 umlautSource
  rw [methodDeclarations_umlautSource] at hslice hlies
  obtain ⟨found, -, -, h⟩ := hlies umlautMethod List.mem_cons_self
  obtain ⟨start, window, hfloor, hwindow, hlength, -⟩ := h.window
  exact ⟨hslice, start, window, hfloor, hlength, hwindow⟩

end Source

end ActionCalls
