import Mathlib.Data.List.TakeWhile
import ActionCalls.Proofs.Text.Bytes
import ActionCalls.Proofs.Text.Words
import ActionCalls.Source.Body

/-!
# The body is the first balanced block

A body is cut out of the bytes of a file by counting braces. The positions of the first opening brace
and of its closing one are numbers of bytes, and what stands between them is a text all the same:
braces are ASCII characters, so a byte that looks like a brace is one, and both positions fall between
two characters.

The search itself goes over characters and has a depth, that of the blocks open inside of the first
one. All it needs to know is that what it has passed **stays open** (`StaysOpen`): no front part of it
closes more blocks than are open. So the first block is never closed earlier, and the depth never
falls below zero.
-/

namespace ActionCalls.Source

/-! ### Blocks among bytes -/

/-- How often an ASCII character stands among the `n` bytes from a position on. -/
def countFrom (bytes : Bytes) (position n : Nat) (mark : Char) : Nat :=
  ((bytes.drop position).take n).count mark.toUInt8

/-- Is it the position of the first opening brace at or behind the offset? -/
def OpensAt (bytes : Bytes) (offset position : Nat) : Prop :=
  offset ≤ position ∧ bytes[position]? = some '{'.toUInt8 ∧
    ∀ i, offset ≤ i → i < position → bytes[i]? ≠ some '{'.toUInt8

/-- Do as many braces close as open from one position to another, both included? -/
def Balances (bytes : Bytes) (start stop : Nat) : Prop :=
  start < stop ∧ stop < bytes.length ∧
    countFrom bytes start (stop + 1 - start) '}' = countFrom bytes start (stop + 1 - start) '{'

/-- Is it the first position behind `start` up to which as many braces close as open? -/
def ClosesAt (bytes : Bytes) (start stop : Nat) : Prop :=
  Balances bytes start stop ∧ ∀ i < stop, ¬ Balances bytes start i

/-- Does no front part of the text close more blocks than are open, `depth` blocks being open in front
of it? -/
def StaysOpen (depth : Nat) (s : Text) : Prop :=
  ∀ front, front <+: s → front.count '}' ≤ depth + front.count '{'

/-- The part is a block of the text: it stands between an opening brace and the brace that closes it. -/
structure IsBlock (s front block rest : Text) : Prop where
  cut : s = front ++ '{' :: (block ++ '}' :: rest)
  staysOpen : StaysOpen 0 block
  balanced : block.count '}' = block.count '{'

/-- The text is the inside of the first block at or behind an offset. -/
structure IsFirstBlock (s : Text) (offset : Nat) (body : Text) : Prop where
  no_opening : (∀ i, offset ≤ i → (Utf8.encode s)[i]? ≠ some '{'.toUInt8) → body = []
  no_closing : ∀ start, OpensAt (Utf8.encode s) offset start →
    (∀ stop, ¬ Balances (Utf8.encode s) start stop) → body = []
  /-- Both braces fall between two characters, and the text is what stands between them. -/
  between : ∀ start stop, OpensAt (Utf8.encode s) offset start →
    ClosesAt (Utf8.encode s) start stop →
    ∃ front rest, s = front ++ '{' :: body ++ '}' :: rest ∧ front.byteLength = start ∧
      (front ++ '{' :: body).byteLength = stop
  /-- As long as the block is not closed, more braces have been opened than closed. -/
  depth_pos : ∀ start, OpensAt (Utf8.encode s) offset start → ∀ n, 0 < n →
    (∀ stop < start + n, ¬ Balances (Utf8.encode s) start stop) →
    countFrom (Utf8.encode s) start n '}' < countFrom (Utf8.encode s) start n '{'
  balanced : body.count '}' = body.count '{'
  staysOpen : StaysOpen 0 body

/-! ### Searching for the closing brace -/

section Search

variable {depth depth' : Nat} {c : Char} {s body : Text}

theorem staysOpen_nil (depth : Nat) : StaysOpen depth [] := by
  intro front hfront
  rw [List.prefix_nil.mp hfront]
  exact Nat.zero_le _

/-- A text stays open if it does so behind its first character, with the blocks open there. -/
theorem StaysOpen.cons (h : StaysOpen depth' s)
    (hdepth : depth' + [c].count '}' = depth + [c].count '{') : StaysOpen depth (c :: s) := by
  intro front hfront
  rcases List.prefix_cons_iff.mp hfront with rfl | ⟨tail, rfl, htail⟩
  · exact Nat.zero_le _
  · have hle := h tail htail
    rw [← List.singleton_append, List.count_append, List.count_append]
    omega

theorem count_cons_of_depth (h : s.count '}' = depth' + s.count '{')
    (hdepth : depth' + [c].count '}' = depth + [c].count '{') :
    (c :: s).count '}' = depth + (c :: s).count '{' := by
  rw [← List.singleton_append, List.count_append, List.count_append]
  omega

theorem depth_of_no_brace (hopen : c ≠ '{') (hclose : c ≠ '}') :
    depth + [c].count '}' = depth + [c].count '{' := by
  simp [hopen, hclose]

/-- Where the search ends, and what it has passed: all blocks that were open in front of it, and all
that it opened, are closed, and none was closed before. -/
theorem upToClosing?_eq_some (h : upToClosing? depth s = some body) :
    ∃ rest, s = body ++ '}' :: rest ∧ StaysOpen depth body ∧
      body.count '}' = depth + body.count '{' := by
  fun_induction upToClosing? depth s generalizing body with
  | case1 depth => cases h
  | case2 depth s ih =>
      obtain ⟨inside, hinside, rfl⟩ := Option.map_eq_some_iff.mp h
      obtain ⟨rest, rfl, hopen, hcount⟩ := ih hinside
      exact ⟨rest, rfl, hopen.cons rfl, count_cons_of_depth hcount rfl⟩
  | case3 s =>
      obtain rfl := Option.some.inj h
      exact ⟨s, rfl, staysOpen_nil 0, rfl⟩
  | case4 s depth _ ih =>
      obtain ⟨inside, hinside, rfl⟩ := Option.map_eq_some_iff.mp h
      obtain ⟨rest, rfl, hopen, hcount⟩ := ih hinside
      exact ⟨rest, rfl, hopen.cons rfl, count_cons_of_depth hcount rfl⟩
  | case5 depth c s hopen hclose ih =>
      obtain ⟨inside, hinside, rfl⟩ := Option.map_eq_some_iff.mp h
      obtain ⟨rest, rfl, hstays, hcount⟩ := ih hinside
      have hdepth : depth + [c].count '}' = depth + [c].count '{' := depth_of_no_brace hopen hclose
      exact ⟨rest, rfl, hstays.cons hdepth, count_cons_of_depth hcount hdepth⟩

/-- If the search does not end, the whole text stays open. -/
theorem staysOpen_of_upToClosing?_eq_none (h : upToClosing? depth s = none) :
    StaysOpen depth s := by
  fun_induction upToClosing? depth s with
  | case1 depth => exact staysOpen_nil depth
  | case2 depth s ih => exact (ih (Option.map_eq_none_iff.mp h)).cons rfl
  | case3 s => cases h
  | case4 s depth _ ih => exact (ih (Option.map_eq_none_iff.mp h)).cons rfl
  | case5 depth c s hopen hclose ih =>
      exact (ih (Option.map_eq_none_iff.mp h)).cons (depth_of_no_brace hopen hclose)

end Search

/-! ### Counting the braces of a text among its bytes -/

theorem isAscii_opening : '{'.toNat < 0x80 := by
  decide

theorem isAscii_closing : '}'.toNat < 0x80 := by
  decide

/-- However many bytes of a text that stays open are taken, no more braces close among them than
open. -/
theorem StaysOpen.count_take_encode_le {s : Text} (h : StaysOpen 0 s) (n : Nat) :
    ((Utf8.encode s).take n).count '}'.toUInt8 ≤ ((Utf8.encode s).take n).count '{'.toUInt8 := by
  obtain ⟨front, tail, hfront, htake, htail⟩ := Utf8.exists_prefix_take_encode s n
  rw [htake, List.count_append, List.count_append, Utf8.count_encode isAscii_closing,
    Utf8.count_encode isAscii_opening, List.count_eq_zero_of_not_mem (htail _ isAscii_closing),
    List.count_eq_zero_of_not_mem (htail _ isAscii_opening)]
  simpa using h front hfront

section Block

variable {before quiet front inside body rest : Text} {offset start stop n : Nat}

theorem take_drop_encode (front inside : Text) (n : Nat) :
    ((Utf8.encode (front ++ '{' :: inside)).drop front.byteLength).take (n + 1) =
      '{'.toUInt8 :: (Utf8.encode inside).take n := by
  rw [Utf8.encode_append, ← Utf8.length_encode, List.drop_left, Utf8.encode_cons,
    Utf8.utf8EncodeChar_of_ascii isAscii_opening]
  rfl

theorem countFrom_closing (front inside : Text) (n : Nat) :
    countFrom (Utf8.encode (front ++ '{' :: inside)) front.byteLength (n + 1) '}' =
      ((Utf8.encode inside).take n).count '}'.toUInt8 := by
  rw [countFrom, take_drop_encode, List.count_cons_of_ne (by decide)]

theorem countFrom_opening (front inside : Text) (n : Nat) :
    countFrom (Utf8.encode (front ++ '{' :: inside)) front.byteLength (n + 1) '{' =
      ((Utf8.encode inside).take n).count '{'.toUInt8 + 1 := by
  rw [countFrom, take_drop_encode, List.count_cons_self]

/-- Behind an opening brace and a part that stays open, more braces have been opened than closed. -/
theorem StaysOpen.countFrom_lt (h : StaysOpen 0 body) (hn : 0 < n)
    (htake : (Utf8.encode inside).take (n - 1) = (Utf8.encode body).take (n - 1)) :
    countFrom (Utf8.encode (front ++ '{' :: inside)) front.byteLength n '}' <
      countFrom (Utf8.encode (front ++ '{' :: inside)) front.byteLength n '{' := by
  have hle := h.count_take_encode_le (n - 1)
  rw [← htake] at hle
  obtain ⟨m, rfl⟩ := Nat.exists_eq_succ_of_ne_zero (Nat.ne_of_gt hn)
  rw [countFrom_closing, countFrom_opening]
  exact Nat.lt_succ_of_le hle

/-- A block that stays open is not closed anywhere. -/
theorem StaysOpen.not_balances (h : StaysOpen 0 inside) (stop : Nat) :
    ¬ Balances (Utf8.encode (front ++ '{' :: inside)) front.byteLength stop := by
  intro hbalances
  obtain ⟨hlt, -, heq⟩ := hbalances
  exact absurd heq (Nat.ne_of_lt (h.countFrom_lt (by omega) rfl))

/-! ### Where a block opens and closes -/

/-- A search that starts further behind finds no opening brace further in front. -/
theorem OpensAt.le_of_le {bytes : Bytes} {offset' start' : Nat} (h : OpensAt bytes offset start)
    (h' : OpensAt bytes offset' start') (hle : offset ≤ offset') : start ≤ start' := by
  by_contra hlt
  exact h.2.2 start' (Nat.le_trans hle h'.1) (Nat.lt_of_not_le hlt) h'.2.1

theorem OpensAt.unique {bytes : Bytes} {other : Nat} (h : OpensAt bytes offset start)
    (hother : OpensAt bytes offset other) : start = other :=
  Nat.le_antisymm (h.le_of_le hother (Nat.le_refl _)) (hother.le_of_le h (Nat.le_refl _))

theorem ClosesAt.unique {bytes : Bytes} {other : Nat} (h : ClosesAt bytes start stop)
    (hother : ClosesAt bytes start other) : stop = other := by
  rcases Nat.lt_trichotomy stop other with hlt | heq | hlt
  · exact absurd h.1 (hother.2 stop hlt)
  · exact heq
  · exact absurd hother.1 (h.2 other hlt)

theorem getElem?_encode_ne_opening (hquiet : '{' ∉ quiet) {i : Nat} :
    (Utf8.encode quiet)[i]? ≠ some '{'.toUInt8 := by
  intro h
  obtain ⟨front, rest, rfl, -⟩ := Utf8.exists_cut_of_getElem?_encode isAscii_opening h
  exact hquiet (List.mem_append_right front List.mem_cons_self)

theorem getElem?_encode_append (h : before.byteLength ≤ n) :
    (Utf8.encode (before ++ rest))[n]? = (Utf8.encode rest)[n - before.byteLength]? := by
  rw [Utf8.encode_append, ← Utf8.length_encode] at *
  exact List.getElem?_append_right h

theorem opensAt_encode (before inside : Text) (hquiet : '{' ∉ quiet) :
    OpensAt (Utf8.encode (before ++ quiet ++ '{' :: inside)) before.byteLength
      (before ++ quiet).byteLength := by
  refine ⟨by simp, Utf8.getElem?_encode isAscii_opening _ _, fun i hle hlt => ?_⟩
  rw [List.append_assoc, getElem?_encode_append hle, Utf8.encode_append, List.getElem?_append_left]
  · exact getElem?_encode_ne_opening hquiet
  · rw [Utf8.length_encode]
    rw [Text.byteLength_append] at hlt
    omega

theorem byteLength_append_opening (front body : Text) :
    (front ++ '{' :: body).byteLength = front.byteLength + (body.byteLength + 1) := by
  rw [Text.byteLength_append, Text.byteLength, Nat.add_comm body.byteLength]
  rfl

theorem take_encode_append (hn : n ≤ body.byteLength) :
    (Utf8.encode (body ++ rest)).take n = (Utf8.encode body).take n := by
  rw [Utf8.encode_append, List.take_append_of_le_length (by rwa [Utf8.length_encode])]

theorem closesAt_encode (front rest : Text) (hstays : StaysOpen 0 body)
    (hcount : body.count '}' = body.count '{') :
    ClosesAt (Utf8.encode (front ++ '{' :: (body ++ '}' :: rest))) front.byteLength
      (front ++ '{' :: body).byteLength := by
  rw [byteLength_append_opening]
  refine ⟨⟨by omega, ?_, ?_⟩, ?_⟩
  · rw [Utf8.length_encode, byteLength_append_opening, Text.byteLength_append, Text.byteLength]
    have hpos := '}'.utf8Size_pos
    omega
  · -- The bytes up to the closing brace are those of the block.
    have hn : front.byteLength + (body.byteLength + 1) + 1 - front.byteLength =
        (body ++ ['}']).byteLength + 1 := by
      rw [Text.byteLength_append]
      show _ = body.byteLength + 1 + 1
      omega
    have htake : (Utf8.encode (body ++ '}' :: rest)).take (body ++ ['}']).byteLength =
        Utf8.encode (body ++ ['}']) := by
      rw [List.append_cons body '}' rest, take_encode_append (Nat.le_refl _), ← Utf8.length_encode,
        List.take_length]
    rw [hn, countFrom_closing, countFrom_opening, htake, Utf8.count_encode isAscii_closing,
      Utf8.count_encode isAscii_opening, List.count_append, List.count_append, hcount]
    rfl
  · intro i hi hbalances
    obtain ⟨hlt, -, heq⟩ := hbalances
    refine absurd heq (Nat.ne_of_lt (hstays.countFrom_lt (by omega) ?_))
    exact take_encode_append (by omega)

/-! ### The three kinds of texts -/

theorem isFirstBlock_iff_of_not_mem (hrest : '{' ∉ rest) :
    IsFirstBlock (before ++ rest) before.byteLength body ↔ body = [] := by
  have hnone : ∀ i, before.byteLength ≤ i →
      (Utf8.encode (before ++ rest))[i]? ≠ some '{'.toUInt8 := by
    intro i hle
    rw [getElem?_encode_append hle]
    exact getElem?_encode_ne_opening hrest
  constructor
  · intro h
    exact h.no_opening hnone
  · rintro rfl
    exact {
      no_opening := fun _ => rfl
      no_closing := fun _ _ _ => rfl
      between := fun start _ hopens _ => absurd hopens.2.1 (hnone start hopens.1)
      depth_pos := fun start hopens => absurd hopens.2.1 (hnone start hopens.1)
      balanced := rfl
      staysOpen := staysOpen_nil 0 }

theorem isFirstBlock_iff_of_staysOpen (hquiet : '{' ∉ quiet) (hstays : StaysOpen 0 inside) :
    IsFirstBlock (before ++ quiet ++ '{' :: inside) before.byteLength body ↔ body = [] := by
  have hfirst := opensAt_encode before inside hquiet
  constructor
  · intro h
    exact h.no_closing _ hfirst hstays.not_balances
  · rintro rfl
    refine ⟨fun _ => rfl, fun _ _ _ => rfl, ?_, ?_, rfl, staysOpen_nil 0⟩
    · intro start stop hopens hcloses
      obtain rfl := hfirst.unique hopens
      exact absurd hcloses.1 (hstays.not_balances stop)
    · intro start hopens n hn _
      obtain rfl := hfirst.unique hopens
      exact hstays.countFrom_lt hn rfl

theorem isFirstBlock_iff_of_closes (hquiet : '{' ∉ quiet) (hstays : StaysOpen 0 inside)
    (hcount : inside.count '}' = inside.count '{') :
    IsFirstBlock (before ++ quiet ++ '{' :: (inside ++ '}' :: rest)) before.byteLength body ↔
      body = inside := by
  have hfirst := opensAt_encode before (inside ++ '}' :: rest) hquiet
  have hlast := closesAt_encode (before ++ quiet) rest hstays hcount
  constructor
  · intro h
    obtain ⟨front, rest', heq, hstart, hstop⟩ := h.between _ _ hfirst hlast
    have hcut : (before ++ quiet ++ '{' :: inside) ++ '}' :: rest =
        (front ++ '{' :: body) ++ '}' :: rest' := by
      rw [← heq, List.append_assoc, List.cons_append]
    have hblock := (Text.append_inj_of_byteLength hcut hstop.symm).1
    exact (List.cons.inj (Text.append_inj_of_byteLength hblock hstart.symm).2).2.symm
  · rintro rfl
    refine ⟨fun h => absurd hfirst.2.1 (h _ hfirst.1), fun start hopens h => ?_, ?_, ?_, hcount,
      hstays⟩
    · obtain rfl := hfirst.unique hopens
      exact absurd hlast.1 (h _)
    · intro start stop hopens hcloses
      obtain rfl := hfirst.unique hopens
      obtain rfl := hlast.unique hcloses
      exact ⟨before ++ quiet, rest, by simp, rfl, rfl⟩
    · intro start hopens n hn hopened
      obtain rfl := hfirst.unique hopens
      have hle : ¬ (before ++ quiet ++ '{' :: body).byteLength < (before ++ quiet).byteLength + n :=
        fun h => hopened _ h hlast.1
      rw [byteLength_append_opening] at hle
      exact hstays.countFrom_lt hn (take_encode_append (by omega))

end Block

/-! ### The body that is read -/

theorem firstBlock_of_not_mem {s : Text} (h : '{' ∉ s) : firstBlock s = [] := by
  have hnil : s.dropWhile (· ≠ '{') = [] :=
    List.dropWhile_eq_nil_iff.mpr fun c hc => decide_eq_true (ne_of_mem_of_not_mem hc h)
  rw [firstBlock, hnil]

theorem firstBlock_append {quiet : Text} (hquiet : '{' ∉ quiet) (inside : Text) :
    firstBlock (quiet ++ '{' :: inside) = (upToClosing? 0 inside).getD [] := by
  rw [firstBlock, Text.dropWhile_ne_eq_iff.mpr ⟨quiet, rfl, hquiet⟩]

theorem isFirstBlock_iff {before rest body : Text} :
    IsFirstBlock (before ++ rest) before.byteLength body ↔ body = firstBlock rest := by
  by_cases hmem : '{' ∈ rest
  · obtain ⟨quiet, inside, rfl, hquiet⟩ := List.eq_append_cons_of_mem hmem
    rw [firstBlock_append hquiet, ← List.append_assoc]
    cases hclosing : upToClosing? 0 inside with
    | none =>
        exact isFirstBlock_iff_of_staysOpen hquiet (staysOpen_of_upToClosing?_eq_none hclosing)
    | some found =>
        obtain ⟨behind, rfl, hstays, hcount⟩ := upToClosing?_eq_some hclosing
        rw [Nat.zero_add] at hcount
        exact isFirstBlock_iff_of_closes hquiet hstays hcount
  · rw [firstBlock_of_not_mem hmem]
    exact isFirstBlock_iff_of_not_mem hmem

/-- The first block is found where a block is written. -/
theorem firstBlock_of_balanced {quiet body : Text} (hquiet : '{' ∉ quiet) (hstays : StaysOpen 0 body)
    (hcount : body.count '}' = body.count '{') (rest : Text) :
    firstBlock (quiet ++ '{' :: (body ++ '}' :: rest)) = body := by
  have hblock : IsFirstBlock ([] ++ quiet ++ '{' :: (body ++ '}' :: rest)) (Text.byteLength [])
      body := (isFirstBlock_iff_of_closes hquiet hstays hcount).mpr rfl
  rw [List.append_assoc] at hblock
  exact (isFirstBlock_iff.mp hblock).symm

/-- **The body is the first balanced block.** At an offset between two characters there is a body, and
it is the inside of the first block at or behind the offset, which is one text only. -/
theorem methodBody?_isFirstBlock {s : Text} {offset : Nat} (hboundary : s.IsBoundary offset) :
    ∃ body, methodBody? s offset = some body ∧ IsFirstBlock s offset body ∧
      ∀ other, IsFirstBlock s offset other → other = body := by
  obtain ⟨before, rest, rfl, rfl⟩ := hboundary
  have hrest : (before ++ rest).atByte? before.byteLength = some rest :=
    Text.atByte?_eq_some_iff.mpr ⟨before, rfl, rfl⟩
  refine ⟨firstBlock rest, ?_, isFirstBlock_iff.mpr rfl, fun _ h => isFirstBlock_iff.mp h⟩
  rw [methodBody?, hrest, Option.map_some]

/-- A declaration with characters of two bytes in its name and in its body, and a second block behind
it. -/
def widgetSource : Text :=
  "größe(){ü{x}}{y}".toList

theorem methodBody?_isFirstBlock_widgetSource :
    widgetSource.IsBoundary 4 ∧ ¬ widgetSource.IsBoundary 3 ∧
      IsFirstBlock widgetSource 4 "ü{x}".toList ∧
      ∀ other, IsFirstBlock widgetSource 4 other → other = "ü{x}".toList := by
  have hboundary : widgetSource.IsBoundary 4 := Text.isSome_atByte?_iff.mp (by decide)
  obtain ⟨body, hbody, hfirst, hunique⟩ := methodBody?_isFirstBlock hboundary
  obtain rfl : "ü{x}".toList = body := Option.some.inj (Eq.trans (by decide) hbody)
  exact ⟨hboundary, fun h => absurd (Text.isSome_atByte?_iff.mpr h) (by decide), hfirst, hunique⟩

end ActionCalls.Source
