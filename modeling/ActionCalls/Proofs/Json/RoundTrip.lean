import Mathlib.Algebra.GroupWithZero.Nat
import ActionCalls.Proofs.Json.Scalars

/-!
# Structured values read back

In either layout the text of a value gives the value back (`parse?_render`), provided that its numbers
are whole numbers of 64 bits (`IsExact`). A layout only has to put white space between the parts of a
value (`Layout.IsSpacing`), which the reader skips.

A value is followed by other text when it stands inside another one, so the statement that is proved
by induction has the rest of the text in it, and the number of steps that the reader may take
(`ReadsBack`). Twice the length of the text is enough: a value inside an array or an object takes two
steps, and at least the brackets around it are text of their own.
-/

namespace ActionCalls.Json

open Text (StopsAt)

/-! ### Layouts -/

/-- A layout puts white space between the parts of a value, and one colon behind each key. -/
structure Layout.IsSpacing (layout : Layout) : Prop where
  lineStart : ∀ depth, ∀ c ∈ layout.lineStart depth, isSpace c
  colon : ∃ spaces, layout.colon = ':' :: spaces ∧ ∀ c ∈ spaces, isSpace c

theorem Layout.compact_isSpacing : Layout.compact.IsSpacing where
  lineStart _ _ hc := absurd hc List.not_mem_nil
  colon := ⟨[], rfl, fun _ hc => absurd hc List.not_mem_nil⟩

theorem Layout.pretty_isSpacing : Layout.pretty.IsSpacing where
  lineStart depth c hc := by
    rcases List.mem_cons.mp hc with rfl | hc
    · rfl
    · rw [List.eq_of_mem_replicate hc]
      rfl
  colon := ⟨[' '], rfl, fun c hc => by rw [List.mem_singleton.mp hc]; rfl⟩

/-! ### What stands between the parts -/

variable {spaces s other : Text}

/-- White space does not go on with a number. -/
theorem stopsAt_append (hspaces : ∀ c ∈ spaces, isSpace c) (hs : StopsAt goesOnWithNumber s) :
    StopsAt goesOnWithNumber (spaces ++ s) := by
  cases spaces with
  | nil => exact hs
  | cons c spaces =>
      refine Text.stopsAt_cons ?_
      have hc := hspaces c List.mem_cons_self
      simp only [isSpace, Bool.or_eq_true, beq_iff_eq] at hc
      rcases hc with ((rfl | rfl) | rfl) | rfl <;> rfl

theorem value?_congr (n : Nat) (h : skipSpace s = skipSpace other) : value? n s = value? n other := by
  cases n with
  | zero => rfl
  | succ n => rw [value?, value?, h]

theorem items?_congr (n : Nat) (h : skipSpace s = skipSpace other) : items? n s = items? n other := by
  cases n with
  | zero => rfl
  | succ n => rw [items?, items?, value?_congr n h]

theorem members?_congr (n : Nat) (h : skipSpace s = skipSpace other) :
    members? n s = members? n other := by
  cases n with
  | zero => rfl
  | succ n => rw [members?, members?, h]

/-- No value starts with the bracket that closes an array. -/
theorem value?_closing (n : Nat) (s : Text) : value? n (']' :: s) = none := by
  cases n with
  | zero => rfl
  | succ n => simp [value?, skipSpace, isSpace, number?, unsigned?, digits]

/-! ### Values -/

/-- A value that its text gives back as it is: all its numbers are. -/
inductive IsExact : Json → Prop
  | null : IsExact .null
  | bool (b : Bool) : IsExact (.bool b)
  | number {n : Number} (h : n.IsExact) : IsExact (.number n)
  | string (s : String) : IsExact (.string s)
  | array {items : List Json} (h : ∀ item ∈ items, IsExact item) : IsExact (.array items)
  | object {members : List (String × Json)} (h : ∀ member ∈ members, IsExact member.2) :
      IsExact (.object members)

section

variable {items : List Json} {members : List (String × Json)}

attribute [simp] IsExact.null IsExact.bool IsExact.string

@[simp] theorem isExact_ofNat_iff {n : Nat} : (ofNat n).IsExact ↔ n < 2 ^ 64 := by
  constructor
  · intro hexact
    cases hexact with
    | number hnumber =>
        cases hnumber with
        | natural h => exact h
  · exact fun h => .number (.natural h)

@[simp] theorem isExact_array_iff : (array items).IsExact ↔ ∀ item ∈ items, item.IsExact := by
  constructor
  · intro hexact
    cases hexact with
    | array h => exact h
  · exact .array

@[simp] theorem isExact_object_iff :
    (object members).IsExact ↔ ∀ member ∈ members, member.2.IsExact := by
  constructor
  · intro hexact
    cases hexact with
    | object h => exact h
  · exact .object

@[simp] theorem isExact_ofStrings (names : List String) : (ofStrings names).IsExact := by
  simp [ofStrings]

@[simp] theorem isExact_ofString? (name : Option String) : (ofString? name).IsExact := by
  cases name <;> simp [ofString?]

end

/-- With enough steps the text of a value is read as this value, at any depth and in front of
anything that does not go on with a number. -/
def ReadsBack (layout : Layout) (value : Json) : Prop :=
  ∀ {depth steps : Nat} {rest : Text}, 2 * (renderAt layout depth value).length < steps →
    StopsAt goesOnWithNumber rest →
      value? steps (renderAt layout depth value ++ rest) = some (value, rest)

variable {layout : Layout} (hlayout : layout.IsSpacing) {depth outer steps : Nat} {rest : Text}
include hlayout

theorem stopsAt_renderItems (items : List Json) :
    StopsAt goesOnWithNumber
      (renderItems layout depth items ++ (layout.lineStart outer ++ ']' :: rest)) := by
  cases items with
  | nil =>
      rw [renderItems, List.nil_append]
      exact stopsAt_append (hlayout.lineStart outer) (Text.stopsAt_cons rfl)
  | cons item items =>
      rw [renderItems]
      exact Text.stopsAt_cons rfl

/-- The items of an array are read one after the other, the last one in front of the bracket. -/
theorem items?_render {item : Json} {items : List Json}
    (h : ∀ value ∈ item :: items, ReadsBack layout value)
    (hsteps : 2 * ((renderAt layout depth item).length + (renderItems layout depth items).length) + 1
      < steps) :
    items? steps (renderAt layout depth item ++
        (renderItems layout depth items ++ (layout.lineStart outer ++ ']' :: rest))) =
      some (item :: items, rest) := by
  induction items generalizing item steps with
  | nil =>
      obtain ⟨steps, rfl⟩ := Nat.exists_eq_add_one_of_ne_zero (Nat.ne_zero_of_lt hsteps)
      rw [items?, h item List.mem_cons_self (by omega) (stopsAt_renderItems hlayout [])]
      simp only [renderItems, List.nil_append]
      rw [skipSpace_run (hlayout.lineStart outer), skipSpace_cons rfl]
      rfl
  | cons next items ih =>
      obtain ⟨steps, rfl⟩ := Nat.exists_eq_add_one_of_ne_zero (Nat.ne_zero_of_lt hsteps)
      rw [items?, h item List.mem_cons_self (by omega) (stopsAt_renderItems hlayout (next :: items))]
      simp only [renderItems, List.length_cons, List.length_append] at hsteps
      simp only [renderItems, List.cons_append, List.append_assoc]
      rw [skipSpace_cons rfl]
      simp only [items?_congr steps (skipSpace_run (hlayout.lineStart depth))]
      rw [ih (fun value hvalue => h value (List.mem_cons_of_mem item hvalue)) (by omega)]
      rfl

theorem stopsAt_renderMembers (members : List (String × Json)) :
    StopsAt goesOnWithNumber
      (renderMembers layout depth members ++ (layout.lineStart outer ++ '}' :: rest)) := by
  cases members with
  | nil =>
      rw [renderMembers, List.nil_append]
      exact stopsAt_append (hlayout.lineStart outer) (Text.stopsAt_cons rfl)
  | cons member members =>
      rw [renderMembers]
      exact Text.stopsAt_cons rfl

/-- What follows a member of an object: the closing brace, or a comma and more members. -/
inductive MembersBehind (steps : Nat) : Text → List (String × Json) → Text → Prop
  | brace {s rest : Text} (h : skipSpace s = '}' :: rest) : MembersBehind steps s [] rest
  | comma {s more rest : Text} {members : List (String × Json)} (h : skipSpace s = ',' :: more)
      (hmore : members? steps more = some (members, rest)) : MembersBehind steps s members rest

/-- A key and its value are read, and then the members behind them. -/
theorem members?_member {key : String} {value : Json} {members : List (String × Json)} {s : Text}
    (hvalue : ReadsBack layout value) (hsteps : 2 * (renderAt layout depth value).length < steps)
    (hstop : StopsAt goesOnWithNumber s) (hbehind : MembersBehind steps s members rest) :
    members? (steps + 1) (renderString key ++ (layout.colon ++ (renderAt layout depth value ++ s))) =
      some ((key, value) :: members, rest) := by
  obtain ⟨spaces, hcolon, hspaces⟩ := hlayout.colon
  rw [renderString_append, members?, skipSpace_cons rfl]
  simp only [stringBody?_flatMap_renderChar, hcolon, List.cons_append]
  rw [skipSpace_cons rfl]
  simp only [value?_congr steps (skipSpace_run hspaces)]
  rw [hvalue hsteps hstop]
  cases hbehind with
  | brace h => simp only [h, String.ofList_toList]
  | comma h hmore => simp only [h, hmore, Option.map_some, String.ofList_toList]

/-- The members of an object are read one after the other, the last one in front of the brace. -/
theorem members?_render {key : String} {value : Json} {members : List (String × Json)}
    (h : ∀ member ∈ (key, value) :: members, ReadsBack layout member.2)
    (hsteps : 2 * ((renderAt layout depth value).length + (renderMembers layout depth members).length)
      + 1 < steps) :
    members? steps (renderString key ++ (layout.colon ++ (renderAt layout depth value ++
        (renderMembers layout depth members ++ (layout.lineStart outer ++ '}' :: rest))))) =
      some ((key, value) :: members, rest) := by
  induction members generalizing key value steps with
  | nil =>
      obtain ⟨steps, rfl⟩ := Nat.exists_eq_add_one_of_ne_zero (Nat.ne_zero_of_lt hsteps)
      have hvalue : ReadsBack layout value := h (key, value) List.mem_cons_self
      refine members?_member hlayout hvalue (by omega) (stopsAt_renderMembers hlayout []) (.brace ?_)
      rw [renderMembers, List.nil_append, skipSpace_run (hlayout.lineStart outer), skipSpace_cons rfl]
  | cons next members ih =>
      obtain ⟨steps, rfl⟩ := Nat.exists_eq_add_one_of_ne_zero (Nat.ne_zero_of_lt hsteps)
      have hvalue : ReadsBack layout value := h (key, value) List.mem_cons_self
      simp only [renderMembers, List.length_cons, List.length_append] at hsteps
      refine members?_member hlayout hvalue (by omega) (stopsAt_renderMembers hlayout _) ?_
      simp only [renderMembers, List.cons_append, List.append_assoc]
      refine .comma (skipSpace_cons rfl) ?_
      rw [members?_congr steps (skipSpace_run (hlayout.lineStart depth))]
      exact ih (fun member hmember => h member (List.mem_cons_of_mem _ hmember)) (by omega)

omit hlayout

/-- The text of a number starts with a digit or a minus sign. -/
theorem exists_render_eq_cons {n : Number} (hn : n.IsExact) :
    ∃ c s, n.render = c :: s ∧ (c.isDigit ∨ c = '-') := by
  cases hn with
  | @natural n _ =>
      obtain ⟨c, s, hdigits, hc⟩ := Text.exists_toDigits_eq_cons n
      exact ⟨c, s, hdigits, .inl hc⟩
  | @negative n _ _ => exact ⟨'-', Nat.toDigits 10 n, rfl, .inr rfl⟩

/-- A text that starts with a digit or a minus sign is read as a number. -/
theorem value?_of_isDigit {c : Char} (hc : c.isDigit ∨ c = '-') (s : Text) :
    value? (steps + 1) (c :: s) = (number? (c :: s)).map fun (read, s) => (.number read, s) := by
  have hstart : (c.isDigit || c == '-') = true := by simpa using hc
  have hother : c ∉ [' ', '\t', '\n', '\r', 'n', 't', 'f', '"', '[', '{'] :=
    Text.not_mem_of_kind (p := fun c => c.isDigit || c == '-') hstart rfl
  simp only [List.mem_cons, List.not_mem_nil, or_false, not_or] at hother
  have hspace : isSpace c = false := by
    simp [isSpace, hother]
  rw [value?, skipSpace_cons hspace]
  simp [hother]

/-- An array with items is read from behind its bracket on. -/
theorem value?_of_items? {item : Json} {items : List Json} {s : Text}
    (h : items? steps s = some (item :: items, rest)) :
    value? (steps + 1) ('[' :: s) = some (.array (item :: items), rest) := by
  have hopen : ∀ s', skipSpace s ≠ ']' :: s' := by
    intro s' hs
    rw [items?_congr steps (skipSpace_skipSpace s).symm, hs] at h
    cases steps with
    | zero => cases h
    | succ n =>
        rw [items?, value?_closing] at h
        cases h
  rw [value?, skipSpace_cons rfl]
  simp only [items?_congr steps (skipSpace_skipSpace s), h, Option.map_some]

/-- An object with members is read from behind its brace on. -/
theorem value?_of_members? {member : String × Json} {members : List (String × Json)} {s : Text}
    (h : members? steps s = some (member :: members, rest)) :
    value? (steps + 1) ('{' :: s) = some (.object (member :: members), rest) := by
  have hopen : ∀ s', skipSpace s ≠ '}' :: s' := by
    intro s' hs
    cases steps with
    | zero => cases h
    | succ n =>
        rw [members?, hs] at h
        cases h
  rw [value?, skipSpace_cons rfl]
  simp only [members?_congr steps (skipSpace_skipSpace s), h, Option.map_some]

/-- Reading a value takes a first step. -/
theorem readsBack_of_step {value : Json}
    (h : ∀ {depth steps : Nat} {rest : Text}, 2 * (renderAt layout depth value).length ≤ steps →
      StopsAt goesOnWithNumber rest →
        value? (steps + 1) (renderAt layout depth value ++ rest) = some (value, rest)) :
    ReadsBack layout value := by
  intro depth steps rest hsteps hrest
  obtain ⟨steps, rfl⟩ := Nat.exists_eq_add_one_of_ne_zero (Nat.ne_zero_of_lt hsteps)
  exact h (Nat.le_of_lt_succ hsteps) hrest

theorem readsBack_number {n : Number} (hn : n.IsExact) : ReadsBack layout (.number n) := by
  refine readsBack_of_step fun {depth steps rest} _ hrest => ?_
  obtain ⟨c, s, htext, hc⟩ := exists_render_eq_cons hn
  have hread := number?_render hn hrest
  rw [htext, List.cons_append] at hread
  rw [renderAt, htext, List.cons_append, value?_of_isDigit hc, hread]
  rfl

theorem readsBack_string (s : String) : ReadsBack layout (.string s) := by
  refine readsBack_of_step fun {depth steps rest} _ _ => ?_
  rw [renderAt, renderString_append, value?, skipSpace_cons rfl]
  simp only [stringBody?_flatMap_renderChar, Option.map_some, String.ofList_toList]

include hlayout

theorem readsBack_array {items : List Json} (h : ∀ item ∈ items, ReadsBack layout item) :
    ReadsBack layout (.array items) := by
  refine readsBack_of_step fun {depth steps rest} hsteps _ => ?_
  cases items with
  | nil => rfl
  | cons item items =>
      simp only [renderAt, List.length_cons, List.length_append] at hsteps
      simp only [renderAt, List.cons_append, List.append_assoc, List.nil_append]
      refine value?_of_items? ?_
      rw [items?_congr steps (skipSpace_run (hlayout.lineStart (depth + 1)))]
      exact items?_render hlayout h (by omega)

theorem readsBack_object {members : List (String × Json)}
    (h : ∀ member ∈ members, ReadsBack layout member.2) : ReadsBack layout (.object members) := by
  refine readsBack_of_step fun {depth steps rest} hsteps _ => ?_
  cases members with
  | nil => rfl
  | cons member members =>
      obtain ⟨key, value⟩ := member
      simp only [renderAt, List.length_cons, List.length_append] at hsteps
      simp only [renderAt, List.cons_append, List.append_assoc, List.nil_append]
      refine value?_of_members? ?_
      rw [members?_congr steps (skipSpace_run (hlayout.lineStart (depth + 1)))]
      exact members?_render hlayout h (by omega)

/-- An exact value is read back. -/
theorem readsBack_of_isExact {value : Json} (hvalue : value.IsExact) : ReadsBack layout value := by
  induction hvalue with
  | null => exact readsBack_of_step fun _ _ => rfl
  | bool b => cases b <;> exact readsBack_of_step fun _ _ => rfl
  | number hn => exact readsBack_number hn
  | string s => exact readsBack_string s
  | array _ ih => exact readsBack_array hlayout ih
  | object _ ih => exact readsBack_object hlayout ih

/-- The text of an exact value gives the value back. -/
theorem parse?_render {value : Json} (hvalue : value.IsExact) :
    parse? (render layout value) = some value := by
  have hread : value? (2 * (render layout value).length + 1) (render layout value ++ []) =
      some (value, []) :=
    readsBack_of_isExact hlayout hvalue (Nat.lt_succ_self _) Text.stopsAt_nil
  rw [List.append_nil] at hread
  rw [parse?, hread]
  rfl

end ActionCalls.Json
