import ActionCalls.Proofs.Toml.Values

/-!
# Documents of tables read back

A document that is written as a sequence of tables is read as these tables (`parse?_renderTables`),
provided that the names of the tables and the keys in each of them are written without quotes and are
distinct. Reading goes **line by line**: a header and an entry each become one expression
(`ReadsAs`). Building the document then goes expression by expression: a header opens a new table
behind the others, and an entry goes into the table that was opened last, behind its other entries.
-/

namespace ActionCalls.Toml

open Text (StopsAt)

variable {s rest : Text} {key name : String}

/-! ### Keys -/

/-- A key that is written without quotes. -/
def IsBareKey (key : String) : Prop :=
  key.toList ≠ [] ∧ key.toList.all isBareKeyChar

instance (key : String) : Decidable (IsBareKey key) :=
  inferInstanceAs (Decidable (_ ∧ _))

theorem IsBareKey.forall_mem (h : IsBareKey key) : ∀ c ∈ key.toList, isBareKeyChar c :=
  List.all_eq_true.mp h.2

/-- A bare key starts with a character that starts nothing else. -/
theorem IsBareKey.exists_cons (h : IsBareKey key) :
    ∃ c w, key.toList = c :: w ∧ isBareKeyChar c ∧
      c ∉ ['[', '"', '\'', ' ', '\t', '#', '\n', '\r'] := by
  obtain ⟨c, w, hkey⟩ := List.exists_cons_of_ne_nil h.1
  have hc : isBareKeyChar c := h.forall_mem c (hkey ▸ List.mem_cons_self)
  exact ⟨c, w, hkey, hc, Text.not_mem_of_kind hc rfl⟩

/-- A bare key starts a line that is not empty. -/
theorem stopsAt_bareKey (h : IsBareKey key) (rest : Text) :
    StopsAt startsGap (key.toList ++ rest) := by
  obtain ⟨c, w, hkey, -, hc⟩ := h.exists_cons
  rw [hkey]
  refine Text.stopsAt_cons ?_
  simp only [List.mem_cons, List.not_mem_nil, or_false, not_or] at hc
  simp [startsGap, isLineBlank, hc]

theorem simpleKey?_bare (h : IsBareKey key) (hrest : StopsAt isBareKeyChar rest) :
    simpleKey? (key.toList ++ rest) = some (key, rest) := by
  obtain ⟨c, w, hkey, -, hc⟩ := h.exists_cons
  have hquote : shortString? (key.toList ++ rest) = none := by
    rw [hkey, List.cons_append, shortString?]
    all_goals exact fun _ => Text.cons_ne_of_not_mem hc (by decide)
  rw [simpleKey?, hquote]
  simp only [Text.takeWhile_run h.forall_mem hrest, Text.dropWhile_run h.forall_mem hrest]
  rw [hkey]
  simp only [← hkey, String.ofList_toList]

/-- A bare key stands alone where no dot follows. -/
theorem dottedKey?_bare (h : IsBareKey key) (limit : Nat) (hrest : StopsAt isBareKeyChar rest)
    (hdot : ∀ r, skipLineBlanks rest ≠ '.' :: r) :
    dottedKey? (limit + 1) (key.toList ++ rest) = some ([key], skipLineBlanks rest) := by
  rw [dottedKey?, skipLineBlanks_of_stopsAt (stopsAt_bareKey h rest), simpleKey?_bare h hrest]
  simp only

theorem keyOfEntry?_bare (h : IsBareKey key) (s : Text) :
    keyOfEntry? (key.toList ++ ' ' :: '=' :: s) = some ([], key, s) := by
  have hkey : dottedKey? keyLimit (key.toList ++ ' ' :: '=' :: s) = some ([key], '=' :: s) :=
    dottedKey?_bare h _ (Text.stopsAt_cons rfl) fun _ h => absurd (List.cons.inj h).1 (by decide)
  rw [ keyOfEntry?, hkey]
  rfl

/-! ### Expressions -/

theorem expression?_header (h : IsBareKey name) (s : Text) :
    expression? ('[' :: (name.toList ++ ']' :: s)) = some (.header [name], s) := by
  have hkey : dottedKey? keyLimit (name.toList ++ ']' :: s) = some ([name], ']' :: s) :=
    dottedKey?_bare h _ (Text.stopsAt_cons rfl) fun _ h => absurd (List.cons.inj h).1 (by decide)
  obtain ⟨c, w, hname, -, hc⟩ := h.exists_cons
  rw [expression?, hkey]
  · rfl
  · rw [hname]
    exact fun _ => Text.cons_ne_of_not_mem hc (by decide)

/-- What is written for a setting starts with no blank. -/
theorem stopsAt_render (v : Setting) (rest : Text) : StopsAt startsGap (v.render ++ rest) := by
  match v with
  | .string s => exact stopsAt_renderString s.toList rest
  | .natural n =>
      obtain ⟨c, ds, hdigits, hc⟩ := Text.exists_toDigits_eq_cons n
      rw [Setting.render, hdigits]
      have hgap : c ∉ [' ', '\t', '#', '\n', '\r'] := Text.not_mem_of_kind hc rfl
      simp only [List.mem_cons, List.not_mem_nil, or_false, not_or] at hgap
      refine Text.stopsAt_cons ?_
      simp [startsGap, isLineBlank, hgap]
  | .boolean true => exact Text.stopsAt_cons rfl
  | .boolean false => exact Text.stopsAt_cons rfl
  | .strings [] => exact Text.stopsAt_cons rfl
  | .strings [_] => exact Text.stopsAt_cons rfl
  | .strings (_ :: _ :: _) => exact Text.stopsAt_cons rfl

theorem expression?_entry (h : IsBareKey key) {v : Setting} (hv : v.InRange) (rest : Text) :
    expression? (key.toList ++ ' ' :: '=' :: ' ' :: (v.render ++ '\n' :: rest)) =
      some (.entry [] key v.toToml, '\n' :: rest) := by
  have hvalue : skipLineBlanks (' ' :: (v.render ++ '\n' :: rest)) = v.render ++ '\n' :: rest :=
    skipLineBlanks_of_stopsAt (stopsAt_render v ('\n' :: rest))
  have hread : value? (2 * (v.render ++ '\n' :: rest).length + 1) nestingLimit
      (v.render ++ '\n' :: rest) = some (v.toToml, '\n' :: rest) := by
    refine value?_render hv ?_ rest
    rw [List.length_append]
    omega
  obtain ⟨c, w, hkey, -, hc⟩ := h.exists_cons
  have hheader : ∀ r, key.toList ++ ' ' :: '=' :: ' ' :: (v.render ++ '\n' :: rest) ≠ '[' :: r := by
    rw [hkey]
    exact fun _ => Text.cons_ne_of_not_mem hc (by decide)
  rw [expression?, keyOfEntry?_bare h]
  · simp only [hvalue, hread]
    rfl
  · exact fun r => hheader ('[' :: r)
  · exact hheader

/-! ### Lines -/

/-- The text is read as expressions, in as many steps as it is long and one more. -/
def ReadsAs (s : Text) (expressions : List Expression) : Prop :=
  ∀ steps, s.length < steps → expressions? steps s = some expressions

theorem readsAs_nil : ReadsAs [] [] := by
  intro steps hsteps
  obtain ⟨steps, rfl⟩ := Nat.exists_eq_add_one_of_ne_zero (Nat.ne_zero_of_lt hsteps)
  rfl

variable {expressions : List Expression}

theorem ReadsAs.blankLine (h : ReadsAs s expressions) : ReadsAs ('\n' :: s) expressions := by
  intro steps hsteps
  obtain ⟨steps, rfl⟩ := Nat.exists_eq_add_one_of_ne_zero (Nat.ne_zero_of_lt hsteps)
  have hread := h steps (Nat.lt_of_succ_lt_succ hsteps)
  have hline : afterLine? ('\n' :: s) = some s := rfl
  rw [expressions?, hline]
  cases s with
  | nil =>
      rw [← hread]
      cases steps with
      | zero => exact absurd hsteps (by decide)
      | succ steps => rfl
  | cons c s => exact hread

/-- A line that is an expression, and what is read behind it. -/
theorem ReadsAs.line {line : Text} {expression : Expression} (hline : line ≠ [])
    (hstart : StopsAt startsGap line)
    (hexpression : expression? (line ++ '\n' :: s) = some (expression, '\n' :: s))
    (h : ReadsAs s expressions) : ReadsAs (line ++ '\n' :: s) (expression :: expressions) := by
  intro steps hsteps
  obtain ⟨c, w, rfl⟩ := List.exists_cons_of_ne_nil hline
  obtain ⟨steps, rfl⟩ := Nat.exists_eq_add_one_of_ne_zero (Nat.ne_zero_of_lt hsteps)
  have hread : expressions? steps s = some expressions := by
    refine h steps ?_
    simp only [List.length_append, List.length_cons] at hsteps
    omega
  have hstop : StopsAt startsGap (c :: w ++ '\n' :: s) := Text.stopsAt_cons (hstart c rfl)
  have hblank := skipLineBlanks_of_stopsAt hstop
  have hnone : afterLine? (c :: w ++ '\n' :: s) = none := by
    rw [afterLine?, hblank, skipComment_of_stopsAt hstop]
    exact afterLineEnd?_of_stopsAt hstop
  have hbehind : afterLine? ('\n' :: s) = some s := rfl
  rw [expressions?, hnone]
  simp only [hblank, hexpression, hbehind, hread]
  rfl

theorem ReadsAs.entry (hkey : IsBareKey key) {v : Setting} (hv : v.InRange)
    (h : ReadsAs s expressions) :
    ReadsAs (renderEntry key v ++ s) (.entry [] key v.toToml :: expressions) := by
  have hexpression := expression?_entry hkey hv s
  have hline : ReadsAs ((key.toList ++ ' ' :: '=' :: ' ' :: v.render) ++ '\n' :: s) _ :=
    ReadsAs.line (by simp [hkey.1]) (stopsAt_bareKey hkey _) (by simpa using hexpression) h
  simpa [renderEntry] using hline

theorem ReadsAs.header (hname : IsBareKey name) (h : ReadsAs s expressions) :
    ReadsAs ('[' :: name.toList ++ [']', '\n'] ++ s) (.header [name] :: expressions) := by
  have hexpression := expression?_header hname ('\n' :: s)
  have hline : ReadsAs (('[' :: (name.toList ++ [']'])) ++ '\n' :: s) _ :=
    ReadsAs.line (List.cons_ne_nil _ _) (Text.stopsAt_cons rfl) (by simpa using hexpression) h
  simpa using hline

/-! ### Tables -/

/-- Tables that are written without quotes around names and keys and read back as they are: the names
are distinct, and so are the keys of each table. -/
structure Writable (tables : List (String × List (String × Setting))) : Prop where
  names : ∀ table ∈ tables, IsBareKey table.1
  entries : ∀ table ∈ tables, ∀ entry ∈ table.2, IsBareKey entry.1 ∧ entry.2.InRange
  nodup : (tables.map Prod.fst).Nodup
  keys : ∀ table ∈ tables, (table.2.map Prod.fst).Nodup

/-- The values of the entries of a table. -/
def tomlEntries (entries : List (String × Setting)) : Entries :=
  entries.map fun entry => (entry.1, entry.2.toToml)

/-- The expressions that a table is written as. -/
def tableExpressions (table : String × List (String × Setting)) : List Expression :=
  .header [table.1] :: (tomlEntries table.2).map fun entry => .entry [] entry.1 entry.2

theorem ReadsAs.table {entries : List (String × Setting)} (hname : IsBareKey name)
    (hentries : ∀ entry ∈ entries, IsBareKey entry.1 ∧ entry.2.InRange) (h : ReadsAs s expressions) :
    ReadsAs (renderTable name entries ++ s) (tableExpressions (name, entries) ++ expressions) := by
  rw [renderTable, List.append_assoc]
  refine ReadsAs.header hname ?_
  induction entries with
  | nil => exact h
  | cons entry entries ih =>
      obtain ⟨hkey, hv⟩ := hentries entry List.mem_cons_self
      rw [List.flatMap_cons, List.append_assoc]
      exact .entry hkey hv (ih fun other hother => hentries other (List.mem_cons_of_mem entry hother))

theorem readsAs_renderTables {tables : List (String × List (String × Setting))}
    (h : Writable tables) : ReadsAs (renderTables tables) (tables.flatMap tableExpressions) := by
  obtain ⟨hnames, hentries, -, -⟩ := h
  fun_induction renderTables tables with
  | case1 => exact readsAs_nil
  | case2 name entries =>
      have htable := readsAs_nil.table (hnames _ List.mem_cons_self) (hentries _ List.mem_cons_self)
      rwa [List.append_nil] at htable
  | case3 name entries rest hrest ih =>
      rw [List.flatMap_cons]
      refine .table (hnames _ List.mem_cons_self) (hentries _ List.mem_cons_self) (.blankLine ?_)
      exact ih (fun other hother => hnames other (List.mem_cons_of_mem _ hother))
        (fun other hother => hentries other (List.mem_cons_of_mem _ hother))

/-! ### Building the document -/

namespace Entries

variable {entries front : Entries} {value other : Toml}

theorem get?_eq_none (h : key ∉ entries.map Prod.fst) : Entries.get? entries key = none := by
  refine List.lookup_eq_none_iff.mpr ?_
  intro entry hentry
  refine bne_iff_ne.mpr ?_
  rintro rfl
  exact h (List.mem_map_of_mem hentry)

/-- The last entry is found behind entries with other keys. -/
theorem get?_append_singleton (h : key ∉ front.map Prod.fst) :
    Entries.get? (front ++ [(key, value)]) key = some value := by
  have hnone : front.lookup key = none := get?_eq_none h
  rw [get?, List.lookup_append, hnone]
  exact List.lookup_cons_self

/-- Entries with other keys are passed by, and so the entry is put where it was behind them, or at
the end. -/
theorem set_append (h : key ∉ front.map Prod.fst) (entries : Entries) :
    Entries.set (front ++ entries) key value = front ++ Entries.set entries key value := by
  induction front with
  | nil => rfl
  | cons entry front ih =>
      obtain ⟨k, v⟩ := entry
      rw [List.map_cons, List.mem_cons, not_or] at h
      rw [List.cons_append, set, if_neg (Ne.symm h.1), ih h.2]
      rfl

theorem set_of_not_mem (h : key ∉ entries.map Prod.fst) :
    Entries.set entries key value = entries ++ [(key, value)] := by
  have hset : Entries.set (entries ++ []) key value = entries ++ Entries.set [] key value :=
    set_append h []
  rwa [List.append_nil] at hset

theorem set_append_singleton (h : key ∉ front.map Prod.fst) :
    Entries.set (front ++ [(key, other)]) key value = front ++ [(key, value)] := by
  rw [set_append h, set, if_pos rfl]

theorem not_mem_of_nodup_append_cons {keys behind : List String}
    (h : (keys ++ key :: behind).Nodup) : key ∉ keys := by
  intro hmem
  exact (List.nodup_append.mp h).2.2 key hmem key List.mem_cons_self rfl

end Entries

variable {front inner : Entries} {value : Toml}

/-- A header opens a new table behind the others. -/
theorem Draft.add_header {current : List String} (h : name ∉ front.map Prod.fst) :
    Draft.add ⟨front, current⟩ (.header [name]) =
      some ⟨front ++ [(name, .table .headed [])], [name]⟩ := by
  show (openTable name .headed front).map _ = _
  rw [openTable, Entries.get?_eq_none h, Entries.set_of_not_mem h]
  rfl

/-- An entry goes into the table that was opened last. -/
theorem Draft.add_entry (hname : name ∉ front.map Prod.fst) (hkey : key ∉ inner.map Prod.fst) :
    Draft.add ⟨front ++ [(name, .table .headed inner)], [name]⟩ (.entry [] key value) =
      some ⟨front ++ [(name, .table .headed (inner ++ [(key, value)]))], [name]⟩ := by
  have hdefine : define [] key value .headed inner = some (inner ++ [(key, value)]) := by
    show addEntry key value inner = _
    rw [addEntry, Entries.get?_eq_none hkey, Entries.set_of_not_mem hkey]
  rw [Draft.add, changeAt, Entries.get?_append_singleton hname]
  simp only [changeAt, hdefine, Option.map_some, Entries.set_append_singleton hname]
  rfl

/-- The entries of a table go into it one behind the other. -/
theorem foldlM_entries {entries : Entries} (hname : name ∉ front.map Prod.fst)
    (hkeys : ((inner ++ entries).map Prod.fst).Nodup) :
    (entries.map fun entry => Expression.entry [] entry.1 entry.2).foldlM Draft.add
        ⟨front ++ [(name, .table .headed inner)], [name]⟩ =
      some ⟨front ++ [(name, .table .headed (inner ++ entries))], [name]⟩ := by
  induction entries generalizing inner with
  | nil => rw [List.append_nil]; rfl
  | cons entry entries ih =>
      obtain ⟨key, value⟩ := entry
      have hkey : key ∉ inner.map Prod.fst := by
        rw [List.map_append, List.map_cons] at hkeys
        exact Entries.not_mem_of_nodup_append_cons hkeys
      rw [List.append_cons inner] at hkeys ⊢
      rw [List.map_cons, List.foldlM_cons, Draft.add_entry hname hkey]
      exact ih hkeys

/-- A table is built behind the tables before it. -/
theorem foldlM_tableExpressions {entries : List (String × Setting)} {current : List String}
    (hname : name ∉ front.map Prod.fst) (hkeys : (entries.map Prod.fst).Nodup) :
    (tableExpressions (name, entries)).foldlM Draft.add ⟨front, current⟩ =
      some ⟨front ++ [(name, .table .headed (tomlEntries entries))], [name]⟩ := by
  have hsame : (tomlEntries entries).map Prod.fst = entries.map Prod.fst := by
    rw [tomlEntries, List.map_map]
    rfl
  rw [tableExpressions, List.foldlM_cons, Draft.add_header hname]
  exact foldlM_entries hname (by rwa [List.nil_append, hsame])

/-- The entries of a document of tables, built behind others. -/
theorem foldlM_tables {tables : List (String × List (String × Setting))} {current : List String}
    (hnames : (front.map Prod.fst ++ tables.map Prod.fst).Nodup)
    (hkeys : ∀ table ∈ tables, (table.2.map Prod.fst).Nodup) :
    ((tables.flatMap tableExpressions).foldlM Draft.add ⟨front, current⟩).map Draft.entries =
      some (front ++ tables.map fun table => (table.1, .table .headed (tomlEntries table.2))) := by
  induction tables generalizing front current with
  | nil => rw [List.map_nil, List.append_nil]; rfl
  | cons table tables ih =>
      obtain ⟨name, entries⟩ := table
      have hname : name ∉ front.map Prod.fst := Entries.not_mem_of_nodup_append_cons hnames
      rw [List.map_cons, List.append_cons front, List.flatMap_cons, List.foldlM_append,
        foldlM_tableExpressions hname (hkeys _ List.mem_cons_self)]
      refine ih ?_ fun other hother => hkeys other (List.mem_cons_of_mem _ hother)
      simpa using hnames

/-! ### The text of a document -/

/-- No byte order mark stands before a text that is empty or starts with a bracket. -/
theorem after?_mark_renderTables (tables : List (String × List (String × Setting))) :
    Text.after? (renderTables tables) ['\uFEFF'] = none := by
  match tables with
  | [] => rfl
  | [_] => rfl
  | _ :: _ :: _ => rfl

/-- A document of tables is read as these tables. -/
theorem parse?_renderTables {tables : List (String × List (String × Setting))}
    (h : Writable tables) :
    parse? (renderTables tables) =
      some (tables.map fun table => (table.1, .table .headed (tomlEntries table.2))) := by
  have hread : expressions? ((renderTables tables).length + 1) (renderTables tables) =
      some (tables.flatMap tableExpressions) :=
    readsAs_renderTables h _ (Nat.lt_succ_self _)
  simp only [parse?, after?_mark_renderTables, Option.getD_none, hread]
  exact foldlM_tables h.nodup h.keys

end ActionCalls.Toml
