import ActionCalls.Toml.Value

/-!
# Building a TOML document

A document is built from its expressions in order: headers, which choose the table that follows,
and keys with values, which define an entry of that table. No key is defined twice, no header
opens a table twice, and a table that has a header of its own is not extended by a dotted key from
elsewhere. Under a repeated header, the last of its tables is meant.
-/

namespace ActionCalls.Toml

/-- What a line of a document says. -/
inductive Expression where
  /-- The header of a table. -/
  | header (path : List String)
  /-- A repeated header, which opens one more table of a list. -/
  | repeatedHeader (path : List String)
  /-- A key with the keys before its last dot, and its value. -/
  | entry (path : List String) (key : String) (value : Toml)
  deriving Repr, Inhabited

/-- Changes the table that a path leads to, from a table of form `here`. Tables that are missing on
the way are made in the given form. A dotted key does not lead through a table that has a header
of its own, and nothing leads through a value. -/
def changeAt (form : TableForm) (change : TableForm → Entries → Option Entries) :
    List String → (here : TableForm) → Entries → Option Entries
  | [], here, entries => change here entries
  | key :: path, _, entries =>
      match entries.get? key with
      | none =>
          (changeAt form change path form []).map fun made =>
            entries.set key (.table form made)
      | some (.table found inner) =>
          if found = .inBraces ∨ (form = .dotted ∧ found = .headed) then none
          else
            (changeAt form change path found inner).map fun changed =>
              entries.set key (.table found changed)
      | some (.tables items) =>
          match items.reverse with
          | .table found inner :: front =>
              (changeAt form change path found inner).map fun changed =>
                entries.set key (.tables (front.reverse ++ [.table found changed]))
          | _ => none
      | some _ => none

/-- Opens the table of a header among the entries of its parent. Only a table that so far merely
lies on the way to others may be there already. -/
def openTable (key : String) (_ : TableForm) (entries : Entries) : Option Entries :=
  match entries.get? key with
  | none => some (entries.set key (.table .headed []))
  | some (.table .passed inner) => some (entries.set key (.table .headed inner))
  | some _ => none

/-- Opens one more table of a repeated header. -/
def openRepeated (key : String) (_ : TableForm) (entries : Entries) : Option Entries :=
  match entries.get? key with
  | none => some (entries.set key (.tables [.table .headed []]))
  | some (.tables items) => some (entries.set key (.tables (items ++ [.table .headed []])))
  | some _ => none

/-- Defines an entry that is not there yet. -/
def addEntry (key : String) (value : Toml) (entries : Entries) : Option Entries :=
  match entries.get? key with
  | none => some (entries.set key value)
  | some _ => none

/-- Defines an entry by a dotted key. The table that its dots lead to has to be one that dotted
keys made. -/
def define (path : List String) (key : String) (value : Toml) (here : TableForm)
    (entries : Entries) : Option Entries :=
  changeAt .dotted
    (fun found inner => if path ≠ [] ∧ found ≠ .dotted then none else addEntry key value inner)
    path here entries

/-- A document under construction: its entries, and the path of the current header. -/
structure Draft where
  entries : Entries
  current : List String

/-- Takes in one expression. -/
def Draft.add (draft : Draft) : Expression → Option Draft
  | .header path =>
      match path.reverse with
      | [] => none
      | key :: front =>
          (changeAt .passed (openTable key) front.reverse .headed draft.entries).map fun entries =>
            ⟨entries, path⟩
  | .repeatedHeader path =>
      match path.reverse with
      | [] => none
      | key :: front =>
          (changeAt .passed (openRepeated key) front.reverse .headed draft.entries).map
            fun entries => ⟨entries, path⟩
  | .entry path key value =>
      (changeAt .passed (define path key value) draft.current .headed draft.entries).map
        fun entries => ⟨entries, draft.current⟩

/-- The document of some expressions, if they fit together. -/
def build? (expressions : List Expression) : Option Entries :=
  (expressions.foldlM Draft.add ⟨[], []⟩).map Draft.entries

end ActionCalls.Toml
