import ActionCalls.Decimal

/-!
# TOML values

The values of a TOML document. A table remembers how it came to be, since that decides whether it
may be extended: by a header of its own, as a step on the way to another header, by a dotted key,
or written in braces.
-/

namespace ActionCalls

namespace Toml

/-- How a table came to be. -/
inductive TableForm where
  /-- It has a header of its own. -/
  | headed
  /-- It lies on the way to a header. -/
  | passed
  /-- It lies on the way of a dotted key. -/
  | dotted
  /-- It is written in braces, and complete. -/
  | inBraces
  deriving Repr, DecidableEq

end Toml

/-- A value of a TOML document. -/
inductive Toml where
  | string (s : String)
  | integer (n : Int)
  /-- A number with a fraction or an exponent; none for infinities and what is no number. -/
  | float (d : Option Decimal)
  | boolean (b : Bool)
  /-- A date, a time, or both, as it is written. -/
  | dateTime (written : String)
  | array (items : List Toml)
  /-- The tables of one repeated header. -/
  | tables (items : List Toml)
  | table (form : Toml.TableForm) (entries : List (String × Toml))
  deriving Repr, Inhabited

namespace Toml

/-- The entries of a table, in the order in which they were defined. -/
abbrev Entries := List (String × Toml)

/-- The entry with a key. -/
def Entries.get? (entries : Entries) (key : String) : Option Toml :=
  entries.lookup key

/-- Replaces the entry with a key, or adds it behind the others. -/
def Entries.set (entries : Entries) (key : String) (value : Toml) : Entries :=
  match entries with
  | [] => [(key, value)]
  | (k, v) :: rest => if k = key then (key, value) :: rest else (k, v) :: Entries.set rest key value

end Toml

end ActionCalls
