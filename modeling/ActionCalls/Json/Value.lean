import ActionCalls.Decimal

/-!
# Structured values

The values that a document is made of. Members of an object keep the order in which they are
written. Whole numbers are told apart from numbers with a fraction or an exponent.
-/

namespace ActionCalls

namespace Json

/-- A number as it is written: a whole number of 64 bits, or a decimal number. -/
inductive Number where
  | natural (n : Nat)
  /-- The number `-n`. -/
  | negative (n : Nat)
  | decimal (d : Decimal)
  deriving Repr, DecidableEq

end Json

/-- A structured value. -/
inductive Json where
  | null
  | bool (b : Bool)
  | number (n : Json.Number)
  | string (s : String)
  | array (items : List Json)
  | object (members : List (String × Json))
  deriving Repr, Inhabited

namespace Json

/-- A count as a value. -/
def ofNat (n : Nat) : Json := .number (.natural n)

/-- A list of strings as a value. -/
def ofStrings (names : List String) : Json := .array (names.map .string)

/-- An optional string as a value. -/
def ofString? : Option String → Json
  | none => .null
  | some s => .string s

/-- The member of an object with a given key. -/
def get? (key : String) : Json → Option Json
  | .object members => members.lookup key
  | _ => none

end Json

end ActionCalls
