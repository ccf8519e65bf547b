import ActionCalls.Json.Value

/-!
# Reading structured values

The reader accepts exactly one value with white space around it. Nesting is bounded by a count of
steps for which twice the length of the text is enough, since every value and every item takes at
least one character.
-/

namespace ActionCalls.Json

/-- The white space between the parts of a value. -/
def isSpace (c : Char) : Bool :=
  c == ' ' || c == '\t' || c == '\n' || c == '\r'

def skipSpace (s : Text) : Text :=
  s.dropWhile isSpace

/-! ## Strings -/

/-- The value of a hexadecimal digit of either case. -/
def hexValue? (c : Char) : Option Nat :=
  if c.isDigit then some (c.toNat - '0'.toNat)
  else if 'a' ≤ c ∧ c ≤ 'f' then some (c.toNat - 'a'.toNat + 10)
  else if 'A' ≤ c ∧ c ≤ 'F' then some (c.toNat - 'A'.toNat + 10)
  else none

/-- The value of four hexadecimal digits. -/
def hexQuad? (a b c d : Char) : Option Nat := do
  let a ← hexValue? a
  let b ← hexValue? b
  let c ← hexValue? c
  let d ← hexValue? d
  return ((a * 16 + b) * 16 + c) * 16 + d

/-- The character that a letter behind a backslash stands for. -/
def unescape? (letter : Char) : Option Char :=
  if letter = '"' then some '"'
  else if letter = '\\' then some '\\'
  else if letter = '/' then some '/'
  else if letter = 'b' then some '\x08'
  else if letter = 'f' then some '\x0c'
  else if letter = 'n' then some '\n'
  else if letter = 'r' then some '\r'
  else if letter = 't' then some '\t'
  else none

/-- Put a character in front of what a reader has read. -/
def consChar (c : Char) (read : Option (Text × Text)) : Option (Text × Text) :=
  read.map fun (s, rest) => (c :: s, rest)

/-- The content of a string up to its closing quote, and what stands behind that. A character
beyond the basic plane may be written as a pair of surrogates; no surrogate stands alone. -/
def stringBody? : Text → Option (Text × Text)
  | [] => none
  | '"' :: s => some ([], s)
  | '\\' :: 'u' :: a :: b :: c :: d :: s =>
      match hexQuad? a b c d with
      | none => none
      | some high =>
          if 0xD800 ≤ high ∧ high < 0xDC00 then
            match s with
            | '\\' :: 'u' :: a :: b :: c :: d :: s =>
                match hexQuad? a b c d with
                | none => none
                | some low =>
                    if 0xDC00 ≤ low ∧ low < 0xE000 then
                      consChar (Char.ofNat (0x10000 + (high - 0xD800) * 0x400 + (low - 0xDC00)))
                        (stringBody? s)
                    else none
            | _ => none
          else if 0xDC00 ≤ high ∧ high < 0xE000 then none
          else consChar (Char.ofNat high) (stringBody? s)
  | '\\' :: letter :: s =>
      match unescape? letter with
      | none => none
      | some c => consChar c (stringBody? s)
  | c :: s => if c.toNat < 0x20 ∨ c = '\\' then none else consChar c (stringBody? s)

/-! ## Numbers -/

/-- The digits at the front of a text and what stands behind them. -/
def digits (s : Text) : Text × Text :=
  (s.takeWhile Char.isDigit, s.dropWhile Char.isDigit)

/-- The number that decimal digits write. -/
def ofDigits (ds : Text) : Nat :=
  Nat.ofDigitChars 10 ds 0

/-- The digits behind a point, if there is one; it needs at least one digit. -/
def fraction? : Text → Option (Option Text × Text)
  | '.' :: s =>
      match digits s with
      | ([], _) => none
      | (ds, rest) => some (some ds, rest)
  | s => some (none, s)

/-- The exponent behind its letter, if there is one; it needs at least one digit. -/
def exponent? : Text → Option (Option Int × Text)
  | c :: s =>
      if c = 'e' ∨ c = 'E' then
        let (sign, s) : Int × Text :=
          match s with
          | '+' :: s => (1, s)
          | '-' :: s => (-1, s)
          | s => (1, s)
        match digits s with
        | ([], _) => none
        | (ds, rest) => some (some (sign * (ofDigits ds : Int)), rest)
      else some (none, c :: s)
  | [] => some (none, [])

/-- A whole number keeps its exact value within 64 bits; beyond, and for a negative zero, it
counts as a decimal number. -/
def Number.ofWhole (negative : Bool) (n : Nat) : Number :=
  if negative then
    if 0 < n ∧ n ≤ 0x8000000000000000 then .negative n else .decimal ⟨true, n, 0⟩
  else if n < 0x10000000000000000 then .natural n else .decimal ⟨false, n, 0⟩

/-- A number without its sign. The first digit is zero only when it is the only one. -/
def unsigned? (negative : Bool) (s : Text) : Option (Number × Text) :=
  match digits s with
  | ([], _) => none
  | ('0' :: _ :: _, _) => none
  | (whole, s) =>
      match fraction? s with
      | none => none
      | some (fraction, s) =>
          match exponent? s with
          | none => none
          | some (exponent, s) =>
              match fraction, exponent with
              | none, none => some (.ofWhole negative (ofDigits whole), s)
              | _, _ =>
                  let places := fraction.getD []
                  some (.decimal ⟨negative, ofDigits (whole ++ places),
                    exponent.getD 0 - places.length⟩, s)

/-- A number; decimal numbers beyond the range of doubles are refused. -/
def number? (s : Text) : Option (Number × Text) :=
  let read :=
    match s with
    | '-' :: s => unsigned? true s
    | s => unsigned? false s
  read.filter fun
    | (.decimal d, _) => d.isFinite
    | _ => true

/-! ## Values -/

mutual

/-- A value, with white space allowed before it, and what stands behind it. -/
def value? : Nat → Text → Option (Json × Text)
  | 0, _ => none
  | n + 1, s =>
      match skipSpace s with
      | 'n' :: 'u' :: 'l' :: 'l' :: s => some (.null, s)
      | 't' :: 'r' :: 'u' :: 'e' :: s => some (.bool true, s)
      | 'f' :: 'a' :: 'l' :: 's' :: 'e' :: s => some (.bool false, s)
      | '"' :: s => (stringBody? s).map fun (body, s) => (.string (String.ofList body), s)
      | '[' :: s =>
          match skipSpace s with
          | ']' :: s => some (.array [], s)
          | s => (items? n s).map fun (items, s) => (.array items, s)
      | '{' :: s =>
          match skipSpace s with
          | '}' :: s => some (.object [], s)
          | s => (members? n s).map fun (members, s) => (.object members, s)
      | s => (number? s).map fun (read, s) => (.number read, s)

/-- The items of an array up to its closing bracket; at least one. -/
def items? : Nat → Text → Option (List Json × Text)
  | 0, _ => none
  | n + 1, s =>
      match value? n s with
      | none => none
      | some (item, s) =>
          match skipSpace s with
          | ',' :: s => (items? n s).map fun (items, s) => (item :: items, s)
          | ']' :: s => some ([item], s)
          | _ => none

/-- The members of an object up to its closing brace; at least one. -/
def members? : Nat → Text → Option (List (String × Json) × Text)
  | 0, _ => none
  | n + 1, s =>
      match skipSpace s with
      | '"' :: s =>
          match stringBody? s with
          | none => none
          | some (key, s) =>
              match skipSpace s with
              | ':' :: s =>
                  match value? n s with
                  | none => none
                  | some (value, s) =>
                      match skipSpace s with
                      | ',' :: s =>
                          (members? n s).map fun (members, s) =>
                            ((String.ofList key, value) :: members, s)
                      | '}' :: s => some ([(String.ofList key, value)], s)
                      | _ => none
              | _ => none
      | _ => none

end

/-- The value that a text writes, if it writes one and nothing else. -/
def parse? (s : Text) : Option Json :=
  match value? (2 * s.length + 1) s with
  | some (value, rest) => if skipSpace rest = [] then some value else none
  | none => none

end ActionCalls.Json
