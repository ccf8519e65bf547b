import ActionCalls.Toml.Value

/-!
# Numbers, dates and times of TOML

A number, a date or a truth value is one run of characters. The run is read as a whole: it is a
value of exactly one kind, or none.
-/

namespace ActionCalls.Toml

/-- Can the character stand in a number, a date or a truth value? -/
def isScalarChar (c : Char) : Bool :=
  c.isAlphanum || c == '_' || c == '+' || c == '-' || c == '.' || c == ':'

/-! ## Numbers -/

/-- The digits of a run in which single underscores may stand between digits. -/
def plainDigits? (isDigit : Char → Bool) (s : Text) : Option Text :=
  let groups := Text.splitOn '_' s
  if groups.all fun g => !g.isEmpty && g.all isDigit then some groups.flatten else none

/-- A sign in front, and what stands behind it; `true` for minus. -/
def splitSign : Text → Bool × Text
  | '+' :: s => (false, s)
  | '-' :: s => (true, s)
  | s => (false, s)

/-- The value of a digit in a base of up to sixteen. -/
def digitValue (c : Char) : Nat :=
  if c.isDigit then c.toNat - '0'.toNat
  else if 'a' ≤ c ∧ c ≤ 'f' then c.toNat - 'a'.toNat + 10
  else c.toNat - 'A'.toNat + 10

/-- The number that digits write in a base. -/
def ofDigits (base : Nat) (ds : Text) : Nat :=
  ds.foldl (fun n d => n * base + digitValue d) 0

/-- Is the character a digit of base sixteen, in either case? -/
def isHexDigit (c : Char) : Bool :=
  c.isDigit || ('a' ≤ c && c ≤ 'f') || ('A' ≤ c && c ≤ 'F')

/-- Is the character a digit of base eight? -/
def isOctalDigit (c : Char) : Bool := '0' ≤ c && c ≤ '7'

/-- Is the character a digit of base two? -/
def isBinaryDigit (c : Char) : Bool := c == '0' || c == '1'

/-- Digits without a superfluous zero in front. -/
def wholeDigits? (s : Text) : Option Text :=
  (plainDigits? Char.isDigit s).filter fun ds => ds.length = 1 || ds.head? != some '0'

/-- The integers that a document can hold: those of 64 bits with a sign. -/
def inRange (n : Int) : Bool := -0x8000000000000000 ≤ n && n < 0x8000000000000000

/-- An integer: decimal with an optional sign, or in another base behind its mark. -/
def integer? (s : Text) : Option Int :=
  let value? : Option Int :=
    match s with
    | '0' :: 'x' :: s => (plainDigits? isHexDigit s).map fun ds => ofDigits 16 ds
    | '0' :: 'o' :: s => (plainDigits? isOctalDigit s).map fun ds => ofDigits 8 ds
    | '0' :: 'b' :: s => (plainDigits? isBinaryDigit s).map fun ds => ofDigits 2 ds
    | s =>
        let (negative, s) := splitSign s
        (wholeDigits? s).map fun ds =>
          if negative then -(ofDigits 10 ds : Int) else (ofDigits 10 ds : Int)
  value?.filter inRange

/-- The run of digits and underscores at the front, and what stands behind it. -/
def digitRun (s : Text) : Text × Text :=
  (s.takeWhile fun c => c.isDigit || c == '_', s.dropWhile fun c => c.isDigit || c == '_')

/-- The digits behind a point, if there is one, and what stands behind them. -/
def fractionPart? : Text → Option (Option Text × Text)
  | '.' :: s => (plainDigits? Char.isDigit (digitRun s).1).map fun ds => (some ds, (digitRun s).2)
  | s => some (none, s)

/-- The exponent that makes up a text, if the text is not empty. -/
def exponentPart? : Text → Option (Option Int)
  | [] => some none
  | c :: s =>
      if c = 'e' ∨ c = 'E' then
        let (negative, s) := splitSign s
        (plainDigits? Char.isDigit s).map fun ds =>
          some (if negative then -(ofDigits 10 ds : Int) else (ofDigits 10 ds : Int))
      else none

/-- A number with a fraction, an exponent or both. Positive ones stay within the range of
doubles. -/
def decimal? (s : Text) : Option Decimal := do
  let (negative, s) := splitSign s
  let (whole, s) := digitRun s
  let whole ← wholeDigits? whole
  let (fraction, s) ← fractionPart? s
  let exponent ← exponentPart? s
  guard (fraction.isSome || exponent.isSome)
  let places := fraction.getD []
  let d : Decimal :=
    ⟨negative, ofDigits 10 (whole ++ places), exponent.getD 0 - places.length⟩
  guard (negative || d.isFinite)
  return d

/-- Is the text an infinity, or the name of what is no number? -/
def isSpecialFloat (s : Text) : Bool :=
  let unsigned := (splitSign s).2
  unsigned == "inf".toList || unsigned == "nan".toList

/-! ## Dates and times -/

/-- The number that exactly `n` digits write. -/
def fixedDigits? (n : Nat) (s : Text) : Option Nat :=
  if s.length = n ∧ s.all Char.isDigit then some (ofDigits 10 s) else none

/-- The number of days in a month. -/
def daysIn (year month : Nat) : Nat :=
  if month = 2 then
    if year % 4 = 0 ∧ (year % 100 ≠ 0 ∨ year % 400 = 0) then 29 else 28
  else if month ∈ [4, 6, 9, 11] then 30
  else 31

/-- Is the text a date of the calendar, as `1979-05-27`? -/
def isDate (s : Text) : Bool :=
  match Text.splitOn '-' s with
  | [year, month, day] =>
      match fixedDigits? 4 year, fixedDigits? 2 month, fixedDigits? 2 day with
      | some year, some month, some day =>
          1 ≤ month && month ≤ 12 && 1 ≤ day && day ≤ daysIn year month
      | _, _, _ => false
  | _ => false

/-- Is the text a number of exactly two digits up to a bound? -/
def isTwoDigits (bound : Nat) (s : Text) : Bool :=
  (fixedDigits? 2 s).any (· ≤ bound)

/-- Is the text a time of the day, as `07:32:00` with an optional fraction of the second? -/
def isTime (s : Text) : Bool :=
  match Text.splitOn ':' s with
  | [hour, minute, second] =>
      isTwoDigits 23 hour && isTwoDigits 59 minute &&
        match Text.splitOn '.' second with
        | [second] => isTwoDigits 60 second
        | [second, fraction] =>
            isTwoDigits 60 second && !fraction.isEmpty && fraction.all Char.isDigit
        | _ => false
  | _ => false

/-- Is the text a distance from universal time, as `-07:00`? -/
def isOffset (s : Text) : Bool :=
  match Text.splitOn ':' s with
  | [hour, minute] => isTwoDigits 23 hour && isTwoDigits 59 minute
  | _ => false

/-- Is the text a time with an optional distance from universal time? -/
def isTimeWithOffset (s : Text) : Bool :=
  let time := s.takeWhile fun c => c.isDigit || c == ':' || c == '.'
  let offset := s.dropWhile fun c => c.isDigit || c == ':' || c == '.'
  isTime time &&
    match offset with
    | [] => true
    | ['Z'] | ['z'] => true
    | '+' :: offset => isOffset offset
    | '-' :: offset => isOffset offset
    | _ => false

/-- Is the text a date, a time, or both with a `T` between them? -/
def isDateTime (s : Text) : Bool :=
  isDate s || isTime s ||
    (isDate (s.take 10) &&
      match s.drop 10 with
      | c :: time => (c == 'T' || c == 't') && isTimeWithOffset time
      | [] => false)

/-! ## Any scalar -/

/-- The value of a run of scalar characters. -/
def scalar? (s : Text) : Option Toml :=
  if s = "true".toList then some (.boolean true)
  else if s = "false".toList then some (.boolean false)
  else if isDateTime s then some (.dateTime (String.ofList s))
  else if isSpecialFloat s then some (.float none)
  else
    match integer? s with
    | some n => some (.integer n)
    | none => (decimal? s).map fun d => .float (some d)

/-- A scalar at the front of a text, and what stands behind it. A blank instead of the `T` may
stand between a date and its time. -/
def scalarAtFront? (s : Text) : Option (Toml × Text) :=
  let run := s.takeWhile isScalarChar
  let rest := s.dropWhile isScalarChar
  match rest with
  | ' ' :: behind =>
      if isDate run && behind.head?.any Char.isDigit then
        let time := behind.takeWhile isScalarChar
        if isTimeWithOffset time then
          some (.dateTime (String.ofList (run ++ ' ' :: time)), behind.dropWhile isScalarChar)
        else none
      else (scalar? run).map (·, rest)
  | _ => (scalar? run).map (·, rest)

end ActionCalls.Toml
