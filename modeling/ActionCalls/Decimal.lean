import ActionCalls.Text.Basic

/-!
# Decimal numbers and the doubles nearest to them

A number written with a fraction or an exponent stands for the double nearest to it, a tie going
to the even mantissa, and is named by the fewest digits that read back as that double. All
arithmetic is exact, on natural numbers.
-/

namespace ActionCalls

/-- The number `± coefficient * 10 ^ exponent`. -/
structure Decimal where
  negative : Bool
  coefficient : Nat
  exponent : Int
  deriving Repr, DecidableEq, Inhabited

/-- A fraction of natural numbers. -/
structure Ratio where
  num : Nat
  den : Nat

namespace Ratio

/-- `r * b ^ e`, for an exponent of either sign. -/
def scale (r : Ratio) (b : Nat) (e : Int) : Ratio :=
  ⟨r.num * b.pow e.toNat, r.den * b.pow (-e).toNat⟩

def floor (r : Ratio) : Nat := r.num / r.den

/-- The nearest natural number; a tie goes to the even one. -/
def round (r : Ratio) : Nat :=
  let q := r.num / r.den
  let twice := 2 * (r.num % r.den)
  if twice < r.den then q else if r.den < twice then q + 1 else q + q % 2

/-- Is the first fraction below the second? -/
def lt (a b : Ratio) : Bool := a.num * b.den < b.num * a.den

def le (a b : Ratio) : Bool := a.num * b.den ≤ b.num * a.den

/-- How far two fractions are apart. -/
def distance (a b : Ratio) : Ratio :=
  ⟨(a.num * b.den - b.num * a.den) + (b.num * a.den - a.num * b.den), a.den * b.den⟩

/-- The exponent of the leading decimal digit: the greatest `e` with `10 ^ e ≤ r`. Looked for
among the exponents that a double can have. -/
def decimalExponent (r : Ratio) : Int :=
  let up := (List.range 310).reverse.find? fun e => !(r.lt ⟨Nat.pow 10 e, 1⟩)
  match up with
  | some e => e
  | none => -(((List.range 400).find? fun e => !(r.lt ⟨1, Nat.pow 10 e⟩)).getD 0 : Nat)

end Ratio

/-- The double `mantissa * 2 ^ exponent`; the mantissa is below `2 ^ 53`, and below `2 ^ 52` only
for the least exponent. -/
structure Double where
  mantissa : Nat
  exponent : Int
  deriving Repr, DecidableEq

namespace Double

/-- The least exponent of a double. -/
def leastExponent : Int := -1074

/-- The double nearest to a fraction, its range above being unlimited. -/
def nearest (r : Ratio) : Double :=
  if r.num = 0 then ⟨0, leastExponent⟩
  else
    let guess : Int := (Nat.log2 r.num : Int) - (Nat.log2 r.den : Int) - 52
    let e := if (r.scale 2 (-guess)).floor < Nat.pow 2 52 then guess - 1 else guess
    let e := max e leastExponent
    let m := (r.scale 2 (-e)).round
    if m = Nat.pow 2 53 then ⟨Nat.pow 2 52, e + 1⟩ else ⟨m, e⟩

def toRatio (d : Double) : Ratio := Ratio.scale ⟨d.mantissa, 1⟩ 2 d.exponent

/-- Does every reader that rounds to the nearest double take the fraction for `d`? The interval
reaches halfway to the two neighbours, and includes its ends when the mantissa is even. -/
def claims (d : Double) (r : Ratio) : Bool :=
  let lower : Ratio :=
    if d.mantissa = Nat.pow 2 52 ∧ leastExponent < d.exponent then
      Ratio.scale ⟨4 * d.mantissa - 1, 1⟩ 2 (d.exponent - 2)
    else Ratio.scale ⟨2 * d.mantissa - 1, 1⟩ 2 (d.exponent - 1)
  let upper := Ratio.scale ⟨2 * d.mantissa + 1, 1⟩ 2 (d.exponent - 1)
  if d.mantissa % 2 = 0 then lower.le r && r.le upper else lower.lt r && r.lt upper

/-- The number with `n` digits nearest to the double, if it reads back as the double: coefficient
and exponent of ten. -/
def withDigits? (d : Double) (n : Nat) : Option (Nat × Int) :=
  let r := d.toRatio
  let e := r.decimalExponent + 1 - n
  let low := (r.scale 10 (-e)).floor
  let candidates := [low, low + 1].filter fun c => d.claims (Ratio.scale ⟨c, 1⟩ 10 e)
  match candidates with
  | [] => none
  | [c] => some (c, e)
  | c :: c' :: _ =>
      let far c := (Ratio.scale ⟨c, 1⟩ 10 e).distance r
      if (far c').lt (far c) then some (c', e) else some (c, e)

/-- The fewest digits that read back as the double; seventeen are always enough. -/
def shortest (d : Double) : Nat × Int :=
  if d.mantissa = 0 then (0, 0)
  else ((List.range 17).findSome? fun n => d.withDigits? (n + 1)).getD (0, 0)

end Double

/-- The number in positional notation, with at least one digit on either side of the point and no
further zeros at the end. -/
def positional (coefficient : Nat) (exponent : Int) : Text :=
  let digits := Nat.toDigits 10 coefficient
  let whole := digits ++ List.replicate exponent.toNat '0'
  let places := (-exponent).toNat
  let padded := List.replicate (places + 1 - whole.length) '0' ++ whole
  let fraction := (padded.drop (padded.length - places)).reverse.dropWhile (· == '0') |>.reverse
  padded.take (padded.length - places) ++ '.' :: (if fraction = [] then ['0'] else fraction)

namespace Decimal

/-- The absolute value as a fraction. -/
def toRatio (d : Decimal) : Ratio := Ratio.scale ⟨d.coefficient, 1⟩ 10 d.exponent

/-- The double nearest to the absolute value. Below `10 ^ (-400)` that is zero. -/
def toDouble (d : Decimal) : Double :=
  if (Nat.toDigits 10 d.coefficient).length + d.exponent < -400 then Double.nearest ⟨0, 1⟩
  else Double.nearest d.toRatio

/-- Is the number within the range of doubles? -/
def isFinite (d : Decimal) : Bool :=
  d.coefficient == 0 ||
    ((Nat.toDigits 10 d.coefficient).length + d.exponent < 400 && d.toDouble.exponent ≤ 971)

/-- The text of the nearest double: the fewest digits that read back, in positional notation. -/
def render (d : Decimal) : Text :=
  let (coefficient, exponent) := d.toDouble.shortest
  (if d.negative then ['-'] else []) ++ positional coefficient exponent

end Decimal

end ActionCalls
