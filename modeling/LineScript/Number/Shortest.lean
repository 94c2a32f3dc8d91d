import LineScript.Number.Binary64

/-!
# Shortest decimals

The text of a floating-point number is the shortest decimal that reads back as that number. Of
two decimals of that length the nearer one is taken, of two equally near ones the even one. A
decimal on a grid of `n` digits reads back only if one of the two neighbours of the exact value
on that grid does, so the search tries those two for `n = 1, 2, …, 17`.
-/

namespace LineScript.Number

/-- A positive decimal `0.d₁d₂… * 10 ^ point`, where `digits` is the number `d₁d₂…`. -/
structure Decimal where
  digits : Nat
  point : Int
deriving DecidableEq, Repr

namespace Decimal

/-- The same decimal with no trailing zero digit, from digits on a grid `10 ^ exponent`. -/
def ofGrid : (fuel : Nat) → (digits : Nat) → (exponent : Int) → Decimal
  | 0, digits, exponent => ⟨digits, exponent + (Nat.toDigits 10 digits).length⟩
  | fuel + 1, digits, exponent =>
    if digits % 10 == 0 && digits != 0 then ofGrid fuel (digits / 10) (exponent + 1)
    else ⟨digits, exponent + (Nat.toDigits 10 digits).length⟩

end Decimal

namespace Shortest

/-- The position of the decimal point of a positive quotient: the least `p` with
`num / den < 10 ^ p`. -/
def point (num den : Nat) : Int :=
  let below (p : Int) : Bool :=
    if p < 0 then num * Nat.pow 10 p.natAbs < den else num < den * Nat.pow 10 p.natAbs
  let guess : Int := ((num.log2 : Int) - den.log2 - 1) * 30103 / 100000
  if below guess then guess
  else if below (guess + 1) then guess + 1
  else guess + 2

/-- The quotients halfway to the two neighbours of a finite positive number, as numerators over
the denominator `den`, with the numerator of the number itself. -/
def interval (x : Binary64) : Nat × Nat × Nat × Nat :=
  let (num, den) := x.quotient
  let narrow := x.significand == Nat.pow 2 52 && Binary64.minScale < x.scale
  let unit := if x.scale < 0 then 1 else Nat.pow 2 x.scale.natAbs
  (4 * num - (if narrow then unit else 2 * unit), 4 * num, 4 * num + 2 * unit, 4 * den)

/-- The decimal with `count` digits that reads back as the number, if there is one. -/
def withDigits? (x : Binary64) (count : Nat) : Option Decimal :=
  let (low, num, high, den) := interval x
  let exponent := point num den - count
  let gridNum := if exponent < 0 then 1 else Nat.pow 10 exponent.natAbs
  let gridDen := if exponent < 0 then Nat.pow 10 exponent.natAbs else 1
  -- a decimal `d` on the grid is `d * gridNum * den / gridDen` over `den`
  let floor := num * gridDen / (den * gridNum)
  let place (d : Nat) : Nat := d * gridNum * den
  let isHit (d : Nat) : Bool :=
    if x.significand % 2 == 0 then
      low * gridDen ≤ place d && place d ≤ high * gridDen
    else low * gridDen < place d && place d < high * gridDen
  let gapBelow := num * gridDen - place floor
  let gapAbove := place (floor + 1) - num * gridDen
  let preferBelow := gapBelow < gapAbove || (gapBelow == gapAbove && floor % 2 == 0)
  let chosen :=
    match isHit floor, isHit (floor + 1) with
    | true, true => some (if preferBelow then floor else floor + 1)
    | true, false => some floor
    | false, true => some (floor + 1)
    | false, false => none
  chosen.map fun digits => Decimal.ofGrid 20 digits exponent

end Shortest

/-- The shortest decimal that reads back as a finite positive number. -/
def Binary64.shortest (x : Binary64) : Decimal :=
  ((List.range 18).findSome? fun count =>
    if count == 0 then none else Shortest.withDigits? x count).getD ⟨0, 0⟩

end LineScript.Number
