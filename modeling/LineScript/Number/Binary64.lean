/-!
# Binary floating-point numbers

A number of the binary format with 64 bits is a sign and a magnitude, the other 63 bits read as a
natural number. Magnitudes are ordered as the numbers they stand for. A finite magnitude stands
for `significand * 2 ^ scale`, and `nearest` finds the magnitude nearest to a quotient of natural
numbers, all in exact arithmetic.
-/

namespace LineScript.Number

/-- A floating-point number with 64 bits. -/
structure Binary64 where
  negative : Bool
  magnitude : Nat
deriving DecidableEq, Repr

/-- A quotient rounded to a natural number; a half goes to the even neighbour. -/
def roundQuotient (num den : Nat) : Nat :=
  let floor := num / den
  let twice := 2 * (num % den)
  if twice < den then floor
  else if den < twice then floor + 1
  else floor + floor % 2

/-- Powers of two with the sign of the exponent moved across a quotient. -/
def scaleQuotient (num den : Nat) (scale : Int) : Nat × Nat :=
  if scale < 0 then (num * Nat.pow 2 scale.natAbs, den) else (num, den * Nat.pow 2 scale.natAbs)

namespace Binary64

/-- The magnitude of an infinity. A larger one is not a number. -/
def infinity : Nat := 0x7ff * Nat.pow 2 52

/-- The exponent that every magnitude below the normal range has. -/
def minScale : Int := -1074

/-- The whole number of units in a finite magnitude. -/
def significand (x : Binary64) : Nat :=
  if x.magnitude < Nat.pow 2 52 then x.magnitude else Nat.pow 2 52 + x.magnitude % Nat.pow 2 52

/-- The exponent of the unit of a finite magnitude. -/
def scale (x : Binary64) : Int :=
  max 1 (x.magnitude / Nat.pow 2 52 : Nat) - 1075

/-- Whether the number is finite. -/
def isFinite (x : Binary64) : Bool :=
  x.magnitude < infinity

/-- Whether the number is zero, of either sign. -/
def isZero (x : Binary64) : Bool :=
  x.magnitude == 0

/-- The magnitude nearest to a quotient with `0 < den`; from the midpoint above the largest
finite number on, it is `infinity` or more. -/
def nearest (num den : Nat) : Nat :=
  if num == 0 then 0
  else
    let guess : Int := (num.log2 : Int) - den.log2 - 52
    let (guessNum, guessDen) := scaleQuotient num den guess
    let scale := max minScale (if guessNum < Nat.pow 2 52 * guessDen then guess - 1 else guess)
    let (scaledNum, scaledDen) := scaleQuotient num den scale
    (scale - minScale).toNat * Nat.pow 2 52 + roundQuotient scaledNum scaledDen

/-- A finite magnitude as a quotient of natural numbers. -/
def quotient (x : Binary64) : Nat × Nat :=
  if x.scale < 0 then (x.significand, Nat.pow 2 x.scale.natAbs)
  else (x.significand * Nat.pow 2 x.scale.natAbs, 1)

/-- The number nearest to a decimal `± coefficient * 10 ^ exponent`, infinite when that is too
large. -/
def ofDecimal (negative : Bool) (coefficient : Nat) (exponent : Int) : Binary64 :=
  let magnitude :=
    if coefficient == 0 then 0
    else if 400 < exponent then infinity
    else if exponent < 0 then nearest coefficient (Nat.pow 10 exponent.natAbs)
    else nearest (coefficient * Nat.pow 10 exponent.natAbs) 1
  ⟨negative, min infinity magnitude⟩

/-- The bits of the number, the sign first. -/
def toBits (x : Binary64) : Nat :=
  (if x.negative then Nat.pow 2 63 else 0) + x.magnitude

/-- The whole number that a float without a fractional part stands for. -/
def toInt? (x : Binary64) : Option Int :=
  if !x.isFinite then none
  else
    let (num, den) := x.quotient
    if num % den == 0 then
      some (if x.negative then -((num / den : Nat) : Int) else (num / den : Nat))
    else none

/-- The number nearest to the number plus one. -/
def plusOne (x : Binary64) : Binary64 :=
  if !x.isFinite then x
  else
    let (num, den) := x.quotient
    if !x.negative then ⟨false, min infinity (nearest (num + den) den)⟩
    else if num ≤ den then ⟨false, nearest (den - num) den⟩
    else ⟨true, min infinity (nearest (num - den) den)⟩

end Binary64

end LineScript.Number
