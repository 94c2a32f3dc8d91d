import LineScript.Number.Shortest

/-!
# The text of a number

Floating-point numbers are written with their shortest decimal, positionally from `0.0001` up to
`10 ^ 16` and with an exponent of at least two digits elsewhere. A whole number written
positionally keeps `.0` as a sign that it is a float.
-/

namespace LineScript.Number

/-- The decisions of a floating-point format. -/
structure FloatStyle where
  leastPoint : Int
  greatestPoint : Int
  exponentDigits : Nat
  infinity : String
  notANumber : String
deriving Repr

/-- The style of numbers in messages and results. -/
def FloatStyle.plain : FloatStyle := ⟨-3, 16, 2, "inf", "nan"⟩

/-- The style of numbers in documents. -/
def FloatStyle.document : FloatStyle := ⟨-3, 16, 2, "Infinity", "NaN"⟩

/-- A natural number in base ten with at least `width` digits. -/
def paddedDigits (width value : Nat) : List Char :=
  let digits := Nat.toDigits 10 value
  List.replicate (width - digits.length) '0' ++ digits

namespace Decimal

/-- The decimal with its point at its place. -/
def positional (decimal : Decimal) : List Char :=
  let digits := Nat.toDigits 10 decimal.digits
  if decimal.point ≤ 0 then
    '0' :: '.' :: List.replicate decimal.point.natAbs '0' ++ digits
  else
    let whole := decimal.point.toNat
    if digits.length ≤ whole then
      digits ++ List.replicate (whole - digits.length) '0' ++ ['.', '0']
    else digits.take whole ++ '.' :: digits.drop whole

/-- The decimal with one digit before its point and an exponent. -/
def scientific (exponentDigits : Nat) (decimal : Decimal) : List Char :=
  let exponent := decimal.point - 1
  let mantissa :=
    match Nat.toDigits 10 decimal.digits with
    | [] => []
    | [digit] => [digit]
    | digit :: rest => digit :: '.' :: rest
  mantissa ++ 'e' :: (if exponent < 0 then '-' else '+') ::
    paddedDigits exponentDigits exponent.natAbs

end Decimal

namespace Binary64

/-- The text of a magnitude. -/
def writtenMagnitude (style : FloatStyle) (x : Binary64) : List Char :=
  if x.isZero then ['0', '.', '0']
  else
    let decimal := x.shortest
    if style.leastPoint ≤ decimal.point && decimal.point ≤ style.greatestPoint then
      decimal.positional
    else decimal.scientific style.exponentDigits

/-- The text of a number. -/
def written (style : FloatStyle) (x : Binary64) : String :=
  let sign := if x.negative then "-" else ""
  if infinity < x.magnitude then style.notANumber
  else if x.magnitude == infinity then sign ++ style.infinity
  else sign ++ String.ofList (x.writtenMagnitude style)

/-- A finite number with a fixed count of digits behind the point. -/
def writtenFixed (places : Nat) (x : Binary64) : String :=
  let (num, den) := x.quotient
  let digits := paddedDigits (places + 1) (roundQuotient (num * Nat.pow 10 places) den)
  let whole := digits.length - places
  let sign := if x.negative then "-" else ""
  sign ++ String.ofList (digits.take whole ++ '.' :: digits.drop whole)

end Binary64

end LineScript.Number
