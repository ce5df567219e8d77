/-!
# Decimal fractions

Numbers with a fractional part, written out in decimal places. They are exact, where floating-point
numbers are rounded to a double.

* `Decimal`: **never whole**, since the last place is not zero; so each number has one form, and
  none equals an integer.
* `Decimal.text`: sign, whole part, point, places.
-/

namespace TagScope

/-- A decimal fraction that is not a whole number: `digits` divided by ten to the `places`. -/
structure Decimal where
  /-- The number without its point. -/
  digits : Int
  /-- How many places stand behind the point. -/
  places : Nat
  /-- There is a point, with at least one place behind it. -/
  places_pos : 0 < places
  /-- The last place is needed. -/
  last_ne_zero : digits % 10 ≠ 0
deriving DecidableEq

namespace Decimal

/-- The decimal digits of `n` with zeros in front, so that there are at least `width`. -/
def padded (width n : Nat) : String :=
  let ds := Nat.toDigits 10 n
  String.ofList (List.replicate (width - ds.length) '0' ++ ds)

/-- The number. -/
def toRat (d : Decimal) : Rat := mkRat d.digits (Nat.pow 10 d.places)

/-- The written form: positional, with every place of the exact decimal. The shortest form of a
    double would have an exponent for very small values, and be rounded to a double first; neither
    is done here. -/
def text (d : Decimal) : String :=
  let n := d.digits.natAbs
  let base := Nat.pow 10 d.places
  (if d.digits < 0 then "-" else "") ++ toString (n / base) ++ "." ++ padded d.places (n % base)

example : text ⟨-25, 2, by decide, by decide⟩ = "-0.25" := by decide
example : text ⟨1005, 2, by decide, by decide⟩ = "10.05" := by decide

end Decimal

end TagScope
