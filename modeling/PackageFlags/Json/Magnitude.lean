/-!
# Numbers that fit a double

A JSON number is only accepted if it can be held by a double of 53 significant
bits. Its leading digits, as many as fit 64 bits, are its significand, and what
remains of it is a power of ten. Significand and power are each rounded to a
double, and so is their product; the number is too large when the product is
2^1024 or more. All of this is arithmetic on natural numbers, for a number with
a negative power of ten is never too large.
-/

namespace PackageFlags
namespace Json
namespace Magnitude

/-- The number of significant bits of a double. -/
def precision : Nat := 53

/-- Every double is smaller than this. -/
def bound : Nat := Nat.pow 2 1024

/-- The nearest multiple of `2 ^ excess`; halfway between two, the even one. -/
def roundBits (n excess : Nat) : Nat :=
  let quotient := n >>> excess
  let rest := n - (quotient <<< excess)
  let half := Nat.pow 2 (excess - 1)
  let roundsUp := half < rest || (rest = half && quotient % 2 = 1)
  (if roundsUp then quotient + 1 else quotient) <<< excess

/-- The nearest number with at most 53 significant bits. -/
def round (n : Nat) : Nat :=
  let width := Nat.log2 n + 1
  if width ≤ precision then n else roundBits n (width - precision)

/-- A significand with the power of ten that it is multiplied by, while digits
are still being read. -/
structure Reading where
  /-- The value of the digits that are kept. -/
  significand : Nat := 0
  /-- The power of ten. -/
  exponent : Int := 0
  /-- Whether a digit has been left out. -/
  saturated : Bool := false

/-- Whether a digit can be appended to a significand within 64 bits. -/
def fits (significand digit : Nat) : Bool :=
  significand * 10 + digit < Nat.pow 2 64

/-- The value of a digit. -/
def digitValue (c : Char) : Nat := c.toNat - '0'.toNat

/-- Read a digit before the point. From the first digit that does not fit on,
each one counts for a power of ten. -/
def Reading.addWhole (reading : Reading) (c : Char) : Reading :=
  if !reading.saturated && fits reading.significand (digitValue c) then
    { reading with
      significand := reading.significand * 10 + digitValue c }
  else
    { reading with exponent := reading.exponent + 1, saturated := true }

/-- Read a digit after the point. From the first digit that does not fit on,
they are left out. -/
def Reading.addFraction (reading : Reading) (c : Char) : Reading :=
  if !reading.saturated && fits reading.significand (digitValue c) then
    { reading with
      significand := reading.significand * 10 + digitValue c
      exponent := reading.exponent - 1 }
  else
    { reading with saturated := true }

/-- Whether a significand times a power of ten fits a double. -/
def inRange (significand : Nat) (exponent : Int) : Bool :=
  if exponent < 0 then
    true
  else if 308 < exponent then
    significand = 0
  else
    round (round significand * round (Nat.pow 10 exponent.toNat)) < bound

/-- Whether the number written with these digits before the point, after the
point and in the exponent fits a double. -/
def accepts
    (whole fraction : List Char)
    (exponent : Int) : Bool :=
  let wholeRead := whole.foldl Reading.addWhole {}
  let read :=
    fraction.foldl Reading.addFraction { wholeRead with saturated := false }
  inRange read.significand (read.exponent + exponent)

end Magnitude
end Json
end PackageFlags
