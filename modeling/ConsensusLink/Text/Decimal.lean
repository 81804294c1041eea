/-!
# Decimal numbers and the range of doubles

A reader that keeps numbers with fractions or exponents only as they are written still has to
refuse those that are too large for a double. Here stand the value of a run of digits, the exact
test against the largest double, and the rounding of large whole numbers.
-/

namespace ConsensusLink.Decimal

/-- The number that decimal digits stand for. -/
def value (ds : List Char) : Nat := ds.foldl (fun n d => n * 10 + (d.toNat - 48)) 0

/-- The digits and the power of ten of a number with a fraction or an exponent, whatever its
sign. -/
def parts (literal : String) : Nat × Int :=
  let isMark (c : Char) : Bool := c = 'e' || c = 'E'
  let mantissa := literal.toList.takeWhile (!isMark ·)
  let exponent := (literal.toList.dropWhile (!isMark ·)).drop 1
  let whole := (mantissa.takeWhile (· ≠ '.')).filter Char.isDigit
  let fraction := (mantissa.dropWhile (· ≠ '.')).filter Char.isDigit
  let magnitude : Int := value (exponent.filter Char.isDigit)
  let power := if exponent.head? = some '-' then -magnitude else magnitude
  (value (whole ++ fraction), power - fraction.length)

/-- Whether a number is small enough to round to a finite double. Numbers up to `10 ^ 308` are,
numbers from `10 ^ 309` on are not, and those between are compared with the point half way between
the largest double and the next power of two. -/
def inRange (literal : String) : Bool :=
  let (digits, power) := parts literal
  let top := power + (toString digits).length
  if digits = 0 ∨ top ≤ 308 then true
  else if 309 < top then false
  else
    let bound := 1 <<< 1024 - 1 <<< 970
    if 0 ≤ power then digits * Nat.pow 10 power.toNat < bound
    else digits < bound * Nat.pow 10 power.natAbs

/-- Rounds a natural number to the nearest one with at most 53 binary digits that count, the even
one of two. -/
def roundToDouble (n : Nat) : Nat :=
  let excess := n.log2 + 1 - 53
  let unit := 1 <<< excess
  let q := n / unit
  let r := n % unit
  (if 2 * r < unit ∨ 2 * r = unit ∧ q % 2 = 0 then q else q + 1) * unit

end ConsensusLink.Decimal
