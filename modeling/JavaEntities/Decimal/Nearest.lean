/-!
# The nearest binary number

A decimal number `digits * 10 ^ exponent` is rounded to a number `m * 2 ^ q`
with at most 53 bits in `m` and `q` not below -1074; of two that are equally near
the one with the even `m` is taken. All of it is arithmetic on natural numbers.

Mirrors the reading of real numbers in a configuration, as far as messages depend
on it: no setting is a number.
-/

namespace JavaEntities.Decimal

/-- The number `m * 2 ^ q`. -/
structure Binary where
  m : Nat
  q : Int
  deriving DecidableEq, Repr, Inhabited

/-- The least exponent of a binary number. -/
def leastExponent : Int := -1074

/-- The quotient rounded to the nearest natural number, halves to the even one. -/
def roundHalfEven (num den : Nat) : Nat :=
  let quotient := num / den
  let twice := 2 * (num % den)
  if den < twice || (twice = den && quotient % 2 = 1) then quotient + 1 else quotient

/-- The quotient divided by a power of two and rounded. -/
def scaledQuotient (num den : Nat) (q : Int) : Nat :=
  roundHalfEven (num * Nat.pow 2 (-q).toNat) (den * Nat.pow 2 q.toNat)

/-- The exponent with which a positive quotient has 53 bits, or the least one. -/
def exponentFor (num den : Nat) : Int :=
  let guess : Int := Nat.log2 num - Nat.log2 den
  let atLeast : Bool := den * Nat.pow 2 guess.toNat ≤ num * Nat.pow 2 (-guess).toNat
  max leastExponent ((if atLeast then guess else guess - 1) - 52)

/-- The nearest binary number to a positive quotient, none if it is 2 ^ 1024 or more. -/
def nearestQuotient (num den : Nat) : Option Binary :=
  let q := exponentFor num den
  let m := scaledQuotient num den q
  let b : Binary := if m = Nat.pow 2 53 then ⟨Nat.pow 2 52, q + 1⟩ else ⟨m, q⟩
  if (Nat.log2 b.m : Int) + b.q ≥ 1024 then none else some b

/-- The number of decimal digits of a natural number. -/
def digitCount (n : Nat) : Nat :=
  (Nat.toDigits 10 n).length

/-- The nearest binary number to `digits * 10 ^ exponent`, none if it is too large.
A number far outside the range is settled by its size alone. -/
def nearest (digits : Nat) (exponent : Int) : Option Binary :=
  let size := (digitCount digits : Int) + exponent
  if digits = 0 || size < -400 then some ⟨0, leastExponent⟩
  else if 400 < size then none
  else nearestQuotient (digits * Nat.pow 10 exponent.toNat) (Nat.pow 10 (-exponent).toNat)

end JavaEntities.Decimal
