import JavaEntities.Decimal.Nearest

/-!
# The shortest decimal

The shortest decimal of a binary number is the one with the fewest digits that
is rounded to this number, and of those the nearest. `shortest` looks for it on
decimal grids from coarse to fine: if a grid point lies in the interval of the
numbers that are rounded to `m * 2 ^ q`, one of the two neighbours of the number
on this grid does.

The interval reaches half way to the next number on either side. Below a power of
two the numbers are twice as dense, and the interval is shorter there. Its ends
belong to it when `m` is even.

Mirrors the printing of real numbers in the messages of `from_toml`.
-/

namespace JavaEntities.Decimal

/-- An interval of rounding around a number, with all three points scaled to
natural numbers: a decimal `c * 10 ^ k` stands at `c * 10 ^ k * unit`. -/
structure Surroundings where
  low : Nat
  middle : Nat
  high : Nat
  unit : Nat
  closed : Bool

/-- The interval of rounding of a binary number. -/
def Binary.surroundings (b : Binary) : Surroundings :=
  let scale := Nat.pow 2 (b.q - 2).toNat
  let gapBelow := if b.m = Nat.pow 2 52 && leastExponent < b.q then 1 else 2
  { low := (4 * b.m - gapBelow) * scale
    middle := 4 * b.m * scale
    high := (4 * b.m + 2) * scale
    unit := Nat.pow 2 (2 - b.q).toNat
    closed := b.m % 2 = 0 }

namespace Surroundings

/-- The points of a decimal grid: how far apart they are in the scale of the
interval, and by what the interval has to grow for that. -/
def grid (s : Surroundings) (k : Int) : Nat × Nat :=
  (s.unit * Nat.pow 10 k.toNat, Nat.pow 10 (-k).toNat)

/-- Whether the point `c` of a grid lies in the interval. -/
def holds (s : Surroundings) (k : Int) (c : Nat) : Bool :=
  let (step, growth) := s.grid k
  let point := c * step
  if s.closed then s.low * growth ≤ point && point ≤ s.high * growth
  else s.low * growth < point && point < s.high * growth

/-- The point of a grid that lies in the interval and is nearest to its number. -/
def pointOn (s : Surroundings) (k : Int) : Option Nat :=
  let (step, growth) := s.grid k
  let below := s.middle * growth / step
  let nearer := if 2 * (s.middle * growth % step) ≤ step then below else below + 1
  let farther := if nearer = below then below + 1 else below
  if s.holds k nearer then some nearer
  else if s.holds k farther then some farther
  else none

/-- The first hit on grids from `10 ^ k` to finer ones. -/
def search (s : Surroundings) : Nat → Int → Nat × Int
  | 0, k => (0, k)
  | steps + 1, k =>
    match s.pointOn k with
    | some c => (c, k)
    | none => s.search steps (k - 1)

end Surroundings

/-- The shortest decimal `c * 10 ^ k` of a positive binary number. -/
def shortest (b : Binary) : Nat × Int :=
  b.surroundings.search 700 310

/-- A decimal written out in full, with a point and at least one digit after it. -/
def positional (digits : Nat) (exponent : Int) : String :=
  let ds := Nat.toDigits 10 digits
  let places := (-exponent).toNat
  if 0 ≤ exponent then
    String.ofList ds ++ String.ofList (List.replicate exponent.toNat '0') ++ ".0"
  else if places < ds.length then
    String.ofList (ds.take (ds.length - places)) ++ "." ++
      String.ofList (ds.drop (ds.length - places))
  else "0." ++ String.ofList (List.replicate (places - ds.length) '0') ++ String.ofList ds

/-- The text of a binary number: its shortest decimal in full, never with an exponent. -/
def Binary.text (b : Binary) : String :=
  if b.m = 0 then "0.0" else
    let (c, k) := shortest b
    positional c k

end JavaEntities.Decimal
