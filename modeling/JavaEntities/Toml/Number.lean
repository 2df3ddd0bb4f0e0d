import JavaEntities.Toml.Character
import JavaEntities.Toml.Value

/-!
# Numbers of TOML

Digits may be grouped by single underscores between them. Decimal numbers have an
optional sign and no zero in front; the other bases have a mark and no sign. A
number with a fraction or an exponent is real.
-/

namespace JavaEntities.Toml

/-- The digits of a text in a base, without the underscores between them. -/
def groupedDigits (base : Nat) : List Char → Option (List Nat)
  | [] => none
  | [c] => (digitValue c).bind fun d => if d < base then some [d] else none
  | c :: '_' :: rest =>
    (digitValue c).bind fun d => if d < base then (groupedDigits base rest).map (d :: ·) else none
  | c :: rest =>
    (digitValue c).bind fun d => if d < base then (groupedDigits base rest).map (d :: ·) else none

/-- The number with these digits. -/
def ofDigits (base : Nat) (digits : List Nat) : Nat :=
  digits.foldl (fun n d => base * n + d) 0

/-- Whether a number is negative, and the text after its sign. -/
def sign : List Char → Bool × List Char
  | '-' :: s => (true, s)
  | '+' :: s => (false, s)
  | s => (false, s)

/-- The digits in front of a point or exponent: without a zero in front unless it
is the only one. -/
def wholeDigits (s : List Char) : Option (List Nat) :=
  match groupedDigits 10 s with
  | some (0 :: _ :: _) => none
  | ds => ds

/-- The integer that a text stands for. -/
def integer? : List Char → Option Int
  | '0' :: 'x' :: s => (groupedDigits 16 s).map fun ds => (ofDigits 16 ds : Int)
  | '0' :: 'o' :: s => (groupedDigits 8 s).map fun ds => (ofDigits 8 ds : Int)
  | '0' :: 'b' :: s => (groupedDigits 2 s).map fun ds => (ofDigits 2 ds : Int)
  | s =>
    let (negative, s) := sign s
    (wholeDigits s).map fun ds =>
      if negative then -(ofDigits 10 ds : Int) else (ofDigits 10 ds : Int)

/-- The exponent that a text stands for; zeros in front do not matter. -/
def exponent? (s : List Char) : Option Int :=
  let (negative, s) := sign s
  (groupedDigits 10 s).map fun ds =>
    if negative then -(ofDigits 10 ds : Int) else (ofDigits 10 ds : Int)

/-- The number with a whole part, perhaps a fraction and perhaps an exponent. -/
def decimal? (negative : Bool) (s : List Char) : Option Real := do
  let isMark (c : Char) : Bool := c = 'e' || c = 'E'
  let mantissa := s.takeWhile fun c => !isMark c
  let whole := mantissa.takeWhile (· ≠ '.')
  let wholePart ← wholeDigits whole
  let fraction ← match mantissa.drop whole.length with
    | [] => some []
    | _ :: f => groupedDigits 10 f
  let exponent ← match s.drop mantissa.length with
    | [] => some 0
    | _ :: e => exponent? e
  return .decimal negative (ofDigits 10 (wholePart ++ fraction)) (exponent - fraction.length)

/-- The real number that a text stands for. -/
def real? (s : List Char) : Option Real :=
  let (negative, s) := sign s
  if s = ['i', 'n', 'f'] then some (.infinity negative)
  else if s = ['n', 'a', 'n'] then some .notANumber
  else decimal? negative s

end JavaEntities.Toml
