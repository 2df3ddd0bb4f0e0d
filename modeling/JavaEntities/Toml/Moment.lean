import JavaEntities.Toml.Character

/-!
# Dates and times of TOML

A date is `YYYY-MM-DD`, a time `hh:mm`, perhaps with seconds and a fraction of
them; a date may have a time after it, and then a distance from the meridian.
Only days that exist are accepted; a minute may have a sixty-first second.
-/

namespace JavaEntities.Toml

/-- The number that exactly `count` digits in front of a text stand for. -/
def fixedDigits (count : Nat) : Reader Nat := fun s =>
  if s.length < count then none
  else
    let ds := s.take count
    if ds.all isDecimal && !((s.drop count).head?.any isDecimal) then
      some (ds.foldl (fun n c => 10 * n + (c.toNat - 48)) 0, s.drop count)
    else none

/-- The text after a character that has to stand in front. -/
def mark (c : Char) : Reader Unit
  | c' :: s => if c' = c then some ((), s) else none
  | [] => none

/-- The number of days of a month. -/
def daysIn (year month : Nat) : Nat :=
  if month = 2 then
    if year % 4 = 0 && (year % 100 ≠ 0 || year % 400 = 0) then 29 else 28
  else if month = 4 || month = 6 || month = 9 || month = 11 then 30
  else 31

/-- Takes a date off the front of a text. -/
def skipDate (s : List Char) : Option (List Char) := do
  let (year, s) ← fixedDigits 4 s
  let (_, s) ← mark '-' s
  let (month, s) ← fixedDigits 2 s
  let (_, s) ← mark '-' s
  let (day, s) ← fixedDigits 2 s
  if 1 ≤ month && month ≤ 12 && 1 ≤ day && day ≤ daysIn year month then some s else none

/-- Takes the seconds of a time off the front of a text, if there are any. -/
def skipSeconds : List Char → Option (List Char)
  | ':' :: s => do
    let (second, s) ← fixedDigits 2 s
    if 60 < second then none
    else
      match s with
      | '.' :: f => if f.head?.any isDecimal then some (f.dropWhile isDecimal) else none
      | s => some s
  | s => some s

/-- Takes a time off the front of a text. -/
def skipTime (s : List Char) : Option (List Char) := do
  let (hour, s) ← fixedDigits 2 s
  let (_, s) ← mark ':' s
  let (minute, s) ← fixedDigits 2 s
  if 23 < hour || 59 < minute then none else skipSeconds s

/-- Whether a text is a distance from the meridian, or empty. -/
def isOffset : List Char → Bool
  | [] => true
  | [c] => c = 'Z' || c = 'z'
  | c :: s =>
    (c = '+' || c = '-') &&
      match (do
        let (hours, s) ← fixedDigits 2 s
        let (_, s) ← mark ':' s
        let (minutes, s) ← fixedDigits 2 s
        some (hours, minutes, s)) with
      | some (hours, minutes, []) => hours ≤ 23 && minutes ≤ 59
      | _ => false

/-- Whether a text is a date, a time, or both. -/
def isMoment (s : List Char) : Bool :=
  match skipDate s with
  | some [] => true
  | some (c :: time) =>
    (c = 'T' || c = 't' || c = ' ') &&
      match skipTime time with
      | some rest => isOffset rest
      | none => false
  | none => skipTime s = some []

/-- Whether a text has the shape of a date, so that a time may follow after a blank. -/
def hasDateShape (s : List Char) : Bool :=
  match s with
  | [a, b, c, d, '-', e, f, '-', g, h] => [a, b, c, d, e, f, g, h].all isDecimal
  | _ => false

end JavaEntities.Toml
