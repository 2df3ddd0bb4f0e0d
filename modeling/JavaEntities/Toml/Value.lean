import JavaEntities.Decimal.Shortest

/-!
# TOML values

What a TOML document holds. A number with a fraction keeps the decimal that was
written; it is rounded only when its value is asked for. The entries of a table
have distinct keys, and their order is that of the document.

Mirrors the values that `from_toml` decodes. The program does not keep the whole
document as a value; what a setting can be is the same.
-/

namespace JavaEntities.Toml

/-- A number that is no integer, as it was written. -/
inductive Real
  /-- `digits * 10 ^ exponent`, below zero if `negative`. -/
  | decimal (negative : Bool) (digits : Nat) (exponent : Int)
  | infinity (negative : Bool)
  | notANumber
  deriving DecidableEq, Repr, Inhabited

/-- A value of a document. -/
inductive Value
  | string (s : String)
  | integer (n : Int)
  | real (x : Real)
  | boolean (b : Bool)
  /-- A date, a time or both, as it was written. -/
  | moment (text : String)
  | array (items : List Value)
  | table (entries : List (String × Value))
  deriving Repr, Inhabited

/-- The text of a number, none if it is too large for any binary number. -/
def Real.text : Real → Option String
  | decimal negative digits exponent =>
    (Decimal.nearest digits exponent).map fun b => (if negative then "-" else "") ++ b.text
  | infinity negative => some (if negative then "-inf" else "inf")
  | notANumber => some "NaN"

/-- The name of the kind of a value. -/
def Value.kind : Value → String
  | string _ => "string"
  | integer _ => "integer"
  | real _ => "float"
  | boolean _ => "boolean"
  | moment _ => "datetime"
  | array _ => "array"
  | table _ => "table"

end JavaEntities.Toml
