/-!
# Cutting a text at a separator

`split sep s` is the list of the pieces of `s` between separators, at least one
of them; `join sep` puts pieces back together. `lines` cuts a text into lines,
which end at a line feed with or without a carriage return before it.

Mirrors `split` and `lines`. Texts are lists of characters here, and `split` is
over any type of them, so that it serves names in bytes too.
-/

namespace JavaEntities.Text

variable {α : Type} [DecidableEq α]

/-- Puts an element in front of the first piece. -/
def consFirst (c : α) : List (List α) → List (List α)
  | [] => [[c]]
  | p :: ps => (c :: p) :: ps

/-- The pieces between the separators, in order; a text without any separator is
its own only piece. -/
def split (sep : α) : List α → List (List α)
  | [] => [[]]
  | c :: s => if c = sep then [] :: split sep s else consFirst c (split sep s)

/-- The pieces with a separator between each two. -/
def join (sep : α) : List (List α) → List α
  | [] => []
  | [p] => p
  | p :: q :: ps => p ++ sep :: join sep (q :: ps)

theorem split_ne_nil (sep : α) (s : List α) : split sep s ≠ [] := by
  cases s with
  | nil => simp [split]
  | cons c s =>
    unfold split
    split
    · simp
    · cases split sep s <;> simp [consFirst]

/-- A line without the one carriage return that may stand before its line feed. -/
def dropReturn (line : List Char) : List Char :=
  if line.getLast? = some '\r' then line.dropLast else line

/-- The lines whose pieces between line feeds are given. Only the last piece has
no line feed after it: it is a line if it is not empty, with all of its characters. -/
def linesOfPieces : List (List Char) → List (List Char)
  | [] => []
  | [last] => if last = [] then [] else [last]
  | p :: q :: ps => dropReturn p :: linesOfPieces (q :: ps)

/-- The lines of a text. -/
def lines (s : List Char) : List (List Char) :=
  linesOfPieces (split '\n' s)

end JavaEntities.Text
