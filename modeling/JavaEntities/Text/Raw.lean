/-!
# Raw texts

The system names files by bytes, and the words of a command line are bytes as well.
Mostly these are the UTF-8 of a text, but nothing makes them so. A `RawText` is any
such sequence: every text is one (`ofString`), `toString?` gives the text back where
there is one, and `display` shows the others with a mark for what cannot be read.

Raw texts are in the order of their bytes.

It stands for the texts of the operating system, of which the program's paths are
made.
-/

namespace JavaEntities

/-- A sequence of bytes that mostly, but not always, is a text in UTF-8. -/
structure RawText where
  ofList ::
  toList : List UInt8
  deriving DecidableEq, Repr, Inhabited

/-- The byte between the segments of a path. -/
abbrev slash : UInt8 := 0x2F

/-- The byte between the parts of a name. -/
abbrev dot : UInt8 := 0x2E

namespace RawText

/-- The bytes of a text. -/
def ofString (s : String) : RawText :=
  ⟨s.toUTF8.data.toList⟩

instance : Coe String RawText := ⟨ofString⟩

/-- The number of bytes. -/
def size (t : RawText) : Nat :=
  t.toList.length

instance : Append RawText where
  append t u := ⟨t.toList ++ u.toList⟩

/-- Raw texts with another one between each two. -/
def intercalate (sep : RawText) (ts : List RawText) : RawText :=
  ⟨sep.toList.intercalate (ts.map toList)⟩

instance : Ord RawText where
  compare := compareOn toList

instance : Std.TransOrd RawText :=
  inferInstanceAs (Std.TransCmp (compareOn toList))

/-- The text with these bytes, if there is one. -/
def toString? (t : RawText) : Option String :=
  String.fromUTF8? ⟨t.toList.toArray⟩

/-- Whether the bytes are those of a text. -/
def IsText (t : RawText) : Prop :=
  t.toString?.isSome = true

instance (t : RawText) : Decidable t.IsText :=
  inferInstanceAs (Decidable (t.toString?.isSome = true))

/-! ## Bytes that are no text -/

/-- The ranges that the bytes after a first byte must be in for a character, none if
the first byte is all there is to it or begins no character. -/
def followers (first : UInt8) : List (UInt8 × UInt8) :=
  if first < 0xC2 then []
  else if first < 0xE0 then [(0x80, 0xBF)]
  else if first < 0xF0 then
    [(if first = 0xE0 then 0xA0 else 0x80, if first = 0xED then 0x9F else 0xBF), (0x80, 0xBF)]
  else if first < 0xF5 then
    [(if first = 0xF0 then 0x90 else 0x80, if first = 0xF4 then 0x8F else 0xBF), (0x80, 0xBF),
      (0x80, 0xBF)]
  else []

/-- How many bytes in a row are in the ranges for them. -/
def fitting : List (UInt8 × UInt8) → List UInt8 → Nat
  | r :: rs, b :: bs => if r.1 ≤ b ∧ b ≤ r.2 then fitting rs bs + 1 else 0
  | _, _ => 0

/-- The bytes cut into those of single characters and, where no character can be read,
into the longest beginnings of one. The number says how many bytes of the piece that
was begun last are still to be passed over. -/
def pieces : Nat → List UInt8 → List (List UInt8)
  | _, [] => []
  | 0, b :: bs =>
    let count := fitting (followers b) bs
    (b :: bs.take count) :: pieces count bs
  | k + 1, _ :: bs => pieces k bs

/-- The text that shows a piece: a mark stands for one that is no character. -/
def showPiece (bytes : List UInt8) : String :=
  ((ofList bytes).toString?).getD "\uFFFD"

/-- The text that shows the bytes: themselves if they are a text, and otherwise the
characters among them, with a mark for each piece that is none. -/
def display (t : RawText) : String :=
  match t.toString? with
  | some s => s
  | none => String.join ((pieces 0 t.toList).map showPiece)

/-! ## Bytes one by one -/

/-- Different texts have different bytes. -/
@[simp] theorem ofString_inj {s u : String} : ofString s = ofString u ↔ s = u := by
  refine ⟨fun h => ?_, congrArg ofString⟩
  have hbytes : s.toByteArray.data.toList = u.toByteArray.data.toList := congrArg toList h
  exact String.toByteArray_inj.mp (ByteArray.ext (Array.toList_inj.mp hbytes))

@[simp] theorem toList_ofList {bs : List UInt8} : (ofList bs).toList = bs := rfl

@[simp] theorem ofList_toList {t : RawText} : ofList t.toList = t := rfl

/-- Raw texts with the same bytes are the same. -/
theorem toList_inj {t u : RawText} : t.toList = u.toList ↔ t = u := by
  cases t
  cases u
  simp

instance : Std.LawfulEqOrd RawText where
  eq_of_compare h := toList_inj.mp (Std.LawfulEqCmp.eq_of_compare h)

@[simp] theorem toList_append {t u : RawText} : (t ++ u).toList = t.toList ++ u.toList := rfl

/-- Only the empty text has no bytes. -/
theorem toList_eq_nil_iff {t : RawText} : t.toList = [] ↔ t = "" :=
  toList_inj (u := ofString "")

theorem toList_intercalate {sep : RawText} {ts : List RawText} :
    (sep.intercalate ts).toList = sep.toList.intercalate (ts.map toList) := rfl

theorem empty_append {t : RawText} : ofString "" ++ t = t := rfl

theorem size_append {t u : RawText} : (t ++ u).size = t.size + u.size :=
  List.length_append

theorem size_eq_zero_iff {t : RawText} : t.size = 0 ↔ t = "" :=
  List.length_eq_zero_iff.trans toList_eq_nil_iff

end RawText

end JavaEntities
