import JavaEntities.Proofs.Text.Bytes
import JavaEntities.Text.Raw

/-!
# Texts among raw texts

A text is a raw text by its bytes, and these give it back (`toString?_eq_some_iff`), so
different texts are different raw texts. Texts are put together byte by byte
(`ofString_append`), and since a slash and a dot are one byte each, which is no part of
any other character, a text can be searched for them in either form
(`slash_mem_ofString`, `dot_mem_ofString`).
-/

namespace JavaEntities.RawText

open Text

/-- The bytes of a text are read as that text. -/
@[simp] theorem toString?_ofString (s : String) : (ofString s).toString? = some s := by
  unfold toString? ofString String.fromUTF8?
  exact dif_pos s.isValidUTF8

/-- Only its own bytes are read as a text. -/
theorem toString?_eq_some_iff {t : RawText} {s : String} :
    t.toString? = some s ↔ t = ofString s := by
  constructor
  · intro h
    exact toList_inj.mp (bytes_of_fromUTF8? h).symm
  · rintro rfl
    exact toString?_ofString s

/-- A raw text is a text if and only if it is the bytes of one. -/
theorem isText_iff {t : RawText} : t.IsText ↔ ∃ s, t = ofString s := by
  simp only [IsText, Option.isSome_iff_exists, toString?_eq_some_iff]

/-- Texts are put together byte by byte. -/
theorem ofString_append (s u : String) : ofString (s ++ u) = ofString s ++ ofString u := by
  rw [← toList_inj, toList_append]
  show (s ++ u).toByteArray.data.toList = s.toByteArray.data.toList ++ u.toByteArray.data.toList
  simp

theorem isText_ofString (s : String) : (ofString s).IsText :=
  isText_iff.mpr ⟨s, rfl⟩

theorem IsText.append {t u : RawText} (ht : t.IsText) (hu : u.IsText) : (t ++ u).IsText := by
  obtain ⟨s, rfl⟩ := isText_iff.mp ht
  obtain ⟨s', rfl⟩ := isText_iff.mp hu
  exact isText_iff.mpr ⟨s ++ s', (ofString_append s s').symm⟩

/-- A text has the byte of a slash if and only if it has a slash. -/
theorem slash_mem_ofString {s : String} : slash ∈ (ofString s).toList ↔ '/' ∈ s.toList :=
  mem_bytes_iff (c := '/') (by decide)

/-- A text has the byte of a dot if and only if it has a dot. -/
theorem dot_mem_ofString {s : String} : dot ∈ (ofString s).toList ↔ '.' ∈ s.toList :=
  mem_bytes_iff (c := '.') (by decide)

/-! ## Order -/

/-- Raw texts are compared as the lists of their bytes. -/
theorem compare_eq_lt_iff {t u : RawText} : compare t u = .lt ↔ t.toList < u.toList := by
  suffices hbytes : ∀ xs ys : List UInt8, compare xs ys = .lt ↔ xs < ys from hbytes _ _
  intro xs
  induction xs with
  | nil =>
    intro ys
    cases ys with
    | nil => simp
    | cons y ys => simp [List.nil_lt_cons]
  | cons x xs ih =>
    intro ys
    cases ys with
    | nil => simp
    | cons y ys =>
      rw [List.compare_cons_cons, Ordering.then_eq_lt, List.cons_lt_cons_iff, ih,
        Std.LawfulLTCmp.eq_lt_iff_lt, Std.LawfulEqCmp.compare_eq_iff_eq]

/-! ## Showing -/

/-- A text is shown as it is. -/
theorem display_ofString (s : String) : (ofString s).display = s := by
  unfold display
  rw [toString?_ofString]

end JavaEntities.RawText
