import Mathlib.Data.List.Basic

/-!
# First and last elements

The first and the last element of a list with a property, told by what stands before or after it.
In an increasing list the first is the least (`exists_first_iff`, `isFirst_iff_of_pairwise`) and the
last the greatest (`exists_last_iff`).
-/

namespace JavaEntities

/-- Whether an element is the first of a list with a property. -/
def IsFirst {α : Type} (P : α → Prop) (l : List α) (a : α) : Prop :=
  ∃ before after, l = before ++ a :: after ∧ P a ∧ ∀ b ∈ before, ¬ P b

/-- Whether an element is the last of a list with a property. -/
def IsLast {α : Type} (P : α → Prop) (l : List α) (a : α) : Prop :=
  ∃ before after, l = before ++ a :: after ∧ P a ∧ ∀ b ∈ after, ¬ P b

/-- To search from the end finds the last. -/
theorem find?_reverse_eq_some_iff {α : Type} {p : α → Bool} {l : List α} {a : α} :
    l.reverse.find? p = some a ↔ IsLast (fun b => p b = true) l a := by
  simp only [List.find?_eq_some_iff_append, Bool.not_eq_true', ← Bool.not_eq_true]
  constructor
  · rintro ⟨ha, front, back, hsplit, hfront⟩
    refine ⟨back.reverse, front.reverse, ?_, ha, fun b hb => hfront b (List.mem_reverse.mp hb)⟩
    rw [List.reverse_eq_iff.mp hsplit]
    simp
  · rintro ⟨before, after, rfl, ha, hafter⟩
    exact ⟨ha, after.reverse, before.reverse, by simp,
      fun b hb => hafter b (List.mem_reverse.mp hb)⟩

/-- The first is in front, or the front is not one of them. -/
theorem isFirst_cons {α : Type} {P : α → Prop} {b : α} {l : List α} {a : α} :
    IsFirst P (b :: l) a ↔ (a = b ∧ P a) ∨ (¬ P b ∧ IsFirst P l a) := by
  constructor
  · rintro ⟨before, after, hsplit, ha, hbefore⟩
    cases before with
    | nil =>
      obtain ⟨rfl, -⟩ := List.cons.inj hsplit
      exact .inl ⟨rfl, ha⟩
    | cons c before =>
      obtain ⟨rfl, rfl⟩ := List.cons.inj hsplit
      obtain ⟨hb, hbefore⟩ := List.forall_mem_cons.mp hbefore
      exact .inr ⟨hb, before, after, rfl, ha, hbefore⟩
  · rintro (⟨rfl, ha⟩ | ⟨hb, before, after, rfl, ha, hbefore⟩)
    · exact ⟨[], l, rfl, ha, fun c hc => absurd hc List.not_mem_nil⟩
    · exact ⟨b :: before, after, rfl, ha, List.forall_mem_cons.mpr ⟨hb, hbefore⟩⟩

/-! ## Increasing lists -/

section Increasing

variable {α β : Type} {r : α → α → Prop} {f : α → β} {l : List α} {P Q : β → Prop}

/-- Nothing after an element has a property if and only if nothing greater has it. -/
theorem exists_last_iff (h : l.Pairwise r) (hasymm : ∀ a b, r a b → ¬ r b a) :
    (∃ before b after, l.map f = before ++ b :: after ∧ P b ∧ ∀ c ∈ after, ¬ Q c) ↔
      ∃ a ∈ l, P (f a) ∧ ∀ b ∈ l, Q (f b) → ¬ r a b := by
  constructor
  · rintro ⟨before, b, after, hsplit, hP, hQ⟩
    obtain ⟨front, rest, rfl, rfl, hrest⟩ := List.map_eq_append_iff.mp hsplit
    obtain ⟨a, back, rfl, rfl, rfl⟩ := List.map_eq_cons_iff.mp hrest
    refine ⟨a, by simp, hP, ?_⟩
    intro b hb hQb hab
    rcases List.mem_append.mp hb with hb | hb
    · exact hasymm a b hab ((List.pairwise_append.mp h).2.2 b hb a (List.mem_cons_self ..))
    · rcases List.mem_cons.mp hb with rfl | hb
      · exact hasymm b b hab hab
      · exact hQ (f b) (List.mem_map_of_mem hb) hQb
  · rintro ⟨a, ha, hP, hQ⟩
    obtain ⟨front, back, rfl⟩ := List.append_of_mem ha
    refine ⟨front.map f, f a, back.map f, by simp, hP, ?_⟩
    intro c hc hQc
    obtain ⟨b, hb, rfl⟩ := List.mem_map.mp hc
    have hab := (List.pairwise_cons.mp (List.pairwise_append.mp h).2.1).1 b hb
    exact hQ b (by simp [hb]) hQc hab

/-- Nothing before an element has a property if and only if nothing smaller has it. -/
theorem exists_first_iff (h : l.Pairwise r) (hasymm : ∀ a b, r a b → ¬ r b a) :
    (∃ before b after, l.map f = before ++ b :: after ∧ P b ∧ ∀ c ∈ before, ¬ Q c) ↔
      ∃ a ∈ l, P (f a) ∧ ∀ b ∈ l, Q (f b) → ¬ r b a := by
  have hlast := exists_last_iff (f := f) (P := P) (Q := Q) (List.pairwise_reverse.mpr h)
    fun a b => hasymm b a
  simp only [List.mem_reverse] at hlast
  rw [← hlast]
  constructor
  · rintro ⟨before, b, after, hsplit, hP, hQ⟩
    refine ⟨after.reverse, b, before.reverse, ?_, hP, fun c hc => hQ c (List.mem_reverse.mp hc)⟩
    rw [List.map_reverse, hsplit]
    simp
  · rintro ⟨before, b, after, hsplit, hP, hQ⟩
    refine ⟨after.reverse, b, before.reverse, ?_, hP, fun c hc => hQ c (List.mem_reverse.mp hc)⟩
    rw [List.map_reverse, List.reverse_eq_iff] at hsplit
    rw [hsplit]
    simp

/-- In an increasing list the first element with a property is the least. -/
theorem isFirst_iff_of_pairwise {P : α → Prop} {a : α} (h : l.Pairwise r)
    (hasymm : ∀ a b, r a b → ¬ r b a) :
    IsFirst P l a ↔ a ∈ l ∧ P a ∧ ∀ b ∈ l, P b → ¬ r b a := by
  have hfirst := exists_first_iff (f := id) (P := fun b => b = a ∧ P b) (Q := P) h hasymm
  simp only [List.map_id, id] at hfirst
  constructor
  · rintro ⟨before, after, hsplit, ha, hbefore⟩
    obtain ⟨_, hmem, ⟨rfl, ha⟩, hleast⟩ :=
      hfirst.mp ⟨before, a, after, hsplit, ⟨rfl, ha⟩, hbefore⟩
    exact ⟨hmem, ha, hleast⟩
  · rintro ⟨hmem, ha, hleast⟩
    obtain ⟨before, _, after, hsplit, ⟨rfl, ha⟩, hbefore⟩ :=
      hfirst.mpr ⟨a, hmem, ⟨rfl, ha⟩, hleast⟩
    exact ⟨before, after, hsplit, ha, hbefore⟩

end Increasing

end JavaEntities
