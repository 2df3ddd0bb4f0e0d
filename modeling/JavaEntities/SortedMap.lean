/-!
# Sorted maps

A map kept as the list of its entries in increasing order of their keys. Keys
that compare as equal are one key even when they are spelled differently: writing
under such a key changes the value and keeps the spelling that came first.

The order is a part of the map: no map is made of entries that are out of order, and
an insertion keeps it (`increasing_insertEntry`).

It stands for the ordered maps in which the program keeps schemas and files. Those
are trees; the list of entries is what can be seen of one.
-/

namespace JavaEntities

/-- Whether the keys of entries increase. -/
def SortedMap.Increasing {κ υ : Type} [Ord κ] (entries : List (κ × υ)) : Prop :=
  entries.Pairwise fun e e' => compare e.1 e'.1 = .lt

/-- A map as its entries, in increasing order of keys. -/
structure SortedMap (κ υ : Type) [Ord κ] where
  entries : List (κ × υ)
  increasing : SortedMap.Increasing entries

namespace SortedMap

variable {κ υ : Type} [Ord κ]

/-- The map without entries. -/
def empty : SortedMap κ υ := ⟨[], List.Pairwise.nil⟩

/-! ## Entries -/

/-- The entries with a value under a key. -/
def insertEntry (k : κ) (v : υ) : List (κ × υ) → List (κ × υ)
  | [] => [(k, v)]
  | (k', v') :: rest =>
    match compare k k' with
    | .lt => (k, v) :: (k', v') :: rest
    | .eq => (k', v) :: rest
    | .gt => (k', v') :: insertEntry k v rest

/-- The value that a new one under a key takes the place of, and the entries with the new one. -/
def replaceEntry (k : κ) (v : υ) : List (κ × υ) → Option υ × List (κ × υ)
  | [] => (none, [(k, v)])
  | (k', v') :: rest =>
    match compare k k' with
    | .lt => (none, (k, v) :: (k', v') :: rest)
    | .eq => (some v', (k', v) :: rest)
    | .gt =>
      let (old, rest) := replaceEntry k v rest
      (old, (k', v') :: rest)

/-- The value of the entry under a key. -/
def findEntry (k : κ) (entries : List (κ × υ)) : Option υ :=
  (entries.find? fun e => compare k e.1 == .eq).map Prod.snd

/-- An insertion puts its own entry among those with other keys. -/
theorem mem_insertEntry {k : κ} {v : υ} {e : κ × υ} {entries : List (κ × υ)}
    (h : e ∈ insertEntry k v entries) :
    (compare k e.1 = .eq ∨ e.1 = k) ∧ e.2 = v ∨ e ∈ entries := by
  induction entries with
  | nil =>
    rw [insertEntry, List.mem_singleton] at h
    rw [h]
    exact .inl ⟨.inr rfl, rfl⟩
  | cons old rest ih =>
    obtain ⟨k', v'⟩ := old
    unfold insertEntry at h
    split at h
    · rcases List.mem_cons.mp h with rfl | h
      · exact .inl ⟨.inr rfl, rfl⟩
      · exact .inr h
    · next heq =>
      rcases List.mem_cons.mp h with rfl | h
      · exact .inl ⟨.inl heq, rfl⟩
      · exact .inr (List.mem_cons_of_mem _ h)
    · rcases List.mem_cons.mp h with rfl | h
      · exact .inr (List.mem_cons_self ..)
      · rcases ih h with hnew | hold
        · exact .inl hnew
        · exact .inr (List.mem_cons_of_mem _ hold)

/-- To replace a value is to insert the new one. -/
theorem replaceEntry_snd (k : κ) (v : υ) (entries : List (κ × υ)) :
    (replaceEntry k v entries).2 = insertEntry k v entries := by
  induction entries with
  | nil => rfl
  | cons old rest ih =>
    unfold replaceEntry insertEntry
    split
    · rfl
    · rfl
    · exact congrArg _ ih

variable [Std.TransOrd κ]

/-- An insertion keeps the keys increasing. -/
theorem increasing_insertEntry (k : κ) (v : υ) {entries : List (κ × υ)}
    (h : Increasing entries) : Increasing (insertEntry k v entries) := by
  induction entries with
  | nil => exact List.pairwise_singleton ..
  | cons old rest ih =>
    obtain ⟨k', v'⟩ := old
    obtain ⟨hold, hrest⟩ := List.pairwise_cons.mp h
    unfold insertEntry
    split
    · next hlt =>
      refine List.pairwise_cons.mpr ⟨?_, h⟩
      intro e he
      rcases List.mem_cons.mp he with rfl | he
      · exact hlt
      · exact Std.TransCmp.lt_trans hlt (hold e he)
    · exact List.pairwise_cons.mpr ⟨hold, hrest⟩
    · next hgt =>
      -- The key goes behind this entry, which is then before it and all that were behind it.
      refine List.pairwise_cons.mpr ⟨?_, ih hrest⟩
      intro e he
      have hlt : compare k' k = .lt := Std.OrientedCmp.lt_of_gt hgt
      rcases mem_insertEntry he with ⟨heq | rfl, -⟩ | he
      · exact Std.TransCmp.lt_of_lt_of_eq hlt heq
      · exact hlt
      · exact hold e he

/-! ## Maps -/

/-- The map with a value under a key, in place of the value that was there. -/
def insert (m : SortedMap κ υ) (k : κ) (v : υ) : SortedMap κ υ :=
  ⟨insertEntry k v m.entries, increasing_insertEntry k v m.increasing⟩

/-- The value that a new one under a key takes the place of, and the map with the new one. -/
def replace (m : SortedMap κ υ) (k : κ) (v : υ) : Option υ × SortedMap κ υ :=
  let replaced := replaceEntry k v m.entries
  (replaced.1, ⟨replaced.2, by
    rw [replaceEntry_snd]
    exact increasing_insertEntry k v m.increasing⟩)

omit [Std.TransOrd κ]

/-- The value under a key. -/
def get? (m : SortedMap κ υ) (k : κ) : Option υ :=
  findEntry k m.entries

/-- The keys in increasing order. -/
def keys (m : SortedMap κ υ) : List κ :=
  m.entries.map Prod.fst

/-- The values in the order of their keys. -/
def values (m : SortedMap κ υ) : List υ :=
  m.entries.map Prod.snd

/-- The number of keys. -/
def size (m : SortedMap κ υ) : Nat :=
  m.entries.length

/-- Two maps with the same entries are the same. -/
theorem ext_entries {m m' : SortedMap κ υ} (h : m.entries = m'.entries) : m = m' := by
  cases m
  cases m'
  congr

end SortedMap

end JavaEntities
