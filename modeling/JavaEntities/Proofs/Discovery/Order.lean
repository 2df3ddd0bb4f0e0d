import JavaEntities.Discovery
import JavaEntities.Proofs.FileSystem.Listing
import JavaEntities.Proofs.Path.Order
import JavaEntities.Proofs.Text.Raw

/-!
# The order of inputs

Inputs are sorted by their paths, and these are entries of one directory: so they are in
the order of their names, which is the order of the bytes (`inputsAmong_eq`,
`increasing_inputNames`). The names that are sorted are those of the entries, whatever the
order of listing (`inputNames_eq_of_perm`).
-/

namespace JavaEntities

open Text

/-- Whether a name is that of an input, among the names that a directory lists. -/
structure IsInput (fs : FileSystem) (dir : Path) (extension : String) (names : List RawText)
    (n : RawText) : Prop where
  listed : n ∈ names
  isFile : fs.isFile (dir.join n) = true
  isInputName : isInputName extension n = true

/-- The names of the inputs, in their order. -/
def inputNames (fs : FileSystem) (dir : Path) (extension : String) (names : List RawText) :
    List RawText :=
  (names.filter fun n => fs.isFile (dir.join n) && isInputName extension n).mergeSort
    fun n m => (compare n m).isLE

variable {fs : FileSystem} {dir : Path} {extension : String} {names names' : List RawText}

/-- What is among the names of inputs, however they are put in order. -/
theorem mem_inputNames {n : RawText} :
    n ∈ inputNames fs dir extension names ↔ IsInput fs dir extension names n := by
  unfold inputNames
  rw [List.mem_mergeSort, List.mem_filter, Bool.and_eq_true]
  exact ⟨fun h => ⟨h.1, h.2.1, h.2.2⟩, fun h => ⟨h.listed, h.isFile, h.isInputName⟩⟩

/-- A name that can stand in a path is that of an input if its form is right and its path leads to
a file. -/
theorem isInput_iff {n : RawText} (hlist : fs.list dir = .ok names) (hn : IsFileName n) :
    IsInput fs dir extension names n ↔
      isInputName extension n = true ∧ ∃ bytes, fs.bytes? (dir.join n) = some bytes := by
  rw [← FileSystem.isFile_iff]
  refine ⟨fun h => ⟨h.isInputName, h.isFile⟩, fun h => ⟨?_, h.2, h.1⟩⟩
  obtain ⟨a, entries, hdir, rfl⟩ := FileSystem.list_eq_ok hlist
  exact FileSystem.mem_names_of_exists hdir hn (FileSystem.exists?_of_isFile h.2)

/-- Whether a name is that of an input depends on the file under it alone. -/
theorem isInput_congr {fs' : FileSystem} {n : RawText} (hlist : fs.list dir = .ok names)
    (hnames : ∀ n ∈ names, IsFileName n) (hlist' : fs'.list dir = .ok names')
    (hnames' : ∀ n ∈ names', IsFileName n)
    (h : IsFileName n → isInputName extension n = true →
      fs'.bytes? (dir.join n) = fs.bytes? (dir.join n)) :
    IsInput fs' dir extension names' n ↔ IsInput fs dir extension names n := by
  by_cases hn : IsFileName n
  · rw [isInput_iff hlist hn, isInput_iff hlist' hn]
    exact and_congr_right fun hform => by rw [h hn hform]
  · constructor
    · exact fun hinput => absurd (hnames' n hinput.listed) hn
    · exact fun hinput => absurd (hnames n hinput.listed) hn

/-- The inputs of a directory are in the order of their names. -/
theorem inputsAmong_eq (hnames : ∀ n ∈ names, IsFileName n) :
    inputsAmong fs dir extension names = (inputNames fs dir extension names).map dir.join := by
  unfold inputsAmong inputNames
  refine (List.map_mergeSort ?_).symm
  intro n hn m hm
  have hn' := hnames n (List.mem_filter.mp hn).1
  have hm' := hnames m (List.mem_filter.mp hm).1
  unfold Path.le
  rw [Path.compare_join dir hn' hm']

/-- The order of the bytes, by which names are sorted. -/
theorem pairwise_sort (l : List RawText) :
    (l.mergeSort fun n m => (compare n m).isLE).Pairwise fun n m => (compare n m).isLE = true := by
  refine List.pairwise_mergeSort ?_ ?_ l
  · intro a b c hab hbc
    exact Std.TransCmp.isLE_trans hab hbc
  · intro a b
    have hswap : compare b a = (compare a b).swap := Std.OrientedCmp.eq_swap
    rw [hswap]
    cases compare a b <;> rfl

/-- Two names of which neither comes after the other are the same. -/
theorem eq_of_isLE {n m : RawText} (hnm : (compare n m).isLE = true)
    (hmn : (compare m n).isLE = true) : n = m :=
  Std.LawfulEqCmp.eq_of_compare (Std.OrientedCmp.isLE_antisymm hnm hmn)

/-- Sorting undoes any change of the order. -/
theorem inputNames_eq_of_perm {fs' : FileSystem} (h : fs.Relisted fs')
    (hnames : names.Perm names') :
    inputNames fs' dir extension names' = inputNames fs dir extension names := by
  unfold inputNames
  have hfile : ∀ n, fs'.isFile (dir.join n) = fs.isFile (dir.join n) := fun n => h.isFile_eq _
  simp only [hfile]
  refine List.Perm.eq_of_pairwise ?_ (pairwise_sort _) (pairwise_sort _) ?_
  · intro n m _ _ hnm hmn
    exact eq_of_isLE hnm hmn
  · exact (List.mergeSort_perm ..).trans
      ((hnames.symm.filter _).trans (List.mergeSort_perm ..).symm)

/-- Where the same names with a property are those of inputs, these come in the same order. -/
theorem filter_inputNames_eq {fs' : FileSystem} {P : RawText → Bool} (hnodup : names.Nodup)
    (hnodup' : names'.Nodup)
    (h : ∀ n, P n = true →
      (IsInput fs' dir extension names' n ↔ IsInput fs dir extension names n)) :
    (inputNames fs' dir extension names').filter P
      = (inputNames fs dir extension names).filter P := by
  have hdistinct : ∀ {fs names}, List.Nodup names →
      ((inputNames fs dir extension names).filter P).Nodup := fun h =>
    ((List.mergeSort_perm ..).nodup_iff.mpr (h.filter _)).filter _
  have hperm : ((inputNames fs' dir extension names').filter P).Perm
      ((inputNames fs dir extension names).filter P) := by
    rw [List.perm_ext_iff_of_nodup (hdistinct hnodup') (hdistinct hnodup)]
    intro n
    rw [List.mem_filter, List.mem_filter, mem_inputNames, mem_inputNames]
    exact and_congr_left (h n)
  refine hperm.eq_of_pairwise ?_ ((pairwise_sort _).filter _) ((pairwise_sort _).filter _)
  intro n m _ _ hnm hmn
  exact eq_of_isLE hnm hmn

/-- Names that differ are in the order of their bytes. -/
theorem increasing_inputNames (fs : FileSystem) (dir : Path) (extension : String)
    (h : names.Nodup) :
    (inputNames fs dir extension names).Pairwise fun n m => n.toList < m.toList := by
  have hnodup : (inputNames fs dir extension names).Nodup :=
    (List.mergeSort_perm ..).nodup_iff.mpr (h.filter _)
  refine ((pairwise_sort _).and hnodup).imp ?_
  rintro n m ⟨hle, hne⟩
  rw [← RawText.compare_eq_lt_iff]
  cases hcompare : compare n m with
  | lt => rfl
  | eq => exact absurd (Std.LawfulEqCmp.eq_of_compare hcompare) hne
  | gt =>
    rw [hcompare] at hle
    exact nomatch hle

end JavaEntities
