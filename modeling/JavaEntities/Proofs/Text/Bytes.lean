import Mathlib.Data.String.Basic

/-!
# The bytes of a text

In UTF-8 a code point is a leading byte and up to three others of six bits each. The
leading byte grows with the number of bytes, and among as many bytes the digits are in
their order. So of two characters the smaller has the bytes that come first
(`encodeChar_append_lt`), and texts are in the order of their bytes (`bytes_lt_iff`).
-/

namespace JavaEntities.Text

/-- The bytes of a text in UTF-8. -/
def bytes (s : String) : List UInt8 := s.toUTF8.data.toList

/-- The bytes of a text are those of its characters. -/
theorem bytes_eq_flatMap (s : String) : bytes s = s.toList.flatMap String.utf8EncodeChar := by
  have hbytes : s.toUTF8 = (s.toList.flatMap String.utf8EncodeChar).toByteArray := by
    show s.toByteArray = s.toList.utf8Encode
    rw [← String.toByteArray_ofList, String.ofList_toList]
  rw [bytes, hbytes, List.toList_data_toByteArray]

/-! ## One code point -/

/-- The bytes of a number: its lowest `count` digits of six bits each, and before them
the rest of it, moved up by `mark`. -/
def spread (mark : Nat) : Nat → Nat → List UInt8
  | 0, n => [UInt8.ofNat (n + mark)]
  | count + 1, n => spread mark count (n / 64) ++ [UInt8.ofNat (n % 64 + 128)]

/-- How the bytes of a code point are marked, and how many follow the first. -/
def form (n : Nat) : Nat × Nat :=
  if n ≤ 127 then (0, 0) else if n ≤ 2047 then (192, 1) else if n ≤ 65535 then (224, 2)
  else (240, 3)

theorem codePoint_lt (c : Char) : c.val.toNat < 0x110000 := by
  rcases c.valid with h | h
  · exact Nat.lt_trans h (by decide)
  · exact h.2

theorem utf8EncodeChar_eq_spread (c : Char) :
    String.utf8EncodeChar c = spread (form c.val.toNat).1 (form c.val.toNat).2 c.val.toNat := by
  have hlt := codePoint_lt c
  unfold String.utf8EncodeChar form
  generalize c.val.toNat = n at hlt
  dsimp only
  split
  · rfl
  · split
    · have hlead : n / 64 % 32 = n / 64 := by omega
      simp [spread, hlead]
    · split
      · have hlead : n / 4096 % 16 = n / 64 / 64 := by omega
        simp [spread, hlead]
      · have hlead : n / 262144 % 8 = n / 64 / 64 / 64 := by omega
        have hnext : n / 4096 % 64 = n / 64 / 64 % 64 := by omega
        simp [spread, hlead, hnext]

theorem ofNat_cons_lt_iff {a b : Nat} (ha : a < 256) (hb : b < 256) {xs ys : List UInt8} :
    UInt8.ofNat a :: xs < UInt8.ofNat b :: ys ↔ a < b ∨ a = b ∧ xs < ys := by
  rw [List.cons_lt_cons_iff, UInt8.lt_iff_toNat_lt, ← UInt8.toNat_inj,
    UInt8.toNat_ofNat_of_lt' ha, UInt8.toNat_ofNat_of_lt' hb]

theorem spread_eq_cons (mark count n : Nat) :
    ∃ rest, spread mark count n = UInt8.ofNat (n / 64 ^ count + mark) :: rest := by
  induction count generalizing n with
  | zero => exact ⟨[], by simp [spread]⟩
  | succ count ih =>
    obtain ⟨rest, hrest⟩ := ih (n / 64)
    refine ⟨rest ++ [UInt8.ofNat (n % 64 + 128)], ?_⟩
    rw [spread, hrest, Nat.div_div_eq_div_mul, ← Nat.pow_succ']
    rfl

/-- Digits are in the order of their numbers. -/
theorem spread_append_lt {mark count n m : Nat} (h : n < m) (hm : m / 64 ^ count + mark < 256)
    (xs ys : List UInt8) : spread mark count n ++ xs < spread mark count m ++ ys := by
  induction count generalizing n m xs ys with
  | zero =>
    rw [Nat.pow_zero, Nat.div_one] at hm
    exact (ofNat_cons_lt_iff (by omega) hm).mpr (.inl (by omega))
  | succ count ih =>
    rw [spread, spread, List.append_assoc, List.append_assoc]
    rw [Nat.pow_succ', ← Nat.div_div_eq_div_mul] at hm
    by_cases hrest : n / 64 < m / 64
    · exact ih hrest hm _ _
    · -- Numbers that agree above their lowest digit differ in it.
      have heq : n / 64 = m / 64 := by omega
      rw [heq]
      refine List.append_left_lt ?_
      exact (ofNat_cons_lt_iff (by omega) (by omega)).mpr (.inl (by omega))

/-- A larger number has the same form or a larger leading byte. -/
theorem form_eq_or_lead_lt {n m : Nat} (h : n < m) (hm : m < 0x110000) :
    m / 64 ^ (form m).2 + (form m).1 < 256 ∧
      (form n = form m ∨
        n / 64 ^ (form n).2 + (form n).1 < m / 64 ^ (form m).2 + (form m).1) := by
  unfold form
  split_ifs <;> simp <;> omega

/-- **The bytes of a smaller character come first**, whatever follows. -/
theorem encodeChar_append_lt {c d : Char} (h : c < d) (xs ys : List UInt8) :
    String.utf8EncodeChar c ++ xs < String.utf8EncodeChar d ++ ys := by
  have hlt : c.val.toNat < d.val.toNat := h
  rw [utf8EncodeChar_eq_spread, utf8EncodeChar_eq_spread]
  obtain ⟨hbyte, hform | hlead⟩ := form_eq_or_lead_lt hlt (codePoint_lt d)
  · rw [hform]
    exact spread_append_lt hlt hbyte xs ys
  · obtain ⟨cs, hcs⟩ := spread_eq_cons (form c.val.toNat).1 (form c.val.toNat).2 c.val.toNat
    obtain ⟨ds, hds⟩ := spread_eq_cons (form d.val.toNat).1 (form d.val.toNat).2 d.val.toNat
    rw [hcs, hds, List.cons_append, List.cons_append]
    exact (ofNat_cons_lt_iff (by omega) hbyte).mpr (.inl hlead)

/-! ## Texts -/

/-- A text that is read from bytes has these bytes. -/
theorem bytes_of_fromUTF8? {bs : List UInt8} {s : String}
    (h : String.fromUTF8? ⟨bs.toArray⟩ = some s) : bytes s = bs := by
  unfold String.fromUTF8? at h
  split at h
  · rw [← Option.some.inj h]
    rfl
  · exact nomatch h

/-- The bytes of a number are marked, all of them, if the first is. -/
theorem le_of_mem_spread {mark count n : Nat} (hmark : 128 ≤ mark)
    (hn : n / 64 ^ count + mark < 256) {b : UInt8} (h : b ∈ spread mark count n) :
    128 ≤ b.toNat := by
  induction count generalizing n with
  | zero =>
    rw [Nat.pow_zero, Nat.div_one] at hn
    rw [spread, List.mem_singleton] at h
    rw [h, UInt8.toNat_ofNat_of_lt' hn]
    omega
  | succ count ih =>
    rw [Nat.pow_succ', ← Nat.div_div_eq_div_mul] at hn
    rw [spread, List.mem_append, List.mem_singleton] at h
    rcases h with h | rfl
    · exact ih hn h
    · rw [UInt8.toNat_ofNat_of_lt' (show _ < 256 by omega)]
      omega

/-- A character of one byte shares it with no other. -/
theorem mem_encodeChar_iff {c d : Char} (hc : c.val.toNat ≤ 127) :
    UInt8.ofNat c.val.toNat ∈ String.utf8EncodeChar d ↔ c = d := by
  have hbyte : ∀ n, n ≤ 127 → (UInt8.ofNat n).toNat = n := fun n hn =>
    UInt8.toNat_ofNat_of_lt' (show n < 256 by omega)
  rw [utf8EncodeChar_eq_spread]
  by_cases hd : d.val.toNat ≤ 127
  · have hform : form d.val.toNat = (0, 0) := if_pos hd
    rw [hform, spread, List.mem_singleton, ← UInt8.toNat_inj, Nat.add_zero, hbyte _ hc,
      hbyte _ hd, UInt32.toNat_inj, Char.val_inj]
  · have hmark : 128 ≤ (form d.val.toNat).1 := by
      unfold form
      split_ifs <;> simp
    have hlead := (form_eq_or_lead_lt (show 0 < d.val.toNat by omega) (codePoint_lt d)).1
    constructor
    · intro h
      have hlarge := le_of_mem_spread hmark hlead h
      rw [hbyte _ hc] at hlarge
      omega
    · rintro rfl
      exact absurd hc hd

/-- A character of one byte is in a text if the byte is among those of the text. -/
theorem mem_bytes_iff {s : String} {c : Char} (hc : c.val.toNat ≤ 127) :
    UInt8.ofNat c.val.toNat ∈ bytes s ↔ c ∈ s.toList := by
  rw [bytes_eq_flatMap, List.mem_flatMap]
  simp only [mem_encodeChar_iff hc]
  simp

theorem encode_lt {cs ds : List Char} (h : cs < ds) :
    cs.flatMap String.utf8EncodeChar < ds.flatMap String.utf8EncodeChar := by
  induction cs generalizing ds with
  | nil =>
    cases ds with
    | nil => exact absurd h (List.not_lt_nil _)
    | cons d ds =>
      obtain ⟨rest, hrest⟩ := spread_eq_cons (form d.val.toNat).1 (form d.val.toNat).2 d.val.toNat
      rw [List.flatMap_cons, utf8EncodeChar_eq_spread, hrest]
      exact List.nil_lt_cons _ _
  | cons c cs ih =>
    cases ds with
    | nil => exact absurd h (List.not_lt_nil _)
    | cons d ds =>
      rw [List.flatMap_cons, List.flatMap_cons]
      rcases List.cons_lt_cons_iff.mp h with hlt | ⟨rfl, hlt⟩
      · exact encodeChar_append_lt hlt _ _
      · exact List.append_left_lt (ih hlt)

/-- Texts in the order of their characters are in the order of their bytes. -/
theorem bytes_lt {s t : String} (h : s < t) : bytes s < bytes t := by
  rw [bytes_eq_flatMap, bytes_eq_flatMap]
  exact encode_lt (String.lt_iff_toList_lt.mp h)

/-- **Texts are in the order of their bytes.** -/
theorem bytes_lt_iff {s t : String} : bytes s < bytes t ↔ s < t := by
  refine ⟨fun h => ?_, bytes_lt⟩
  rcases lt_trichotomy s t with hlt | rfl | hgt
  · exact hlt
  · exact absurd h (List.lt_irrefl _)
  · exact absurd h (List.lt_asymm (bytes_lt hgt))

end JavaEntities.Text
