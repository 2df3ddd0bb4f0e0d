import JavaEntities.Proofs.FileSystem.Trail

/-!
# Ways that go on

A way that reaches a directory goes on with the segments that follow (`Walks.append`). A
way that ended at a missing name goes on from there once there is something under the
name (`Walks.resume`).

Empty segments and single dots are noise: they keep a way where it is, and only tell a file
at the end from a file where a directory is needed. So two lists of segments that are
equal but for noise lead to the same directories (`walk_eq_reached_of_plain_eq`).
-/

namespace JavaEntities.FileSystem

namespace Node

/-! ## Going on -/

/-- A way that reaches anything but a file goes on with what follows. -/
theorem Advances.append {t : Node} {a d : Address} {s₁ s₂ : List RawText} {l l' : List Address}
    {stop : Stop} (h : t.Advances a s₁ l (.reached d)) (hd : t.sight? d ≠ some .file)
    (h' : t.Advances d s₂ l' stop) : t.Advances a (s₁ ++ s₂) (l ++ l') stop := by
  generalize hstop : Stop.reached d = stop₁ at h
  induction h with
  | done a =>
    obtain rfl := Stop.reached.inj hstop
    exact h'
  | stay hs h ih => exact .stay hs (ih hstop)
  | up h ih => exact .up (ih hstop)
  | tooLong hs hn => exact nomatch hstop
  | absent hs hn hx => exact nomatch hstop
  | enter hs hn hx h ih => exact .enter hs hn hx (ih hstop)
  | file hs hn hx =>
    obtain rfl := Stop.reached.inj hstop
    exact absurd hx hd
  | blocked hs hn hx hr => exact nomatch hstop
  | link hs hn hx => exact nomatch hstop

/-- What follows a link stays behind it. -/
theorem Advances.append_link {t : Node} {a d : Address} {s₁ s₂ rest : List RawText}
    {n target : RawText} {l : List Address} (h : t.Advances a s₁ l (.link d n target rest)) :
    t.Advances a (s₁ ++ s₂) l (.link d n target (rest ++ s₂)) := by
  generalize hstop : Stop.link d n target rest = stop at h
  induction h with
  | done a => exact nomatch hstop
  | stay hs h ih => exact .stay hs (ih hstop)
  | up h ih => exact .up (ih hstop)
  | tooLong hs hn => exact nomatch hstop
  | absent hs hn hx => exact nomatch hstop
  | enter hs hn hx h ih => exact .enter hs hn hx (ih hstop)
  | file hs hn hx => exact nomatch hstop
  | blocked hs hn hx hr => exact nomatch hstop
  | link hs hn hx =>
    obtain ⟨rfl, rfl, rfl, rfl⟩ := Stop.link.inj hstop
    exact .link hs hn hx

/-- Once there is something at a missing name, a way that ended there goes on from the
directory of the name. -/
theorem Advances.resume {t t' : Node} {a d : Address} {segs rest : List RawText} {n : RawText}
    {l l' : List Address} {stop : Stop} (h : t.Advances a segs l (.absent d n rest))
    (hl : ∀ x ∈ l, x ≠ d ++ [n] → t'.sight? x = t.sight? x)
    (h' : t'.Advances d (n :: rest) l' stop) : ∃ l'', t'.Advances a segs l'' stop := by
  have hmissing := h.absent_look.2.2.1
  generalize hstop : Stop.absent d n rest = stop₁ at h
  induction h with
  | done a => exact nomatch hstop
  | stay hs h ih =>
    obtain ⟨l'', h''⟩ := ih hl hstop
    exact ⟨l'', .stay hs h''⟩
  | up h ih =>
    obtain ⟨l'', h''⟩ := ih hl hstop
    exact ⟨l'', .up h''⟩
  | tooLong hs hn => exact nomatch hstop
  | absent hs hn hx =>
    obtain ⟨rfl, rfl, rfl⟩ := Stop.absent.inj hstop
    exact ⟨l', h'⟩
  | @enter a s rest l stop hs hn hx h ih =>
    obtain ⟨l'', h''⟩ := ih (fun x hx => hl x (List.mem_cons_of_mem _ hx)) hstop
    have hne : a ++ [s] ≠ d ++ [n] := by
      intro he
      rw [he, hmissing] at hx
      exact nomatch hx
    exact ⟨_, .enter hs hn ((hl _ (List.mem_cons_self ..) hne).trans hx) h''⟩
  | file hs hn hx => exact nomatch hstop
  | blocked hs hn hx hr => exact nomatch hstop
  | link hs hn hx => exact nomatch hstop

/-- A way that reaches anything but a file goes on with what follows, with as many links as
it has left. -/
theorem Walks.append {t : Node} {follow follow' : List RawText → Bool} {links : Nat}
    {a d : Address} {s₁ s₂ : List RawText} {l : List Address}
    (h : t.Walks follow links a s₁ l (.reached d)) (hd : t.sight? d ≠ some .file)
    (hfollow : ∀ rest, follow rest = true → follow' (rest ++ s₂) = true) :
    ∃ m, ∀ l' stop, t.Walks follow' m d s₂ l' stop →
      t.Walks follow' links a (s₁ ++ s₂) (l ++ l') stop := by
  generalize hstop : Stop.reached d = stop₁ at h
  induction h with
  | @stop links a segs l stop₁ h hs =>
    subst hstop
    refine ⟨links, ?_⟩
    intro l' stop h'
    cases h' with
    | stop h' hs' => exact .stop (h.append hd h') hs'
    | endless h' hf => exact .endless (h.append hd h') hf
    | follow h' hf hw =>
      rw [← List.append_assoc]
      exact .follow (h.append hd h') hf hw
  | endless h hf => exact nomatch hstop
  | follow h hf hw ih =>
    obtain ⟨m, hm⟩ := ih hstop
    -- The links that are left are those that were left behind the first one.
    refine ⟨m, ?_⟩
    intro l' stop h'
    have hlater := hm l' stop h'
    rw [List.append_assoc] at hlater
    rw [List.append_assoc]
    exact .follow h.append_link (hfollow _ hf) hlater

/-- Once there is something at a missing name, a way that ended there goes on from the
directory of the name, with as many links as it has left. -/
theorem Walks.resume {t t' : Node} {follow : List RawText → Bool} {links : Nat} {a d : Address}
    {segs rest : List RawText} {n : RawText} {l : List Address}
    (h : t.Walks follow links a segs l (.absent d n rest))
    (hl : ∀ x, t.sight? x ≠ none → t'.sight? x = t.sight? x) :
    ∃ m, ∀ l' stop, t'.Walks follow m d (n :: rest) l' stop →
      ∃ l'', t'.Walks follow links a segs l'' stop := by
  generalize hstop : Stop.absent d n rest = stop₁ at h
  induction h with
  | @stop links a segs l stop₁ h hs =>
    subst hstop
    -- The missing name is all that the way saw nothing at.
    have hothers : ∀ x ∈ l, x ≠ d ++ [n] → t'.sight? x = t.sight? x := by
      intro x hx hne
      apply hl x
      intro hnone
      obtain ⟨d', n', rest', hstop', rfl⟩ := h.absent_of_mem hx hnone
      obtain ⟨rfl, rfl, -⟩ := Stop.absent.inj hstop'
      exact hne rfl
    refine ⟨links, ?_⟩
    intro l' stop h'
    cases h' with
    | stop h' hs' =>
      obtain ⟨l'', h''⟩ := h.resume hothers h'
      exact ⟨l'', .stop h'' hs'⟩
    | endless h' hf =>
      obtain ⟨l'', h''⟩ := h.resume hothers h'
      exact ⟨l'', .endless h'' hf⟩
    | follow h' hf hw =>
      obtain ⟨l'', h''⟩ := h.resume hothers h'
      exact ⟨_, .follow h'' hf hw⟩
  | endless h hf => exact nomatch hstop
  | @follow links a d₁ segs rest₁ n₁ target l₁ l₂ stop₁ h hf hw ih =>
    obtain ⟨m, hm⟩ := ih hstop
    refine ⟨m, ?_⟩
    intro l' stop h'
    obtain ⟨l'', h''⟩ := hm l' stop h'
    have hfound : ∀ x ∈ l₁, t'.sight? x = t.sight? x := by
      intro x hx
      apply hl x
      intro hnone
      obtain ⟨d', n', rest', hstop', -⟩ := h.absent_of_mem hx hnone
      exact nomatch hstop'
    exact ⟨_, .follow (h.congr hfound) hf h''⟩

end Node

/-! ## Noise -/

/-- The segments that do not merely keep a way where it is. -/
def plain (segs : List RawText) : List RawText :=
  segs.filter fun s => s ≠ "" ∧ s ≠ "."

/-- The end of a way with the noise taken out of what comes after it. -/
def Stop.plainRest : Stop → Stop
  | .reached a => .reached a
  | .absent d n rest => .absent d n (plain rest)
  | .blocked f rest => if plain rest = [] then .reached f else .blocked f (plain rest)
  | .link d n target rest => .link d n target (plain rest)
  | .tooLong rest => .tooLong (plain rest)
  | .endless => .endless

theorem plain_cons_of_noise {s : RawText} (hs : s = "" ∨ s = ".") (rest : List RawText) :
    plain (s :: rest) = plain rest := by
  unfold plain
  rw [List.filter_cons, if_neg]
  rcases hs with rfl | rfl
  · decide
  · decide

theorem plain_cons {s : RawText} (hs : ¬ (s = "" ∨ s = ".")) (rest : List RawText) :
    plain (s :: rest) = s :: plain rest := by
  unfold plain
  rw [List.filter_cons, if_pos]
  simpa [not_or] using hs

theorem plain_append (s₁ s₂ : List RawText) : plain (s₁ ++ s₂) = plain s₁ ++ plain s₂ :=
  List.filter_append ..

/-- Noise changes nothing about where a way ends but what comes after it. -/
theorem Node.advance_plain (t : Node) (a : Address) (segs : List RawText) :
    t.advance a (plain segs) = (t.advance a segs).plainRest := by
  induction segs generalizing a with
  | nil => rfl
  | cons s rest ih =>
    by_cases hs : s = "" ∨ s = "."
    · rw [plain_cons_of_noise hs, advance_cons, if_pos hs]
      exact ih a
    · rw [plain_cons hs, advance_cons, advance_cons, if_neg hs, if_neg hs]
      by_cases hup : s = ".."
      · rw [if_pos hup, if_pos hup]
        exact ih _
      · rw [if_neg hup, if_neg hup]
        by_cases hlong : nameLimit < s.size
        · rw [if_pos hlong, if_pos hlong]
          rfl
        · rw [if_neg hlong, if_neg hlong]
          cases t.sight? (a ++ [s]) with
          | none => rfl
          | some v =>
            cases v with
            | dir => exact ih _
            | link target => rfl
            | file =>
              dsimp only
              by_cases hrest : rest = []
              · rw [if_pos hrest, hrest]
                rfl
              · rw [if_neg hrest]
                rfl

/-- The only end of a way that is a link but for noise is that link. -/
theorem Stop.eq_link_of_plainRest_eq {stop : Stop} {d : Address} {n target : RawText}
    {rest : List RawText} (h : stop.plainRest = .link d n target rest) :
    ∃ rest', stop = .link d n target rest' ∧ plain rest' = rest := by
  cases stop with
  | link d' n' target' rest' =>
    obtain ⟨rfl, rfl, rfl, rfl⟩ := Stop.link.inj h
    exact ⟨rest', rfl, rfl⟩
  | blocked f rest' =>
    by_cases hrest : plain rest' = []
    · rw [plainRest, if_pos hrest] at h
      exact nomatch h
    · rw [plainRest, if_neg hrest] at h
      exact nomatch h
  | reached a => exact nomatch h
  | absent d' n' rest' => exact nomatch h
  | tooLong rest' => exact nomatch h
  | endless => exact nomatch h

/-- A way that ends at no link goes no further. -/
theorem Node.walk_of_not_link {t : Node} {follow : List RawText → Bool} {a : Address}
    {segs : List RawText} (h : ∀ d n target rest, t.advance a segs ≠ .link d n target rest)
    (links : Nat) : t.walk follow links a segs = t.advance a segs := by
  cases links with
  | zero =>
    unfold walk
    split
    · next hstop => exact absurd hstop (h _ _ _ _)
    · rfl
  | succ links =>
    unfold walk
    split
    · next hstop => exact absurd hstop (h _ _ _ _)
    · rfl

/-- Segments that differ by noise end alike. -/
theorem Node.advance_plainRest_eq (t : Node) (a : Address) {segs segs' : List RawText}
    (h : plain segs = plain segs') :
    (t.advance a segs).plainRest = (t.advance a segs').plainRest := by
  rw [← advance_plain, ← advance_plain, h]

/-- Segments that differ by noise end at the same link. -/
theorem Node.advance_eq_link_of_plain_eq {t : Node} {a d : Address} {n target : RawText}
    {segs segs' rest : List RawText} (h : plain segs = plain segs')
    (hlink : t.advance a segs = .link d n target rest) :
    ∃ rest', t.advance a segs' = .link d n target rest' ∧ plain rest' = plain rest := by
  have hadvance := t.advance_plainRest_eq a h
  rw [hlink] at hadvance
  exact Stop.eq_link_of_plainRest_eq hadvance.symm

/-- Without a link on the way, the same holds of the whole way. -/
theorem Node.walk_plainRest_eq_of_not_link (t : Node) (links : Nat) (a : Address)
    {segs segs' : List RawText} (h : plain segs = plain segs')
    (hlink : ¬ ∃ d n target rest, t.advance a segs = .link d n target rest) :
    (t.walk (fun _ => true) links a segs).plainRest
      = (t.walk (fun _ => true) links a segs').plainRest := by
  have hlink' : ¬ ∃ d n target rest, t.advance a segs' = .link d n target rest := by
    intro hex
    obtain ⟨d, n, target, rest, hstop'⟩ := hex
    obtain ⟨rest', hstop, -⟩ := advance_eq_link_of_plain_eq h.symm hstop'
    exact hlink ⟨d, n, target, rest', hstop⟩
  rw [walk_of_not_link fun d n target rest he => hlink ⟨d, n, target, rest, he⟩,
    walk_of_not_link fun d n target rest he => hlink' ⟨d, n, target, rest, he⟩]
  exact t.advance_plainRest_eq a h

/-- Segments that are equal but for noise lead to the same end but for noise. -/
theorem Node.walk_plainRest_eq (t : Node) (links : Nat) (a : Address) {segs segs' : List RawText}
    (h : plain segs = plain segs') :
    (t.walk (fun _ => true) links a segs).plainRest
      = (t.walk (fun _ => true) links a segs').plainRest := by
  -- Both ways come to the same link or to none; behind it, the segments differ by noise again.
  induction links generalizing a segs segs' with
  | zero =>
    by_cases hlink : ∃ d n target rest, t.advance a segs = .link d n target rest
    · obtain ⟨d, n, target, rest, hstop⟩ := hlink
      obtain ⟨rest', hstop', -⟩ := advance_eq_link_of_plain_eq h hstop
      rw [walk, walk, hstop, hstop']
      rfl
    · exact t.walk_plainRest_eq_of_not_link _ a h hlink
  | succ links ih =>
    by_cases hlink : ∃ d n target rest, t.advance a segs = .link d n target rest
    · obtain ⟨d, n, target, rest, hstop⟩ := hlink
      obtain ⟨rest', hstop', hrest⟩ := advance_eq_link_of_plain_eq h hstop
      rw [walk, walk, hstop, hstop']
      apply ih
      rw [plain_append, plain_append, hrest]
    · exact t.walk_plainRest_eq_of_not_link _ a h hlink

/-- Segments that are equal but for noise lead to the same directories. -/
theorem Node.walk_eq_reached_of_plain_eq {t : Node} {links : Nat} {a d : Address}
    {segs segs' : List RawText} (h : plain segs = plain segs')
    (hwalk : t.walk (fun _ => true) links a segs = .reached d) (hd : t.sight? d ≠ some .file) :
    t.walk (fun _ => true) links a segs' = .reached d := by
  have hplain := t.walk_plainRest_eq links a h
  rw [hwalk] at hplain
  cases hstop : t.walk (fun _ => true) links a segs' with
  | reached d' =>
    rw [hstop] at hplain
    exact hplain.symm
  | blocked f rest =>
    -- Only a file blocks a way, and noise after a file is all that could tell the two apart.
    have hf : t.sight? f = some .file := (walks_iff.mpr ⟨rfl, hstop⟩).blocked_look
    rw [hstop] at hplain
    rw [Stop.plainRest, Stop.plainRest] at hplain
    by_cases hrest : plain rest = []
    · rw [if_pos hrest] at hplain
      rw [Stop.reached.inj hplain] at hd
      exact absurd hf hd
    · rw [if_neg hrest] at hplain
      exact nomatch hplain
  | absent d' n rest => rw [hstop] at hplain; exact nomatch hplain
  | link d' n target rest => rw [hstop] at hplain; exact nomatch hplain
  | tooLong rest => rw [hstop] at hplain; exact nomatch hplain
  | endless => rw [hstop] at hplain; exact nomatch hplain

end JavaEntities.FileSystem
