import JavaEntities.Proofs.FileSystem.Sight

/-!
# The trail of a path

Following a path looks at one address after the other; the list of them is its
`trail`. `Walks` gives the ways through a tree by rules, one for each thing that can stand
at the next address, and `walks_iff` ties it to `walk` and `trail`. What holds of every
way is proved by induction on the rules.

Where a way ends depends on what stands at the addresses of its trail and on nothing
else (`Walks.congr`), so a change of the tree that misses the trail leaves the way as it
is. A way that reaches its end has found something at every address of its trail
(`Walks.shown`), and ends at the name of its last segment unless that is a link which it
follows (`Walks.ends`).
-/

namespace JavaEntities.FileSystem

/-- Whether a segment is the name of an entry, and not one with a meaning of its own. -/
structure IsName (s : RawText) : Prop where
  ne_empty : s ≠ ""
  ne_here : s ≠ "."
  ne_up : s ≠ ".."

namespace IsName

variable {s : RawText}

theorem not_stay (h : IsName s) : ¬ (s = "" ∨ s = ".") := by
  intro hcases
  rcases hcases with hs | hs
  · exact h.ne_empty hs
  · exact h.ne_here hs

end IsName

/-- Whether a way ends at a link that it was not to follow. -/
def Stop.isLink : Stop → Bool
  | .link .. => true
  | _ => false

namespace Node

/-! ## The addresses that are looked at -/

/-- The addresses that a way looks at, up to its first link. -/
def looks (t : Node) : Address → List RawText → List Address
  | _, [] => []
  | a, s :: rest =>
    if s = "" ∨ s = "." then t.looks a rest
    else if s = ".." then t.looks a.dropLast rest
    else if nameLimit < s.size then []
    else (a ++ [s]) :: if t.sight? (a ++ [s]) = some .dir then t.looks (a ++ [s]) rest else []

/-- The addresses that a way looks at. -/
def trail (t : Node) (follow : List RawText → Bool) : Nat → Address → List RawText → List Address
  | 0, a, segs => t.looks a segs
  | links + 1, a, segs =>
    t.looks a segs ++
      match t.advance a segs with
      | .link place _ target rest =>
        if follow rest then t.trail follow links (origin place target) (segments target ++ rest)
        else []
      | _ => []

/-- The step of a way in terms of what the tree shows. -/
theorem advance_cons (t : Node) (a : Address) (s : RawText) (rest : List RawText) :
    t.advance a (s :: rest) =
      if s = "" ∨ s = "." then t.advance a rest
      else if s = ".." then t.advance a.dropLast rest
      else if nameLimit < s.size then .tooLong rest
      else
        match t.sight? (a ++ [s]) with
        | none => .absent a s rest
        | some .dir => t.advance (a ++ [s]) rest
        | some .file => if rest = [] then .reached (a ++ [s]) else .blocked (a ++ [s]) rest
        | some (.link target) => .link a s target rest := by
  rw [advance, sight?]
  cases t.get? (a ++ [s]) with
  | none => rfl
  | some c => cases c <;> rfl

/-! ## Ways up to a link, by rules -/

/-- The ways through a tree up to the first link: from an address, by segments, over the
addresses that are looked at, to where they end. -/
inductive Advances (t : Node) : Address → List RawText → List Address → Stop → Prop
  | done (a : Address) : t.Advances a [] [] (.reached a)
  | stay {a : Address} {s : RawText} {rest : List RawText} {l : List Address} {stop : Stop}
      (hs : s = "" ∨ s = ".") (h : t.Advances a rest l stop) : t.Advances a (s :: rest) l stop
  | up {a : Address} {rest : List RawText} {l : List Address} {stop : Stop}
      (h : t.Advances a.dropLast rest l stop) : t.Advances a (".." :: rest) l stop
  | tooLong {a : Address} {s : RawText} {rest : List RawText} (hs : IsName s)
      (hl : nameLimit < s.size) : t.Advances a (s :: rest) [] (.tooLong rest)
  | absent {a : Address} {s : RawText} {rest : List RawText} (hs : IsName s)
      (hl : s.size ≤ nameLimit) (hx : t.sight? (a ++ [s]) = none) :
      t.Advances a (s :: rest) [a ++ [s]] (.absent a s rest)
  | enter {a : Address} {s : RawText} {rest : List RawText} {l : List Address} {stop : Stop}
      (hs : IsName s) (hl : s.size ≤ nameLimit) (hx : t.sight? (a ++ [s]) = some .dir)
      (h : t.Advances (a ++ [s]) rest l stop) : t.Advances a (s :: rest) ((a ++ [s]) :: l) stop
  | file {a : Address} {s : RawText} (hs : IsName s) (hl : s.size ≤ nameLimit)
      (hx : t.sight? (a ++ [s]) = some .file) :
      t.Advances a [s] [a ++ [s]] (.reached (a ++ [s]))
  | blocked {a : Address} {s : RawText} {rest : List RawText} (hs : IsName s)
      (hl : s.size ≤ nameLimit) (hx : t.sight? (a ++ [s]) = some .file) (hr : rest ≠ []) :
      t.Advances a (s :: rest) [a ++ [s]] (.blocked (a ++ [s]) rest)
  | link {a : Address} {s target : RawText} {rest : List RawText} (hs : IsName s)
      (hl : s.size ≤ nameLimit) (hx : t.sight? (a ++ [s]) = some (.link target)) :
      t.Advances a (s :: rest) [a ++ [s]] (.link a s target rest)

/-- The way up to the first link that is computed obeys these rules. -/
theorem advances (t : Node) (a : Address) (segs : List RawText) :
    t.Advances a segs (t.looks a segs) (t.advance a segs) := by
  induction segs generalizing a with
  | nil => exact .done a
  | cons s rest ih =>
    rw [looks, advance_cons]
    by_cases h₁ : s = "" ∨ s = "."
    · rw [if_pos h₁, if_pos h₁]
      exact .stay h₁ (ih a)
    · rw [if_neg h₁, if_neg h₁]
      by_cases h₂ : s = ".."
      · rw [if_pos h₂, if_pos h₂, h₂]
        exact .up (ih _)
      · rw [if_neg h₂, if_neg h₂]
        -- What is left is a name, and what stands under it decides.
        have hs : IsName s := ⟨fun h => h₁ (Or.inl h), fun h => h₁ (Or.inr h), h₂⟩
        by_cases h₃ : nameLimit < s.size
        · rw [if_pos h₃, if_pos h₃]
          exact .tooLong hs h₃
        · rw [if_neg h₃, if_neg h₃]
          have hl : s.size ≤ nameLimit := by omega
          cases hx : t.sight? (a ++ [s]) with
          | none => exact .absent hs hl hx
          | some v =>
            cases v with
            | dir => exact .enter hs hl hx (ih _)
            | link target => exact .link hs hl hx
            | file =>
              by_cases hr : rest = []
              · subst hr
                exact .file hs hl hx
              · simp only [if_neg hr]
                exact .blocked hs hl hx hr

/-- The rules leave one way up to the first link, the one that is computed. -/
theorem Advances.eq {t : Node} {a : Address} {segs : List RawText} {l : List Address} {stop : Stop}
    (h : t.Advances a segs l stop) : t.looks a segs = l ∧ t.advance a segs = stop := by
  induction h with
  | done a => exact ⟨rfl, rfl⟩
  | stay hs h ih => rwa [looks, advance_cons, if_pos hs, if_pos hs]
  | up h ih => simpa [looks, advance_cons] using ih
  | tooLong hs hl => simp [looks, advance_cons, hs.not_stay, hs.ne_up, hl]
  | absent hs hl hx => simp [looks, advance_cons, hs.not_stay, hs.ne_up, Nat.not_lt.mpr hl, hx]
  | enter hs hl hx h ih =>
    simpa [looks, advance_cons, hs.not_stay, hs.ne_up, Nat.not_lt.mpr hl, hx] using ih
  | file hs hl hx => simp [looks, advance_cons, hs.not_stay, hs.ne_up, Nat.not_lt.mpr hl, hx]
  | blocked hs hl hx hr =>
    simp [looks, advance_cons, hs.not_stay, hs.ne_up, Nat.not_lt.mpr hl, hx, hr]
  | link hs hl hx => simp [looks, advance_cons, hs.not_stay, hs.ne_up, Nat.not_lt.mpr hl, hx]

/-- A way up to its first link depends on its trail alone. -/
theorem Advances.congr {t t' : Node} {a : Address} {segs : List RawText} {l : List Address}
    {stop : Stop} (h : t.Advances a segs l stop) (hl : ∀ x ∈ l, t'.sight? x = t.sight? x) :
    t'.Advances a segs l stop := by
  induction h with
  | done a => exact .done a
  | stay hs h ih => exact .stay hs (ih hl)
  | up h ih => exact .up (ih hl)
  | tooLong hs hn => exact .tooLong hs hn
  | absent hs hn hx => exact .absent hs hn ((hl _ (List.mem_cons_self ..)).trans hx)
  | enter hs hn hx h ih =>
    exact .enter hs hn ((hl _ (List.mem_cons_self ..)).trans hx)
      (ih fun x hx => hl x (List.mem_cons_of_mem _ hx))
  | file hs hn hx => exact .file hs hn ((hl _ (List.mem_cons_self ..)).trans hx)
  | blocked hs hn hx hr => exact .blocked hs hn ((hl _ (List.mem_cons_self ..)).trans hx) hr
  | link hs hn hx => exact .link hs hn ((hl _ (List.mem_cons_self ..)).trans hx)

/-- A way passes nothing that is missing, but may end there. -/
theorem Advances.absent_of_mem {t : Node} {a x : Address} {segs : List RawText} {l : List Address}
    {stop : Stop} (h : t.Advances a segs l stop) (hx : x ∈ l) (hmissing : t.sight? x = none) :
    ∃ d n rest, stop = .absent d n rest ∧ x = d ++ [n] := by
  induction h with
  | done a => exact absurd hx List.not_mem_nil
  | stay hs h ih => exact ih hx
  | up h ih => exact ih hx
  | tooLong hs hn => exact absurd hx List.not_mem_nil
  | absent hs hn hnone => exact ⟨_, _, _, rfl, List.mem_singleton.mp hx⟩
  | enter hs hn hdir h ih =>
    rcases List.mem_cons.mp hx with rfl | hx
    · rw [hmissing] at hdir
      exact nomatch hdir
    · exact ih hx
  | file hs hn hfile =>
    rw [List.mem_singleton.mp hx, hfile] at hmissing
    exact nomatch hmissing
  | blocked hs hn hfile hr =>
    rw [List.mem_singleton.mp hx, hfile] at hmissing
    exact nomatch hmissing
  | link hs hn hlink =>
    rw [List.mem_singleton.mp hx, hlink] at hmissing
    exact nomatch hmissing

/-- A way that ends at a missing name has looked for it last. -/
theorem Advances.absent_look {t : Node} {a d : Address} {segs rest : List RawText} {n : RawText}
    {l : List Address} (h : t.Advances a segs l (.absent d n rest)) :
    IsName n ∧ n.size ≤ nameLimit ∧ t.sight? (d ++ [n]) = none ∧ d ++ [n] ∈ l := by
  generalize hstop : Stop.absent d n rest = stop at h
  induction h with
  | done a => exact nomatch hstop
  | stay hs h ih => exact ih hstop
  | up h ih => exact ih hstop
  | tooLong hs hn => exact nomatch hstop
  | absent hs hn hx =>
    obtain ⟨rfl, rfl, -⟩ := Stop.absent.inj hstop
    exact ⟨hs, hn, hx, List.mem_cons_self ..⟩
  | enter hs hn hx h ih =>
    obtain ⟨hname, hlength, hnone, hmem⟩ := ih hstop
    exact ⟨hname, hlength, hnone, List.mem_cons_of_mem _ hmem⟩
  | file hs hn hx => exact nomatch hstop
  | blocked hs hn hx hr => exact nomatch hstop
  | link hs hn hx => exact nomatch hstop

/-- A way that ends at a link has looked at it last. -/
theorem Advances.link_look {t : Node} {a d : Address} {segs rest : List RawText}
    {n target : RawText} {l : List Address} (h : t.Advances a segs l (.link d n target rest)) :
    t.sight? (d ++ [n]) = some (.link target) ∧ d ++ [n] ∈ l := by
  generalize hstop : Stop.link d n target rest = stop at h
  induction h with
  | done a => exact nomatch hstop
  | stay hs h ih => exact ih hstop
  | up h ih => exact ih hstop
  | tooLong hs hn => exact nomatch hstop
  | absent hs hn hx => exact nomatch hstop
  | enter hs hn hx h ih =>
    obtain ⟨hlink, hmem⟩ := ih hstop
    exact ⟨hlink, List.mem_cons_of_mem _ hmem⟩
  | file hs hn hx => exact nomatch hstop
  | blocked hs hn hx hr => exact nomatch hstop
  | link hs hn hx =>
    obtain ⟨rfl, rfl, rfl, -⟩ := Stop.link.inj hstop
    exact ⟨hx, List.mem_cons_self ..⟩

/-- A way that is blocked has met a file. -/
theorem Advances.blocked_look {t : Node} {a f : Address} {segs rest : List RawText}
    {l : List Address} (h : t.Advances a segs l (.blocked f rest)) : t.sight? f = some .file := by
  generalize hstop : Stop.blocked f rest = stop at h
  induction h with
  | done a => exact nomatch hstop
  | stay hs h ih => exact ih hstop
  | up h ih => exact ih hstop
  | tooLong hs hn => exact nomatch hstop
  | absent hs hn hx => exact nomatch hstop
  | enter hs hn hx h ih => exact ih hstop
  | file hs hn hx => exact nomatch hstop
  | blocked hs hn hx hr =>
    rw [(Stop.blocked.inj hstop).1]
    exact hx
  | link hs hn hx => exact nomatch hstop

/-- A way that comes to a file ends there. -/
theorem Advances.file_of_mem {t : Node} {a x : Address} {segs : List RawText} {l : List Address}
    {stop : Stop} (h : t.Advances a segs l stop) (hx : x ∈ l)
    (hfile : t.sight? x = some .file) : stop = .reached x ∨ ∃ rest, stop = .blocked x rest := by
  induction h with
  | done a => exact absurd hx List.not_mem_nil
  | stay hs h ih => exact ih hx
  | up h ih => exact ih hx
  | tooLong hs hn => exact absurd hx List.not_mem_nil
  | absent hs hn hnone =>
    rw [List.mem_singleton.mp hx, hnone] at hfile
    exact nomatch hfile
  | enter hs hn hdir h ih =>
    rcases List.mem_cons.mp hx with rfl | hx
    · rw [hdir] at hfile
      exact nomatch hfile
    · exact ih hx
  | file hs hn hsight =>
    rw [List.mem_singleton.mp hx]
    exact .inl rfl
  | blocked hs hn hsight hr =>
    rw [List.mem_singleton.mp hx]
    exact .inr ⟨_, rfl⟩
  | link hs hn hlink =>
    rw [List.mem_singleton.mp hx, hlink] at hfile
    exact nomatch hfile

/-- A way that ends at a link leaves what comes after the name of the link. -/
theorem Advances.link_suffix {t : Node} {a d : Address} {segs rest : List RawText}
    {n target : RawText} {l : List Address} (h : t.Advances a segs l (.link d n target rest)) :
    n :: rest <:+ segs := by
  generalize hstop : Stop.link d n target rest = stop at h
  induction h with
  | done a => exact nomatch hstop
  | stay hs h ih => exact (ih hstop).trans (List.suffix_cons ..)
  | up h ih => exact (ih hstop).trans (List.suffix_cons ..)
  | tooLong hs hn => exact nomatch hstop
  | absent hs hn hx => exact nomatch hstop
  | enter hs hn hx h ih => exact (ih hstop).trans (List.suffix_cons ..)
  | file hs hn hx => exact nomatch hstop
  | blocked hs hn hx hr => exact nomatch hstop
  | link hs hn hx =>
    obtain ⟨rfl, rfl, rfl, rfl⟩ := Stop.link.inj hstop
    exact List.suffix_refl _

/-- A way that ends at a missing name leaves what comes after the name. -/
theorem Advances.absent_suffix {t : Node} {a d : Address} {segs rest : List RawText} {n : RawText}
    {l : List Address} (h : t.Advances a segs l (.absent d n rest)) : n :: rest <:+ segs := by
  generalize hstop : Stop.absent d n rest = stop at h
  induction h with
  | done a => exact nomatch hstop
  | stay hs h ih => exact (ih hstop).trans (List.suffix_cons ..)
  | up h ih => exact (ih hstop).trans (List.suffix_cons ..)
  | tooLong hs hn => exact nomatch hstop
  | absent hs hn hx =>
    obtain ⟨rfl, rfl, rfl⟩ := Stop.absent.inj hstop
    exact List.suffix_refl _
  | enter hs hn hx h ih => exact (ih hstop).trans (List.suffix_cons ..)
  | file hs hn hx => exact nomatch hstop
  | blocked hs hn hx hr => exact nomatch hstop
  | link hs hn hx => exact nomatch hstop

/-- A separator at the end leads nowhere. -/
theorem Advances.reached_of_empty {t : Node} {a b : Address} {tail : List RawText}
    {l : List Address} (h : t.Advances a tail l (.reached b)) (htail : ∀ s ∈ tail, s = "") :
    b = a := by
  generalize hstop : Stop.reached b = stop at h
  induction h with
  | done a => exact Stop.reached.inj hstop
  | stay hs h ih => exact ih (fun s hs => htail s (List.mem_cons_of_mem _ hs)) hstop
  | up h ih => exact absurd (htail ".." (List.mem_cons_self ..)) (by decide)
  | tooLong hs hn => exact nomatch hstop
  | absent hs hn hx => exact nomatch hstop
  | enter hs hn hx h ih => exact absurd (htail _ (List.mem_cons_self ..)) hs.ne_empty
  | file hs hn hx => exact absurd (htail _ (List.mem_cons_self ..)) hs.ne_empty
  | blocked hs hn hx hr => exact nomatch hstop
  | link hs hn hx => exact nomatch hstop

/-- A way whose last segment is a name ends at an address with this name. -/
theorem Advances.ends {t : Node} {a b : Address} {pre tail : List RawText} {last : RawText}
    {l : List Address} (h : t.Advances a (pre ++ last :: tail) l (.reached b))
    (hlast : IsName last) (htail : ∀ s ∈ tail, s = "") : ∃ d, b = d ++ [last] := by
  generalize hsegs : pre ++ last :: tail = segs at h
  generalize hstop : Stop.reached b = stop at h
  induction h generalizing pre with
  | done a => exact absurd hsegs (by simp)
  | stay hs h ih =>
    cases pre with
    | nil =>
      obtain ⟨rfl, -⟩ := List.cons.inj hsegs
      exact absurd hs hlast.not_stay
    | cons s pre => exact ih (List.cons.inj hsegs).2 hstop
  | up h ih =>
    cases pre with
    | nil => exact absurd (List.cons.inj hsegs).1 hlast.ne_up
    | cons s pre => exact ih (List.cons.inj hsegs).2 hstop
  | tooLong hs hn => exact nomatch hstop
  | absent hs hn hx => exact nomatch hstop
  | enter hs hn hx h ih =>
    cases pre with
    | nil =>
      obtain ⟨rfl, rfl⟩ := List.cons.inj hsegs
      subst hstop
      exact ⟨_, h.reached_of_empty htail⟩
    | cons s pre => exact ih (List.cons.inj hsegs).2 hstop
  | file hs hn hx =>
    cases pre with
    | nil =>
      obtain ⟨rfl, -⟩ := List.cons.inj hsegs
      exact ⟨_, Stop.reached.inj hstop⟩
    | cons s pre => exact absurd (List.cons.inj hsegs).2 (by simp)
  | blocked hs hn hx hr => exact nomatch hstop
  | link hs hn hx => exact nomatch hstop

/-! ## Ways, by rules -/

/-- The ways through a tree that follow at most so many links, of those that `follow` admits. -/
inductive Walks (t : Node) (follow : List RawText → Bool) :
    Nat → Address → List RawText → List Address → Stop → Prop
  | stop {links : Nat} {a : Address} {segs : List RawText} {l : List Address} {stop : Stop}
      (h : t.Advances a segs l stop)
      (hs : ∀ d n target rest, stop = .link d n target rest → follow rest = false) :
      t.Walks follow links a segs l stop
  | endless {a d : Address} {segs rest : List RawText} {n target : RawText} {l : List Address}
      (h : t.Advances a segs l (.link d n target rest)) (hf : follow rest = true) :
      t.Walks follow 0 a segs l .endless
  | follow {links : Nat} {a d : Address} {segs rest : List RawText} {n target : RawText}
      {l l' : List Address} {stop : Stop} (h : t.Advances a segs l (.link d n target rest))
      (hf : follow rest = true)
      (hw : t.Walks follow links (origin d target) (segments target ++ rest) l' stop) :
      t.Walks follow (links + 1) a segs (l ++ l') stop

/-- A way up to its first link that does not end at one is all there is to go. -/
theorem Advances.walks {t : Node} {a : Address} {segs : List RawText} {l : List Address}
    {stop : Stop} (h : t.Advances a segs l stop) (hstop : stop.isLink = false)
    (follow : List RawText → Bool) (links : Nat) : t.Walks follow links a segs l stop := by
  refine .stop h ?_
  intro d n target rest he
  rw [he] at hstop
  exact nomatch hstop

/-- The way that is computed obeys these rules. -/
theorem walks (t : Node) (follow : List RawText → Bool) (links : Nat) (a : Address)
    (segs : List RawText) :
    t.Walks follow links a segs (t.trail follow links a segs) (t.walk follow links a segs) := by
  induction links generalizing a segs with
  | zero =>
    have h := t.advances a segs
    rw [trail, walk]
    cases hstop : t.advance a segs with
    | link d n target rest =>
      rw [hstop] at h
      dsimp only
      by_cases hf : follow rest = true
      · rw [if_pos hf]
        exact .endless h hf
      · rw [if_neg hf]
        refine .stop h ?_
        intro d' n' target' rest' he
        obtain ⟨-, -, -, rfl⟩ := Stop.link.inj he
        simpa using hf
    | reached b => rw [hstop] at h; exact h.walks rfl follow 0
    | absent d n rest => rw [hstop] at h; exact h.walks rfl follow 0
    | blocked f rest => rw [hstop] at h; exact h.walks rfl follow 0
    | tooLong rest => rw [hstop] at h; exact h.walks rfl follow 0
    | endless => rw [hstop] at h; exact h.walks rfl follow 0
  | succ links ih =>
    have h := t.advances a segs
    rw [trail, walk]
    cases hstop : t.advance a segs with
    | link d n target rest =>
      rw [hstop] at h
      dsimp only
      by_cases hf : follow rest = true
      · rw [if_pos hf, if_pos hf]
        exact .follow h hf (ih _ _)
      · rw [if_neg hf, if_neg hf, List.append_nil]
        refine .stop h ?_
        intro d' n' target' rest' he
        obtain ⟨-, -, -, rfl⟩ := Stop.link.inj he
        simpa using hf
    | reached b => rw [hstop] at h; simpa using h.walks rfl follow (links + 1)
    | absent d n rest => rw [hstop] at h; simpa using h.walks rfl follow (links + 1)
    | blocked f rest => rw [hstop] at h; simpa using h.walks rfl follow (links + 1)
    | tooLong rest => rw [hstop] at h; simpa using h.walks rfl follow (links + 1)
    | endless => rw [hstop] at h; simpa using h.walks rfl follow (links + 1)

/-- The rules leave one way, the one that is computed. -/
theorem Walks.eq {t : Node} {follow : List RawText → Bool} {links : Nat} {a : Address}
    {segs : List RawText} {l : List Address} {stop : Stop}
    (h : t.Walks follow links a segs l stop) :
    t.trail follow links a segs = l ∧ t.walk follow links a segs = stop := by
  induction h with
  | @stop links a segs l stop h hs =>
    obtain ⟨hlooks, hadvance⟩ := h.eq
    cases links with
    | zero =>
      rw [trail, walk, hlooks, hadvance]
      cases stop with
      | link d n target rest => simp [hs d n target rest rfl]
      | reached b => exact ⟨rfl, rfl⟩
      | absent d n rest => exact ⟨rfl, rfl⟩
      | blocked f rest => exact ⟨rfl, rfl⟩
      | tooLong rest => exact ⟨rfl, rfl⟩
      | endless => exact ⟨rfl, rfl⟩
    | succ links =>
      rw [trail, walk, hlooks, hadvance]
      cases stop with
      | link d n target rest => simp [hs d n target rest rfl]
      | reached b => exact ⟨List.append_nil l, rfl⟩
      | absent d n rest => exact ⟨List.append_nil l, rfl⟩
      | blocked f rest => exact ⟨List.append_nil l, rfl⟩
      | tooLong rest => exact ⟨List.append_nil l, rfl⟩
      | endless => exact ⟨List.append_nil l, rfl⟩
  | endless h hf =>
    obtain ⟨hlooks, hadvance⟩ := h.eq
    rw [trail, walk, hlooks, hadvance]
    simp [hf]
  | follow h hf hw ih =>
    obtain ⟨hlooks, hadvance⟩ := h.eq
    rw [trail, walk, hlooks, hadvance]
    simp [hf, ih.1, ih.2]

/-- The rules describe the way that is computed and no other. -/
theorem walks_iff {t : Node} {follow : List RawText → Bool} {links : Nat} {a : Address}
    {segs : List RawText} {l : List Address} {stop : Stop} :
    t.Walks follow links a segs l stop ↔
      t.trail follow links a segs = l ∧ t.walk follow links a segs = stop := by
  constructor
  · exact Walks.eq
  · intro hboth
    obtain ⟨rfl, rfl⟩ := hboth
    exact t.walks follow links a segs

/-- A way depends on its trail alone. -/
theorem Walks.congr {t t' : Node} {follow : List RawText → Bool} {links : Nat} {a : Address}
    {segs : List RawText} {l : List Address} {stop : Stop} (h : t.Walks follow links a segs l stop)
    (hl : ∀ x ∈ l, t'.sight? x = t.sight? x) : t'.Walks follow links a segs l stop := by
  induction h with
  | stop h hs => exact .stop (h.congr hl) hs
  | endless h hf => exact .endless (h.congr hl) hf
  | follow h hf hw ih =>
    refine .follow (h.congr ?_) hf (ih ?_)
    · exact fun x hx => hl x (List.mem_append_left _ hx)
    · exact fun x hx => hl x (List.mem_append_right _ hx)

/-- Only a way that ends at a missing name has looked at a missing address. -/
theorem Walks.absent_of_mem {t : Node} {follow : List RawText → Bool} {links : Nat}
    {a x : Address} {segs : List RawText} {l : List Address} {stop : Stop}
    (h : t.Walks follow links a segs l stop) (hx : x ∈ l) (hmissing : t.sight? x = none) :
    ∃ d n rest, stop = .absent d n rest ∧ x = d ++ [n] := by
  induction h with
  | stop h hs => exact h.absent_of_mem hx hmissing
  | endless h hf =>
    obtain ⟨d, n, rest, hstop, -⟩ := h.absent_of_mem hx hmissing
    exact nomatch hstop
  | follow h hf hw ih =>
    rcases List.mem_append.mp hx with hx | hx
    · obtain ⟨d, n, rest, hstop, -⟩ := h.absent_of_mem hx hmissing
      exact nomatch hstop
    · exact ih hx

/-- A way that ends at a missing name has looked for it last. -/
theorem Walks.absent_look {t : Node} {follow : List RawText → Bool} {links : Nat} {a d : Address}
    {segs rest : List RawText} {n : RawText} {l : List Address}
    (h : t.Walks follow links a segs l (.absent d n rest)) :
    IsName n ∧ n.size ≤ nameLimit ∧ t.sight? (d ++ [n]) = none ∧ d ++ [n] ∈ l := by
  generalize hstop : Stop.absent d n rest = stop at h
  induction h with
  | stop h hs =>
    subst hstop
    exact h.absent_look
  | endless h hf => exact nomatch hstop
  | follow h hf hw ih =>
    obtain ⟨hname, hlength, hnone, hmem⟩ := ih hstop
    exact ⟨hname, hlength, hnone, List.mem_append_right _ hmem⟩

/-- A way that reaches its end has seen something at every address it looked at. -/
theorem Walks.shown {t : Node} {follow : List RawText → Bool} {links : Nat} {a b x : Address}
    {segs : List RawText} {l : List Address} (h : t.Walks follow links a segs l (.reached b))
    (hx : x ∈ l) : t.sight? x ≠ none := by
  intro hmissing
  obtain ⟨d, n, rest, hstop, -⟩ := h.absent_of_mem hx hmissing
  exact nomatch hstop

/-- A way that is blocked has met a file. -/
theorem Walks.blocked_look {t : Node} {follow : List RawText → Bool} {links : Nat}
    {a f : Address} {segs rest : List RawText} {l : List Address}
    (h : t.Walks follow links a segs l (.blocked f rest)) : t.sight? f = some .file := by
  generalize hstop : Stop.blocked f rest = stop at h
  induction h with
  | stop h hs =>
    subst hstop
    exact h.blocked_look
  | endless h hf => exact nomatch hstop
  | follow h hf hw ih => exact ih hstop

/-- A way that has looked at a file ends there. -/
theorem Walks.file_of_mem {t : Node} {follow : List RawText → Bool} {links : Nat}
    {a x : Address} {segs : List RawText} {l : List Address} {stop : Stop}
    (h : t.Walks follow links a segs l stop) (hx : x ∈ l) (hfile : t.sight? x = some .file) :
    stop = .reached x ∨ ∃ rest, stop = .blocked x rest := by
  induction h with
  | stop h hs => exact h.file_of_mem hx hfile
  | endless h hf =>
    rcases h.file_of_mem hx hfile with hstop | ⟨rest, hstop⟩
    · exact nomatch hstop
    · exact nomatch hstop
  | follow h hf hw ih =>
    rcases List.mem_append.mp hx with hx | hx
    · rcases h.file_of_mem hx hfile with hstop | ⟨rest, hstop⟩
      · exact nomatch hstop
      · exact nomatch hstop
    · exact ih hx

/-- A way that does not end at a link follows every link it meets, whatever links it was
asked to follow. -/
theorem Walks.follow_all {t : Node} {follow : List RawText → Bool} {links : Nat} {a : Address}
    {segs : List RawText} {l : List Address} {stop : Stop} (h : t.Walks follow links a segs l stop)
    (hstop : ∀ d n target rest, stop ≠ .link d n target rest) :
    t.Walks (fun _ => true) links a segs l stop := by
  induction h with
  | stop h hs => exact .stop h fun d n target rest he => absurd he (hstop d n target rest)
  | endless h hf => exact .endless h rfl
  | follow h hf hw ih => exact .follow h rfl (ih hstop)

/-- A link at which a way ends is passed when every link is followed. -/
theorem Walks.link_mem_trail {t : Node} {follow : List RawText → Bool} {links : Nat}
    {a d : Address} {segs rest : List RawText} {n target : RawText} {l : List Address}
    (h : t.Walks follow links a segs l (.link d n target rest)) :
    t.sight? (d ++ [n]) = some (.link target) ∧
      d ++ [n] ∈ t.trail (fun _ => true) links a segs := by
  generalize hstop : Stop.link d n target rest = stop at h
  induction h with
  | @stop links a segs l stop h hs =>
    subst hstop
    obtain ⟨hlink, hmem⟩ := h.link_look
    refine ⟨hlink, ?_⟩
    cases links with
    | zero => rw [trail, h.eq.1]; exact hmem
    | succ links => rw [trail, h.eq.1]; exact List.mem_append_left _ hmem
  | endless h hf => exact nomatch hstop
  | follow h hf hw ih =>
    obtain ⟨hlink, hmem⟩ := ih hstop
    refine ⟨hlink, ?_⟩
    rw [trail, h.eq.2]
    exact List.mem_append_right _ hmem

/-- A way whose last segment is a name ends at an address with this name, unless it follows
a link that it stands for. -/
theorem Walks.ends {t : Node} {follow : List RawText → Bool} {links : Nat} {a b : Address}
    {pre tail : List RawText} {last : RawText} {l : List Address}
    (h : t.Walks follow links a (pre ++ last :: tail) l (.reached b)) (hlast : IsName last)
    (htail : ∀ s ∈ tail, s = "") (hfollow : ∀ rest, rest <:+ tail → follow rest = false) :
    ∃ d, b = d ++ [last] := by
  generalize hsegs : pre ++ last :: tail = segs at h
  generalize hstop : Stop.reached b = stop at h
  induction h generalizing pre with
  | stop h hs =>
    subst hsegs hstop
    exact h.ends hlast htail
  | endless h hf => exact nomatch hstop
  | @follow links a d segs rest n target l l' stop h hf hw ih =>
    subst hsegs
    -- The link is not the last segment, so the last segment is among those after it.
    have hbehind : last :: tail <:+ rest := by
      rcases List.suffix_or_suffix_of_suffix h.link_suffix (List.suffix_append pre _) with hs | hs
      · have hrest : rest <:+ tail := by
          rcases List.suffix_cons_iff.mp hs with he | hs
          · obtain ⟨-, rfl⟩ := List.cons.inj he
            exact List.suffix_refl _
          · exact (List.suffix_cons n rest).trans hs
        rw [hfollow rest hrest] at hf
        exact nomatch hf
      · rcases List.suffix_cons_iff.mp hs with he | hs
        · rw [(List.cons.inj he).2] at hfollow
          rw [hfollow rest (List.suffix_refl _)] at hf
          exact nomatch hf
        · exact hs
    obtain ⟨pre', rfl⟩ := hbehind
    exact ih (List.append_assoc ..) hstop

end Node

end JavaEntities.FileSystem
