import JavaEntities.Sink

/-!
# The calls on a sink

Any sink can be watched: `recorded` has the same states and results and keeps a record of
every call, with what the call was given and how it ended. Writing artifacts to it makes the
calls that are due, the reset and then one write for each artifact, in their order and up to
the first that fails, whose error is the result (`writeAll_recorded`).

`Attempts` says which records that allows. A record of calls that were all made has no
failure, and one that stopped has exactly one, at its end (`Attempts.cases`).

A run leaves what its calls leave, which may be another thing after a failure
(`writeAll_leaves`), keeps what each of them keeps (`writeAll_keeps`) and fails only with the
error of one of them (`writeAll_eq_error`).
-/

namespace JavaEntities

namespace Sink

variable {σ : Type} {sink : Sink σ} {artifacts : List Artifact}

/-! ## What every call keeps -/

/-- Whether a call leaves a state with one property if it succeeds, and with another if it fails. -/
def Leaves {α : Type} (I J : σ → Prop) (out : Except Error α × σ) : Prop :=
  match out.1 with
  | .ok _ => I out.2
  | .error _ => J out.2

/-- If the same is left on success and on failure, it is left. -/
theorem leaves_self {α : Type} {I : σ → Prop} {out : Except Error α × σ} :
    Leaves I I out ↔ I out.2 := by
  rcases out with ⟨e | a, s⟩ <;> rfl

theorem Leaves.imp {α : Type} {I I' J J' : σ → Prop} {out : Except Error α × σ}
    (h : Leaves I J out) (hI : ∀ s, I s → I' s) (hJ : ∀ s, J s → J' s) : Leaves I' J' out := by
  rcases out with ⟨e | a, s⟩
  · exact hJ s h
  · exact hI s h

/-- Writes go on only from the state that a successful one leaves, and the first failure is the
last call. -/
theorem writeEach_leaves {I J : σ → Prop} {s : σ}
    (hwrite : ∀ x ∈ artifacts, ∀ s, I s → Leaves I J (sink.write x.path x.contents s))
    (hs : I s) : Leaves I J (sink.writeEach artifacts s) := by
  induction artifacts generalizing s with
  | nil => exact hs
  | cons x rest ih =>
    have hstep := hwrite x (List.mem_cons_self ..) s hs
    unfold writeEach
    split
    · next h => rwa [h] at hstep
    · next h =>
      rw [h] at hstep
      exact ih (fun y hy => hwrite y (List.mem_cons_of_mem x hy)) hstep

/-- A run leaves what its calls leave. -/
theorem writeAll_leaves {I J : σ → Prop} {s : σ} (hreset : Leaves I J (sink.reset s))
    (hwrite : ∀ x ∈ artifacts, ∀ s, I s → Leaves I J (sink.write x.path x.contents s)) :
    Leaves I J (sink.writeAll artifacts s) := by
  unfold writeAll
  split
  · next h => rwa [h] at hreset
  · next h =>
    rw [h] at hreset
    have hwrites := writeEach_leaves hwrite hreset
    split
    · next h' => rwa [h'] at hwrites
    · next h' => rwa [h'] at hwrites

/-- What every write of artifacts keeps, all of them keep, whether they succeed or not. -/
theorem writeEach_keeps {I : σ → Prop} {s : σ}
    (hwrite : ∀ x ∈ artifacts, ∀ s, I s → I (sink.write x.path x.contents s).2) (hs : I s) :
    I (sink.writeEach artifacts s).2 :=
  leaves_self.mp <| writeEach_leaves (fun x hx s hs => leaves_self.mpr (hwrite x hx s hs)) hs

/-- What the reset leaves and every write of artifacts keeps, a run leaves, whether it succeeds or
not. -/
theorem writeAll_keeps {I : σ → Prop} {s : σ} (hreset : I (sink.reset s).2)
    (hwrite : ∀ x ∈ artifacts, ∀ s, I s → I (sink.write x.path x.contents s).2) :
    I (sink.writeAll artifacts s).2 :=
  leaves_self.mp <| writeAll_leaves (leaves_self.mpr hreset)
    fun x hx s hs => leaves_self.mpr (hwrite x hx s hs)

/-- Writes that fail do so at one of the artifacts. -/
theorem writeEach_eq_error {s s' : σ} {e : Error}
    (h : sink.writeEach artifacts s = (.error e, s')) :
    ∃ x ∈ artifacts, ∃ s₁, (sink.write x.path x.contents s₁).1 = .error e := by
  induction artifacts generalizing s with
  | nil => exact nomatch (Prod.mk.inj h).1
  | cons x rest ih =>
    unfold writeEach at h
    split at h
    · next hwrite =>
      refine ⟨x, List.mem_cons_self .., s, ?_⟩
      rw [hwrite]
      exact (Prod.mk.inj h).1
    · obtain ⟨y, hy, herror⟩ := ih h
      exact ⟨y, List.mem_cons_of_mem x hy, herror⟩

/-- A run fails with the error of one of its calls. -/
theorem writeAll_eq_error {s s' : σ} {e : Error} (h : sink.writeAll artifacts s = (.error e, s')) :
    (sink.reset s).1 = .error e ∨
      ∃ x ∈ artifacts, ∃ s₁, (sink.write x.path x.contents s₁).1 = .error e := by
  unfold writeAll at h
  split at h
  · next hreset =>
    left
    rw [hreset, Except.error.inj (Prod.mk.inj h).1]
  · right
    split at h
    · next hwrites =>
      obtain ⟨he, -⟩ := Prod.mk.inj h
      rw [Except.error.inj he] at hwrites
      exact writeEach_eq_error hwrites
    · exact nomatch (Prod.mk.inj h).1

/-! ## The record of the calls -/

/-- A call on a sink, with everything it is given. -/
inductive Call
  | reset
  | write (path : Path) (contents : String)
  deriving DecidableEq, Repr

/-- The write for an artifact. -/
def writeOf (x : Artifact) : Call :=
  .write x.path x.contents

/-- The calls that are due for artifacts. -/
def callsFor (artifacts : List Artifact) : List Call :=
  .reset :: artifacts.map writeOf

/-- Calls in the order in which they were made, and how each of them ended. -/
abbrev Record := List (Call × Except Error Unit)

/-- The record of calls that have all succeeded. -/
def succeeded (calls : List Call) : Record :=
  calls.map fun call => (call, .ok ())

/-- The sink that keeps a record of its calls beside its state. -/
def recorded (sink : Sink σ) : Sink (σ × Record) where
  reset s := match sink.reset s.1 with
    | (r, s') => (r, s', s.2 ++ [(.reset, r)])
  write p contents s := match sink.write p contents s.1 with
    | (r, s') => (r, s', s.2 ++ [(.write p contents, r)])

/-- Whether a record is that of calls that were made in their order up to the first that failed,
and what comes of them. -/
inductive Attempts : List Call → Record → Except Error Unit → Prop
  | done : Attempts [] [] (.ok ())
  | failed (call : Call) (rest : List Call) (e : Error) :
      Attempts (call :: rest) [(call, .error e)] (.error e)
  | next (call : Call) {rest : List Call} {record : Record} {r : Except Error Unit}
      (h : Attempts rest record r) : Attempts (call :: rest) ((call, .ok ()) :: record) r

namespace Attempts

variable {calls : List Call} {record : Record} {r : Except Error Unit}

/-- Calls are all made, or one of them fails and is the last that is made. -/
theorem cases (h : Attempts calls record r) :
    (r = .ok () ∧ record = succeeded calls) ∨
      ∃ e made call rest, r = .error e ∧ calls = made ++ call :: rest ∧
        record = succeeded made ++ [(call, .error e)] := by
  induction h with
  | done => exact .inl ⟨rfl, rfl⟩
  | failed call rest e => exact .inr ⟨e, [], call, rest, rfl, rfl, rfl⟩
  | next call h ih =>
    rcases ih with ⟨rfl, rfl⟩ | ⟨e, made, failing, rest, rfl, rfl, rfl⟩
    · exact .inl ⟨rfl, rfl⟩
    · exact .inr ⟨e, call :: made, failing, rest, rfl, rfl, rfl⟩

/-- What comes of calls is a success if and only if none of those that were made has failed. -/
theorem eq_ok_iff (h : Attempts calls record r) :
    r = .ok () ↔ ∀ entry ∈ record, entry.2 = .ok () := by
  induction h with
  | done => simp
  | failed call rest e => simp
  | next call h ih => simpa using ih

end Attempts

/-- Writing to a recorded sink is writing to the sink, and the record goes on with the writes that
were made. -/
theorem writeEach_recorded (sink : Sink σ) (artifacts : List Artifact) (s : σ) (record : Record) :
    ∃ made, sink.recorded.writeEach artifacts (s, record)
        = ((sink.writeEach artifacts s).1, (sink.writeEach artifacts s).2, record ++ made) ∧
      Attempts (artifacts.map writeOf) made (sink.writeEach artifacts s).1 := by
  induction artifacts generalizing s record with
  | nil => exact ⟨[], by rw [List.append_nil]; rfl, .done⟩
  | cons x rest ih =>
    unfold writeEach
    have hwrite : sink.recorded.write x.path x.contents (s, record)
        = ((sink.write x.path x.contents s).1, (sink.write x.path x.contents s).2,
          record ++ [(writeOf x, (sink.write x.path x.contents s).1)]) := rfl
    rw [hwrite]
    rcases sink.write x.path x.contents s with ⟨e | u, s'⟩
    · exact ⟨[(writeOf x, .error e)], rfl, .failed (writeOf x) _ e⟩
    · obtain ⟨made, hrest, hmade⟩ := ih s' (record ++ [(writeOf x, .ok ())])
      refine ⟨(writeOf x, .ok ()) :: made, ?_, .next (writeOf x) hmade⟩
      show sink.recorded.writeEach rest (s', record ++ [(writeOf x, .ok ())]) = _
      rw [hrest, List.append_assoc]
      rfl

/-- **The calls of a run on a sink.** A recorded sink ends as the sink does, and its record is that
of the reset and the writes of the artifacts in their order, up to the first that failed. -/
theorem writeAll_recorded (sink : Sink σ) (artifacts : List Artifact) (s : σ) :
    ∃ record, sink.recorded.writeAll artifacts (s, [])
        = ((sink.writeAll artifacts s).1, (sink.writeAll artifacts s).2, record) ∧
      Attempts (callsFor artifacts) record ((sink.writeAll artifacts s).1.map fun _ => ()) := by
  unfold writeAll
  have hreset : sink.recorded.reset (s, [])
      = ((sink.reset s).1, (sink.reset s).2, [(.reset, (sink.reset s).1)]) := rfl
  rw [hreset]
  rcases sink.reset s with ⟨e | u, s'⟩
  · exact ⟨[(.reset, .error e)], rfl, .failed .reset _ e⟩
  · obtain ⟨made, hwrites, hmade⟩ := sink.writeEach_recorded artifacts s' [(.reset, .ok ())]
    refine ⟨(.reset, .ok ()) :: made, ?_⟩
    dsimp only
    rw [hwrites]
    revert hmade
    rcases sink.writeEach artifacts s' with ⟨e | u, s''⟩
    · exact fun hmade => ⟨rfl, .next .reset hmade⟩
    · exact fun hmade => ⟨rfl, .next .reset hmade⟩

/-- When everything is written, the reset and all writes have succeeded. -/
theorem writeAll_eq_ok {s s' : σ} {n : Nat}
    (h : sink.writeAll artifacts s = (.ok n, s')) :
    n = artifacts.length ∧ ∃ s₁, sink.reset s = (.ok (), s₁) ∧
      sink.writeEach artifacts s₁ = (.ok (), s') := by
  unfold Sink.writeAll at h
  split at h
  · exact nomatch (Prod.mk.inj h).1
  · next s₁ hreset =>
    split at h
    · exact nomatch (Prod.mk.inj h).1
    · next s₂ hwrites =>
      obtain ⟨hcount, rfl⟩ := Prod.mk.inj h
      exact ⟨(Except.ok.inj hcount).symm, s₁, hreset, hwrites⟩

end Sink

end JavaEntities
