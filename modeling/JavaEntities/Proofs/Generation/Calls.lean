import JavaEntities.Proofs.Generation.Loading
import JavaEntities.Proofs.Generation.Plan
import JavaEntities.Proofs.Sink.Calls

/-!
# What a run asks of its sink

A run turns to its sink only when everything is loaded. Then it makes the calls that are due
for the artifacts of the plan, in their order, and the first that fails ends it with the error
of the call (`run_calls`). This holds of any sink, however it keeps its state and whichever
calls it refuses, since a recorded sink shows which calls were made.
-/

namespace JavaEntities

namespace Configuration

open Sink (Call callsFor succeeded)

variable {σ : Type} {c : Configuration} {fs : FileSystem}

/-- **What a run asks of its sink**, any sink in any state. Recording the calls changes neither the
result nor the state. If loading fails, the run fails as the plan does and makes no call. Otherwise
there is a plan, and the calls for its artifacts are made in their order: either one of them fails,
is the last that is made and gives the run its error, or all of them succeed, and so does the run,
with three artifacts for each schema and no input counted twice. So the run succeeds if and only if
no call has failed. -/
theorem run_calls (c : Configuration) (fs : FileSystem) (sink : Sink σ) (s : σ) :
    let run := c.run fs sink.recorded (s, [])
    (c.run fs sink s).result = run.result ∧ (c.run fs sink s).state = run.state.1 ∧
      match (c.loadInputs fs).result with
      | .error e => (c.plan fs).result = .error e ∧ run.result = .error e ∧ run.state = (s, [])
      | .ok _ => ∃ artifacts, (c.plan fs).result = .ok artifacts ∧
          ((∃ e made call rest, callsFor artifacts = made ++ call :: rest ∧
              run.state.2 = succeeded made ++ [(call, .error e)] ∧ run.result = .error e) ∨
            ∃ summary, run.state.2 = succeeded (callsFor artifacts) ∧ run.result = .ok summary ∧
              summary.artifacts = artifacts.length ∧ artifacts.length = 3 * summary.schemas ∧
              summary.schemas + summary.skipped.length ≤ summary.inputs) ∧
          ((∃ summary, run.result = .ok summary) ↔ ∀ entry ∈ run.state.2, entry.2 = .ok ()) := by
  intro run
  cases h : (c.loadInputs fs).result with
  | error e =>
    obtain ⟨hresult, hstate⟩ := run_of_error h sink s
    obtain ⟨hrecorded, hrecord⟩ := run_of_error h sink.recorded (s, [])
    refine ⟨hresult.trans hrecorded.symm, ?_, plan_of_error h, hrecorded, hrecord⟩
    rw [hstate]
    exact (congrArg Prod.fst hrecord).symm
  | ok loaded =>
    obtain ⟨hresult, hstate⟩ := run_of_loadInputs h sink s
    obtain ⟨hrecorded, hrecord⟩ := run_of_loadInputs h sink.recorded (s, [])
    obtain ⟨record, hcalls, hattempts⟩ :=
      sink.writeAll_recorded (loaded.schemas.artifacts c.layout) s
    rw [hcalls] at hrecorded hrecord
    have hends : run.state.2 = record := congrArg Prod.snd hrecord
    refine ⟨hresult.trans hrecorded.symm, hstate.trans (congrArg Prod.fst hrecord).symm,
      loaded.schemas.artifacts c.layout, plan_of_loadInputs h, ?_, ?_⟩
    · rcases hattempts.cases with ⟨hok, hmade⟩ | ⟨e, made, call, rest, herror, hdue, hmade⟩
      · right
        obtain ⟨written, hwritten, -⟩ := map_eq_ok_iff.mp hok
        rw [hwritten] at hrecorded
        refine ⟨_, hends.trans hmade, hrecorded, ?_, ?_, schemas_add_skipped_le h⟩
        · exact (Sink.writeAll_eq_ok (Prod.ext hwritten rfl)).1
        · exact SchemaSet.length_artifacts ..
      · left
        refine ⟨e, made, call, rest, hdue, hends.trans hmade, ?_⟩
        rw [hrecorded, map_eq_error_iff.mp herror]
        rfl
    · rw [hends, ← hattempts.eq_ok_iff, hrecorded]
      rcases (sink.writeAll (loaded.schemas.artifacts c.layout) s).1 with e | written
      · simp [Except.map]
      · simp [Except.map]

end Configuration

end JavaEntities
