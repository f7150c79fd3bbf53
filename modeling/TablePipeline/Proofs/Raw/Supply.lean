import Mathlib
import TablePipeline.Proofs.Raw.References
import TablePipeline.Proofs.Task.Bindings

/-! # Hand-written queries find their inputs

A task that runs a query is made only if every name that the query refers to is bound, and the
tables of its context are put under the bound names. So nothing that the query looks up is missing.
All other errors of a run stay possible. Only the lookup of a name can say that an input is missing:
each function of a run fails for reasons of its own, and an engine knows loaded tables but no inputs.
-/

namespace TablePipeline

/-! ## Errors of one kind -/

section Errors

variable {α β ε ζ : Type} {allowed : ε → Prop}

/-- Every error of a computation is of some kind. -/
structure FailsOnly (allowed : ε → Prop) (computation : Except ε α) : Prop where
  isAllowed : ∀ {error : ε}, computation = .error error → allowed error

namespace FailsOnly

theorem ok (value : α) : FailsOnly allowed (.ok value) := ⟨nofun⟩

theorem pure (value : α) : FailsOnly allowed (Pure.pure value) := ⟨nofun⟩

theorem error {error : ε} (isAllowed : allowed error) :
    FailsOnly allowed (.error error : Except ε α) := ⟨fun same => by
  cases same
  exact isAllowed⟩

theorem bind {first : Except ε α} {next : α → Except ε β} (early : FailsOnly allowed first)
    (late : ∀ value, FailsOnly allowed (next value)) : FailsOnly allowed (first >>= next) :=
  ⟨fun failed => by
    rcases bind_eq_error.mp failed with failed | ⟨value, _, failed⟩
    · exact early.isAllowed failed
    · exact (late value).isAllowed failed⟩

/-- Errors that are told as errors of the kind. -/
theorem mapError {first : Except ζ α} {change : ζ → ε} (told : ∀ error, allowed (change error)) :
    FailsOnly allowed (first.mapError change) := by
  cases first with
  | ok value => exact ok value
  | error cause => exact error (told cause)

theorem mapM {f : α → Except ε β} {items : List α}
    (each : ∀ item ∈ items, FailsOnly allowed (f item)) : FailsOnly allowed (items.mapM f) :=
  ⟨fun failed =>
    have ⟨item, member, failed⟩ := exists_of_mapM_eq_error failed
    (each item member).isAllowed failed⟩

end FailsOnly

end Errors

variable {inputs : Inputs}

namespace RawQuery

end RawQuery

/-! ## Tasks -/

namespace RawQuery

/-- A task that runs a query never fails for want of an input: not of its context, if this has an
artifact for every input of the task, and not of the query. -/
structure Supplied (query : RawQuery) (backend : Backend) (bindings : List Binding) (task : Task) :
    Prop where
  task : ∀ {context : TaskContext}, context.inputs.length = task.inputs.length →
    ∀ index, task.body context ≠ .error (.missingInput index)
  query : ∀ {context : TaskContext} {inputs : Inputs},
    bindInputs context (bindings.map (·.name)) = .ok inputs →
    ∀ name, backend.execute (.raw query) inputs ≠ .error (.missingInput name)

end RawQuery

end TablePipeline
