import TablePipeline.Proofs.Except

/-! # Computations with one outcome

Two computations have one outcome if both give results, and these are related, or if both fail;
what they fail with is not looked at. Computations in several parts have one outcome if their parts
have.
-/

namespace TablePipeline

variable {α β γ δ ε ζ ι κ : Type}

/-- Do both computations give related results, or do both fail? -/
inductive SameOutcome (related : α → β → Prop) : Except ε α → Except ζ β → Prop where
  | ok {result : α} {result' : β} (holds : related result result') :
      SameOutcome related (.ok result) (.ok result')
  | error (error : ε) (error' : ζ) : SameOutcome related (.error error) (.error error')

namespace SameOutcome

variable {related : α → β → Prop} {further : γ → δ → Prop}
  {first : Except ε α} {first' : Except ζ β}

theorem exists_ok {result : α} (same : SameOutcome related first first')
    (computed : first = .ok result) : ∃ result', first' = .ok result' ∧ related result result' := by
  cases same with
  | ok holds =>
    cases computed
    exact ⟨_, rfl, holds⟩
  | error => cases computed

theorem isOk_eq (same : SameOutcome related first first') : first'.isOk = first.isOk := by
  cases same <;> rfl

/-- Where the first parts have one outcome, and so do the others on related results, both
computations have one. -/
theorem bind {next : α → Except ε γ} {next' : β → Except ζ δ}
    (same : SameOutcome related first first')
    (others : ∀ result result', first = .ok result → related result result' →
      SameOutcome further (next result) (next' result')) :
    SameOutcome further (first >>= next) (first' >>= next') := by
  cases same with
  | ok holds => exact others _ _ rfl holds
  | error error error' => exact .error error error'

theorem ite {condition condition' : Prop} [Decidable condition] [Decidable condition']
    {second : Except ε α} {second' : Except ζ β} (agree : condition' ↔ condition)
    (yes : SameOutcome related first first') (no : SameOutcome related second second') :
    SameOutcome related (if condition then first else second)
      (if condition' then first' else second') := by
  by_cases holds : condition
  · rwa [if_pos holds, if_pos (agree.mpr holds)]
  · rwa [if_neg holds, if_neg (holds ∘ agree.mp)]

/-- What is checked before a computation does not part two of them if both checks agree. -/
theorem guard {condition condition' : Prop} [Decidable condition] [Decidable condition']
    {error : ε} {error' : ζ} (agree : condition' ↔ condition)
    (same : SameOutcome related first first') :
    SameOutcome related (if condition then throw error else first)
      (if condition' then throw error' else first') :=
  ite agree (.error error error') same

theorem mapError {η θ : Type} {change : ε → η} {change' : ζ → θ}
    (same : SameOutcome related first first') :
    SameOutcome related (first.mapError change) (first'.mapError change') := by
  cases same with
  | ok holds => exact .ok holds
  | error error error' => exact .error _ _

/-- The elements of a list are computed with one outcome if each of them is. -/
theorem mapM {change : α → β} {items : List ι} {renamed : ι → κ} {f : ι → Except ε α}
    {f' : κ → Except ζ β}
    (each : ∀ item ∈ items,
      SameOutcome (fun result result' => result' = change result) (f item) (f' (renamed item))) :
    SameOutcome (fun results results' => results' = results.map change) (items.mapM f)
      ((items.map renamed).mapM f') := by
  induction items with
  | nil => exact .ok rfl
  | cons item items ih =>
    rw [List.map_cons, List.mapM_cons, List.mapM_cons]
    refine (each item (List.mem_cons_self ..)).bind fun result _ _ changed => ?_
    refine (ih fun other member => each other (List.mem_cons_of_mem _ member)).bind
      fun results _ _ others => .ok ?_
    rw [changed, others, List.map_cons]

end SameOutcome

end TablePipeline
