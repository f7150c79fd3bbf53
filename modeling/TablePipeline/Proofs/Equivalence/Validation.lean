import Mathlib
import TablePipeline.Equivalence
import TablePipeline.Proofs.Except

/-! # The first fault is reported

A validation looks at the outputs in their order, the reference first, and for each of them at the
metrics of the reference in their order. It passes if every metric can be evaluated on every output
and agrees with the reference there. If not, what it reports is what is wrong with the first output
and metric at which this fails.
-/

namespace TablePipeline

/-! ## First faults -/

section FirstFault

variable {α β ε : Type} {passes : α → Prop} {fault : α → ε → Prop} {items others : List α}
  {first : α} {error error' : ε}

/-- Is the error the fault of the first item that does not pass? -/
def FirstFault (passes : α → Prop) (fault : α → ε → Prop) (items : List α) (error : ε) : Prop :=
  ∃ front item back, items = front ++ item :: back ∧ (∀ other ∈ front, passes other) ∧
    fault item error

namespace FirstFault

theorem head (faulty : fault first error) (items : List α) :
    FirstFault passes fault (first :: items) error :=
  ⟨[], first, items, rfl, (fun _ member => nomatch member), faulty⟩

/-- A fault may stand before other items. -/
theorem append_right (found : FirstFault passes fault items error) (others : List α) :
    FirstFault passes fault (items ++ others) error := by
  obtain ⟨front, item, back, rfl, before, faulty⟩ := found
  exact ⟨front, item, back ++ others, by simp, before, faulty⟩

/-- A fault may stand behind items that pass. -/
theorem append_left (passed : ∀ item ∈ items, passes item)
    (found : FirstFault passes fault others error) :
    FirstFault passes fault (items ++ others) error := by
  obtain ⟨front, item, back, rfl, before, faulty⟩ := found
  exact ⟨items ++ front, item, back, by simp, List.forall_mem_append.mpr ⟨passed, before⟩, faulty⟩

theorem cons (passed : passes first) (found : FirstFault passes fault items error) :
    FirstFault passes fault (first :: items) error :=
  append_left (List.forall_mem_singleton.mpr passed) found

/-- Where there is a first fault not all items pass. -/
theorem not_forall (exclude : ∀ item error, fault item error → ¬ passes item)
    (found : FirstFault passes fault items error) : ¬ ∀ item ∈ items, passes item := by
  obtain ⟨front, item, back, rfl, _, faulty⟩ := found
  exact fun passed =>
    exclude item error faulty (passed item (List.mem_append_right _ (List.mem_cons_self ..)))

/-- There is one first fault, if each item has one fault or passes. -/
theorem unique (exclude : ∀ item error, fault item error → ¬ passes item)
    (oneFault : ∀ item error error', fault item error → fault item error' → error = error')
    (found : FirstFault passes fault items error) (found' : FirstFault passes fault items error') :
    error = error' := by
  obtain ⟨front, item, back, rfl, before, faulty⟩ := found
  obtain ⟨front', item', back', same, before', faulty'⟩ := found'
  -- neither of the two items stands before the other one, since it would have to pass there
  have next {more rest rest' : List α} {item item' : α} {error : ε} (faulty : fault item error)
      (before : ∀ other ∈ more, passes other) (same : item :: rest = more ++ item' :: rest') :
      item = item' := by
    cases more with
    | nil => exact (List.cons.inj same).1
    | cons first more =>
      obtain ⟨rfl, _⟩ := List.cons.inj same
      exact absurd (before item (List.mem_cons_self ..)) (exclude _ _ faulty)
  rcases List.append_eq_append_iff.mp same with ⟨more, rfl, behind⟩ | ⟨more, rfl, behind⟩
  · have item := next faulty (fun other member => before' other (List.mem_append_right _ member))
      behind
    exact oneFault _ _ _ faulty (item ▸ faulty')
  · have item := next faulty' (fun other member => before other (List.mem_append_right _ member))
      behind
    exact oneFault _ _ _ faulty (item ▸ faulty')

/-- A list that cannot be computed fails at the first of its elements that cannot be. -/
theorem of_mapM {f : α → Except ε β} (failed : items.mapM f = .error error) :
    FirstFault (fun item => ∃ result, f item = .ok result) (fun item error => f item = .error error)
      items error := by
  induction items with
  | nil => cases failed
  | cons item rest ih =>
    rw [List.mapM_cons] at failed
    rcases bind_eq_error.mp failed with here | ⟨result, computed, failed⟩
    · exact ⟨[], item, rest, rfl, (fun _ member => nomatch member), here⟩
    · rcases bind_eq_error.mp failed with behind | ⟨_, _, none⟩
      · exact cons ⟨result, computed⟩ (ih behind)
      · cases none

end FirstFault

end FirstFault

/-! ## Verdicts -/

/-- A value of a metric agrees with itself, within every tolerance. -/
theorem Cell.agrees_self (tolerance : Float) (cell : Cell) : cell.agrees tolerance cell = true := by
  cases cell with
  | null | bool | int | text => simp [agrees, same]
  | float value =>
    rw [agrees, Number.close, Float.isNaN_eq_decide_eq_nan]
    split
    · rename_i noNumber
      simpa using noNumber
    · rename_i isNumber
      have equal : (value == value) = true := Float.beq_self_iff.mpr (by simpa using isNumber)
      rw [equal, Bool.true_or]

namespace Output

variable {tolerance : Float} {reference output : Output} {check : Output × Metric}
  {error error' : ValidationError}

/-- Can the metric be evaluated on the output, and does it agree with the reference there? -/
def Passes (tolerance : Float) (reference : Output) (check : Output × Metric) : Prop :=
  ∃ expected found, reference.evaluate check.2 = .ok expected ∧
    check.1.evaluate check.2 = .ok found ∧ expected.agrees tolerance found = true

/-- What is wrong with an output on a metric: it cannot be evaluated, or it does not agree with the
reference. -/
inductive Fault (tolerance : Float) (reference : Output) (check : Output × Metric) :
    ValidationError → Prop where
  | unevaluated {error : ValidationError} (failed : check.1.evaluate check.2 = .error error) :
      Fault tolerance reference check error
  | diverges {expected found : Cell} (reduced : reference.evaluate check.2 = .ok expected)
      (evaluated : check.1.evaluate check.2 = .ok found)
      (apart : expected.agrees tolerance found = false) :
      Fault tolerance reference check
        (.mismatch ⟨reference.backend, check.1.backend, check.2.text, expected, found⟩)

theorem Fault.not_passes (fault : Fault tolerance reference check error) :
    ¬ Passes tolerance reference check := by
  rintro ⟨expected, found, reduced, evaluated, agrees⟩
  cases fault with
  | unevaluated failed => cases failed.symm.trans evaluated
  | diverges reduced' evaluated' apart =>
    cases reduced.symm.trans reduced'
    cases evaluated.symm.trans evaluated'
    exact Bool.false_ne_true (apart.symm.trans agrees)

/-- There is one thing that is wrong with an output on a metric. -/
theorem Fault.unique (fault : Fault tolerance reference check error)
    (fault' : Fault tolerance reference check error') : error = error' := by
  cases fault with
  | unevaluated failed =>
    cases fault' with
    | unevaluated failed' => exact Except.error.inj (failed.symm.trans failed')
    | diverges _ evaluated _ => cases failed.symm.trans evaluated
  | diverges reduced evaluated apart =>
    cases fault' with
    | unevaluated failed => cases failed.symm.trans evaluated
    | diverges reduced' evaluated' _ =>
      cases reduced.symm.trans reduced'
      cases evaluated.symm.trans evaluated'
      rfl

/-! ## Outputs -/

/-- The metrics of a reference with their values. -/
def Reduced (reference : Output) : List Metric → List (Metric × Cell) → Prop :=
  List.Forall₂ fun metric pair => pair.1 = metric ∧ reference.evaluate metric = .ok pair.2

variable {metrics : List Metric} {pairs : List (Metric × Cell)} {outputs : List Output}

theorem reduced_of_mapM {values : List Cell}
    (evaluated : metrics.mapM reference.evaluate = .ok values) :
    reference.Reduced metrics (metrics.zip values) := by
  rw [mapM_eq_ok] at evaluated
  induction evaluated with
  | nil => exact .nil
  | cons first _ ih => exact .cons ⟨rfl, first⟩ ih

/-- The check of an output passes if it passes on every metric, and otherwise reports the first fault
of the output. -/
theorem checkOutput_cases (tolerance : Float) (reduced : reference.Reduced metrics pairs)
    (output : Output) :
    (checkOutput reference.backend tolerance output pairs = .ok () ∧
      ∀ check ∈ metrics.map (output, ·), Passes tolerance reference check) ∨
    ∃ error, checkOutput reference.backend tolerance output pairs = .error error ∧
      FirstFault (Passes tolerance reference) (Fault tolerance reference) (metrics.map (output, ·))
        error := by
  induction reduced with
  | nil => exact .inl ⟨rfl, fun _ member => nomatch member⟩
  | @cons metric pair metrics pairs first _ ih =>
    obtain ⟨rfl, expected⟩ := first
    rw [checkOutput, List.map_cons]
    cases found : output.evaluate pair.1 with
    | error error => exact .inr ⟨error, rfl, .head (.unevaluated found) _⟩
    | ok value =>
      cases agrees : pair.2.agrees tolerance value with
      | false =>
        exact .inr ⟨_, by rw [ok_bind, agrees]; rfl, .head (.diverges expected found agrees) _⟩
      | true =>
        have passes : Passes tolerance reference (output, pair.1) :=
          ⟨pair.2, value, expected, found, agrees⟩
        rw [ok_bind, agrees, if_pos rfl]
        exact ih.imp (fun ⟨checked, all⟩ => ⟨checked, List.forall_mem_cons.mpr ⟨passes, all⟩⟩)
          fun ⟨error, failed, fault⟩ => ⟨error, failed, fault.cons passes⟩

/-- The checks of some outputs pass if each of them does, and otherwise report the first fault. -/
theorem checkOutputs_cases (tolerance : Float) (reduced : reference.Reduced metrics pairs)
    (outputs : List Output) :
    (∃ results, outputs.mapM (checkOutput reference.backend tolerance · pairs) = .ok results ∧
      ∀ check ∈ outputs ×ˢ metrics, Passes tolerance reference check) ∨
    ∃ error, outputs.mapM (checkOutput reference.backend tolerance · pairs) = .error error ∧
      FirstFault (Passes tolerance reference) (Fault tolerance reference) (outputs ×ˢ metrics)
        error := by
  induction outputs with
  | nil => exact .inl ⟨[], rfl, fun _ member => nomatch member⟩
  | cons output outputs ih =>
    rw [List.mapM_cons, List.product_cons]
    rcases checkOutput_cases tolerance reduced output with
      ⟨checked, passed⟩ | ⟨error, failed, fault⟩
    · rw [checked, ok_bind]
      rcases ih with ⟨results, all, passedAll⟩ | ⟨error, failed, fault⟩
      · exact .inl ⟨() :: results, by rw [all]; rfl, List.forall_mem_append.mpr ⟨passed, passedAll⟩⟩
      · exact .inr ⟨error, by rw [failed]; rfl, fault.append_left passed⟩
    · exact .inr ⟨error, by rw [failed]; rfl, fault.append_right _⟩

/-- A reference passes its own checks where it has values. -/
theorem passes_self (tolerance : Float) (reduced : reference.Reduced metrics pairs) :
    ∀ check ∈ metrics.map (reference, ·), Passes tolerance reference check := by
  intro check member
  obtain ⟨metric, isMetric, rfl⟩ := List.mem_map.mp member
  obtain ⟨pair, _, _, expected⟩ := exists_of_mem_left reduced isMetric
  exact ⟨pair.2, pair.2, expected, expected, Cell.agrees_self tolerance pair.2⟩

end Output

open Output

/-- A validation gives the values of the reference if all outputs pass, else the first fault. -/
theorem validate_cases (reduction : Reduction) (tolerance : Float) (reference : Output)
    (others : List Output) :
    let metrics := reduction.metrics reference.table.schema
    (∃ pairs, validate reduction tolerance (reference :: others) = .ok pairs ∧
      reference.Reduced metrics pairs ∧
      ∀ check ∈ (reference :: others) ×ˢ metrics, Passes tolerance reference check) ∨
    ∃ error, validate reduction tolerance (reference :: others) = .error error ∧
      FirstFault (Passes tolerance reference) (Fault tolerance reference)
        ((reference :: others) ×ˢ metrics) error := by
  intro metrics
  simp only [validate, List.product_cons]
  change (∃ pairs, (metrics.mapM reference.evaluate >>= _) = _ ∧ _) ∨
    ∃ error, (metrics.mapM reference.evaluate >>= _) = _ ∧ _
  cases evaluated : metrics.mapM reference.evaluate with
  | error error =>
    obtain ⟨front, metric, back, all, before, failed⟩ := FirstFault.of_mapM evaluated
    refine .inr ⟨error, rfl, FirstFault.append_right ⟨front.map (reference, ·), (reference, metric),
      back.map (reference, ·), by simp [all], ?_, .unevaluated failed⟩ _⟩
    intro check member
    obtain ⟨metric, isMetric, rfl⟩ := List.mem_map.mp member
    obtain ⟨value, evaluated⟩ := before metric isMetric
    exact ⟨value, value, evaluated, evaluated, Cell.agrees_self tolerance value⟩
  | ok values =>
    have reduced := reduced_of_mapM evaluated
    have own := passes_self tolerance reduced
    rw [ok_bind]
    rcases checkOutputs_cases tolerance reduced others with
      ⟨results, checked, passed⟩ | ⟨error, failed, fault⟩
    · exact .inl ⟨_, by rw [checked]; rfl, reduced, List.forall_mem_append.mpr ⟨own, passed⟩⟩
    · exact .inr ⟨error, by rw [failed]; rfl, fault.append_left own⟩

/-- The metrics of a summary count the rows and the values of each column, and add up the values of
each column that has a sum. -/
theorem Reduction.metrics_summary (schema : Schema) :
    Metric.rows ∈ summary.metrics schema ∧ ∀ column ∈ schema.columns,
      Metric.count column.name ∈ summary.metrics schema ∧
        (column.type ≠ .text → Metric.sum column.name ∈ summary.metrics schema) := by
  refine ⟨List.mem_cons_self .., fun column member => ?_⟩
  have covered : ∀ metric ∈ columnMetrics column, metric ∈ summary.metrics schema :=
    fun metric isMetric => List.mem_cons_of_mem _ (List.mem_flatMap.mpr ⟨column, member, isMetric⟩)
  refine ⟨covered _ (List.mem_cons_self ..), fun hasSum => covered _ ?_⟩
  rw [columnMetrics, if_neg hasSum]
  exact List.mem_cons_of_mem _ (List.mem_singleton.mpr rfl)

/-- A validation passes exactly if every metric can be evaluated on every output and agrees with the
reference, and gives the values of the reference then. What it reports otherwise is the fault of the
first output and metric that have one. A summary is about the rows and all columns. -/
theorem validate_first_fault (reduction : Reduction) (tolerance : Float) (reference : Output)
    (others : List Output) :
    let metrics := reduction.metrics reference.table.schema
    let result := validate reduction tolerance (reference :: others)
    let checks := (reference :: others) ×ˢ metrics
    ((∃ pairs, result = .ok pairs) ↔ ∀ check ∈ checks, Passes tolerance reference check) ∧
      (∀ pairs, result = .ok pairs → reference.Reduced metrics pairs) ∧
      (∀ error, result = .error error ↔
        FirstFault (Passes tolerance reference) (Fault tolerance reference) checks error) ∧
      (reduction = .summary → .rows ∈ metrics ∧ ∀ column ∈ reference.table.schema.columns,
        .count column.name ∈ metrics ∧ (column.type ≠ .text → .sum column.name ∈ metrics)) := by
  intro metrics result checks
  have ofSummary : reduction = .summary → .rows ∈ metrics ∧
      ∀ column ∈ reference.table.schema.columns, .count column.name ∈ metrics ∧
        (column.type ≠ .text → .sum column.name ∈ metrics) := by
    rintro rfl
    exact Reduction.metrics_summary reference.table.schema
  have exclude (check : Output × Metric) (error : ValidationError)
      (fault : Fault tolerance reference check error) : ¬ Passes tolerance reference check :=
    fault.not_passes
  have oneFault (check : Output × Metric) (error error' : ValidationError)
      (fault : Fault tolerance reference check error)
      (fault' : Fault tolerance reference check error') : error = error' :=
    fault.unique fault'
  rcases validate_cases reduction tolerance reference others with
    ⟨pairs, accepted, reduced, passed⟩ | ⟨error, rejected, fault⟩
  · refine ⟨⟨fun _ => passed, fun _ => ⟨pairs, accepted⟩⟩, fun pairs' accepted' => ?_,
      fun error => ⟨fun rejected => ?_, fun fault => ?_⟩, ofSummary⟩
    · cases accepted.symm.trans accepted'
      exact reduced
    · cases accepted.symm.trans rejected
    · exact absurd passed (fault.not_forall exclude)
  · refine ⟨⟨fun ⟨pairs, accepted⟩ => ?_, fun passed => ?_⟩, fun pairs accepted => ?_,
      fun error' => ⟨fun rejected' => ?_, fun fault' => ?_⟩, ofSummary⟩
    · cases accepted.symm.trans rejected
    · exact absurd passed (fault.not_forall exclude)
    · cases accepted.symm.trans rejected
    · cases rejected.symm.trans rejected'
      exact fault
    · rw [← fault.unique exclude oneFault fault']
      exact rejected

end TablePipeline
