import Mathlib.Data.Option.Basic
import TablePipeline.Proofs.Digest.Encoding
import TablePipeline.Task.Identity

/-! # What the fingerprint of an invocation determines

The fields of an invocation are a list of sections, each with tags of its own: the task, its
parameters, its seed, its outputs and its inputs. So every section can be found in the list, and the
list determines all of them.
-/

namespace TablePipeline

/-- What a task is, apart from its body and from what it reads. -/
structure Recipe where
  id : TaskId
  version : String
  params : Dictionary String String
  seed : Option UInt64
  outputs : List OutputSpec

/-- The recipe of a task in a stage. -/
def Task.recipe (task : Task) (id : TaskId) : Recipe where
  id := id
  version := task.version
  params := task.params
  seed := task.seed
  outputs := task.outputs

/-- A list that is written in pairs is determined by what is written. -/
private theorem flatMap_pair_inj {α β : Type} {first second : α → β}
    (determines : ∀ {a b : α}, first a = first b → second a = second b → a = b)
    {items others : List α}
    (same : items.flatMap (fun a => [first a, second a]) =
      others.flatMap fun a => [first a, second a]) : items = others := by
  induction items generalizing others with
  | nil =>
    cases others with
    | nil => rfl
    | cons => cases same
  | cons item items ih =>
    cases others with
    | nil => cases same
    | cons other others =>
      obtain ⟨firsts, same⟩ := List.cons.inj same
      obtain ⟨seconds, same⟩ := List.cons.inj same
      rw [determines firsts seconds, ih same]

theorem Field.text_inj {tag value value' : String} :
    Field.text tag value = Field.text tag value' ↔ value = value' := by
  rw [text, text, Field.mk.injEq]
  exact ⟨fun same => Bytes.ofText_injective same.2, fun same => ⟨rfl, congrArg _ same⟩⟩

theorem ArtifactKind.name_injective : Function.Injective ArtifactKind.name := by
  intro kind other same
  cases kind <;> cases other
  · rfl
  · exact absurd same (by decide)
  · exact absurd same (by decide)
  · rfl

namespace Task

variable {task task' : Task} {id id' : TaskId} {inputs inputs' : List Address}

private theorem flatMap_nothing {α β : Type} (items : List α) :
    (items.flatMap fun _ => ([] : List β)) = [] :=
  List.flatMap_eq_nil_iff.mpr fun _ _ => rfl

/-- The sections of the fields of an invocation, found by their tags. -/
structure Sections (task : Task) (id : TaskId) (inputs : List Address) (fields : List Field) :
    Prop where
  names : fields.filter (·.tag ∈ ["stage", "name", "version"]) =
    [.text "stage" id.stage, .text "name" id.name, .text "version" task.version]
  params : fields.filter (·.tag ∈ ["param", "value"]) =
    task.params.entries.flatMap fun entry => [.text "param" entry.1, .text "value" entry.2]
  seed : fields.filter (·.tag ∈ ["seed"]) =
    task.seed.toList.map fun seed => ⟨"seed", Bytes.word seed.toNat⟩
  outputs : fields.filter (·.tag ∈ ["output", "kind"]) =
    task.outputs.flatMap fun output => [.text "output" output.name, .text "kind" output.kind.name]
  inputs : fields.filter (·.tag ∈ ["input"]) =
    inputs.map fun address => .digest "input" address.digest

theorem sections_fields (task : Task) (id : TaskId) (inputs : List Address) :
    Sections task id inputs (task.fields id inputs) := by
  constructor <;>
    simp [fields, Field.text, Field.digest, List.filter_flatMap, List.filter_map,
      Function.comp_def, flatMap_nothing]

/-- The fields of an invocation determine the recipe of its task and the digests of its inputs. -/
theorem fields_inj (same : task.fields id inputs = task'.fields id' inputs') :
    task.recipe id = task'.recipe id' ∧ inputs.map (·.digest) = inputs'.map (·.digest) := by
  have here := sections_fields task id inputs
  have there := sections_fields task' id' inputs'
  rw [← same] at there
  have names := here.names.symm.trans there.names
  simp only [List.cons.injEq, Field.text_inj, and_true] at names
  have params : task.params = task'.params := by
    refine congrArg Dictionary.mk (flatMap_pair_inj (fun keys values => ?_)
      (here.params.symm.trans there.params))
    exact Prod.ext (Field.text_inj.mp keys) (Field.text_inj.mp values)
  have seed : task.seed = task'.seed := by
    have lists := List.map_injective_iff.mpr (fun seed other same => ?_)
      (here.seed.symm.trans there.seed)
    · simpa using congrArg List.head? lists
    · have words := congrArg Field.value same
      exact UInt64.toNat_inj.mp (Bytes.word_injOn seed.toNat_lt other.toNat_lt words)
  have outputs : task.outputs = task'.outputs := by
    refine flatMap_pair_inj (fun {output other} names kinds => ?_)
      (here.outputs.symm.trans there.outputs)
    cases output
    cases other
    cases Field.text_inj.mp names
    cases ArtifactKind.name_injective (Field.text_inj.mp kinds)
    rfl
  have reads : inputs.map (·.digest) = inputs'.map (·.digest) := by
    have bytes := congrArg (List.map fun field : Field => (⟨field.value⟩ : Digest))
      (here.inputs.symm.trans there.inputs)
    rw [List.map_map, List.map_map] at bytes
    exact bytes
  obtain ⟨stages, tasks, versions⟩ := names
  obtain ⟨stage, name⟩ := id
  obtain ⟨stage', name'⟩ := id'
  cases stages
  cases tasks
  refine ⟨?_, reads⟩
  rw [recipe, recipe, versions, params, seed, outputs]

end Task

end TablePipeline
