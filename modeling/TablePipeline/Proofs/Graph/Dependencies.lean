import Mathlib.Data.List.Nodup
import Mathlib.Logic.Relation
import TablePipeline.Proofs.Graph.Closure

/-! # What the closures of a graph hold

A stage waits for the stages that its tasks read from, also through other stages, and a selected run
looks up the tasks that its targets read, also through other tasks. Both are computed on positions,
in one pass downwards. Here they are told in terms of what the tasks declare: an edge leads from the
stage, or the task, of a declared input to its reader, and a closure holds whatever has a path to
where it starts. A pass over smaller positions misses nothing because registration accepts no input
from a later stage or a later task.
-/

namespace TablePipeline.Graph

open Relation (ReflTransGen TransGen)

variable {graph : Graph}

/-- Does some task of the second stage read an output of a task of the first? -/
def Feeds (graph : Graph) (first second : Nat) : Prop :=
  ∃ reader ∈ graph.nodes, graph.stages[second]? = some reader.id.stage ∧
    ∃ input ∈ reader.task.inputs, graph.stages[first]? = some input.task.stage

/-- Is an output of a task read by another one? -/
def ReadBy (graph : Graph) (source reader : TaskId) : Prop :=
  ∃ node ∈ graph.nodes, node.id = reader ∧ ∃ input ∈ node.task.inputs, input.task = source

/-! ## Stages -/

/-- A stage has one position. -/
theorem WellFormed.stage_unique (formed : graph.WellFormed) {first second : Nat} {stage : String}
    (here : graph.stages[first]? = some stage) (there : graph.stages[second]? = some stage) :
    first = second :=
  Option.some.inj ((findIdx?_of_nodup formed.stages here).symm.trans
    (findIdx?_of_nodup formed.stages there))

/-- Data flows between stages from the stages of producers to those of their readers. -/
theorem WellFormed.feeds_iff (formed : graph.WellFormed) {first second : Nat} :
    graph.Feeds first second ↔ ∃ reader ∈ graph.nodes, reader.stage = second ∧
      ∃ producer ∈ reader.producers, graph.stageOf producer = first := by
  constructor
  · rintro ⟨reader, isNode, ofReader, input, declared, ofInput⟩
    obtain ⟨position, here⟩ := List.mem_iff_getElem?.mp isNode
    obtain ⟨producer, isProducer, given⟩ := exists_of_mem_left (formed.gives here) declared
    obtain ⟨_, source, isSource, named, _, _⟩ := given
    refine ⟨reader, isNode, formed.stage_unique (formed.staged here) ofReader, producer,
      isProducer, ?_⟩
    rw [stageOf_eq isSource]
    exact formed.stage_unique (formed.staged isSource) (named ▸ ofInput)
  · rintro ⟨reader, isNode, rfl, producer, isProducer, rfl⟩
    obtain ⟨position, here⟩ := List.mem_iff_getElem?.mp isNode
    obtain ⟨input, declared, given⟩ := exists_of_mem_right (formed.gives here) isProducer
    obtain ⟨_, source, isSource, named, _, _⟩ := given
    refine ⟨reader, isNode, formed.staged here, input, declared, ?_⟩
    rw [stageOf_eq isSource, ← named]
    exact formed.staged isSource

/-- No stage is fed by a later one. -/
theorem WellFormed.feeds_le (formed : graph.WellFormed) {first second : Nat}
    (feeds : graph.Feeds first second) : first ≤ second := by
  obtain ⟨reader, isNode, rfl, producer, isProducer, rfl⟩ := formed.feeds_iff.mp feeds
  obtain ⟨position, here⟩ := List.mem_iff_getElem?.mp isNode
  obtain ⟨_, source, isSource, ordered⟩ := formed.producer_spec here isProducer
  rwa [stageOf_eq isSource]

/-- The stages that a stage reads from are the others that feed it. -/
theorem WellFormed.mem_stageReads (formed : graph.WellFormed) {first second : Nat} :
    first ∈ graph.stageReads second ↔ graph.Feeds first second ∧ first ≠ second := by
  rw [formed.feeds_iff]
  simp only [stageReads, List.mem_filter, List.mem_flatMap, List.mem_map, decide_eq_true_eq,
    and_assoc]

/-- All that has a path to a position stands at or before it. -/
theorem WellFormed.path_le (formed : graph.WellFormed) {first second : Nat}
    (path : ReflTransGen graph.Feeds first second) : first ≤ second := by
  induction path with
  | refl => exact Nat.le_refl first
  | tail _ next ih => exact Nat.le_trans ih (formed.feeds_le next)

/-- A path leads to another stage only if that stage is there. -/
theorem path_inside {first second : Nat} (path : ReflTransGen graph.Feeds first second)
    (other : first ≠ second) : second < graph.stages.length := by
  rcases path.cases_tail with rfl | ⟨middle, _, reader, _, declared, _⟩
  · exact absurd rfl other
  · exact (List.getElem?_eq_some_iff.mp declared).1

/-- A path is followed backwards by steps from a stage to another one that it reads from: a step
from a stage to itself can be left out. -/
theorem WellFormed.path_iff (formed : graph.WellFormed) {first second : Nat} :
    ReflTransGen graph.Feeds first second ↔
      ReflTransGen (fun reader source => source ∈ graph.stageReads reader) second first := by
  constructor
  · intro path
    induction path with
    | refl => exact .refl
    | @tail middle last _ next ih =>
      by_cases same : middle = last
      · exact same ▸ ih
      · exact ih.head (formed.mem_stageReads.mpr ⟨next, same⟩)
  · intro path
    induction path with
    | refl => exact .refl
    | tail _ next ih => exact ih.head (formed.mem_stageReads.mp next).1

/-- A stage depends on the other stages that have a path to it. -/
theorem WellFormed.mem_stageDeps (formed : graph.WellFormed) {first second : Nat} :
    first ∈ graph.stageDeps second ↔
      first ≠ second ∧ ReflTransGen graph.Feeds first second := by
  have down {reader source : Nat} (reads : source ∈ graph.stageReads reader) : source < reader :=
    have ⟨feeds, other⟩ := formed.mem_stageReads.mp reads
    Nat.lt_of_le_of_ne (formed.feeds_le feeds) other
  simp only [stageDeps, List.mem_filter, List.mem_range, decide_eq_true_eq, mem_reachDown down,
    List.mem_singleton, exists_eq_left, ← formed.path_iff]
  constructor
  · rintro ⟨before, rfl | ⟨_, path⟩⟩
    · exact absurd before (Nat.lt_irrefl first)
    · exact ⟨Nat.ne_of_lt before, path⟩
  · rintro ⟨other, path⟩
    exact ⟨Nat.lt_of_le_of_ne (formed.path_le path) other, .inr ⟨path_inside path other, path⟩⟩

/-! ## Tasks -/

/-- A task is read by another one if it is a producer of it. -/
theorem WellFormed.readBy_iff (formed : graph.WellFormed) {source reader : TaskId} :
    graph.ReadBy source reader ↔ ∃ producer position, graph.position? source = some producer ∧
      graph.position? reader = some position ∧ producer ∈ graph.producersOf position := by
  simp only [formed.position?_eq_some, mem_producersOf]
  constructor
  · rintro ⟨node, isNode, named, input, declared, asked⟩
    obtain ⟨position, here⟩ := List.mem_iff_getElem?.mp isNode
    obtain ⟨producer, isProducer, given⟩ := exists_of_mem_left (formed.gives here) declared
    obtain ⟨_, other, isOther, same, _, _⟩ := given
    exact ⟨producer, position, ⟨other, isOther, same.trans asked⟩, ⟨node, here, named⟩,
      node, here, isProducer⟩
  · rintro ⟨producer, position, ⟨other, isOther, rfl⟩, ⟨node, here, rfl⟩, again, same, isProducer⟩
    cases here.symm.trans same
    obtain ⟨input, declared, given⟩ := exists_of_mem_right (formed.gives here) isProducer
    obtain ⟨_, given, isGiven, named, _, _⟩ := given
    cases isOther.symm.trans isGiven
    exact ⟨node, List.mem_of_getElem? here, rfl, input, declared, named.symm⟩

/-- Paths between tasks are paths between their positions. -/
theorem WellFormed.reads_iff (formed : graph.WellFormed) {source reader : TaskId} :
    TransGen graph.ReadBy source reader ↔ ∃ producer position,
      graph.position? source = some producer ∧ graph.position? reader = some position ∧
        graph.Reads position producer := by
  constructor
  · intro path
    induction path with
    | single next =>
      obtain ⟨producer, position, placed, here, reads⟩ := formed.readBy_iff.mp next
      exact ⟨producer, position, placed, here, .single reads⟩
    | tail _ next ih =>
      obtain ⟨producer, middle, placed, between, path⟩ := ih
      obtain ⟨again, position, same, here, reads⟩ := formed.readBy_iff.mp next
      cases between.symm.trans same
      exact ⟨producer, position, placed, here, path.head reads⟩
  · rintro ⟨producer, position, placed, here, path⟩
    induction path generalizing source with
    | single next => exact .single (formed.readBy_iff.mpr ⟨_, _, placed, here, next⟩)
    | @tail middle producer path next ih =>
      -- What stands between them is a task as well, since it has a producer.
      obtain ⟨node, isNode, _⟩ := mem_producersOf.mp next
      have between := formed.position?_id isNode
      exact (ih between).head (formed.readBy_iff.mpr ⟨_, _, placed, between, next⟩)

/-- The ancestors of targets are the other tasks that have a path to a target. -/
theorem WellFormed.ancestors_eq_ok (formed : graph.WellFormed) {targets : List TaskId}
    (known : ∀ target ∈ targets, ∃ node ∈ graph.nodes, node.id = target) :
    ∃ ids, graph.ancestors targets = .ok ids ∧ ids.Nodup ∧
      ∀ id, id ∈ ids ↔ id ∉ targets ∧ ∃ target ∈ targets, ReflTransGen graph.ReadBy id target := by
  obtain ⟨positions, found⟩ := exists_targetPositions known
  have placed := targetPositions_eq_ok.mp found
  have inside : ∀ position ∈ positions, position < graph.size := fun _ =>
    lt_size_of_targetPositions found
  refine ⟨_, by rw [ancestors, found]; rfl, ?_, fun id => ?_⟩
  · rw [(List.mergeSort_perm ..).nodup_iff]
    refine List.Nodup.filterMap (fun first second id ofFirst ofSecond => ?_)
      (List.nodup_range.filter _)
    simp only [Option.mem_def, Option.map_eq_some_iff, ← formed.position?_eq_some]
      at ofFirst ofSecond
    exact Option.some.inj (ofFirst.symm.trans ofSecond)
  · rw [(List.mergeSort_perm ..).mem_iff]
    simp only [List.mem_filterMap, Option.map_eq_some_iff, ← formed.position?_eq_some,
      mem_ancestorPositions formed inside]
    constructor
    · rintro ⟨position, ⟨notTarget, target, isTarget, path⟩, here⟩
      obtain ⟨goal, isGoal, there⟩ := exists_of_mem_right placed isTarget
      refine ⟨fun member => notTarget ?_, goal, isGoal, ?_⟩
      · obtain ⟨again, isAgain, same⟩ := exists_of_mem_left placed member
        cases here.symm.trans same
        exact isAgain
      · exact (formed.reads_iff.mpr ⟨position, target, here, there, path⟩).to_reflTransGen
    · rintro ⟨notTarget, goal, isGoal, path⟩
      rcases Relation.reflTransGen_iff_eq_or_transGen.mp path with rfl | path
      · exact absurd isGoal notTarget
      · obtain ⟨position, target, here, there, path⟩ := formed.reads_iff.mp path
        obtain ⟨again, isTarget, same⟩ := exists_of_mem_left placed isGoal
        cases there.symm.trans same
        refine ⟨position, ⟨fun member => notTarget ?_, target, isTarget, path⟩, here⟩
        obtain ⟨other, isOther, same⟩ := exists_of_mem_right placed member
        rw [formed.position?_eq_some] at here same
        obtain ⟨node, isNode, rfl⟩ := here
        obtain ⟨again, isAgain, rfl⟩ := same
        cases isNode.symm.trans isAgain
        exact isOther

/-! ## Both closures -/

/-- The closures of a graph hold all that can be reached in it, and nothing else. -/
structure ExactClosures (graph : Graph) : Prop where
  /-- A stage depends on the other stages from which data flows to it, over any number of stages. -/
  reached : ∀ {first second : Nat}, first ∈ graph.stageDeps second ↔
    first ≠ second ∧ ReflTransGen graph.Feeds first second
  /-- The dependencies of a stage are a set, in the order of declaration. -/
  ordered : ∀ {stage : Nat}, (graph.stageDeps stage).Pairwise (· < ·)
  declared : ∀ {first second : Nat}, first ∈ graph.stageDeps second →
    first < second ∧ second < graph.stages.length
  transitive : ∀ {first second third : Nat}, first ∈ graph.stageDeps second →
    second ∈ graph.stageDeps third → first ∈ graph.stageDeps third
  irreflexive : ∀ {stage : Nat}, stage ∉ graph.stageDeps stage
  /-- A stage depends on the stage of every producer of a task of it, except itself. -/
  producers : ∀ {position : Nat} {node : TaskNode} {producer : Nat},
    graph.nodes[position]? = some node → producer ∈ node.producers →
    graph.stageOf producer ≠ node.stage → graph.stageOf producer ∈ graph.stageDeps node.stage
  /-- Names of stages stand for their positions. -/
  named : ∀ {second : Nat} {stage : String}, graph.stages[second]? = some stage →
    List.Forall₂ (fun name first => graph.stages[first]? = some name)
      (graph.stagesBefore stage) (graph.stageDeps second)
  /-- The ancestors of targets are the other tasks whose outputs flow to some target, over any number
  of tasks. -/
  ancestors : ∀ {targets : List TaskId},
    (∀ target ∈ targets, ∃ node ∈ graph.nodes, node.id = target) →
    ∃ ids, graph.ancestors targets = .ok ids ∧ ids.Nodup ∧
      ∀ id, id ∈ ids ↔ id ∉ targets ∧ ∃ target ∈ targets, ReflTransGen graph.ReadBy id target

/-- What a stage waits for, and what targets need, is what their inputs lead back to. -/
theorem Built.exactClosures (built : graph.Built) : graph.ExactClosures := by
  have formed := built.wellFormed
  have before {first second : Nat} (depends : first ∈ graph.stageDeps second) : first < second :=
    List.mem_range.mp (List.mem_filter.mp depends).1
  have inside {first second : Nat} (depends : first ∈ graph.stageDeps second) :
      second < graph.stages.length := by
    obtain ⟨other, path⟩ := formed.mem_stageDeps.mp depends
    exact path_inside path other
  refine {
    reached := formed.mem_stageDeps
    ordered := List.pairwise_lt_range.filter _
    declared := fun depends => ⟨before depends, inside depends⟩
    transitive := fun {first second third} depends further => ?transitive
    irreflexive := fun depends => Nat.lt_irrefl _ (before depends)
    producers := fun {position node producer} here isProducer other => ?producers
    named := fun {second stage} here => ?named
    ancestors := formed.ancestors_eq_ok }
  case transitive =>
    have path := (formed.mem_stageDeps.mp depends).2
    have rest := (formed.mem_stageDeps.mp further).2
    have other := Nat.ne_of_lt (Nat.lt_trans (before depends) (before further))
    exact formed.mem_stageDeps.mpr ⟨other, path.trans rest⟩
  case producers =>
    have feeds : graph.Feeds (graph.stageOf producer) node.stage :=
      formed.feeds_iff.mpr ⟨node, List.mem_of_getElem? here, rfl, producer, isProducer, rfl⟩
    exact formed.mem_stageDeps.mpr ⟨other, .single feeds⟩
  case named =>
    rw [stagesBefore, findIdx?_of_nodup formed.stages here]
    exact forall₂_filterMap_getElem? fun first depends =>
      Nat.lt_trans (before depends) (inside depends)

/-- A task that gives one table and reads some others. -/
def tableTask (name : String) (inputs : List OutputRef) : Task where
  name := name
  version := "1"
  inputs := inputs
  body := fun _ => .error (.failed "not run")

/-- A reference to the output of `tableTask`. -/
def tableRef (stage name : String) : OutputRef := ⟨⟨stage, name⟩, 0, name, .table⟩

/-- Three tasks in a row. A stage without tasks stands between the last two. -/
def rowGraph : Graph where
  stages := ["load", "transform", "train", "check"]
  nodes := [
    ⟨⟨"load", "raw"⟩, 0, tableTask "raw" [], []⟩,
    ⟨⟨"transform", "features"⟩, 1, tableTask "features" [tableRef "load" "raw"], [0]⟩,
    ⟨⟨"check", "compare"⟩, 3, tableTask "compare" [tableRef "transform" "features"], [1]⟩]

theorem built_rowGraph : rowGraph.Built := by
  have load := @Built.addStage _ _ "load" .empty rfl
  have transform := @Built.addStage _ _ "transform" load rfl
  have train := @Built.addStage _ _ "train" transform rfl
  have stages := @Built.addStage _ _ "check" train rfl
  have raw := @Built.add _ _ "load" (tableTask "raw" []) stages rfl
  have features := @Built.add _ _ "transform" (tableTask "features" [tableRef "load" "raw"]) raw rfl
  exact @Built.add _ _ "check" (tableTask "compare" [tableRef "transform" "features"]) features rfl

/-- The last stage waits for the first one through the second. A target that is read by another
target is no ancestor, and what lies behind it is one. -/
theorem exactClosures_rowGraph :
    rowGraph.stageDeps 3 = [0, 1] ∧ rowGraph.ancestorPositions [2, 1] = [0] ∧
      rowGraph.ExactClosures :=
  ⟨by decide, by decide, Built.exactClosures built_rowGraph⟩

end TablePipeline.Graph
