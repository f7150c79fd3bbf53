import TablePipeline.Graph.Reach
import TablePipeline.Proofs.Except

/-! # Graphs that were built

A graph is built from the empty one by adding stages and tasks. What every such graph satisfies is
kept in one structure, `Graph.WellFormed`; the two ways of adding are taken apart once, and the rest
of the theory reads the fields.
-/

namespace TablePipeline.Graph

/-- A graph that some successful additions lead to. -/
inductive Built : Graph → Prop where
  | empty : Built .empty
  | addStage {graph next : Graph} {stage : String} (built : Built graph)
      (added : graph.addStage stage = .ok next) : Built next
  | add {graph next : Graph} {stage : String} {task : Task} (built : Built graph)
      (added : graph.add stage task = .ok next) : Built next

/-- The task at a position gives an input to a task that stands behind it in some stage. -/
structure Gives (graph : Graph) (reader stage : Nat) (input : OutputRef) (producer : Nat) :
    Prop where
  earlier : producer < reader
  source : ∃ node, graph.nodes[producer]? = some node ∧ node.id = input.task ∧
    node.stage ≤ stage ∧ node.task.outputs[input.index]? = some ⟨input.name, input.kind⟩

/-- What holds of every graph that was built. -/
structure WellFormed (graph : Graph) : Prop where
  stages : graph.stages.Nodup
  ids : (graph.nodes.map (·.id)).Nodup
  outputs : graph.outputNames.Nodup
  staged : ∀ {position : Nat} {node : TaskNode}, graph.nodes[position]? = some node →
    graph.stages[node.stage]? = some node.id.stage
  gives : ∀ {position : Nat} {node : TaskNode}, graph.nodes[position]? = some node →
    List.Forall₂ (graph.Gives position node.stage) node.task.inputs node.producers

/-- A stage is added under a new name. -/
theorem addStage_eq_ok {graph next : Graph} {stage : String} :
    graph.addStage stage = .ok next ↔
      stage ∉ graph.stages ∧ next = { graph with stages := graph.stages ++ [stage] } := by
  unfold addStage
  split
  · simp [*]
  · simp [*, eq_comm]

/-- A producer is a task of the graph that declares the output that is asked for, in the stage of
the reader or before it. -/
theorem producer_eq_ok {graph : Graph} {id : TaskId} {stage : Nat} {input : OutputRef}
    {producer : Nat} (found : graph.producer id stage input = .ok producer) :
    graph.Gives graph.size stage input producer := by
  unfold Graph.producer at found
  split at found
  · rename_i position node placed known
    split at found
    · cases found
    · split at found
      · cases found
      · rename_i declares ordered
        cases found
        obtain ⟨bound, named, _⟩ := List.findIdx?_eq_some_iff_getElem.mp placed
        rw [position?] at placed
        rw [node?, List.find?_eq_bind_findIdx?_getElem?, placed, Option.bind_some] at known
        obtain ⟨_, same⟩ := List.getElem?_eq_some_iff.mp known
        refine ⟨bound, node, known, ?_, Nat.le_of_not_lt ordered, Classical.not_not.mp declares⟩
        rw [← same]
        exact of_decide_eq_true named
  · cases found

/-- A task is added under a new identity, to a stage that is there, with its producers. -/
theorem add_eq_ok {graph next : Graph} {stage : String} {task : Task}
    (added : graph.add stage task = .ok next) :
    ∃ position producers, graph.stages[position]? = some stage ∧
      (∀ node ∈ graph.nodes, node.id ≠ ⟨stage, task.name⟩) ∧
      List.Forall₂ (graph.Gives graph.size position) task.inputs producers ∧
      requireNewOutputs stage graph.outputNames task.outputs = .ok () ∧
      next = { graph with
        nodes := graph.nodes ++ [⟨⟨stage, task.name⟩, position, task, producers⟩] } := by
  unfold add at added
  split at added
  · rename_i position placed
    simp only [throw_bind, guard_eq_ok, bind_eq_ok, pure_eq_ok, mapM_eq_ok] at added
    obtain ⟨new, producers, given, _, outputs, rfl⟩ := added
    obtain ⟨bound, named, _⟩ := List.findIdx?_eq_some_iff_getElem.mp placed
    refine ⟨position, producers, ?_, ?_, given.imp fun _ _ => producer_eq_ok, outputs, rfl⟩
    · rw [List.getElem?_eq_getElem bound, of_decide_eq_true named]
    · intro node member same
      refine new (List.findIdx?_isSome.trans (List.any_eq_true.mpr ⟨node, member, ?_⟩))
      exact decide_eq_true same
  · cases added

/-- Checked outputs have new names that do not repeat. -/
theorem nodup_of_requireNewOutputs {stage : String} {taken : List (String × String)}
    {outputs : List OutputSpec} (checked : requireNewOutputs stage taken outputs = .ok ())
    (distinct : taken.Nodup) :
    (taken ++ outputs.map fun output => (stage, output.name)).Nodup := by
  induction outputs generalizing taken with
  | nil => simpa using distinct
  | cons output rest ih =>
    rw [requireNewOutputs] at checked
    split at checked
    · cases checked
    · rename_i new
      have others := ih checked (List.nodup_cons.mpr ⟨new, distinct⟩)
      rw [List.map_cons]
      exact (List.perm_middle.symm.nodup_iff).mp others

/-- Outputs with new names that do not repeat pass the check. -/
theorem requireNewOutputs_of_nodup {stage : String} {taken : List (String × String)}
    {outputs : List OutputSpec}
    (distinct : (taken ++ outputs.map fun output => (stage, output.name)).Nodup) :
    requireNewOutputs stage taken outputs = .ok () := by
  induction outputs generalizing taken with
  | nil => rfl
  | cons output rest ih =>
    have others := List.perm_middle.nodup_iff.mp distinct
    have new : (stage, output.name) ∉ taken := fun isTaken =>
      (List.nodup_cons.mp others).1 (List.mem_append_left _ isTaken)
    rw [requireNewOutputs, if_neg new]
    exact ih others

/-- What a task is given stays with it while the graph grows. -/
theorem Gives.grow {graph next : Graph} {reader stage : Nat} {input : OutputRef} {producer : Nat}
    (gives : graph.Gives reader stage input producer)
    (grows : ∀ {position : Nat} {node : TaskNode}, graph.nodes[position]? = some node →
      next.nodes[position]? = some node) : next.Gives reader stage input producer := by
  obtain ⟨earlier, node, here, rest⟩ := gives
  exact ⟨earlier, node, grows here, rest⟩

/-- A list with one more element has its old elements where they were, and the new one behind. -/
private theorem getElem?_concat {α : Type} {items : List α} {last item : α} {position : Nat} :
    (items ++ [last])[position]? = some item ↔
      items[position]? = some item ∨ position = items.length ∧ last = item := by
  rcases Nat.lt_trichotomy position items.length with before | here | behind
  · rw [List.getElem?_append_left before]
    simp [Nat.ne_of_lt before]
  · subst here
    simp
  · rw [List.getElem?_eq_none (List.length_append ▸ behind),
      List.getElem?_eq_none (Nat.le_of_lt behind)]
    simp [Nat.ne_of_gt behind]

/-- An element of a list without repetitions is found where it stands. -/
theorem findIdx?_of_nodup {α : Type} [DecidableEq α] {items : List α} (distinct : items.Nodup)
    {place : Nat} {item : α} (here : items[place]? = some item) :
    items.findIdx? (· = item) = some place := by
  obtain ⟨inside, rfl⟩ := List.getElem?_eq_some_iff.mp here
  refine List.findIdx?_eq_some_iff_getElem.mpr ⟨inside, decide_eq_true rfl, ?_⟩
  intro other before same
  have differ := List.pairwise_iff_getElem.mp distinct other place (by omega) inside before
  exact differ (of_decide_eq_true same)

/-- Every graph that was built is well formed. -/
theorem Built.wellFormed {graph : Graph} (built : Built graph) : graph.WellFormed := by
  induction built with
  | empty => exact ⟨.nil, .nil, .nil, nofun, nofun⟩
  | @addStage graph next stage built added ih =>
    obtain ⟨new, rfl⟩ := addStage_eq_ok.mp added
    refine ⟨?_, ih.ids, ih.outputs, fun here => ?_, fun here => ?_⟩
    · rw [List.nodup_append]
      refine ⟨ih.stages, List.pairwise_singleton .., fun old member last isNew same => new ?_⟩
      rw [← List.mem_singleton.mp isNew, ← same]
      exact member
    · exact getElem?_concat.mpr (.inl (ih.staged here))
    · exact (ih.gives here).imp fun _ _ given => given.grow id
  | @add graph next stage task built added ih =>
    obtain ⟨position, producers, placed, new, given, outputs, rfl⟩ := add_eq_ok added
    have grows {place : Nat} {node : TaskNode} (here : graph.nodes[place]? = some node) :
        (graph.nodes ++ [⟨⟨stage, task.name⟩, position, task, producers⟩])[place]? = some node :=
      getElem?_concat.mpr (.inl here)
    refine ⟨ih.stages, ?_, ?_, fun here => ?_, fun here => ?_⟩
    · rw [List.map_append, List.nodup_append]
      refine ⟨ih.ids, List.pairwise_singleton .., fun old member last isNew same => ?_⟩
      obtain ⟨node, isNode, rfl⟩ := List.mem_map.mp member
      exact new node isNode (same.trans (List.mem_singleton.mp isNew))
    · have distinct := nodup_of_requireNewOutputs outputs ih.outputs
      simpa only [outputNames, List.flatMap_append, List.flatMap_cons, List.flatMap_nil,
        List.append_nil] using distinct
    · rcases getElem?_concat.mp here with old | ⟨_, rfl⟩
      · exact ih.staged old
      · exact placed
    · rcases getElem?_concat.mp here with old | ⟨rfl, rfl⟩
      · exact (ih.gives old).imp fun _ _ given => given.grow grows
      · exact given.imp fun _ _ given => given.grow grows

namespace WellFormed

variable {graph : Graph} {position producer : Nat} {node : TaskNode}

/-- A producer is a task of the graph, of the stage of its reader or of one before it. -/
theorem producer_spec (formed : graph.WellFormed) (here : graph.nodes[position]? = some node)
    (member : producer ∈ node.producers) :
    producer < position ∧ ∃ source, graph.nodes[producer]? = some source ∧
      source.stage ≤ node.stage := by
  obtain ⟨input, _, given⟩ := exists_of_mem_right (formed.gives here) member
  obtain ⟨earlier, source, isNode, _, ordered, _⟩ := given
  exact ⟨earlier, source, isNode, ordered⟩

/-- The stage of a task is a stage of the graph. -/
theorem stage_lt (formed : graph.WellFormed) (here : graph.nodes[position]? = some node) :
    node.stage < graph.stages.length :=
  (List.getElem?_eq_some_iff.mp (formed.staged here)).1

/-- The position of a task is found by its identity. -/
theorem position?_id (formed : graph.WellFormed) (here : graph.nodes[position]? = some node) :
    graph.position? node.id = some position := by
  have named : (graph.nodes.map (·.id))[position]? = some node.id := by
    rw [List.getElem?_map, here, Option.map_some]
  have found := findIdx?_of_nodup formed.ids named
  rwa [List.findIdx?_map] at found

/-- A position is found for an identity if the task there has it. -/
theorem position?_eq_some (formed : graph.WellFormed) {id : TaskId} :
    graph.position? id = some position ↔
      ∃ node, graph.nodes[position]? = some node ∧ node.id = id := by
  constructor
  · intro found
    obtain ⟨inside, named, _⟩ := List.findIdx?_eq_some_iff_getElem.mp found
    exact ⟨_, List.getElem?_eq_getElem inside, of_decide_eq_true named⟩
  · rintro ⟨node, isNode, rfl⟩
    exact formed.position?_id isNode

/-- What can be given to a task is found as the producer of its input. -/
theorem producer_of_gives (formed : graph.WellFormed) {id : TaskId} {reader stage : Nat}
    {input : OutputRef} (gives : graph.Gives reader stage input producer) :
    graph.producer id stage input = .ok producer := by
  obtain ⟨_, node, here, named, ordered, declares⟩ := gives
  have placed : graph.position? input.task = some producer := named ▸ formed.position?_id here
  have known : graph.node? input.task = some node := by
    rw [node?, List.find?_eq_bind_findIdx?_getElem?, ← position?, placed, Option.bind_some, here]
  rw [Graph.producer, placed, known]
  simp [declares, Nat.not_lt.mpr ordered]

end WellFormed

/-! ## What can be added -/

/-- Can a task be added to the stage at a position? It has a new name there, every input leads to a
declared output, and its outputs have new names. -/
structure Accepts (graph : Graph) (stage : String) (task : Task) (position : Nat) : Prop where
  declared : graph.stages[position]? = some stage
  new : ∀ node ∈ graph.nodes, node.id ≠ ⟨stage, task.name⟩
  inputs : ∀ input ∈ task.inputs, ∃ producer, graph.Gives graph.size position input producer
  outputs : (graph.outputNames ++ task.outputs.map fun output => (stage, output.name)).Nodup

/-- A task is added exactly where it can be. -/
theorem WellFormed.add_isOk {graph : Graph} (formed : graph.WellFormed) {stage : String}
    {task : Task} :
    (graph.add stage task).isOk = true ↔ ∃ position, graph.Accepts stage task position := by
  constructor
  · intro isOk
    cases added : graph.add stage task with
    | error error =>
      rw [added] at isOk
      cases isOk
    | ok next =>
      obtain ⟨position, producers, placed, new, given, checked, rfl⟩ := add_eq_ok added
      refine ⟨position, placed, new, fun input member => ?_, ?_⟩
      · obtain ⟨producer, _, gives⟩ := exists_of_mem_left given member
        exact ⟨producer, gives⟩
      · exact nodup_of_requireNewOutputs checked formed.outputs
  · rintro ⟨position, accepts⟩
    have placed := findIdx?_of_nodup formed.stages accepts.declared
    have absent : graph.position? ⟨stage, task.name⟩ = none :=
      List.findIdx?_eq_none_iff.mpr fun node member => decide_eq_false (accepts.new node member)
    obtain ⟨producers, given⟩ : ∃ producers,
        task.inputs.mapM (graph.producer ⟨stage, task.name⟩ position) = .ok producers := by
      refine exists_mapM fun input member => ?_
      obtain ⟨producer, gives⟩ := accepts.inputs input member
      exact ⟨producer, formed.producer_of_gives gives⟩
    have checked := requireNewOutputs_of_nodup accepts.outputs
    rw [add, placed]
    simp [absent, given, checked]
    rfl

end TablePipeline.Graph
