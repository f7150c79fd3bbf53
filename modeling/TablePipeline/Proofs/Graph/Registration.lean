import TablePipeline.Graph.Builder
import TablePipeline.Proofs.Graph.Closure

/-! # Calls that are refused, and calls that are not

A builder that only calls have changed keeps its books right: they tell what a look at all tasks
would tell. So a call gives what the addition to the graph of the builder gives, and a call that is
refused has changed nothing. After any calls the builder therefore holds what the answered calls have
registered and nothing else, what holds of graphs that were built holds of its graph, and the next
call is refused only for what is in that graph.
-/

namespace TablePipeline

namespace GraphBuilder

variable {builder : GraphBuilder}

/-- A builder whose books agree with the graph that it has built. -/
structure Consistent (builder : GraphBuilder) : Prop where
  built : builder.build.Built
  index (id : TaskId) : builder.index.find? id = builder.build.position? id
  outputs (key : String × String) : key ∈ builder.outputs ↔ key ∈ builder.build.outputNames

/-- The tasks in the order in which they were registered, with their stages. -/
def tasks (builder : GraphBuilder) : List (String × Task) :=
  builder.nodes.map fun node => (node.id.stage, node.task)

/-- The builder once a task was added to its graph, and entered into both books. -/
def enter (builder : GraphBuilder) (stage : String) (task : Task) (graph : Graph) :
    GraphBuilder where
  stages := graph.stages
  nodes := graph.nodes
  index := builder.index.insert ⟨stage, task.name⟩ builder.nodes.length
  outputs := builder.outputs ++ task.outputs.map fun output => (stage, output.name)

@[simp]
theorem build_stages (builder : GraphBuilder) : builder.build.stages = builder.stages := rfl

@[simp]
theorem build_nodes (builder : GraphBuilder) : builder.build.nodes = builder.nodes := rfl

/-- Nothing is registered with a new builder, and nothing is in its books. -/
theorem consistent_new : Consistent {} :=
  ⟨.empty, fun _ => rfl, fun _ => .rfl⟩

/-- Outputs get the names they claim where neither the graph nor an output before them has them. -/
theorem claim_eq (stage : String) {claimed taken : List (String × String)}
    (same : ∀ key, key ∈ taken ↔ key ∈ builder.outputs ∨ key ∈ claimed)
    (outputs : List OutputSpec) :
    builder.claim stage claimed outputs = (Graph.requireNewOutputs stage taken outputs).map
      fun _ => claimed ++ outputs.map fun output => (stage, output.name) := by
  induction outputs generalizing claimed taken with
  | nil => simp [claim, Graph.requireNewOutputs, Except.map]
  | cons output rest ih =>
    rw [claim, Graph.requireNewOutputs]
    have found : (builder.outputs.contains (stage, output.name) ||
        claimed.contains (stage, output.name)) = true ↔ (stage, output.name) ∈ taken := by
      simp [same]
    by_cases known : (stage, output.name) ∈ taken
    · rw [if_pos known, if_pos (found.mpr known)]
      rfl
    · rw [if_neg known, if_neg (mt found.mp known)]
      have more (key : String × String) : key ∈ (stage, output.name) :: taken ↔
          key ∈ builder.outputs ∨ key ∈ claimed ++ [(stage, output.name)] := by
        simp only [List.mem_cons, List.mem_append, same, List.not_mem_nil, or_false]
        tauto
      simp [ih more]

/-- A stage is declared as it is added to the graph. -/
theorem stage_run (name : String) :
    (stage name).run builder =
      match builder.build.addStage name with
      | .ok graph => .ok () { builder with stages := graph.stages }
      | .error error => .error error builder := by
  by_cases known : name ∈ builder.stages
  · simp [stage, Graph.addStage, build, known]
  · simp [stage, Graph.addStage, build, known]

namespace Consistent

/-- Producers are found through the index as they are found in the graph. -/
theorem producer_eq (consistent : builder.Consistent) (id : TaskId) (stage : Nat)
    (input : OutputRef) :
    builder.producer id stage input = builder.build.producer id stage input := by
  have node : builder.build.node? input.task =
      (builder.build.position? input.task).bind (builder.nodes[·]?) :=
    List.find?_eq_bind_findIdx?_getElem?
  rw [producer, Graph.producer, consistent.index, node]
  cases builder.build.position? input.task with
  | none => rfl
  | some position =>
    cases here : builder.nodes[position]? with
    | none => simp [here]; rfl
    | some node => simp [here]; rfl

/-- A task is registered as it is added to the graph. A task that is refused leaves no trace. -/
theorem add_run (consistent : builder.Consistent) (stage : String) (task : Task) :
    (add stage task).run builder =
      match builder.build.add stage task with
      | .ok graph => .ok ⟨⟨stage, task.name⟩, task.refs stage⟩ (builder.enter stage task graph)
      | .error error => .error error builder := by
  have new (id : TaskId) : builder.index.contains id = (builder.build.position? id).isSome := by
    rw [← Dictionary.find?_isSome, consistent.index]
  have taken (key : String × String) :
      key ∈ builder.build.outputNames ↔ key ∈ builder.outputs ∨ key ∈ [] := by
    simp [consistent.outputs]
  have claims := claim_eq stage taken task.outputs
  have producers (position : Nat) := funext (consistent.producer_eq ⟨stage, task.name⟩ position)
  unfold add Graph.add
  cases placed : builder.stages.findIdx? (· = stage) with
  | none =>
    simp [placed]
    rfl
  | some position =>
    cases known : (builder.build.position? ⟨stage, task.name⟩).isSome with
    | true =>
      simp [placed, new, known]
      rfl
    | false =>
      cases given : task.inputs.mapM (builder.build.producer ⟨stage, task.name⟩ position) with
      | error error =>
        simp [placed, new, known, producers, given]
        rfl
      | ok found =>
        cases checked : Graph.requireNewOutputs stage builder.build.outputNames task.outputs with
        | error error =>
          simp [placed, new, known, producers, given, claims, checked]
          rfl
        | ok =>
          simp [placed, new, known, producers, given, claims, checked]
          rfl

/-- The books have nothing to say about stages. -/
theorem stage (consistent : builder.Consistent) {name : String} {graph : Graph}
    (added : builder.build.addStage name = .ok graph) :
    Consistent { builder with stages := graph.stages } := by
  have built := consistent.built.addStage added
  obtain ⟨_, rfl⟩ := Graph.addStage_eq_ok.mp added
  exact ⟨built, consistent.index, consistent.outputs⟩

/-- The books are right again once a task is registered. -/
theorem add (consistent : builder.Consistent) {stage : String} {task : Task} {graph : Graph}
    (added : builder.build.add stage task = .ok graph) :
    (builder.enter stage task graph).Consistent := by
  have built := consistent.built.add added
  obtain ⟨_, _, _, new, _, _, rfl⟩ := Graph.add_eq_ok added
  refine ⟨built, fun id => ?_, fun key => ?_⟩
  · rw [enter, Dictionary.find?_insert, consistent.index]
    simp only [Graph.position?, build, List.findIdx?_append]
    by_cases same : id = ⟨stage, task.name⟩
    · -- No older task has the identity, so the new one is the first that does.
      subst same
      have absent : builder.nodes.findIdx? (·.id = ⟨stage, task.name⟩) = none :=
        List.findIdx?_eq_none_iff.mpr fun node member => decide_eq_false (new node member)
      simp [absent]
    · simp [same, Ne.symm same]
  · simp [enter, consistent.outputs, Graph.outputNames, build]

end Consistent

end GraphBuilder

namespace BuilderCall

variable {builder : GraphBuilder}

/-- The stage that a call declares. -/
def stage? : BuilderCall → Option String
  | .stage name => some name
  | .add .. => none

/-- The task that a call registers, with its stage. -/
def task? : BuilderCall → Option (String × Task)
  | .stage _ => none
  | .add name task => some (name, task)

/-- Some calls register what they are about behind all that a builder holds, and nothing else. -/
structure Enter (calls : List BuilderCall) (builder last : GraphBuilder) : Prop where
  consistent : last.Consistent
  stages : last.stages = builder.stages ++ calls.filterMap (·.stage?)
  tasks : last.tasks = builder.tasks ++ calls.filterMap (·.task?)

theorem Enter.cons {call : BuilderCall} {rest : List BuilderCall} {builder next last : GraphBuilder}
    (first : Enter [call] builder next) (others : Enter rest next last) :
    Enter (call :: rest) builder last := by
  refine ⟨others.consistent, ?_, ?_⟩
  · rw [others.stages, first.stages, List.append_assoc, ← List.filterMap_append]
    rfl
  · rw [others.tasks, first.tasks, List.append_assoc, ← List.filterMap_append]
    rfl

/-- A stage is refused only if it is there already. -/
theorem make_stage_isOk (name : String) :
    ((BuilderCall.stage name).make builder).1.isOk = true ↔ name ∉ builder.stages := by
  simp only [make, EStateM.run_bind, GraphBuilder.stage_run, Graph.addStage]
  by_cases known : name ∈ builder.stages
  · simp [known, Except.isOk, Except.toBool]
  · simp [known, Except.isOk, Except.toBool]

/-- A task is refused only if it cannot be added to the graph. -/
theorem make_add_isOk (consistent : builder.Consistent) {stage : String} {task : Task} :
    ((BuilderCall.add stage task).make builder).1.isOk = true ↔
      ∃ position, builder.build.Accepts stage task position := by
  rw [← consistent.built.wellFormed.add_isOk]
  simp only [make, EStateM.run_bind, consistent.add_run]
  cases builder.build.add stage task <;> rfl

/-- A call is refused and changes nothing, or it is answered and enters what it is about. -/
theorem make_cases (consistent : builder.Consistent) (call : BuilderCall) :
    (∃ error, call.make builder = (.error error, builder)) ∨
      ∃ handle next, call.make builder = (.ok handle, next) ∧ Enter [call] builder next := by
  cases call with
  | stage name =>
    simp only [make, EStateM.run_bind, GraphBuilder.stage_run]
    cases added : builder.build.addStage name with
    | error error => exact .inl ⟨error, rfl⟩
    | ok graph =>
      refine .inr ⟨none, _, rfl, consistent.stage added, ?_, ?_⟩
      · obtain ⟨_, rfl⟩ := Graph.addStage_eq_ok.mp added
        rfl
      · exact (List.append_nil _).symm
  | add stage task =>
    simp only [make, EStateM.run_bind, consistent.add_run]
    cases added : builder.build.add stage task with
    | error error => exact .inl ⟨error, rfl⟩
    | ok graph =>
      refine .inr ⟨some ⟨⟨stage, task.name⟩, task.refs stage⟩, _, rfl, consistent.add added, ?_, ?_⟩
      all_goals obtain ⟨_, _, _, _, _, _, rfl⟩ := Graph.add_eq_ok added
      · exact (List.append_nil _).symm
      · simp [GraphBuilder.enter, GraphBuilder.tasks, task?]

/-- The calls with answers that are not refusals. -/
def answered (calls : List BuilderCall) (answers : List BuilderAnswer) : List BuilderCall :=
  ((calls.zip answers).filter (·.2.isOk)).map (·.1)

/-- The calls that were not refused give by themselves the answers they gave among all calls, and
the builder that all calls gave. It holds what they have entered. -/
theorem makeAll_answered (consistent : builder.Consistent) (calls : List BuilderCall) :
    makeAll (answered calls (makeAll calls builder).1) builder =
        ((makeAll calls builder).1.filter (·.isOk), (makeAll calls builder).2) ∧
      Enter (answered calls (makeAll calls builder).1) builder (makeAll calls builder).2 := by
  induction calls generalizing builder with
  | nil => exact ⟨rfl, consistent, (List.append_nil _).symm, (List.append_nil _).symm⟩
  | cons call rest ih =>
    rcases make_cases consistent call with ⟨error, refused⟩ | ⟨handle, next, made, enter⟩
    · -- The call is left out, and the others start where it would have started.
      simp only [makeAll, refused]
      exact ih consistent
    · obtain ⟨same, others⟩ := ih enter.consistent
      have first : answered (call :: rest) (.ok handle :: (makeAll rest next).1) =
          call :: answered rest (makeAll rest next).1 := rfl
      simp only [makeAll, made, first, same]
      exact ⟨rfl, enter.cons others⟩

end BuilderCall

namespace GraphBuilder

/-- What a new builder answers to some calls. -/
def answers (calls : List BuilderCall) : List BuilderAnswer :=
  (BuilderCall.makeAll calls {}).1

/-- What some calls make of a new builder. -/
def after (calls : List BuilderCall) : GraphBuilder :=
  (BuilderCall.makeAll calls {}).2

/-- The calls that a new builder does not refuse. -/
def accepted (calls : List BuilderCall) : List BuilderCall :=
  BuilderCall.answered calls (answers calls)

/-- What holds of a builder that has accepted some calls. -/
structure Registers (builder : GraphBuilder) (accepted : List BuilderCall) : Prop where
  /-- The stages and the tasks are those of the calls, in their order. -/
  stages : builder.stages = accepted.filterMap (·.stage?)
  tasks : builder.tasks = accepted.filterMap (·.task?)
  /-- Stages, tasks and the outputs of each stage have names of their own, and every input has a
  producer, of an earlier task in the same stage or in one before it, which declares what it asks
  for. -/
  formed : builder.build.WellFormed
  /-- The index has the place of every task, and nothing else. -/
  index (id : TaskId) (place : Nat) : builder.index.find? id = some place ↔
    ∃ node, builder.nodes[place]? = some node ∧ node.id = id
  /-- Only the outputs of tasks take names. -/
  outputs (name : String × String) : name ∈ builder.outputs ↔ name ∈ builder.build.outputNames
  /-- What a task reads, through any number of other tasks, stands before it. -/
  acyclic (reader place : Nat) : builder.build.Reads reader place → place < reader
  /-- A stage is refused only if it is there, and a task only if the graph does not accept it. -/
  next_stage (name : String) :
    ((BuilderCall.stage name).make builder).1.isOk = true ↔ name ∉ builder.stages
  next_task (stage : String) (task : Task) :
    ((BuilderCall.add stage task).make builder).1.isOk = true ↔
      ∃ position, builder.build.Accepts stage task position

/-- After any calls of a new builder, of which any may have been refused, the builder is as if the
others had been made alone, and it holds what they have registered. -/
theorem after_calls (calls : List BuilderCall) :
    after (accepted calls) = after calls ∧
      answers (accepted calls) = (answers calls).filter (·.isOk) ∧
      (after calls).Registers (accepted calls) := by
  obtain ⟨same, enter⟩ := BuilderCall.makeAll_answered consistent_new calls
  have right : (after calls).Consistent := enter.consistent
  have formed := right.built.wellFormed
  refine ⟨congrArg (·.2) same, congrArg (·.1) same, ?_⟩
  exact
    { stages := enter.stages
      tasks := enter.tasks
      formed
      index := fun id place => (right.index id).symm ▸ formed.position?_eq_some
      outputs := right.outputs
      acyclic := fun reader place => formed.reads_lt
      next_stage := fun name => BuilderCall.make_stage_isOk name
      next_task := fun stage task => BuilderCall.make_add_isOk right }

/-- A task that is refused for its second output does not keep the name of the first. -/
example (body : TaskBody) :
    let double : Task :=
      { name := "double", version := "1", body, declared := [⟨"x", .table⟩, ⟨"x", .blob⟩] }
    let single : Task := { name := "single", version := "1", body, declared := [⟨"x", .table⟩] }
    (answers [.stage "load", .add "load" double, .add "load" single]).map (·.isOk) =
      [true, false, true] := by
  rfl

end GraphBuilder

end TablePipeline
