import TablePipeline.Proofs.Run.Effects

/-! # Outputs are kept apart

Invocations, runs and addresses are hashed in three domains, and what is hashed determines all that
it covers. An address covers the fingerprint that its output is stored under, and so, through any
number of digests, the stage and the name of the task, whichever namespace the stage has. Hence two
outputs of a graph never meet in the store, unless two different byte strings have one digest.
-/

namespace TablePipeline

/-- What is hashed can be read back. -/
structure Fingerprint.Unambiguous : Prop where
  /-- The bytes that are hashed determine the domain and the fields with their order. -/
  fields : ∀ {domain domain' : String} {fields fields' : List Field},
    Fits domain fields → Fits domain' fields' →
    encode domain fields = encode domain' fields' → domain = domain' ∧ fields = fields'
  /-- Those of an invocation determine the recipe of the task, and the digests of its inputs with
  their order. -/
  invocation : ∀ {task task' : Task} {id id' : TaskId} {inputs inputs' : List Address},
    Fits "task" (task.fields id inputs) → Fits "task" (task'.fields id' inputs') →
    encode "task" (task.fields id inputs) = encode "task" (task'.fields id' inputs') →
    task.recipe id = task'.recipe id' ∧ inputs.map (·.digest) = inputs'.map (·.digest)
  /-- The bytes of an invocation, of a run and of an address are never the same. -/
  domains : ["task", "nonce", "address"].Pairwise fun domain domain' =>
    ∀ fields fields', encode domain fields ≠ encode domain' fields'

theorem Fingerprint.unambiguous : Fingerprint.Unambiguous where
  fields := encode_injOn
  invocation fits fits' same := Task.fields_inj (encode_injOn fits fits' same).2
  domains := by
    have short : ∀ domain ∈ ["task", "nonce", "address"], (Bytes.ofText domain).Fits := by
      decide +kernel
    have distinct : ["task", "nonce", "address"].Nodup := by decide
    exact distinct.imp_of_mem fun member member' differ =>
      encode_ne_of_domain (short _ member) (short _ member') differ

namespace Graph.WellFormed

variable {graph : Graph} {position position' index index' : Nat} {node node' : TaskNode}
  {spec spec' : OutputSpec}

/-- Tasks at different positions have different identities. -/
theorem position_inj (formed : graph.WellFormed) (isNode : graph.nodes[position]? = some node)
    (isNode' : graph.nodes[position']? = some node') (same : node.id = node'.id) :
    position = position' := by
  have found := formed.position?_id isNode
  rw [same, formed.position?_id isNode'] at found
  exact (Option.some.inj found).symm

/-- An output is told by its task and its name. -/
theorem output_inj (formed : graph.WellFormed) (isNode : graph.nodes[position]? = some node)
    (isNode' : graph.nodes[position']? = some node')
    (isOutput : node.task.outputs[index]? = some spec)
    (isOutput' : node'.task.outputs[index']? = some spec') (ids : node.id = node'.id)
    (names : spec.name = spec'.name) : (position, index) = (position', index') := by
  cases formed.position_inj isNode isNode' ids
  cases isNode.symm.trans isNode'
  have distinct := formed.distinct (List.mem_of_getElem? isNode)
  have inside := (List.getElem?_eq_some_iff.mp isOutput).1
  refine congrArg (Prod.mk position)
    ((List.getElem?_inj (by simpa using inside) distinct).mp ?_)
  rw [List.getElem?_map, List.getElem?_map, isOutput, isOutput', Option.map_some, names,
    Option.map_some]

end Graph.WellFormed

/-- What is hashed can be read back, so the addresses of two outputs of a graph have different
digests, whatever the tasks read and whatever the namespaces of their stages are, unless two of the
byte strings that are hashed for the two tasks have the same digest. -/
theorem digest_ne_of_outputs {config : RunConfig} {graph : Graph} {plan : RunPlan}
    (built : graph.Built) (plans : config.Plans graph plan)
    {position position' index index' : Nat} {node node' : TaskNode} {spec spec' : OutputSpec}
    (isNode : plan.graph.nodes[position]? = some node)
    (isNode' : plan.graph.nodes[position']? = some node')
    (isOutput : node.task.outputs[index]? = some spec)
    (isOutput' : node'.task.outputs[index']? = some spec')
    (differ : (position, index) ≠ (position', index'))
    {started started' : StartedTask} {job job' : Job} (isJob : job = plan.job node started)
    (isJob' : job' = plan.job node' started') {runs : Set Nat} {place place' : Fingerprint}
    (placed : job.Place runs place) (placed' : job'.Place runs place')
    (noCollision : NoCollision {job, job'} runs) :
    Fingerprint.Unambiguous ∧
      (job.key place spec).address.digest ≠ (job'.key place' spec').address.digest := by
  refine ⟨Fingerprint.unambiguous, fun same => differ ?_⟩
  have formed := (plans.sound built).formed
  have isSpec : spec ∈ job.task.outputs := by
    rw [isJob]
    exact List.mem_of_getElem? isOutput
  have isSpec' : spec' ∈ job'.task.outputs := by
    rw [isJob']
    exact List.mem_of_getElem? isOutput'
  have isKey : job.Keys runs (job.key place spec) := ⟨place, placed, spec, isSpec, rfl⟩
  have isKey' : job'.Keys runs (job'.key place' spec') := ⟨place', placed', spec', isSpec', rfl⟩
  have ids : job.id = job'.id :=
    noCollision.id_eq_of_digest (.inl rfl) (.inr rfl) isKey isKey' same
  have keys := noCollision.key_eq_of_digest (.inl rfl) (.inr rfl) isKey isKey' same
  rw [isJob, isJob'] at ids
  exact formed.output_inj isNode isNode' isOutput isOutput' ids (congrArg OutputKey.name keys)

/-- A task that gives a page. -/
def pageTask : Task where
  name := "page"
  version := "1"
  declared := [⟨"page", .blob⟩]
  body := fun _ => .ok [.blob ⟨"page", [7]⟩]

/-- Two stages that have the same task, with the same output. -/
def pageGraph : Graph where
  stages := ["draft", "print"]
  nodes := [⟨⟨"draft", "page"⟩, 0, pageTask, []⟩, ⟨⟨"print", "page"⟩, 1, pageTask, []⟩]

theorem built_pageGraph : pageGraph.Built := by
  have draft := @Graph.Built.addStage _ _ "draft" .empty rfl
  have stages := @Graph.Built.addStage _ _ "print" draft rfl
  have drafted := @Graph.Built.add _ _ "draft" pageTask stages rfl
  exact @Graph.Built.add _ _ "print" pageTask drafted rfl

/-- Both stages have the same namespace. -/
def sharedConfig : RunConfig where
  stageNamespaces := ⟨[("draft", "all"), ("print", "all")]⟩

/-- The job of the page of a stage. -/
def pageJob (stage : String) : Job :=
  ⟨⟨stage, "page"⟩, "all", pageTask, []⟩

/-- All that is hashed for the two pages has different digests. -/
theorem noCollision_pageJob (runs : Set Nat) :
    NoCollision {pageJob "draft", pageJob "print"} runs := by
  let hashes : List Bytes := (pageJob "draft").hashed ++ (pageJob "print").hashed
  have differ : (hashes.map Digest.of).Nodup := by
    refine Digest.nodup_of_firsts [221, 193, 37, 239] ?_ (by decide)
    refine .cons ?_ (.cons ?_ (.cons ?_ (.cons ?_ .nil)))
    all_goals decide +kernel
  have fit : ∀ bytes ∈ hashes, bytes.Fits := by decide +kernel
  have listed {job : Job} (isJob : job ∈ ({pageJob "draft", pageJob "print"} : Set Job))
      {bytes : Bytes} (member : bytes ∈ job.hashed) : bytes ∈ hashes := by
    rcases isJob with rfl | rfl
    · exact List.mem_append_left _ member
    · exact List.mem_append_right _ member
  have collisionless : Collisionless {pageJob "draft", pageJob "print"} := by
    constructor
    · rintro bytes ⟨job, isJob, member⟩ other ⟨job', isJob', member'⟩ same
      exact List.inj_on_of_nodup_map differ (listed isJob member) (listed isJob' member') same
    · exact fun job isJob bytes member => fit bytes (listed isJob member)
  refine collisionless.noCollision (fun job isJob => ?_) runs
  rcases isJob with rfl | rfl
  · rfl
  · rfl

/-- Two pages of the same name are stored in one namespace, at different addresses. -/
theorem digest_ne_pageGraph :
    let plan := sharedConfig.fullPlan pageGraph
    let draft := plan.job ⟨⟨"draft", "page"⟩, 0, pageTask, []⟩ ⟨0, .normal, []⟩
    let print := plan.job ⟨⟨"print", "page"⟩, 1, pageTask, []⟩ ⟨1, .normal, []⟩
    NoCollision {draft, print} ∅ ∧ draft.namespaceName = print.namespaceName ∧
      (draft.key draft.fingerprint ⟨"page", .blob⟩).address.digest ≠
        (print.key print.fingerprint ⟨"page", .blob⟩).address.digest := by
  intro plan draft print
  have namespaces : ∀ stage ∈ pageGraph.stages, sharedConfig.namespaceOf stage = "all" := by
    decide +kernel
  have isDraft : draft = pageJob "draft" := congrArg (Job.mk _ · _ _) (namespaces _ (.head _))
  have isPrint : print = pageJob "print" :=
    congrArg (Job.mk _ · _ _) (namespaces _ (.tail _ (.head _)))
  have noCollision : NoCollision {draft, print} ∅ := by
    rw [isDraft, isPrint]
    exact noCollision_pageJob ∅
  have together : draft.namespaceName = print.namespaceName := by
    rw [isDraft, isPrint]
    rfl
  refine ⟨noCollision, together, ?_⟩
  exact (@digest_ne_of_outputs sharedConfig _ _ built_pageGraph .full 0 1 0 0 _ _ ⟨"page", .blob⟩
    ⟨"page", .blob⟩ rfl rfl rfl rfl (by decide) _ _ _ _ rfl rfl _ _ _ .own .own noCollision).2

end TablePipeline
