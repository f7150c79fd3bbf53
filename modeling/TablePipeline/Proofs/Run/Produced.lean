import Mathlib.Data.List.Nodup
import Mathlib.Data.Set.Function
import TablePipeline.Proofs.Except
import TablePipeline.Proofs.Task.Invocation
import TablePipeline.Run.Materialize

/-! # What jobs give

A deterministic job has one list of outputs that its body gives, wherever and whenever it runs. An
output is made, if it is among those of a job whose inputs were made. As long as no two of the byte
strings that are hashed have the same digest, the digest of an address determines what was made
there, through any number of tasks.
-/

namespace TablePipeline

/-- What tasks do, told from their recipes: a body is a function of its input artifacts. -/
abbrev Bodies := Recipe → List Artifact → Except TaskError (List Artifact)

/-- Elements can be told apart by a function if they are equal where its values are. -/
theorem eq_of_map_eq {α β : Type} {f : α → β} {items others : List α}
    (determines : ∀ item ∈ items, ∀ other ∈ others, f item = f other → item = other)
    (same : items.map f = others.map f) : items = others := by
  induction items generalizing others with
  | nil => exact (List.map_eq_nil_iff.mp same.symm).symm
  | cons item items ih =>
    cases others with
    | nil => cases same
    | cons other others =>
      rw [List.map_cons, List.map_cons, List.cons.injEq] at same
      rw [determines item (.head _) other (.head _) same.1, ih ?_ same.2]
      exact fun item member other member' =>
        determines item (.tail _ member) other (.tail _ member')

namespace Job

/-- What the fingerprint of a job is the digest of. -/
def invocation (job : Job) : Bytes :=
  Fingerprint.encode "task" (job.task.fields job.id (job.inputs.map (·.address)))

/-- What the digest of the address of an output is the digest of. -/
def place (job : Job) (name : String) : Bytes :=
  Fingerprint.encode "address" (Address.fields job.namespaceName name job.fingerprint)

/-- Jobs with the same fingerprint have the same recipe, and inputs with the same digests, if what
the two fingerprints cover has not the same digest by accident. -/
theorem fingerprint_inj {job job' : Job}
    (digests : Set.InjOn Digest.of {job.invocation, job'.invocation}) (fits : job.invocation.Fits)
    (same : job.fingerprint = job'.fingerprint) :
    job.task.recipe job.id = job'.task.recipe job'.id ∧
      job.inputs.map (·.address.digest) = job'.inputs.map (·.address.digest) := by
  have bytes : job.invocation = job'.invocation :=
    digests (.inl rfl) (.inr rfl) (congrArg Fingerprint.digest same)
  obtain ⟨recipe, digests⟩ := Task.fields_inj (Fingerprint.encode_inj fits bytes).2
  rw [List.map_map, List.map_map] at digests
  exact ⟨recipe, digests⟩

/-- The byte strings that are hashed to materialise a job. -/
def hashed (job : Job) : List Bytes :=
  job.invocation :: job.task.outputs.map fun spec => job.place spec.name

/-- Where an output of a job is stored. -/
def address (job : Job) (name : String) : Address :=
  .ofFingerprint job.namespaceName name job.fingerprint

/-- What a job gives when its body runs. -/
def given (job : Job) : Except TaskError (List StoredOutput) :=
  (Workshop.execute {} job).2

/-- Is a job deterministic, with a body as it is told from its recipe? -/
structure Lawful (bodies : Bodies) (job : Job) : Prop where
  deterministic : job.task.determinism = .deterministic
  body : ∀ runs, job.task.body (job.context runs) =
    bodies (job.task.recipe job.id) (job.inputs.map (·.artifact))
  distinct : (job.task.outputs.map (·.name)).Nodup

/-- An artifact as it is stored for a job, under the name that it is declared with. -/
def stored (job : Job) (pair : Artifact × OutputSpec) : StoredOutput :=
  ⟨job.address pair.2.name, pair.1.rename pair.2.name⟩

end Job

theorem Store.putAll_snd (store : Store) (namespaceName : String) (fingerprint : Fingerprint)
    (pairs : List (Artifact × OutputSpec)) :
    (store.putAll namespaceName fingerprint pairs).2 = pairs.map fun pair =>
      ⟨.ofFingerprint namespaceName pair.2.name fingerprint, pair.1.rename pair.2.name⟩ := by
  induction pairs generalizing store with
  | nil => rfl
  | cons pair pairs ih =>
    rw [putAll, List.map_cons, ← ih]
    rfl

/-- As many artifacts are given as are declared. -/
theorem length_of_checkOutputs {id : TaskId} {specs : List OutputSpec} {artifacts : List Artifact}
    (checked : checkOutputs id specs artifacts = .ok ()) : artifacts.length = specs.length := by
  by_contra other
  rw [checkOutputs, if_pos other, throw_bind] at checked
  cases checked

namespace Job.Lawful

variable {bodies : Bodies} {job job' : Job}

/-- What a job gives does not depend on when it runs. -/
theorem execute_snd (lawful : job.Lawful bodies) (workshop : Workshop) :
    (workshop.execute job).2 = do
      let artifacts ← bodies (job.task.recipe job.id) (job.inputs.map (·.artifact))
      checkOutputs job.id job.task.outputs artifacts
      return (artifacts.zip job.task.outputs).map job.stored := by
  rw [Workshop.execute, Workshop.produce, lawful.body]
  cases bodies (job.task.recipe job.id) (job.inputs.map (·.artifact)) with
  | error => rfl
  | ok artifacts =>
    rw [ok_bind, ok_bind]
    cases checkOutputs job.id job.task.outputs artifacts with
    | error => rfl
    | ok =>
      dsimp only [ok_bind, pure_eq_ok]
      rw [lawful.deterministic]
      exact congrArg Except.ok (Store.putAll_snd _ _ _ _)

theorem execute_eq_given (lawful : job.Lawful bodies) (workshop : Workshop) :
    (workshop.execute job).2 = job.given := by
  rw [Job.given, lawful.execute_snd, lawful.execute_snd]

theorem given_eq_ok (lawful : job.Lawful bodies) {outputs : List StoredOutput} :
    job.given = .ok outputs ↔ ∃ artifacts,
      bodies (job.task.recipe job.id) (job.inputs.map (·.artifact)) = .ok artifacts ∧
        checkOutputs job.id job.task.outputs artifacts = .ok () ∧
        outputs = (artifacts.zip job.task.outputs).map job.stored := by
  rw [Job.given, lawful.execute_snd]
  simp only [bind_eq_ok, pure_eq_ok]
  constructor
  · rintro ⟨artifacts, body, _, checked, rfl⟩
    exact ⟨artifacts, body, checked, rfl⟩
  · rintro ⟨artifacts, body, checked, rfl⟩
    exact ⟨artifacts, body, (), checked, rfl⟩

/-- Outputs are stored at the addresses of what is declared. -/
theorem address_of_given (lawful : job.Lawful bodies) {outputs : List StoredOutput}
    (given : job.given = .ok outputs) :
    outputs.map (·.address) = job.task.outputs.map fun spec => job.address spec.name := by
  obtain ⟨artifacts, _, checked, rfl⟩ := lawful.given_eq_ok.mp given
  have specs := List.map_snd_zip (Nat.le_of_eq (length_of_checkOutputs checked).symm)
  calc
    _ = ((artifacts.zip job.task.outputs).map Prod.snd).map fun spec => job.address spec.name := by
      rw [List.map_map, List.map_map]
      rfl
    _ = _ := by rw [specs]

/-- An output that is given is an artifact under the name of its declaration. -/
theorem mem_given (lawful : job.Lawful bodies) {outputs : List StoredOutput}
    (given : job.given = .ok outputs) {output : StoredOutput} (member : output ∈ outputs) :
    ∃ spec ∈ job.task.outputs, output.address = job.address spec.name := by
  have addressed : output.address ∈ outputs.map (·.address) := List.mem_map_of_mem member
  rw [lawful.address_of_given given, List.mem_map] at addressed
  obtain ⟨spec, isSpec, same⟩ := addressed
  exact ⟨spec, isSpec, same.symm⟩

/-- The outputs of a job have different addresses, as they have different names. -/
theorem distinct_of_given (lawful : job.Lawful bodies) {outputs : List StoredOutput}
    (given : job.given = .ok outputs) : (outputs.map (·.address.name)).Nodup := by
  have names := congrArg (List.map (·.name)) (lawful.address_of_given given)
  rw [List.map_map, List.map_map] at names
  have distinct := lawful.distinct
  rwa [show job.task.outputs.map (·.name) = outputs.map (·.address.name) from names.symm]
    at distinct

/-- Jobs with the same recipe, inputs and namespace give the same. -/
theorem given_congr (lawful : job.Lawful bodies) (lawful' : job'.Lawful bodies)
    (recipe : job.task.recipe job.id = job'.task.recipe job'.id) (inputs : job.inputs = job'.inputs)
    (namespaces : job.namespaceName = job'.namespaceName)
    (fingerprints : job.fingerprint = job'.fingerprint) : job.given = job'.given := by
  have ids : job.id = job'.id := congrArg Recipe.id recipe
  have outputs : job.task.outputs = job'.task.outputs := congrArg Recipe.outputs recipe
  have stored : job.stored = job'.stored := by
    funext pair
    rw [Job.stored, Job.stored, Job.address, Job.address, namespaces, fingerprints]
  rw [Job.given, Job.given, lawful.execute_snd, lawful'.execute_snd, recipe, inputs, ids, outputs,
    stored]

end Job.Lawful

/-! ## What was made -/

/-- No two different byte strings of some jobs have the same digest, and all of them fit into
memory. -/
structure Collisionless (jobs : Set Job) : Prop where
  digests : Set.InjOn Digest.of {bytes | ∃ job ∈ jobs, bytes ∈ job.hashed}
  fits : ∀ job ∈ jobs, ∀ bytes ∈ job.hashed, bytes.Fits

/-- An output is made if it is one of those that some job gives whose inputs were made. -/
inductive Made (bodies : Bodies) (jobs : Set Job) : StoredOutput → Prop where
  | output {job : Job} {outputs : List StoredOutput} {output : StoredOutput}
      (lawful : job.Lawful bodies) (known : job ∈ jobs)
      (inputs : ∀ input ∈ job.inputs, Made bodies jobs input) (given : job.given = .ok outputs)
      (member : output ∈ outputs) : Made bodies jobs output

namespace Collisionless

variable {bodies : Bodies} {jobs : Set Job} {job job' : Job}

/-- Addresses with the same digest are the same, and belong to the same invocation. -/
theorem address_inj (collisionless : Collisionless jobs) (known : job ∈ jobs) (known' : job' ∈ jobs)
    {spec spec' : OutputSpec} (isSpec : spec ∈ job.task.outputs)
    (isSpec' : spec' ∈ job'.task.outputs)
    (same : (job.address spec.name).digest = (job'.address spec'.name).digest) :
    job.namespaceName = job'.namespaceName ∧ spec.name = spec'.name ∧
      job.fingerprint = job'.fingerprint := by
  have hashed {job : Job} {spec : OutputSpec} (isSpec : spec ∈ job.task.outputs) :
      job.place spec.name ∈ job.hashed :=
    List.mem_cons_of_mem _ (List.mem_map.mpr ⟨spec, isSpec, rfl⟩)
  have bytes : job.place spec.name = job'.place spec'.name :=
    collisionless.digests ⟨job, known, hashed isSpec⟩ ⟨job', known', hashed isSpec'⟩ same
  have fits := collisionless.fits job known _ (hashed isSpec)
  exact Address.fields_inj (Fingerprint.encode_inj fits bytes).2

/-- Jobs with the same fingerprint have the same recipe, and inputs with the same digests. -/
theorem fingerprint_inj (collisionless : Collisionless jobs) (known : job ∈ jobs)
    (known' : job' ∈ jobs) (same : job.fingerprint = job'.fingerprint) :
    job.task.recipe job.id = job'.task.recipe job'.id ∧
      job.inputs.map (·.address.digest) = job'.inputs.map (·.address.digest) := by
  refine Job.fingerprint_inj (collisionless.digests.mono ?_)
    (collisionless.fits job known _ (.head _)) same
  rintro bytes (rfl | rfl)
  · exact ⟨job, known, .head _⟩
  · exact ⟨job', known', .head _⟩

/-- Jobs that share an address give the same, if the digests of their inputs tell the inputs. -/
theorem given_eq (collisionless : Collisionless jobs) (lawful : job.Lawful bodies)
    (lawful' : job'.Lawful bodies) (known : job ∈ jobs) (known' : job' ∈ jobs)
    {spec spec' : OutputSpec} (isSpec : spec ∈ job.task.outputs)
    (isSpec' : spec' ∈ job'.task.outputs)
    (same : (job.address spec.name).digest = (job'.address spec'.name).digest)
    (inputs : ∀ input ∈ job.inputs, ∀ other ∈ job'.inputs,
      input.address.digest = other.address.digest → input = other) :
    spec.name = spec'.name ∧ job.given = job'.given := by
  obtain ⟨namespaces, names, fingerprints⟩ :=
    collisionless.address_inj known known' isSpec isSpec' same
  obtain ⟨recipe, digests⟩ := collisionless.fingerprint_inj known known' fingerprints
  have reads := eq_of_map_eq inputs digests
  exact ⟨names, lawful.given_congr lawful' recipe reads namespaces fingerprints⟩

/-- Nothing else was made where something was made. -/
theorem made_unique (collisionless : Collisionless jobs) {output other : StoredOutput}
    (made : Made bodies jobs output) (made' : Made bodies jobs other)
    (same : output.address.digest = other.address.digest) : output = other := by
  induction made generalizing other with
  | @output job outputs output lawful known inputs given member ih =>
    obtain @⟨job', outputs', _, lawful', known', inputs', given', member'⟩ := made'
    obtain ⟨spec, isSpec, addressed⟩ := lawful.mem_given given member
    obtain ⟨spec', isSpec', addressed'⟩ := lawful'.mem_given given' member'
    rw [addressed, addressed'] at same
    obtain ⟨names, gives⟩ := collisionless.given_eq lawful lawful' known known' isSpec isSpec' same
      fun input isInput other isOther => ih input isInput (inputs' other isOther)
    rw [given, given', Except.ok.injEq] at gives
    subst gives
    refine List.inj_on_of_nodup_map (lawful.distinct_of_given given) member member' ?_
    rw [addressed, addressed']
    exact names

/-- A job gives its outputs if anything was made at the address of one of them. -/
theorem given_of_made (collisionless : Collisionless jobs) (lawful : job.Lawful bodies)
    (known : job ∈ jobs) (inputs : ∀ input ∈ job.inputs, Made bodies jobs input)
    {output : StoredOutput} (made : Made bodies jobs output) {spec : OutputSpec}
    (isSpec : spec ∈ job.task.outputs) (addressed : output.address = job.address spec.name) :
    ∃ outputs, job.given = .ok outputs := by
  obtain @⟨job', outputs', _, lawful', known', inputs', given', member'⟩ := made
  obtain ⟨spec', isSpec', addressed'⟩ := lawful'.mem_given given' member'
  have same := congrArg Address.digest (addressed.symm.trans addressed')
  obtain ⟨_, gives⟩ := collisionless.given_eq lawful lawful' known known' isSpec isSpec' same
    fun input isInput other isOther =>
      collisionless.made_unique (inputs input isInput) (inputs' other isOther)
  exact ⟨outputs', gives.trans given'⟩

end Collisionless

end TablePipeline
