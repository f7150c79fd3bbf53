import Mathlib.Logic.Relation
import TablePipeline.Proofs.Graph.Built

/-! # What is reached in one pass

Edges that lead to smaller positions can be followed in one pass from the last position to the
first: a position that is reached at all is reached before the pass comes to it.
-/

namespace TablePipeline

/-- A pass from `count` downwards reaches what there are paths to. -/
theorem mem_reachDown {edges : Nat → List Nat} (down : ∀ {a b : Nat}, b ∈ edges a → b < a)
    {count : Nat} {start : List Nat} {target : Nat} :
    target ∈ reachDown edges count start ↔ target ∈ start ∨
      ∃ source ∈ start, source < count ∧
        Relation.ReflTransGen (fun a b => b ∈ edges a) source target := by
  induction count generalizing start with
  | zero => simp [reachDown]
  | succ position ih =>
    rw [reachDown, ih]
    have added (item : Nat) :
        item ∈ (if position ∈ start then start ++ (edges position).filter (· ∉ start) else start) ↔
          item ∈ start ∨ position ∈ start ∧ item ∈ edges position := by
      split <;> by_cases item ∈ start <;> simp [*]
    simp only [added]
    constructor
    · rintro ((known | ⟨here, next⟩) | ⟨source, known | ⟨here, next⟩, below, path⟩)
      · exact .inl known
      · exact .inr ⟨position, here, Nat.lt_succ_self _, .single next⟩
      · exact .inr ⟨source, known, Nat.lt_succ_of_lt below, path⟩
      · exact .inr ⟨position, here, Nat.lt_succ_self _, path.head next⟩
    · rintro (known | ⟨source, known, below, path⟩)
      · exact .inl (.inl known)
      · rcases Nat.lt_succ_iff_lt_or_eq.mp below with below | rfl
        · exact .inr ⟨source, .inl known, below, path⟩
        · -- The position itself is followed now, and its first step leads below it.
          rcases path.cases_head with rfl | ⟨middle, next, rest⟩
          · exact .inl (.inl known)
          · exact .inr ⟨middle, .inr ⟨known, next⟩, down next, rest⟩

namespace Graph

variable {graph : Graph}

/-- The producers of a task are those of its node. -/
theorem mem_producersOf {position producer : Nat} :
    producer ∈ graph.producersOf position ↔
      ∃ node, graph.nodes[position]? = some node ∧ producer ∈ node.producers := by
  unfold producersOf
  cases graph.nodes[position]? <;> simp

theorem stageOf_eq {position : Nat} {node : TaskNode}
    (here : graph.nodes[position]? = some node) : graph.stageOf position = node.stage := by
  rw [stageOf, here]
  rfl

/-- Does a task read, through any number of other tasks, what another one produces? -/
def Reads (graph : Graph) : Nat → Nat → Prop :=
  Relation.TransGen fun reader producer => producer ∈ graph.producersOf reader

theorem WellFormed.producer_lt (formed : graph.WellFormed) {position producer : Nat}
    (member : producer ∈ graph.producersOf position) : producer < position := by
  obtain ⟨node, here, isProducer⟩ := mem_producersOf.mp member
  exact (formed.producer_spec here isProducer).1

/-- A task is added behind all that it reads. -/
theorem WellFormed.reads_lt (formed : graph.WellFormed) {reader position : Nat}
    (path : graph.Reads reader position) : position < reader := by
  induction path with
  | single next => exact formed.producer_lt next
  | tail _ next ih => exact Nat.lt_trans (formed.producer_lt next) ih

/-- Targets have positions if each of them is found in the graph. -/
theorem targetPositions_eq_ok {targets : List TaskId} {positions : List Nat} :
    graph.targetPositions targets = .ok positions ↔
      List.Forall₂ (fun id position => graph.position? id = some position) targets positions := by
  rw [targetPositions, mapM_eq_ok]
  constructor
  all_goals
    refine List.Forall₂.imp fun id position placed => ?_
    cases found : graph.position? id <;> simp_all

/-- The targets of a selected run are tasks of the graph. -/
theorem lt_size_of_targetPositions {targets : List TaskId} {positions : List Nat}
    (found : graph.targetPositions targets = .ok positions) {position : Nat}
    (member : position ∈ positions) : position < graph.size := by
  obtain ⟨id, _, placed⟩ := exists_of_mem_right (targetPositions_eq_ok.mp found) member
  exact (List.findIdx?_eq_some_iff_getElem.mp placed).1

/-- The ancestors of targets are the tasks that some target reads, apart from the targets. -/
theorem mem_ancestorPositions (formed : graph.WellFormed) {targets : List Nat}
    (inside : ∀ target ∈ targets, target < graph.size) {position : Nat} :
    position ∈ graph.ancestorPositions targets ↔
      position ∉ targets ∧ ∃ target ∈ targets, graph.Reads target position := by
  rw [ancestorPositions, List.mem_filter, List.mem_range, Bool.and_eq_true, decide_eq_true_iff,
    decide_eq_true_iff, mem_reachDown fun member => formed.producer_lt member]
  constructor
  · rintro ⟨_, isTarget | ⟨target, isTarget, _, path⟩, notTarget⟩
    · exact absurd isTarget notTarget
    · rcases Relation.reflTransGen_iff_eq_or_transGen.mp path with rfl | path
      · exact absurd isTarget notTarget
      · exact ⟨notTarget, target, isTarget, path⟩
  · rintro ⟨notTarget, target, isTarget, path⟩
    have below := formed.reads_lt path
    have bound := inside target isTarget
    have reached := path.to_reflTransGen
    exact ⟨Nat.lt_trans below bound, .inr ⟨target, isTarget, bound, reached⟩, notTarget⟩

/-! ## Targets -/

/-- Is a task one of some targets? -/
def IsTarget (graph : Graph) (targets : List TaskId) (position : Nat) : Prop :=
  ∃ node, graph.nodes[position]? = some node ∧ node.id ∈ targets

/-- Is a task a target, or does a target read it, through any number of other tasks? -/
def Needs (graph : Graph) (targets : List TaskId) (position : Nat) : Prop :=
  graph.IsTarget targets position ∨
    ∃ target, graph.IsTarget targets target ∧ graph.Reads target position

variable {targets : List TaskId}

/-- What is needed needs all that it reads. -/
theorem Needs.producer {position producer : Nat} (needs : graph.Needs targets position)
    (reads : producer ∈ graph.producersOf position) : graph.Needs targets producer := by
  rcases needs with isTarget | ⟨target, isTarget, path⟩
  · exact .inr ⟨position, isTarget, .single reads⟩
  · exact .inr ⟨target, isTarget, path.tail reads⟩

theorem Needs.lt_size (formed : graph.WellFormed) {position : Nat}
    (needs : graph.Needs targets position) : position < graph.size := by
  rcases needs with ⟨node, isNode, _⟩ | ⟨target, ⟨node, isNode, _⟩, path⟩
  · exact (List.getElem?_eq_some_iff.mp isNode).1
  · exact Nat.lt_trans (formed.reads_lt path) (List.getElem?_eq_some_iff.mp isNode).1

theorem mem_targetPositions (formed : graph.WellFormed) {positions : List Nat}
    (found : graph.targetPositions targets = .ok positions) {position : Nat} :
    position ∈ positions ↔ graph.IsTarget targets position := by
  rw [targetPositions_eq_ok] at found
  constructor
  · intro member
    obtain ⟨id, isTarget, placed⟩ := exists_of_mem_right found member
    obtain ⟨node, isNode, rfl⟩ := formed.position?_eq_some.mp placed
    exact ⟨node, isNode, isTarget⟩
  · rintro ⟨node, isNode, isTarget⟩
    obtain ⟨place, member, placed⟩ := exists_of_mem_left found isTarget
    cases (formed.position?_id isNode).symm.trans placed
    exact member

/-- Targets that are all in the graph have positions. -/
theorem exists_targetPositions (known : ∀ id ∈ targets, ∃ node ∈ graph.nodes, node.id = id) :
    ∃ positions, graph.targetPositions targets = .ok positions := by
  refine exists_mapM fun id member => ?_
  obtain ⟨node, isNode, named⟩ := known id member
  obtain ⟨position, found⟩ : ∃ position, graph.position? id = some position := by
    refine Option.isSome_iff_exists.mp (List.findIdx?_isSome.trans ?_)
    exact List.any_eq_true.mpr ⟨node, isNode, decide_eq_true named⟩
  exact ⟨position, by rw [found]⟩

/-- The first target that is not in the graph is what is wrong with targets. -/
theorem targetPositions_eq_error {known rest : List TaskId} {id : TaskId}
    (before : ∀ id ∈ known, ∃ node ∈ graph.nodes, node.id = id)
    (unknown : ∀ node ∈ graph.nodes, node.id ≠ id) :
    graph.targetPositions (known ++ id :: rest) = .error (.unknownTarget id) := by
  obtain ⟨positions, found⟩ := exists_targetPositions before
  have absent : graph.position? id = none :=
    List.findIdx?_eq_none_iff.mpr fun node isNode => decide_eq_false (unknown node isNode)
  rw [targetPositions] at found ⊢
  rw [List.mapM_append, found, List.mapM_cons, absent]
  rfl

end Graph

end TablePipeline
