import TablePipeline.Proofs.Graph.Closure
import TablePipeline.Run.Flow

/-! # The plans of a flow

A flow makes two kinds of plans for a graph: all tasks take part, or some targets and all that they
read. In both, whatever a task that takes part reads takes part as well.
-/

namespace TablePipeline

/-- The plans that a configuration makes for a graph. -/
inductive RunConfig.Plans (config : RunConfig) (graph : Graph) : RunPlan → Prop where
  | full : config.Plans graph (config.fullPlan graph)
  | selected {targets : List TaskId} {plan : RunPlan}
      (made : config.selectedPlan graph targets = .ok plan) : config.Plans graph plan

namespace RunPlan

/-- What the coordinator relies on. -/
structure Sound (plan : RunPlan) : Prop where
  formed : plan.graph.WellFormed
  inside : ∀ {position : Nat}, (plan.mode? position).isSome → position < plan.graph.size
  closed : ∀ {position producer : Nat}, (plan.mode? position).isSome →
    producer ∈ plan.graph.producersOf position → (plan.mode? producer).isSome

theorem Sound.isNode {plan : RunPlan} (sound : plan.Sound) {position : Nat}
    (takesPart : (plan.mode? position).isSome) :
    ∃ node, plan.graph.nodes[position]? = some node :=
  ⟨_, List.getElem?_eq_getElem (sound.inside takesPart)⟩

end RunPlan

namespace RunConfig

variable {config : RunConfig} {graph : Graph} {plan : RunPlan}

/-- All tasks take part in a full run. -/
theorem mode?_fullPlan (position : Nat) :
    (config.fullPlan graph).mode? position =
      if position < graph.size then some (if config.ignoreCache then .recompute else .normal)
      else none := by
  rw [RunPlan.mode?, fullPlan, List.getElem?_map]
  by_cases inside : position < graph.size
  · rw [if_pos inside, List.getElem?_eq_getElem inside]
    rfl
  · rw [if_neg inside, List.getElem?_eq_none (Nat.le_of_not_lt inside)]
    rfl

/-- The targets of a selected run are run anew, and what they read is taken from the cache. -/
theorem selectedPlan_eq_ok {targets : List TaskId}
    (made : config.selectedPlan graph targets = .ok plan) :
    ∃ positions, graph.targetPositions targets = .ok positions ∧ plan.graph = graph ∧
      plan.stopStageOnFailure = config.stopStageOnFailure ∧
      plan.namespaceOf = config.namespaceOf ∧
      ∀ position, plan.mode? position =
        if position ∈ positions then some .recompute
        else if position ∈ graph.ancestorPositions positions then some .cacheOnly
        else none := by
  simp only [selectedPlan, bind_eq_ok, pure_eq_ok] at made
  obtain ⟨positions, found, rfl⟩ := made
  refine ⟨positions, found, rfl, rfl, rfl, fun position => ?_⟩
  rw [RunPlan.mode?, List.getElem?_map]
  by_cases inside : position < graph.size
  · rw [List.getElem?_range inside]
    rfl
  · have notTarget : position ∉ positions := fun member =>
      inside (Graph.lt_size_of_targetPositions found member)
    have notAncestor : position ∉ graph.ancestorPositions positions := fun member =>
      inside (List.mem_range.mp (List.mem_filter.mp member).1)
    rw [List.getElem?_eq_none (by simpa using inside), if_neg notTarget, if_neg notAncestor]
    rfl

/-- How tasks take part in a selected run. -/
structure Selects (graph : Graph) (targets : List TaskId) (plan : RunPlan) : Prop where
  anew : ∀ {position : Nat},
    plan.mode? position = some .recompute ↔ graph.IsTarget targets position
  takesPart : ∀ {position : Nat}, (plan.mode? position).isSome ↔ graph.Needs targets position
  notNormal : ∀ {position : Nat}, plan.mode? position ≠ some .normal

/-- Targets are run anew, and what else is needed is taken from the cache. -/
theorem selects_of_selectedPlan (built : graph.Built)
    (made : config.selectedPlan graph targets = .ok plan) : Selects graph targets plan := by
  have formed := built.wellFormed
  obtain ⟨positions, found, _, _, _, modes⟩ := selectedPlan_eq_ok made
  have isTarget (position : Nat) : position ∈ positions ↔ graph.IsTarget targets position :=
    Graph.mem_targetPositions formed found
  have isAncestor (position : Nat) : position ∈ graph.ancestorPositions positions ↔
      position ∉ positions ∧ ∃ target, graph.IsTarget targets target ∧
        graph.Reads target position := by
    rw [Graph.mem_ancestorPositions formed fun _ => Graph.lt_size_of_targetPositions found]
    simp only [isTarget]
  refine ⟨fun {position} => ?_, fun {position} => ?_, fun {position} => ?_⟩
  · rw [modes, ← isTarget]
    by_cases member : position ∈ positions
    · simp [member]
    · rw [if_neg member]
      split <;> simp [member]
  · rw [modes, Graph.Needs, ← isTarget]
    by_cases member : position ∈ positions
    · simp [member]
    · have isRead := isAncestor position
      rw [iff_true_intro member, true_and] at isRead
      rw [if_neg member, or_iff_right member, ← isRead]
      by_cases ancestor : position ∈ graph.ancestorPositions positions <;> simp [ancestor]
  · rw [modes]
    split
    · nofun
    · split <;> nofun

theorem Plans.graph_eq (plans : config.Plans graph plan) : plan.graph = graph := by
  cases plans with
  | full => rfl
  | selected made =>
    obtain ⟨_, _, same, _⟩ := selectedPlan_eq_ok made
    exact same

theorem Plans.stop_eq (plans : config.Plans graph plan) :
    plan.stopStageOnFailure = config.stopStageOnFailure := by
  cases plans with
  | full => rfl
  | selected made =>
    obtain ⟨_, _, _, same, _⟩ := selectedPlan_eq_ok made
    exact same

/-- In every plan of a graph that was built, what a task reads takes part with it. -/
theorem Plans.sound (built : graph.Built) (plans : config.Plans graph plan) : plan.Sound := by
  have formed := built.wellFormed
  cases plans with
  | full =>
    have takesPart {position : Nat} :
        ((config.fullPlan graph).mode? position).isSome ↔ position < graph.size := by
      rw [mode?_fullPlan]
      by_cases inside : position < graph.size <;> simp [inside]
    refine ⟨formed, takesPart.mp, fun here member => takesPart.mpr ?_⟩
    exact Nat.lt_trans (formed.producer_lt member) (takesPart.mp here)
  | selected made =>
    have selects := selects_of_selectedPlan built made
    obtain ⟨_, _, rfl, _⟩ := selectedPlan_eq_ok made
    refine ⟨formed, fun here => (selects.takesPart.mp here).lt_size formed, fun here member => ?_⟩
    exact selects.takesPart.mpr ((selects.takesPart.mp here).producer member)

end RunConfig

end TablePipeline
