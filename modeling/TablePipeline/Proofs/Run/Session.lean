import TablePipeline.Proofs.Run.Explained

/-! # Runs with a store

In a session the tasks that a coordinator hands out are materialised on a workshop, in any order,
and others may change the store in between. The run of a plan, which always takes the oldest of the
tasks that are handed out, is one of the sessions, and it goes on until the loop of the coordinator
ends.
-/

namespace TablePipeline

/-- What others may do to a store in between. -/
abbrev Interference := Store → Store → Prop

/-- Runs of a plan on a workshop, with what happened and the jobs that were materialised. -/
inductive Session (plan : RunPlan) (others : Interference) (opened : Workshop) :
    List Event → List Job → Coordinator → Workshop → Prop where
  | start : Session plan others opened [] [] plan.start opened
  | scan {events : List Event} {jobs : List Job} {coordinator next : Coordinator}
      {workshop : Workshop} {event : Event}
      (session : Session plan others opened events jobs coordinator workshop)
      (move : Coordinator.Move plan (fun _ _ _ => False) coordinator event next) :
      Session plan others opened (events ++ [event]) jobs next workshop
  | finish {events : List Event} {jobs : List Job} {coordinator : Coordinator}
      {workshop after : Workshop} {started : StartedTask} {node : TaskNode}
      {result : Except TaskError Materialized}
      (session : Session plan others opened events jobs coordinator workshop)
      (running : started ∈ coordinator.running)
      (isNode : plan.graph.nodes[started.position]? = some node)
      (done : workshop.materialize (plan.job node started) started.mode = (after, result)) :
      Session plan others opened (events ++ [.finish started.position result])
        (jobs ++ [plan.job node started]) (coordinator.complete plan started.position result) after
  | other {events : List Event} {jobs : List Job} {coordinator : Coordinator} {workshop : Workshop}
      {store : Store} (session : Session plan others opened events jobs coordinator workshop)
      (happens : others workshop.store store) :
      Session plan others opened events jobs coordinator { workshop with store }

namespace Coordinator

variable {plan : RunPlan} {admits admits' : Admits} {first last : Coordinator} {event : Event}

theorem Move.imp (move : Move plan admits first event last)
    (weaker : ∀ {started result}, admits first started result → admits' first started result) :
    Move plan admits' first event last := by
  cases move with
  | start takesPart isNode pending ready => exact .start takesPart isNode pending ready
  | abort takesPart isNode pending doomed => exact .abort takesPart isNode pending doomed
  | finish running admitted => exact .finish running (weaker admitted)

theorem Path.unended_subset (sound : plan.Sound) (coherent : first.Coherent plan)
    {events : List Event} (path : Path plan admits first events last) :
    last.unended plan ⊆ first.unended plan := by
  induction path with
  | refl => exact Finset.Subset.refl _
  | tail path move ih =>
    rw [move.unended (coherent.path sound path)]
    split
    · exact (Finset.erase_subset _ _).trans ih
    · exact ih

/-- A task that is handed out has not ended. -/
theorem Coherent.mem_unended (sound : plan.Sound) (coherent : first.Coherent plan)
    {started : StartedTask} (member : started ∈ first.running) :
    started.position ∈ first.unended plan := by
  have running := (coherent.running _).mp (List.mem_map_of_mem member)
  exact Coordinator.mem_unended.mpr ⟨coherent.inside sound running, .running, running, rfl⟩

/-- A task that comes back is one less that has not ended. -/
theorem Coherent.unended_complete (sound : plan.Sound) (coherent : first.Coherent plan)
    {started : StartedTask} (member : started ∈ first.running)
    (result : Except TaskError Materialized) :
    ((first.complete plan started.position result).unended plan).card + 1 =
      (first.unended plan).card := by
  have move : Move plan anyResult first (.finish started.position result) _ :=
    .finish member trivial
  have ends : (Event.finish started.position result).after.isTerminal = true :=
    Event.isTerminal_after _
  rw [move.unended coherent, if_pos ends]
  exact Finset.card_erase_add_one (coherent.mem_unended sound member)

/-- Draining materialises the oldest task that is handed out. -/
theorem drain_succ {workshop after : Workshop} {started : StartedTask} {rest : List StartedTask}
    {node : TaskNode} {result : Except TaskError Materialized} (limit : Nat)
    (running : first.running = started :: rest)
    (isNode : plan.graph.nodes[started.position]? = some node)
    (done : workshop.materialize (plan.job node started) started.mode = (after, result)) :
    first.drain plan (limit + 1) workshop =
      ((first.complete plan started.position result).settle plan).drain plan limit after := by
  simp only [drain, running, isNode, done]

end Coordinator

namespace Session

open Coordinator

variable {plan : RunPlan} {others : Interference} {opened workshop : Workshop}
  {events : List Event} {jobs : List Job} {coordinator : Coordinator}

/-- The coordinator of a session moves as it may. -/
theorem path (session : Session plan others opened events jobs coordinator workshop) :
    Path plan anyResult plan.start events coordinator := by
  induction session with
  | start => exact .refl
  | scan _ move ih => exact ih.tail (move.imp fun not => not.elim)
  | finish _ running _ _ ih => exact ih.tail (.finish running trivial)
  | other _ _ ih => exact ih

/-- A session goes on with any path without tasks that come back. -/
theorem scans (session : Session plan others opened events jobs coordinator workshop)
    {more : List Event} {next : Coordinator}
    (path : Path plan (fun _ _ _ => False) coordinator more next) :
    Session plan others opened (events ++ more) jobs next workshop := by
  induction path with
  | refl => rwa [List.append_nil]
  | tail _ move ih =>
    rw [← List.append_assoc]
    exact ih.scan move

theorem settled (sound : plan.Sound)
    (session : Session plan others opened events jobs coordinator workshop) :
    ∃ events', Session plan others opened events' jobs (coordinator.settle plan) workshop ∧
      ((coordinator.settle plan).pass plan).2 = false ∧
      (coordinator.settle plan).unended plan ⊆ coordinator.unended plan := by
  have coherent := session.path.coherent sound
  obtain ⟨more, path, _, quiet⟩ := settle_path sound coherent
  exact ⟨_, session.scans path, quiet, path.unended_subset sound coherent⟩

/-- Draining goes on to the end of the loop if it may materialise as many tasks as have not
ended. -/
theorem drain (sound : plan.Sound) (limit : Nat)
    (session : Session plan others opened events jobs coordinator workshop)
    (quiet : (coordinator.pass plan).2 = false)
    (enough : (coordinator.unended plan).card ≤ limit) :
    ∃ events' jobs' last closed, Session plan others opened events' jobs' last closed ∧
      last.Exits plan ∧ coordinator.drain plan limit workshop = (last, closed) := by
  induction limit generalizing events jobs coordinator workshop with
  | zero =>
    have coherent := session.path.coherent sound
    have idle : coordinator.running = [] := by
      rw [List.eq_nil_iff_forall_not_mem]
      intro started member
      have isOpen := coherent.mem_unended sound member
      rw [Finset.card_eq_zero.mp (Nat.le_zero.mp enough)] at isOpen
      cases isOpen
    exact ⟨_, _, _, _, session, ⟨quiet, idle⟩, rfl⟩
  | succ limit ih =>
    have coherent := session.path.coherent sound
    cases running : coordinator.running with
    | nil =>
      refine ⟨_, _, _, _, session, ⟨quiet, running⟩, ?_⟩
      simp only [Coordinator.drain, running]
    | cons started rest =>
      have member : started ∈ coordinator.running := by
        rw [running]
        exact .head _
      have inside := (Coordinator.mem_unended.mp (coherent.mem_unended sound member)).1
      have isNode := List.getElem?_eq_getElem inside
      generalize plan.graph.nodes[started.position] = node at isNode
      generalize done : workshop.materialize (plan.job node started) started.mode = outcome
      obtain ⟨after, result⟩ := outcome
      have finished := session.finish member isNode done
      obtain ⟨events', settled, quiet', fewer⟩ := finished.settled sound
      rw [drain_succ limit running isNode done]
      refine ih settled quiet' ?_
      have count := coherent.unended_complete sound member result
      have bound := Finset.card_le_card fewer
      omega

end Session

/-- The run of a plan is a session that goes on to the end of the loop. -/
theorem RunPlan.run_session {plan : RunPlan} (sound : plan.Sound) (others : Interference)
    (opened : Workshop) :
    ∃ events jobs last closed, Session plan others opened events jobs last closed ∧
      last.Exits plan ∧ plan.run opened = (last.result, closed) := by
  obtain ⟨events, session, quiet, _⟩ :=
    (Session.start : Session plan others opened [] [] plan.start opened).settled sound
  have enough : ((plan.start.settle plan).unended plan).card ≤ plan.graph.size :=
    (Finset.card_filter_le _ _).trans (Finset.card_range _).le
  obtain ⟨events, jobs, last, closed, session, exits, drained⟩ :=
    session.drain sound plan.graph.size quiet enough
  refine ⟨events, jobs, last, closed, session, exits, ?_⟩
  rw [run, drained]

end TablePipeline
