import TablePipeline.Proofs.Run.Accounting

/-! # The loops of a run

The loops of the coordinator have bounds, and the bounds are never what ends them. Repeated passes
end in one that changes nothing, since each of the others takes a task out of the pending ones; and
a run ends where no task is handed out, since each result ends a task.
-/

namespace TablePipeline.Coordinator

variable {plan : RunPlan} {admits : Admits} {first last : Coordinator} {event : Event}

/-- A visit that changes anything takes its task out of the pending ones. -/
theorem Move.pending (coherent : first.Coherent plan) (move : Move plan admits first event last)
    (isScan : event.isFinish = false) :
    last.tasksIn plan .pending = (first.tasksIn plan .pending).erase event.position := by
  have notPending : event.after ≠ .pending := by
    cases event with
    | start => nofun
    | abort => nofun
    | finish => cases isScan
  ext position
  rw [mem_tasksIn, move.state? coherent, Finset.mem_erase, mem_tasksIn]
  by_cases same : position = event.position
  · simp [same, notPending]
  · simp [same]

theorem Move.mem_pending (sound : plan.Sound) (coherent : first.Coherent plan)
    (move : Move plan admits first event last) (isScan : event.isFinish = false) :
    event.position ∈ first.tasksIn plan .pending := by
  have found := move.found coherent
  refine mem_tasksIn.mpr ⟨coherent.inside sound found, ?_⟩
  rw [found]
  cases event with
  | start => rfl
  | abort => rfl
  | finish => cases isScan

theorem Coherent.path (sound : plan.Sound) (coherent : first.Coherent plan) {events : List Event}
    (path : Path plan admits first events last) : last.Coherent plan := by
  induction path with
  | refl => exact coherent
  | tail _ move ih => exact ih.move sound move

/-- Each event of a path without a task that comes back is a task less that is pending. -/
theorem Path.pending (sound : plan.Sound) (coherent : first.Coherent plan) {events : List Event}
    (path : Path plan admits first events last) (scans : ∀ event ∈ events, event.isFinish = false) :
    (last.tasksIn plan .pending).card + events.length = (first.tasksIn plan .pending).card := by
  induction path with
  | refl => rfl
  | @tail events event middle last path move ih =>
    have isScan := scans event (by simp)
    have before := ih fun other member => scans other (List.mem_append_left _ member)
    have coherentMiddle := coherent.path sound path
    have fewer := Finset.card_erase_add_one (move.mem_pending sound coherentMiddle isScan)
    rw [← move.pending coherentMiddle isScan] at fewer
    rw [List.length_append, List.length_singleton]
    omega

/-- Repeated passes are a path; if there may be more of them than pending tasks, they end in one
that changes nothing. -/
theorem settleWithin_path (sound : plan.Sound) (limit : Nat) (coherent : first.Coherent plan)
    (enough : (first.tasksIn plan .pending).card < limit) :
    ∃ events, Path plan admits first events (settleWithin plan limit first) ∧
      (∀ event ∈ events, event.isFinish = false) ∧
      ((settleWithin plan limit first).pass plan).2 = false := by
  induction limit generalizing first with
  | zero => exact absurd enough (Nat.not_lt_zero _)
  | succ limit ih =>
    obtain ⟨events, path, scans, report, _⟩ := pass_path plan admits first
    rw [settleWithin]
    split
    · rename_i next passed
      rw [passed] at path report
      have moved : events.length ≠ 0 := by
        intro none
        rw [List.length_eq_zero_iff.mp none] at report
        cases report
      have fewer := path.pending sound coherent scans
      obtain ⟨more, rest, restScans, settled⟩ := ih (coherent.path sound path) (by omega)
      refine ⟨events ++ more, path.trans rest, fun event member => ?_, settled⟩
      rcases List.mem_append.mp member with member | member
      · exact scans event member
      · exact restScans event member
    · rename_i next passed
      have unchanged : (first.pass plan).2 = false := by rw [passed]
      have same := (quiet_of_pass unchanged).2
      rw [passed] at same
      cases same
      exact ⟨[], .refl, nofun, unchanged⟩

/-- Settling is a path that ends in a pass that changes nothing. -/
theorem settle_path (sound : plan.Sound) (coherent : first.Coherent plan) :
    ∃ events, Path plan admits first events (first.settle plan) ∧
      (∀ event ∈ events, event.isFinish = false) ∧ ((first.settle plan).pass plan).2 = false := by
  refine settleWithin_path sound _ coherent (Nat.lt_succ_of_le ?_)
  exact (Finset.card_filter_le _ _).trans (Finset.card_range _).le

end TablePipeline.Coordinator
