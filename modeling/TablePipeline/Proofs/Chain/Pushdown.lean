import TablePipeline.Proofs.Chain.Exchange

/-! # Moving filters keeps the meaning of a chain

Every exchange that a rule makes refines, at whatever depth of the chain it is made, and so do the
passes that make them. An optimized chain can therefore be built whenever the chain can, and a run
of it gives the same table or the same error.
-/

namespace TablePipeline.Chain

variable {inputs : Inputs} {signature : Signature}

/-- An exchange that a rule allows refines. -/
theorem refines_swapFilter {rule : PushRule} {chain : Chain} (applies : chain.matchesRule rule)
    (built : chain.signature? = .ok signature) : Refines inputs chain chain.swapFilter := by
  unfold matchesRule at applies
  split at applies
  · exact refines_belowOrder built
  · rename_i below assignments predicate
    refine refines_belowMutate built ?_
    intro name member assigned
    rw [Bool.and_eq_true, List.all_eq_true] at applies
    obtain ⟨entry, isEntry, rfl⟩ := List.mem_map.mp assigned
    have unread := applies.2 entry isEntry
    rw [Bool.not_eq_true', List.contains_eq_mem, decide_eq_false_iff_not] at unread
    exact unread (Expr.mem_columns.mpr member)
  · rw [Bool.and_eq_true] at applies
    exact refines_intoJoin built applies.2
  · cases applies

theorem refines_pushLast {rule : PushRule} {chain : Chain}
    (built : chain.signature? = .ok signature) (changed : Bool) :
    Refines inputs chain (chain.pushLast rule changed).1 := by
  unfold pushLast
  split
  · rename_i applies
    exact refines_swapFilter applies built
  · exact .refl inputs chain

/-- What a chain is rewritten to can be built when the chain can. -/
theorem Refines.built {original rewritten : Chain} (refines : Refines inputs original rewritten)
    (built : original.signature? = .ok signature) : rewritten.signature? = .ok signature :=
  refines.signature.trans built

/-- A pass of a rule over all steps refines. -/
theorem refines_pushOnce (rule : PushRule) {chain : Chain}
    (built : chain.signature? = .ok signature) :
    Refines inputs chain (chain.pushOnce rule).1 := by
  induction chain generalizing signature with
  | source name schema => exact .refl inputs _
  | apply input verb ih =>
    obtain ⟨before, builtBelow, _⟩ := built_below built
    have below := (ih builtBelow).apply verb
    exact below.trans (refines_pushLast (below.built built) _)
  | join input right kind pairs ihLeft ihRight =>
    obtain ⟨left, builtLeft, beside, builtRight, _⟩ := built_sides built
    have sides := (ihLeft builtLeft).join (ihRight builtRight) kind pairs
    exact sides.trans (refines_pushLast (sides.built built) _)

/-- A rule applied until it changes nothing refines. -/
theorem refines_pushAll (rule : PushRule) {chain : Chain}
    (built : chain.signature? = .ok signature) :
    Refines inputs chain (chain.pushAll rule).1 := by
  fun_induction pushAll rule chain with
  | case1 chain pass changed ih =>
    have once : Refines inputs chain _ := refines_pushOnce rule built
    exact once.trans (ih (once.built built))
  | case2 chain pass unchanged => exact refines_pushOnce rule built

/-- A round of the three rules refines. -/
theorem refines_pushRound {chain : Chain} (built : chain.signature? = .ok signature) :
    Refines inputs chain chain.pushRound.1 := by
  have ordered : Refines inputs chain _ := refines_pushAll .belowOrder built
  have mutated := ordered.trans (refines_pushAll .belowMutate (ordered.built built))
  exact mutated.trans (refines_pushAll .intoJoin (mutated.built built))

/-- Moving filters until none can be moved refines. -/
theorem refines_pushFilters {chain : Chain} (built : chain.signature? = .ok signature) :
    Refines inputs chain chain.pushFilters := by
  fun_induction pushFilters chain with
  | case1 chain round changed ih =>
    have once : Refines inputs chain _ := refines_pushRound built
    exact once.trans (ih (once.built built))
  | case2 chain round unchanged => exact refines_pushRound built

/-- A chain that can be built can be optimized, and a run of the optimized chain gives the table or
the error that a run of the chain gives, as long as the values that meet in an ordering compare. -/
theorem run_optimize {chain : Chain} (built : chain.signature? = .ok signature)
    (comparable : chain.ComparableOrders inputs) :
    ∃ optimized, chain.optimize = .ok optimized ∧ optimized.run inputs = chain.run inputs := by
  have refines : Refines inputs chain chain.pushFilters := refines_pushFilters built
  refine ⟨chain.pushFilters, ?_, ?_⟩
  · rw [optimize, checked, refines.built built]
    rfl
  · rw [run, run, refines.rows comparable, refines.signature_eq, refines.schema_eq]

/-- A chain whose filter moves below an ordering, an assignment and a join. -/
def paidOrders : Chain :=
  let orders := source "orders" ⟨[⟨"id", .int, false⟩, ⟨"paid", .int, true⟩], [0], []⟩
  let notes := source "notes" ⟨[⟨"id", .int, false⟩, ⟨"note", .text, true⟩], [0], []⟩
  let ordered := apply orders (.orderBy [⟨"paid", true, .last⟩])
  let doubled := apply ordered
    (.mutate [("twice", .binary (.arithmetic .add) (.column "paid") (.column "paid"))])
  let joined := join doubled notes .left [("id", "id")]
  apply joined (.filter (.binary (.comparison .greater) (.column "paid") (.literal (.int 1))))

/-- Tables for `paidOrders`; a null and two integers meet in its ordering. -/
def paidInputs : Inputs :=
  ⟨[("notes", ⟨"notes", ⟨[⟨"id", .int, false⟩, ⟨"note", .text, true⟩], [0], []⟩,
      [[.int 2, .text "late"]]⟩),
    ("orders", ⟨"orders", ⟨[⟨"id", .int, false⟩, ⟨"paid", .int, true⟩], [0], []⟩,
      [[.int 1, .int 5], [.int 2, .null], [.int 3, .int 7]]⟩)]⟩

theorem run_optimize_paidOrders :
    paidOrders.signature? = .ok paidOrders.signature ∧
      paidOrders.ComparableOrders paidInputs ∧
      ∃ optimized, paidOrders.optimize = .ok optimized ∧
        optimized.run paidInputs = paidOrders.run paidInputs := by
  have built : paidOrders.signature? = .ok paidOrders.signature := rfl
  have comparable : paidOrders.ComparableOrders paidInputs := by
    refine ⟨⟨⟨⟨trivial, ?_⟩, fun _ _ => trivial⟩, fun _ _ => trivial⟩, fun _ _ => trivial⟩
    intro rows ran key member position placed
    cases ran
    cases List.mem_singleton.mp member
    cases (placed : some 1 = some position)
    decide
  exact ⟨built, comparable, run_optimize built comparable⟩

end TablePipeline.Chain
