import TablePipeline.Chain.Signature

/-! # Moving filters towards the sources

A filter may change places with the step below it when that step is an ordering, a `mutate` that
does not define a column of the predicate, or a join whose left side has all of them. A rule is
applied to all steps of a chain, those of joined chains included, until it changes nothing, and the
three rules in turn until none does. Each exchange moves one filter one step down, so
`Chain.pending`, which counts the steps below filters, bounds the number of exchanges. The rules
look at names alone; `Chain.optimize` checks the chain that they lead to.
-/

namespace TablePipeline

/-- The kinds of step that a filter may be moved below. -/
inductive PushRule where
  | belowOrder
  | belowMutate
  | intoJoin
deriving DecidableEq, Repr

namespace Chain

/-- Do all columns of the predicate come from the left side of the join? -/
def leftOnly (input right : Chain) (kind : JoinKind) (pairs : List (String × String))
    (predicate : Expr String) : Bool :=
  let schema := (join input right kind pairs).schema
  let layout := Schema.joinLayout input.schema right.schema pairs
  predicate.columns.all fun name =>
    match schema.position? name with
    | some position => (layout[position]?.map (·.side)) = some .left
    | none => false

/-- Is the last step a filter that the rule moves below the step before it? -/
def matchesRule (rule : PushRule) : Chain → Bool
  | apply (apply _ (.orderBy _)) (.filter _) => rule = .belowOrder
  | apply (apply _ (.mutate assignments)) (.filter predicate) =>
    rule = .belowMutate && assignments.all fun (name, _) => !predicate.columns.contains name
  | apply (join input right kind pairs) (.filter predicate) =>
    rule = .intoJoin && leftOnly input right kind pairs predicate
  | _ => false

/-- The chain with a filter at its end exchanged with the step before it. -/
def swapFilter : Chain → Chain
  | apply (apply below verb) (.filter predicate) => apply (apply below (.filter predicate)) verb
  | apply (join below right kind pairs) (.filter predicate) =>
    join (apply below (.filter predicate)) right kind pairs
  | chain => chain

/-- Applies a rule to the last step, given whether a step before it changed already. -/
def pushLast (rule : PushRule) (chain : Chain) (changed : Bool) : Chain × Bool :=
  if chain.matchesRule rule then (chain.swapFilter, true) else (chain, changed)

/-- Applies a rule once to every step, the first steps first, and tells whether anything changed.
Steps after a change are looked at as they are after it. -/
def pushOnce (rule : PushRule) : Chain → Chain × Bool
  | chain@(source ..) => (chain, false)
  | apply input verb =>
    let (newInput, changed) := input.pushOnce rule
    (apply newInput verb).pushLast rule changed
  | join input right kind pairs =>
    let (newInput, inputChanged) := input.pushOnce rule
    let (newRight, rightChanged) := right.pushOnce rule
    (join newInput newRight kind pairs).pushLast rule (inputChanged || rightChanged)

/-- The number of steps after the source. -/
def length : Chain → Nat
  | source .. => 0
  | apply input _ | join input _ _ _ => input.length + 1

/-- The number of steps below filters, counted once for each filter. -/
def pending : Chain → Nat
  | source .. => 0
  | apply input (.filter _) => input.pending + input.length
  | apply input _ => input.pending
  | join input right _ _ => input.pending + right.pending

/-- An exchange keeps the number of steps. -/
theorem length_swapFilter (chain : Chain) : chain.swapFilter.length = chain.length := by
  unfold swapFilter
  split <;> rfl

/-- An exchange lowers the number of steps below filters. -/
theorem pending_swapFilter_lt {rule : PushRule} {chain : Chain}
    (applies : chain.matchesRule rule) : chain.swapFilter.pending < chain.pending := by
  unfold matchesRule at applies
  split at applies
  · simp only [swapFilter, pending, length]
    omega
  · simp only [swapFilter, pending, length]
    omega
  · simp only [swapFilter, pending, length]
    omega
  · cases applies

theorem length_pushLast (rule : PushRule) (chain : Chain) (changed : Bool) :
    (chain.pushLast rule changed).1.length = chain.length := by
  unfold pushLast
  split
  · exact length_swapFilter chain
  · rfl

theorem pending_pushLast_le (rule : PushRule) (chain : Chain) (changed : Bool) :
    (chain.pushLast rule changed).1.pending ≤ chain.pending := by
  unfold pushLast
  split
  · rename_i applies
    exact Nat.le_of_lt (pending_swapFilter_lt applies)
  · exact Nat.le_refl _

/-- What was not changed before changes only by an exchange. -/
theorem pending_pushLast_lt {rule : PushRule} {chain : Chain}
    (changed : (chain.pushLast rule false).2 = true) :
    (chain.pushLast rule false).1.pending < chain.pending := by
  unfold pushLast at changed ⊢
  split at changed
  · rename_i applies
    simpa [applies] using pending_swapFilter_lt applies
  · cases changed

/-- A pass of a rule keeps the number of steps. -/
theorem length_pushOnce (rule : PushRule) (chain : Chain) :
    (chain.pushOnce rule).1.length = chain.length := by
  induction chain with
  | source name schema => rfl
  | apply input verb inputLength =>
    simp only [pushOnce, length_pushLast, length, inputLength]
  | join input right kind pairs inputLength rightLength =>
    simp only [pushOnce, length_pushLast, length, inputLength]

/-- Steps on top of fewer steps below filters are below no more filters. -/
theorem pending_apply_le {input newInput : Chain} (verb : Verb)
    (sameLength : newInput.length = input.length) (fewer : newInput.pending ≤ input.pending) :
    (apply newInput verb).pending ≤ (apply input verb).pending := by
  cases verb <;> simp only [pending] <;> omega

theorem pending_apply_lt {input newInput : Chain} (verb : Verb)
    (sameLength : newInput.length = input.length) (fewer : newInput.pending < input.pending) :
    (apply newInput verb).pending < (apply input verb).pending := by
  cases verb <;> simp only [pending] <;> omega

/-- A pass never raises the number of steps below filters. -/
theorem pending_pushOnce_le (rule : PushRule) (chain : Chain) :
    (chain.pushOnce rule).1.pending ≤ chain.pending := by
  induction chain with
  | source name schema => exact Nat.le_refl _
  | apply input verb inputLe =>
    exact Nat.le_trans (pending_pushLast_le rule _ _)
      (pending_apply_le verb (length_pushOnce rule input) inputLe)
  | join input right kind pairs inputLe rightLe =>
    exact Nat.le_trans (pending_pushLast_le rule _ _) (Nat.add_le_add inputLe rightLe)

/-- A pass that changes anything lowers the number of steps below filters. -/
theorem pending_pushOnce_lt {rule : PushRule} {chain : Chain}
    (changed : (chain.pushOnce rule).2 = true) :
    (chain.pushOnce rule).1.pending < chain.pending := by
  induction chain with
  | source name schema => cases changed
  | apply input verb inputLt =>
    simp only [pushOnce] at changed ⊢
    have inputLength := length_pushOnce rule input
    have inputLe := pending_pushOnce_le rule input
    cases below : (input.pushOnce rule).2 with
    | true =>
      exact Nat.lt_of_le_of_lt (pending_pushLast_le rule _ _)
        (pending_apply_lt verb inputLength (inputLt below))
    | false =>
      rw [below] at changed
      exact Nat.lt_of_lt_of_le (pending_pushLast_lt changed)
        (pending_apply_le verb inputLength inputLe)
  | join input right kind pairs inputLt rightLt =>
    simp only [pushOnce] at changed ⊢
    have inputLe := pending_pushOnce_le rule input
    have rightLe := pending_pushOnce_le rule right
    cases below : (input.pushOnce rule).2 with
    | true =>
      exact Nat.lt_of_le_of_lt (pending_pushLast_le rule _ _)
        (Nat.add_lt_add_of_lt_of_le (inputLt below) rightLe)
    | false =>
      cases beside : (right.pushOnce rule).2 with
      | true =>
        exact Nat.lt_of_le_of_lt (pending_pushLast_le rule _ _)
          (Nat.add_lt_add_of_le_of_lt inputLe (rightLt beside))
      | false =>
        rw [below, beside] at changed
        exact Nat.lt_of_lt_of_le (pending_pushLast_lt changed) (Nat.add_le_add inputLe rightLe)

/-- Applies a rule until it changes nothing, and tells whether anything changed. -/
def pushAll (rule : PushRule) (chain : Chain) : Chain × Bool :=
  let pass := chain.pushOnce rule
  if _changed : pass.2 then ((pass.1.pushAll rule).1, true) else (pass.1, false)
termination_by chain.pending
decreasing_by exact pending_pushOnce_lt _changed

/-- A rule never raises the number of steps below filters. -/
theorem pending_pushAll_le (rule : PushRule) (chain : Chain) :
    (chain.pushAll rule).1.pending ≤ chain.pending := by
  fun_induction pushAll rule chain with
  | case1 chain pass changed rest => exact Nat.le_trans rest (pending_pushOnce_le rule chain)
  | case2 chain pass unchanged => exact pending_pushOnce_le rule chain

/-- A rule that changes anything lowers the number of steps below filters. -/
theorem pending_pushAll_lt {rule : PushRule} {chain : Chain}
    (changed : (chain.pushAll rule).2 = true) :
    (chain.pushAll rule).1.pending < chain.pending := by
  rw [pushAll] at changed ⊢
  split at changed
  · rename_i passChanged
    simp only [passChanged, dite_true]
    exact Nat.lt_of_le_of_lt (pending_pushAll_le rule _) (pending_pushOnce_lt passChanged)
  · cases changed

/-- Applies the three rules in turn, each until it changes nothing, and tells whether one of them
changed anything. -/
def pushRound (chain : Chain) : Chain × Bool :=
  let ordered := chain.pushAll .belowOrder
  let mutated := ordered.1.pushAll .belowMutate
  let joined := mutated.1.pushAll .intoJoin
  (joined.1, ordered.2 || mutated.2 || joined.2)

/-- A round that changes anything lowers the number of steps below filters. -/
theorem pending_pushRound_lt {chain : Chain} (changed : chain.pushRound.2 = true) :
    chain.pushRound.1.pending < chain.pending := by
  simp only [pushRound, Bool.or_eq_true] at changed ⊢
  have orderedLe := pending_pushAll_le .belowOrder chain
  have mutatedLe := pending_pushAll_le .belowMutate (chain.pushAll .belowOrder).1
  have joinedLe := pending_pushAll_le .intoJoin
    ((chain.pushAll .belowOrder).1.pushAll .belowMutate).1
  rcases changed with (byOrder | byMutate) | byJoin
  · have := pending_pushAll_lt byOrder
    omega
  · have := pending_pushAll_lt byMutate
    omega
  · have := pending_pushAll_lt byJoin
    omega

/-- Applies the three rules until none of them changes anything. -/
def pushFilters (chain : Chain) : Chain :=
  let round := chain.pushRound
  if _changed : round.2 then round.1.pushFilters else round.1
termination_by chain.pending
decreasing_by exact pending_pushRound_lt _changed

/-- The chain with its filters as close to the sources as the three rules bring them, if it can be
built. -/
def optimize (chain : Chain) : Except ChainError Chain :=
  chain.pushFilters.checked

end Chain

end TablePipeline
