import TablePipeline.Proofs.Chain.Pushdown

/-! # Where filters come to rest

The rules are applied until none of them matches any more, at any step of the chain or of a chain
that it joins. Each exchange of a filter with the step below it leaves fewer steps below filters, so
`Chain.pending` bounds the number of exchanges, whatever order they are made in; and each of them
leaves what is known about the chain. A chain that can be built can therefore be rebuilt after every
exchange, and `Chain.optimizeChecked`, which checks every step that it puts back, gives the chain
that `Chain.optimize` gives.
-/

namespace TablePipeline.Chain

/-- The chain after each of its steps and after each step of the chains that it joins. -/
def parts : Chain → List Chain
  | chain@(source ..) => [chain]
  | chain@(apply input _) => chain :: input.parts
  | chain@(join input right _ _) => chain :: (input.parts ++ right.parts)

/-- Does no rule match at any step? -/
def Normal (chain : Chain) : Prop :=
  ∀ part ∈ chain.parts, ∀ rule, part.matchesRule rule = false

/-- One exchange of a filter with the step below it, at any step at which some rule matches. -/
inductive Exchange : Chain → Chain → Prop where
  | here {rule : PushRule} {chain : Chain} (applies : chain.matchesRule rule) :
      Exchange chain chain.swapFilter
  | onInput {input next : Chain} (exchange : Exchange input next) (verb : Verb) :
      Exchange (apply input verb) (apply next verb)
  | onLeft {input next : Chain} (exchange : Exchange input next) (right : Chain) (kind : JoinKind)
      (pairs : List (String × String)) :
      Exchange (join input right kind pairs) (join next right kind pairs)
  | onRight {right next : Chain} (exchange : Exchange right next) (input : Chain) (kind : JoinKind)
      (pairs : List (String × String)) :
      Exchange (join input right kind pairs) (join input next kind pairs)

/-- A number of exchanges, one after the other. -/
inductive Exchanges (first : Chain) : Nat → Chain → Prop where
  | refl : Exchanges first 0 first
  | tail {count : Nat} {middle last : Chain} (exchanges : Exchanges first count middle)
      (exchange : Exchange middle last) : Exchanges first (count + 1) last

variable {chain next first middle last : Chain} {rule : PushRule}

/-! ## Exchanges end -/

theorem Exchange.length_eq (exchange : Exchange chain next) : next.length = chain.length := by
  induction exchange with
  | here => exact length_swapFilter _
  | onInput _ _ ih => exact congrArg (· + 1) ih
  | onLeft _ _ _ _ ih => exact congrArg (· + 1) ih
  | onRight => rfl

/-- An exchange at any step lowers the number of steps below filters. -/
theorem Exchange.pending_lt (exchange : Exchange chain next) : next.pending < chain.pending := by
  induction exchange with
  | here applies => exact pending_swapFilter_lt applies
  | onInput inner verb ih => exact pending_apply_lt verb inner.length_eq ih
  | onLeft _ right _ _ ih => exact Nat.add_lt_add_right ih right.pending
  | onRight _ input _ _ ih => exact Nat.add_lt_add_left ih input.pending

/-- No more exchanges can be made than there are steps below filters. -/
theorem Exchanges.pending_le {count : Nat} (exchanges : Exchanges first count last) :
    last.pending + count ≤ first.pending := by
  induction exchanges with
  | refl => exact Nat.le_refl _
  | tail _ exchange ih =>
    have fewer := exchange.pending_lt
    omega

theorem Exchanges.trans {count more : Nat} (early : Exchanges first count middle)
    (late : Exchanges middle more last) : Exchanges first (count + more) last := by
  induction late with
  | refl => exact early
  | tail _ exchange ih => exact ih.tail exchange

theorem Exchanges.onInput {count : Nat} (exchanges : Exchanges first count last) (verb : Verb) :
    Exchanges (apply first verb) count (apply last verb) := by
  induction exchanges with
  | refl => exact .refl
  | tail _ exchange ih => exact ih.tail (exchange.onInput verb)

theorem Exchanges.sides {count more : Nat} {right nextRight : Chain}
    (exchanges : Exchanges first count last) (beside : Exchanges right more nextRight)
    (kind : JoinKind) (pairs : List (String × String)) :
    Exchanges (join first right kind pairs) (count + more) (join last nextRight kind pairs) := by
  induction beside with
  | refl =>
    induction exchanges with
    | refl => exact .refl
    | tail _ exchange ih => exact ih.tail (exchange.onLeft _ kind pairs)
  | tail _ exchange ih => exact ih.tail (exchange.onRight _ kind pairs)

/-! ## Passes are made of exchanges -/

theorem pushLast_exchanges (rule : PushRule) (chain : Chain) (changed : Bool) :
    ∃ count, Exchanges chain count (chain.pushLast rule changed).1 := by
  unfold pushLast
  split
  · rename_i applies
    exact ⟨1, Exchanges.refl.tail (.here applies)⟩
  · exact ⟨0, .refl⟩

theorem pushOnce_exchanges (rule : PushRule) (chain : Chain) :
    ∃ count, Exchanges chain count (chain.pushOnce rule).1 := by
  induction chain with
  | source name schema => exact ⟨0, .refl⟩
  | apply input verb ih =>
    obtain ⟨count, below⟩ := ih
    obtain ⟨more, here⟩ :=
      pushLast_exchanges rule (apply (input.pushOnce rule).1 verb) (input.pushOnce rule).2
    exact ⟨count + more, (below.onInput verb).trans here⟩
  | join input right kind pairs ihLeft ihRight =>
    obtain ⟨count, left⟩ := ihLeft
    obtain ⟨more, beside⟩ := ihRight
    obtain ⟨last, here⟩ :=
      pushLast_exchanges rule (join (input.pushOnce rule).1 (right.pushOnce rule).1 kind pairs)
        ((input.pushOnce rule).2 || (right.pushOnce rule).2)
    exact ⟨count + more + last, (left.sides beside kind pairs).trans here⟩

theorem pushAll_exchanges (rule : PushRule) (chain : Chain) :
    ∃ count, Exchanges chain count (chain.pushAll rule).1 := by
  fun_induction pushAll rule chain with
  | case1 chain pass changed ih =>
    obtain ⟨count, once⟩ := pushOnce_exchanges rule chain
    obtain ⟨more, rest⟩ := ih
    exact ⟨count + more, once.trans rest⟩
  | case2 chain pass unchanged => exact pushOnce_exchanges rule chain

theorem pushRound_exchanges (chain : Chain) :
    ∃ count, Exchanges chain count chain.pushRound.1 := by
  obtain ⟨_, ordered⟩ := pushAll_exchanges .belowOrder chain
  obtain ⟨_, mutated⟩ := pushAll_exchanges .belowMutate (chain.pushAll .belowOrder).1
  obtain ⟨_, joined⟩ :=
    pushAll_exchanges .intoJoin ((chain.pushAll .belowOrder).1.pushAll .belowMutate).1
  exact ⟨_, (ordered.trans mutated).trans joined⟩

theorem pushFilters_exchanges (chain : Chain) :
    ∃ count, Exchanges chain count chain.pushFilters := by
  fun_induction pushFilters chain with
  | case1 chain round changed ih =>
    obtain ⟨count, once⟩ := pushRound_exchanges chain
    obtain ⟨more, rest⟩ := ih
    exact ⟨count + more, once.trans rest⟩
  | case2 chain round unchanged => exact pushRound_exchanges chain

/-! ## What passes that change nothing tell -/

theorem pushLast_unchanged {changed : Bool} (unchanged : (chain.pushLast rule changed).2 = false) :
    chain.pushLast rule changed = (chain, false) ∧ changed = false ∧
      chain.matchesRule rule = false := by
  unfold pushLast at unchanged ⊢
  split at unchanged
  · cases unchanged
  · rename_i rests
    rw [if_neg rests]
    exact ⟨congrArg _ unchanged, unchanged, Bool.eq_false_iff.mpr rests⟩

/-- A pass that reports no change leaves the chain as it is, and its rule matches at no step. -/
theorem pushOnce_unchanged (unchanged : (chain.pushOnce rule).2 = false) :
    (chain.pushOnce rule).1 = chain ∧ ∀ part ∈ chain.parts, part.matchesRule rule = false := by
  induction chain with
  | source name schema =>
    refine ⟨rfl, fun part member => ?_⟩
    rw [List.mem_singleton.mp member]
    rfl
  | apply input verb ih =>
    simp only [pushOnce] at unchanged ⊢
    obtain ⟨same, below, rests⟩ := pushLast_unchanged unchanged
    obtain ⟨sameBelow, restsBelow⟩ := ih below
    rw [sameBelow] at same rests ⊢
    rw [same]
    exact ⟨rfl, List.forall_mem_cons.mpr ⟨rests, restsBelow⟩⟩
  | join input right kind pairs ihLeft ihRight =>
    simp only [pushOnce] at unchanged ⊢
    obtain ⟨same, sides, rests⟩ := pushLast_unchanged unchanged
    rw [Bool.or_eq_false_iff] at sides
    obtain ⟨sameLeft, restsLeft⟩ := ihLeft sides.1
    obtain ⟨sameRight, restsRight⟩ := ihRight sides.2
    rw [sameLeft, sameRight] at same rests ⊢
    rw [same]
    refine ⟨rfl, List.forall_mem_cons.mpr ⟨rests, fun part member => ?_⟩⟩
    exact (List.mem_append.mp member).elim (restsLeft part) (restsRight part)

theorem pushAll_unchanged (unchanged : (chain.pushAll rule).2 = false) :
    (chain.pushAll rule).1 = chain ∧ ∀ part ∈ chain.parts, part.matchesRule rule = false := by
  rw [pushAll] at unchanged ⊢
  split at unchanged
  · cases unchanged
  · rename_i quiet
    rw [dif_neg quiet]
    exact pushOnce_unchanged (Bool.eq_false_iff.mpr quiet)

/-- A round that reports no change leaves the chain as it is, and no rule matches at any step. -/
theorem pushRound_unchanged (unchanged : chain.pushRound.2 = false) :
    chain.pushRound.1 = chain ∧ chain.Normal := by
  simp only [pushRound, Bool.or_eq_false_iff] at unchanged ⊢
  obtain ⟨⟨byOrder, byMutate⟩, byJoin⟩ := unchanged
  obtain ⟨ordered, restsOrder⟩ := pushAll_unchanged byOrder
  rw [ordered] at byMutate byJoin ⊢
  obtain ⟨mutated, restsMutate⟩ := pushAll_unchanged byMutate
  rw [mutated] at byJoin ⊢
  obtain ⟨joined, restsJoin⟩ := pushAll_unchanged byJoin
  refine ⟨joined, fun part member rule => ?_⟩
  cases rule with
  | belowOrder => exact restsOrder part member
  | belowMutate => exact restsMutate part member
  | intoJoin => exact restsJoin part member

/-- Moved filters are where no rule matches any more. -/
theorem normal_pushFilters (chain : Chain) : chain.pushFilters.Normal := by
  fun_induction pushFilters chain with
  | case1 chain round changed ih => exact ih
  | case2 chain round unchanged =>
    obtain ⟨same, normal⟩ := pushRound_unchanged (Bool.eq_false_iff.mpr unchanged)
    change chain.pushRound.1.Normal
    rwa [same]

/-- No exchange is left at a chain in normal form. -/
theorem Normal.rests (normal : chain.Normal) : ¬ Exchange chain next := by
  intro exchange
  induction exchange with
  | @here rule chain applies =>
    have isPart : chain ∈ chain.parts := by cases chain <;> exact List.mem_cons_self ..
    exact absurd (normal chain isPart rule) (by simp [applies])
  | onInput _ _ ih => exact ih fun part member => normal part (List.mem_cons_of_mem _ member)
  | onLeft _ _ _ _ ih =>
    exact ih fun part member =>
      normal part (List.mem_cons_of_mem _ (List.mem_append_left _ member))
  | onRight _ _ _ _ ih =>
    exact ih fun part member =>
      normal part (List.mem_cons_of_mem _ (List.mem_append_right _ member))

theorem Exchanges.eq_of_normal {count : Nat} (exchanges : Exchanges first count last)
    (normal : first.Normal) : last = first := by
  induction exchanges with
  | refl => rfl
  | tail _ exchange ih =>
    rw [ih] at exchange
    exact absurd exchange normal.rests

/-- Filters that are at rest are not moved. -/
theorem Normal.pushFilters_eq (normal : chain.Normal) : chain.pushFilters = chain := by
  obtain ⟨count, exchanges⟩ := pushFilters_exchanges chain
  exact exchanges.eq_of_normal normal

/-! ## Every step can be put back -/

/-- An exchange whose two steps are checked as they are put back. -/
def swapChecked : Chain → Except ChainError Chain
  | apply (apply below verb) (.filter predicate) => do
    (← below.extend (.verb (.filter predicate))).extend (.verb verb)
  | apply (join below right kind pairs) (.filter predicate) => do
    (← below.extend (.verb (.filter predicate))).extend (.join kind right pairs)
  | chain => .ok chain

@[inherit_doc pushLast]
def pushLastChecked (rule : PushRule) (chain : Chain) (changed : Bool) :
    Except ChainError (Chain × Bool) :=
  if chain.matchesRule rule then do return (← chain.swapChecked, true) else .ok (chain, changed)

/-- A step is checked as it is put back on a changed input, and stays on any other. -/
def putBack (chain newInput : Chain) (step : Step) (changed : Bool) : Except ChainError Chain :=
  if changed then newInput.extend step else .ok chain

/-- Applies a rule once to every step, the first steps first, and checks every step that it puts
back. -/
def pushOnceChecked (rule : PushRule) : Chain → Except ChainError (Chain × Bool)
  | chain@(source ..) => .ok (chain, false)
  | chain@(apply input verb) => do
    let (newInput, changed) ← input.pushOnceChecked rule
    (← chain.putBack newInput (.verb verb) changed).pushLastChecked rule changed
  | chain@(join input right kind pairs) => do
    let (newInput, inputChanged) ← input.pushOnceChecked rule
    let (newRight, rightChanged) ← right.pushOnceChecked rule
    let changed := inputChanged || rightChanged
    (← chain.putBack newInput (.join kind newRight pairs) changed).pushLastChecked rule changed

theorem checked_eq_ok : chain.checked = .ok next ↔
    (∃ signature, chain.signature? = .ok signature) ∧ chain = next := by
  simp only [checked, bind_eq_ok, pure_eq_ok, exists_and_right]

theorem swapChecked_eq_ok (checked : chain.swapChecked = .ok next) : next = chain.swapFilter := by
  unfold swapChecked at checked
  split at checked
  · simp only [extend, bind_eq_ok, checked_eq_ok] at checked
    obtain ⟨_, ⟨_, rfl⟩, _, rfl⟩ := checked
    rfl
  · simp only [extend, bind_eq_ok, checked_eq_ok] at checked
    obtain ⟨_, ⟨_, rfl⟩, _, rfl⟩ := checked
    rfl
  · rename_i noStep noJoin
    cases checked
    unfold swapFilter
    split
    · exact absurd rfl (noStep _ _ _)
    · exact absurd rfl (noJoin _ _ _ _ _)
    · rfl

theorem pushLastChecked_eq_ok {changed : Bool} {result : Chain × Bool}
    (checked : chain.pushLastChecked rule changed = .ok result) :
    result = chain.pushLast rule changed := by
  unfold pushLastChecked at checked
  unfold pushLast
  split at checked
  · rename_i applies
    simp only [bind_eq_ok, pure_eq_ok] at checked
    obtain ⟨next, swapped, rfl⟩ := checked
    rw [if_pos applies, swapChecked_eq_ok swapped]
  · rename_i rests
    cases checked
    rw [if_neg rests]

/-- What is put back is the step on the input that it is put back on. -/
theorem putBack_eq_ok {rebuilt newInput : Chain} {step : Step} {changed : Bool}
    (extended : newInput.extend step = rebuilt.checked)
    (unchanged : changed = false → chain = rebuilt)
    (put : chain.putBack newInput step changed = .ok next) : next = rebuilt := by
  unfold putBack at put
  split at put
  · rw [extended, checked_eq_ok] at put
    exact put.2.symm
  · rename_i stays
    cases put
    exact unchanged (Bool.eq_false_iff.mpr stays)

/-- A pass that goes through gives the chain that it gives without checks. -/
theorem pushOnceChecked_eq_ok {result : Chain × Bool}
    (checked : chain.pushOnceChecked rule = .ok result) : result = chain.pushOnce rule := by
  induction chain generalizing result with
  | source name schema =>
    cases checked
    rfl
  | apply input verb ih =>
    simp only [pushOnceChecked, bind_eq_ok] at checked
    obtain ⟨pass, passed, rebuilt, put, last⟩ := checked
    cases ih passed
    rw [pushLastChecked_eq_ok last, pushOnce, putBack_eq_ok rfl (fun unchanged => ?_) put]
    rw [(pushOnce_unchanged unchanged).1]
  | join input right kind pairs ihLeft ihRight =>
    simp only [pushOnceChecked, bind_eq_ok] at checked
    obtain ⟨pass, passed, beside, passedRight, rebuilt, put, last⟩ := checked
    cases ihLeft passed
    cases ihRight passedRight
    rw [pushLastChecked_eq_ok last, pushOnce, putBack_eq_ok rfl (fun unchanged => ?_) put]
    rw [Bool.or_eq_false_iff] at unchanged
    rw [(pushOnce_unchanged unchanged.1).1, (pushOnce_unchanged unchanged.2).1]

@[inherit_doc pushAll]
def pushAllChecked (rule : PushRule) (chain : Chain) : Except ChainError (Chain × Bool) :=
  match _checked : chain.pushOnceChecked rule with
  | .error error => .error error
  | .ok (next, true) => do return ((← next.pushAllChecked rule).1, true)
  | .ok (next, false) => .ok (next, false)
termination_by chain.pending
decreasing_by
  have pass := pushOnceChecked_eq_ok _checked
  have changed : (chain.pushOnce rule).2 = true := by rw [← pass]
  have fewer := pending_pushOnce_lt changed
  rwa [← pass] at fewer

@[inherit_doc pushRound]
def pushRoundChecked (chain : Chain) : Except ChainError (Chain × Bool) := do
  let ordered ← chain.pushAllChecked .belowOrder
  let mutated ← ordered.1.pushAllChecked .belowMutate
  let joined ← mutated.1.pushAllChecked .intoJoin
  return (joined.1, ordered.2 || mutated.2 || joined.2)

theorem pushAllChecked_eq_ok {result : Chain × Bool}
    (checked : chain.pushAllChecked rule = .ok result) : result = chain.pushAll rule := by
  fun_induction pushAllChecked rule chain generalizing result with
  | case1 chain error failed => cases checked
  | case2 chain next passed ih =>
    simp only [bind_eq_ok, pure_eq_ok] at checked
    obtain ⟨rest, pushed, rfl⟩ := checked
    have pass := pushOnceChecked_eq_ok passed
    rw [pushAll, ← pass, ih pushed]
    rfl
  | case3 chain next passed =>
    cases checked
    have pass := pushOnceChecked_eq_ok passed
    rw [pushAll, ← pass]
    rfl

theorem pushRoundChecked_eq_ok {result : Chain × Bool}
    (checked : chain.pushRoundChecked = .ok result) : result = chain.pushRound := by
  simp only [pushRoundChecked, bind_eq_ok, pure_eq_ok] at checked
  obtain ⟨ordered, byOrder, mutated, byMutate, joined, byJoin, rfl⟩ := checked
  cases pushAllChecked_eq_ok byOrder
  cases pushAllChecked_eq_ok byMutate
  cases pushAllChecked_eq_ok byJoin
  rfl

/-- The chain with its filters as close to the sources as the three rules bring them, where every
step that is put back is checked. -/
def optimizeChecked (chain : Chain) : Except ChainError Chain :=
  match _checked : chain.pushRoundChecked with
  | .error error => .error error
  | .ok (next, true) => next.optimizeChecked
  | .ok (next, false) => .ok next
termination_by chain.pending
decreasing_by
  have round := pushRoundChecked_eq_ok _checked
  have changed : chain.pushRound.2 = true := by rw [← round]
  have fewer := pending_pushRound_lt changed
  rwa [← round] at fewer

variable {signature : Signature}

/-- No exchange changes what is known about a chain that can be built. -/
theorem Exchange.signature? (exchange : Exchange chain next)
    (built : chain.signature? = .ok signature) : next.signature? = .ok signature := by
  have refines : Refines {} chain next := by
    induction exchange generalizing signature with
    | here applies => exact refines_swapFilter applies built
    | onInput _ verb ih =>
      obtain ⟨_, builtBelow, _⟩ := built_below built
      exact (ih builtBelow).apply verb
    | onLeft _ right kind pairs ih =>
      obtain ⟨_, builtLeft, _⟩ := built_sides built
      exact (ih builtLeft).join (.refl {} right) kind pairs
    | onRight _ input kind pairs ih =>
      obtain ⟨_, _, _, builtRight, _⟩ := built_sides built
      exact (Refines.refl {} input).join (ih builtRight) kind pairs
  exact refines.built built

theorem Exchanges.signature? {count : Nat} (exchanges : Exchanges first count last)
    (built : first.signature? = .ok signature) : last.signature? = .ok signature := by
  induction exchanges with
  | refl => exact built
  | tail _ exchange ih => exact exchange.signature? ih

theorem checked_of_built (built : chain.signature? = .ok signature) : chain.checked = .ok chain :=
  checked_eq_ok.mpr ⟨⟨signature, built⟩, rfl⟩

/-- Both steps of an exchange can be put back. -/
theorem swapChecked_of_built (applies : chain.matchesRule rule)
    (built : chain.signature? = .ok signature) : chain.swapChecked = .ok chain.swapFilter := by
  have swapped := (Exchange.here applies).signature? built
  have verbs {below : Chain} {predicate : Expr String} {verb : Verb}
      (swapped : (apply (apply below (.filter predicate)) verb).signature? = .ok signature) :
      swapChecked (apply (apply below verb) (.filter predicate)) =
        .ok (apply (apply below (.filter predicate)) verb) := by
    obtain ⟨_, filtered, _⟩ := built_below swapped
    rw [swapChecked, extend, checked_of_built filtered, ok_bind, extend, checked_of_built swapped]
  unfold matchesRule at applies
  split at applies
  · exact verbs swapped
  · exact verbs swapped
  · obtain ⟨_, filtered, _⟩ := built_sides swapped
    rw [swapChecked, extend, checked_of_built filtered, ok_bind, extend]
    exact checked_of_built swapped
  · cases applies

theorem pushLastChecked_of_built (built : chain.signature? = .ok signature) (changed : Bool) :
    chain.pushLastChecked rule changed = .ok (chain.pushLast rule changed) := by
  unfold pushLastChecked pushLast
  split
  · rename_i applies
    rw [swapChecked_of_built applies built]
    rfl
  · rfl

theorem putBack_of_built {rebuilt newInput : Chain} {step : Step} {changed : Bool}
    (extended : newInput.extend step = rebuilt.checked)
    (unchanged : changed = false → chain = rebuilt)
    (built : rebuilt.signature? = .ok signature) :
    chain.putBack newInput step changed = .ok rebuilt := by
  unfold putBack
  split
  · rw [extended, checked_of_built built]
  · rename_i stays
    rw [unchanged (Bool.eq_false_iff.mpr stays)]

/-- Every step of a pass can be put back. -/
theorem pushOnceChecked_of_built (built : chain.signature? = .ok signature) :
    chain.pushOnceChecked rule = .ok (chain.pushOnce rule) := by
  induction chain generalizing signature with
  | source name schema => rfl
  | apply input verb ih =>
    obtain ⟨_, builtBelow, _⟩ := built_below built
    obtain ⟨_, exchanges⟩ := pushOnce_exchanges rule input
    have rebuilt := (exchanges.onInput verb).signature? built
    simp only [pushOnceChecked, ih builtBelow, ok_bind, pushOnce]
    rw [putBack_of_built rfl (fun unchanged => ?_) rebuilt, ok_bind,
      pushLastChecked_of_built rebuilt]
    rw [(pushOnce_unchanged unchanged).1]
  | join input right kind pairs ihLeft ihRight =>
    obtain ⟨_, builtLeft, _, builtRight, _⟩ := built_sides built
    obtain ⟨_, exchanges⟩ := pushOnce_exchanges rule input
    obtain ⟨_, beside⟩ := pushOnce_exchanges rule right
    have rebuilt := (exchanges.sides beside kind pairs).signature? built
    simp only [pushOnceChecked, ihLeft builtLeft, ihRight builtRight, ok_bind, pushOnce]
    rw [putBack_of_built rfl (fun unchanged => ?_) rebuilt, ok_bind,
      pushLastChecked_of_built rebuilt]
    rw [Bool.or_eq_false_iff] at unchanged
    rw [(pushOnce_unchanged unchanged.1).1, (pushOnce_unchanged unchanged.2).1]

theorem pushAllChecked_of_built (built : chain.signature? = .ok signature) :
    chain.pushAllChecked rule = .ok (chain.pushAll rule) := by
  fun_induction pushAllChecked rule chain generalizing signature with
  | case1 chain error failed =>
    rw [pushOnceChecked_of_built built] at failed
    cases failed
  | case2 chain next passed ih =>
    have pass := pushOnceChecked_eq_ok passed
    obtain ⟨_, exchanges⟩ := pushOnce_exchanges rule chain
    rw [← pass] at exchanges
    rw [pushAll, ← pass, ih (exchanges.signature? built)]
    rfl
  | case3 chain next passed =>
    rw [pushAll, ← pushOnceChecked_eq_ok passed]
    rfl

theorem pushRoundChecked_of_built (built : chain.signature? = .ok signature) :
    chain.pushRoundChecked = .ok chain.pushRound := by
  obtain ⟨_, ordered⟩ := pushAll_exchanges .belowOrder chain
  obtain ⟨_, mutated⟩ := pushAll_exchanges .belowMutate (chain.pushAll .belowOrder).1
  have builtOrder := ordered.signature? built
  have builtMutate := mutated.signature? builtOrder
  rw [pushRoundChecked, pushAllChecked_of_built built, ok_bind, pushAllChecked_of_built builtOrder,
    ok_bind, pushAllChecked_of_built builtMutate]
  rfl

/-- Checking every step that is put back makes no difference for a chain that can be built. -/
theorem optimizeChecked_of_built (built : chain.signature? = .ok signature) :
    chain.optimizeChecked = .ok chain.pushFilters := by
  fun_induction optimizeChecked chain generalizing signature with
  | case1 chain error failed =>
    rw [pushRoundChecked_of_built built] at failed
    cases failed
  | case2 chain next passed ih =>
    have round := pushRoundChecked_eq_ok passed
    obtain ⟨_, exchanges⟩ := pushRound_exchanges chain
    rw [← round] at exchanges
    rw [pushFilters, ← round, ih (exchanges.signature? built)]
    rfl
  | case3 chain next passed =>
    rw [pushFilters, ← pushRoundChecked_eq_ok passed]
    rfl

/-- A chain that can be built can be optimized, whether every step that is put back is checked or
the last chain alone. A bounded number of exchanges leads to a chain that has none left, which is
known by the same signature and is not changed by another optimization. -/
theorem optimize_normal (built : chain.signature? = .ok signature) :
    ∃ optimized count, chain.optimizeChecked = .ok optimized ∧ chain.optimize = .ok optimized ∧
      Exchanges chain count optimized ∧ count ≤ chain.pending ∧ optimized.Normal ∧
      optimized.optimize = .ok optimized ∧ optimized.signature? = .ok signature := by
  obtain ⟨count, exchanges⟩ := pushFilters_exchanges chain
  have rebuilt := exchanges.signature? built
  have normal := normal_pushFilters chain
  refine ⟨chain.pushFilters, count, optimizeChecked_of_built built, ?_, exchanges, ?_, normal, ?_,
    rebuilt⟩
  · rw [optimize, checked_of_built rebuilt]
  · have bound := exchanges.pending_le
    omega
  · rw [optimize, normal.pushFilters_eq, checked_of_built rebuilt]

/-- A chain whose filter moves into a join only after another one moved below an assignment, and
whose joined chain has a filter above an ordering. -/
def recentOrders : Chain :=
  let orders := source "orders" ⟨[⟨"id", .int, false⟩, ⟨"paid", .int, true⟩], [0], []⟩
  let notes := source "notes" ⟨[⟨"id", .int, false⟩, ⟨"note", .text, true⟩], [0], []⟩
  let recent : Expr String := .binary (.comparison .greater) (.column "id") (.literal (.int 1))
  let sorted := apply (apply notes (.orderBy [⟨"note", false, .last⟩])) (.filter recent)
  let joined := join orders sorted .left [("id", "id")]
  let doubled := apply joined
    (.mutate [("twice", .binary (.arithmetic .add) (.column "paid") (.column "paid"))])
  apply doubled (.filter (.unary .isNotNull (.column "paid")))

theorem optimize_recentOrders :
    recentOrders.signature? = .ok recentOrders.signature ∧
      ∃ optimized count, recentOrders.optimizeChecked = .ok optimized ∧
        recentOrders.optimize = .ok optimized ∧ Exchanges recentOrders count optimized ∧
        count ≤ recentOrders.pending ∧ optimized.Normal ∧ optimized.optimize = .ok optimized ∧
        optimized.signature? = .ok recentOrders.signature := by
  have built : recentOrders.signature? = .ok recentOrders.signature := rfl
  exact ⟨built, optimize_normal built⟩

end TablePipeline.Chain
