import TablePipeline.Proofs.Chain.NormalForm
import TablePipeline.Proofs.Chain.RenamedSteps

/-! # Plans of renamed chains

A renamed chain can be built exactly if the chain can, and what is known about it is the same under
the new names. The rules that move filters ask whether names are equal and which side of a join a
column comes from, so they move the filters of a renamed chain to the same places. All this needs
sources whose keys are positions of columns, unless no name is changed.
-/

namespace TablePipeline

variable {rename : String → String}

/-! ## Columns of predicates -/

namespace Expr

mutual

theorem references_renamed (rename : String → String) : ∀ expr : Expr String,
    (expr.renamed rename).references = expr.references.map rename
  | column _ | literal _ => rfl
  | cast operand _ | unary _ operand => operand.references_renamed rename
  | binary _ left right => by
    rw [renamed, references, references, List.map_append, left.references_renamed,
      right.references_renamed]
  | call _ arguments => referencesAll_renamed rename arguments

theorem referencesAll_renamed (rename : String → String) : ∀ arguments : List (Expr String),
    referencesAll (renamedAll rename arguments) = (referencesAll arguments).map rename
  | [] => rfl
  | argument :: rest => by
    rw [renamedAll, referencesAll, referencesAll, List.map_append, argument.references_renamed,
      referencesAll_renamed]

end

theorem mem_columns_renamed (injective : rename.Injective) (expr : Expr String) (name : String) :
    rename name ∈ (expr.renamed rename).columns ↔ name ∈ expr.columns := by
  rw [mem_columns, mem_columns, references_renamed, List.mem_map_of_injective injective]

theorem forall_columns_renamed (rename : String → String) (expr : Expr String)
    (holds : String → Prop) :
    (∀ name ∈ (expr.renamed rename).columns, holds name) ↔
      ∀ name ∈ expr.columns, holds (rename name) := by
  simp only [mem_columns, references_renamed, List.forall_mem_map]

end Expr

namespace Chain

/-! ## What is known -/

/-- Are the schemas of all sources well formed? -/
def Formed : Chain → Prop
  | source _ schema => schema.Formed
  | apply input _ => input.Formed
  | join input right _ _ => input.Formed ∧ right.Formed

variable {chain : Chain}

/-- The schema of a built chain over well formed sources is well formed. -/
theorem Formed.schema (formed : chain.Formed) {known : Signature}
    (built : chain.signature? = .ok known) : known.schema.Formed := by
  induction chain generalizing known with
  | source name schema =>
    cases built
    exact formed
  | apply input verb ih =>
    obtain ⟨before, below, applied⟩ := built_below built
    exact Verb.formed_apply (ih formed below) applied
  | join input right kind pairs ih ih' =>
    obtain ⟨left, builtLeft, beside, builtRight, joined⟩ := built_sides built
    obtain ⟨_, _, made, _, _, rfl⟩ := Signature.join_eq_ok.mp joined
    exact Schema.formed_join (ih formed.1 builtLeft) made

/-- A renamed chain can be built if the chain can, and the same is known about it under the new
names. -/
theorem signature?_renamed (injective : rename.Injective) (formed : chain.Formed) :
    SameOutcome (Signature.Renames rename) chain.signature? (chain.renamed rename).signature? := by
  induction chain with
  | source name schema =>
    exact .ok ⟨rfl, rfl, rfl, List.nodup_singleton name, .refl _⟩
  | apply input verb ih =>
    have formedInput : input.Formed := formed
    exact (ih formed).bind fun known known' built renames =>
      known.apply_renamed injective (formedInput.schema built) renames verb
  | join input right kind pairs ih ih' =>
    refine (ih formed.1).bind fun left left' builtLeft renames => ?_
    refine (ih' formed.2).bind fun other other' builtRight renamesOther => ?_
    exact left.join_renamed injective (formed.1.schema builtLeft) (formed.2.schema builtRight)
      renames renamesOther kind pairs

/-- The columns and the groups of a renamed chain are those of the chain under the new names. -/
theorem signature_renamed (injective : rename.Injective) (formed : chain.Formed) :
    (chain.renamed rename).signature.schema = chain.signature.schema.renamed rename ∧
      (chain.renamed rename).signature.groups = chain.signature.groups.map rename := by
  have same := signature?_renamed injective formed
  rw [signature, signature]
  cases built : chain.signature? with
  | ok known =>
    obtain ⟨known', built', renames⟩ := same.exists_ok built
    rw [built']
    exact ⟨renames.schema, renames.groups⟩
  | error error =>
    rw [built] at same
    generalize (chain.renamed rename).signature? = outcome at same ⊢
    cases same
    exact ⟨rfl, rfl⟩

theorem schema_renamed (injective : rename.Injective) (formed : chain.Formed) :
    (chain.renamed rename).schema = chain.schema.renamed rename :=
  (signature_renamed injective formed).1

/-! ## Rules -/

theorem leftOnly_renamed (injective : rename.Injective) {input right : Chain} {kind : JoinKind}
    {pairs : List (String × String)} (formed : (join input right kind pairs).Formed)
    (predicate : Expr String) :
    leftOnly (input.renamed rename) (right.renamed rename) kind (pairs.map (Prod.map rename rename))
      (predicate.renamed rename) = leftOnly input right kind pairs predicate := by
  have joined : (join (input.renamed rename) (right.renamed rename) kind
      (pairs.map (Prod.map rename rename))).schema =
        (join input right kind pairs).schema.renamed rename :=
    schema_renamed injective formed
  rw [Bool.eq_iff_iff]
  simp only [leftOnly, List.all_eq_true, joined, schema_renamed injective formed.1,
    schema_renamed injective formed.2, Schema.joinLayout_renamed injective,
    Expr.forall_columns_renamed, Schema.position?_renamed injective]

/-- A predicate reads none of the assigned columns if it read none of them. -/
theorem unread_renamed (injective : rename.Injective) (assignments : List (String × Expr String))
    (predicate : Expr String) :
    (assignments.map (Prod.map rename (Expr.renamed rename))).all
        (fun (name, _) => !(predicate.renamed rename).columns.contains name) =
      assignments.all fun (name, _) => !predicate.columns.contains name := by
  rw [List.all_map]
  congr 1
  funext assignment
  simp only [Function.comp_apply, Prod.map, List.contains_eq_mem,
    Expr.mem_columns_renamed injective]

theorem matchesRule_renamed (injective : rename.Injective) (formed : chain.Formed)
    (rule : PushRule) : (chain.renamed rename).matchesRule rule = chain.matchesRule rule := by
  cases chain with
  | source | join => rfl
  | apply input verb =>
    cases verb with
    | filter predicate =>
      cases input with
      | source => rfl
      | apply below verb =>
        cases verb with
        | mutate assignments =>
          exact congrArg (decide (rule = .belowMutate) && ·)
            (unread_renamed injective assignments predicate)
        | _ => rfl
      | join below right kind pairs =>
        exact congrArg (decide (rule = .intoJoin) && ·)
          (leftOnly_renamed injective formed predicate)
    | _ => cases input with
      | apply below verb => cases verb <;> rfl
      | source | join => rfl

theorem swapFilter_renamed (rename : String → String) (chain : Chain) :
    (chain.renamed rename).swapFilter = chain.swapFilter.renamed rename := by
  cases chain with
  | source | join => rfl
  | apply input verb => cases verb <;> cases input <;> rfl

theorem Exchange.formed {next : Chain} (exchange : Exchange chain next) (formed : chain.Formed) :
    next.Formed := by
  induction exchange with
  | @here rule chain _ =>
    unfold swapFilter
    split
    · exact formed
    · exact formed
    · exact formed
  | onInput _ _ ih => exact ih formed
  | onLeft _ _ _ _ ih => exact ⟨ih formed.1, formed.2⟩
  | onRight _ _ _ _ ih => exact ⟨formed.1, ih formed.2⟩

theorem Exchanges.formed {count : Nat} {next : Chain} (exchanges : Exchanges chain count next)
    (formed : chain.Formed) : next.Formed := by
  induction exchanges with
  | refl => exact formed
  | tail _ exchange ih => exact exchange.formed ih

/-! ## Passes -/

theorem pushLast_renamed (injective : rename.Injective) (formed : chain.Formed) (rule : PushRule)
    (changed : Bool) : (chain.renamed rename).pushLast rule changed =
      (chain.pushLast rule changed).map (Chain.renamed rename) id := by
  rw [pushLast, pushLast, matchesRule_renamed injective formed, swapFilter_renamed]
  split <;> rfl

theorem pushOnce_renamed (injective : rename.Injective) (formed : chain.Formed)
    (rule : PushRule) : (chain.renamed rename).pushOnce rule =
      (chain.pushOnce rule).map (Chain.renamed rename) id := by
  induction chain with
  | source name schema => rfl
  | apply input verb ih =>
    obtain ⟨_, exchanges⟩ := pushOnce_exchanges rule input
    have below : (apply (input.pushOnce rule).1 verb).Formed := exchanges.formed formed
    rw [renamed, pushOnce, pushOnce, ih formed]
    exact pushLast_renamed injective below rule _
  | join input right kind pairs ih ih' =>
    obtain ⟨_, exchanges⟩ := pushOnce_exchanges rule input
    obtain ⟨_, exchanges'⟩ := pushOnce_exchanges rule right
    have sides : (join (input.pushOnce rule).1 (right.pushOnce rule).1 kind pairs).Formed :=
      ⟨exchanges.formed formed.1, exchanges'.formed formed.2⟩
    rw [renamed, pushOnce, pushOnce, ih formed.1, ih' formed.2]
    exact pushLast_renamed injective sides rule _

theorem pushAll_renamed (injective : rename.Injective) (formed : chain.Formed) (rule : PushRule) :
    (chain.renamed rename).pushAll rule = (chain.pushAll rule).map (Chain.renamed rename) id := by
  fun_induction pushAll rule chain with
  | case1 chain pass changed ih =>
    obtain ⟨_, exchanges⟩ := pushOnce_exchanges rule chain
    have next : ((chain.renamed rename).pushOnce rule).2 = true := by
      rw [pushOnce_renamed injective formed]
      exact changed
    rw [pushAll, dif_pos next, pushOnce_renamed injective formed, Prod.map_fst,
      ih (exchanges.formed formed)]
    rfl
  | case2 chain pass unchanged =>
    have rests : ¬ ((chain.renamed rename).pushOnce rule).2 = true := by
      rw [pushOnce_renamed injective formed]
      exact unchanged
    rw [pushAll, dif_neg rests, pushOnce_renamed injective formed]
    rfl

theorem pushRound_renamed (injective : rename.Injective) (formed : chain.Formed) :
    (chain.renamed rename).pushRound = chain.pushRound.map (Chain.renamed rename) id := by
  obtain ⟨_, ordered⟩ := pushAll_exchanges .belowOrder chain
  obtain ⟨_, mutated⟩ := pushAll_exchanges .belowMutate (chain.pushAll .belowOrder).1
  have formedOrdered := ordered.formed formed
  rw [pushRound, pushRound, pushAll_renamed injective formed, Prod.map_fst,
    pushAll_renamed injective formedOrdered, Prod.map_fst,
    pushAll_renamed injective (mutated.formed formedOrdered)]
  rfl

/-- The filters of a renamed chain move to the same places. -/
theorem pushFilters_renamed (injective : rename.Injective) (formed : chain.Formed) :
    (chain.renamed rename).pushFilters = chain.pushFilters.renamed rename := by
  fun_induction pushFilters chain with
  | case1 chain round changed ih =>
    obtain ⟨_, exchanges⟩ := pushRound_exchanges chain
    have next : (chain.renamed rename).pushRound.2 = true := by
      rw [pushRound_renamed injective formed]
      exact changed
    rw [pushFilters, dif_pos next, pushRound_renamed injective formed, Prod.map_fst,
      ih (exchanges.formed formed)]
  | case2 chain round unchanged =>
    have rests : ¬ (chain.renamed rename).pushRound.2 = true := by
      rw [pushRound_renamed injective formed]
      exact unchanged
    rw [pushFilters, dif_neg rests, pushRound_renamed injective formed]
    rfl

/-! ## Names that may stay -/

/-- May the names of a chain be exchanged in this way? -/
def Renamable (rename : String → String) (chain : Chain) : Prop :=
  rename = id ∨ chain.Formed

namespace Renamable

theorem signature (injective : rename.Injective) (renamable : chain.Renamable rename) :
    (chain.renamed rename).signature.schema = chain.signature.schema.renamed rename ∧
      (chain.renamed rename).signature.groups = chain.signature.groups.map rename := by
  rcases renamable with rfl | formed
  · rw [renamed_id, Schema.renamed_id, List.map_id]
    exact ⟨rfl, rfl⟩
  · exact signature_renamed injective formed

theorem schema (injective : rename.Injective) (renamable : chain.Renamable rename) :
    (chain.renamed rename).schema = chain.schema.renamed rename :=
  (renamable.signature injective).1

/-- The renamed chain is optimised to the renamed plan. -/
theorem optimize (injective : rename.Injective) (renamable : chain.Renamable rename) {plan : Chain}
    (optimized : chain.optimize = .ok plan) :
    (∃ known, plan.signature? = .ok known) ∧ plan.Renamable rename ∧
      (chain.renamed rename).optimize = .ok (plan.renamed rename) := by
  obtain ⟨⟨known, built⟩, rfl⟩ := checked_eq_ok.mp optimized
  refine ⟨⟨known, built⟩, ?_⟩
  rcases renamable with rfl | formed
  · rw [renamed_id, renamed_id]
    exact ⟨.inl rfl, optimized⟩
  · obtain ⟨_, exchanges⟩ := pushFilters_exchanges chain
    have formed' := exchanges.formed formed
    obtain ⟨known', built', _⟩ := (signature?_renamed injective formed').exists_ok built
    refine ⟨.inr formed', ?_⟩
    rw [Chain.optimize, pushFilters_renamed injective formed]
    exact checked_of_built built'

end Renamable

end Chain

end TablePipeline
