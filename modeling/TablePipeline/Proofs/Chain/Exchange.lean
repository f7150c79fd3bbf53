import TablePipeline.Chain.Pushdown
import TablePipeline.Proofs.Chain.Steps
import TablePipeline.Proofs.Rows.Joining
import TablePipeline.Proofs.Rows.Sorting

/-! # Exchanging a filter with the step below it

A rewriting of chains refines if it keeps what is known about a chain and, on inputs whose orderings
compare, what a run of the chain gives. Each of the three exchanges of a filter with the step below
it refines: keeping rows commutes with a stable sort, with an assignment of columns that the
predicate does not read, and with a join whose left side has all of them.
-/

namespace TablePipeline

/-- On these rows, do the values that meet in one column of an ordering compare? -/
def Verb.ComparableOn (schema : Schema) (rows : List Row) : Verb → Prop
  | orderBy keys => ∀ key ∈ keys, ∀ position, schema.position? key.column = some position →
      ∀ a ∈ rows, ∀ b ∈ rows, (a.cell position).Comparable (b.cell position)
  | _ => True

/-- Rows that compare still do when some are left out. -/
theorem Verb.ComparableOn.filter {schema : Schema} {rows : List Row} {verb : Verb}
    (compares : verb.ComparableOn schema rows) (keep : Row → Bool) :
    verb.ComparableOn schema (rows.filter keep) := by
  cases verb with
  | orderBy keys =>
    intro key member position placed a left b right
    exact compares key member position placed a (List.mem_filter.mp left).1 b
      (List.mem_filter.mp right).1
  | _ => trivial

namespace Chain

/-- In the run of a chain, do the values that meet in one column of an ordering compare? Steps that
the run does not reach ask for nothing. -/
def ComparableOrders (inputs : Inputs) : Chain → Prop
  | source .. => True
  | apply input verb => input.ComparableOrders inputs ∧
      ∀ rows, input.rows inputs = .ok rows → verb.ComparableOn input.schema rows
  | join input right _ _ => input.ComparableOrders inputs ∧
      ∀ rows, input.rows inputs = .ok rows → right.ComparableOrders inputs

/-- The rewritten chain has the signature of the original one and gives its rows. -/
structure Refines (inputs : Inputs) (original rewritten : Chain) : Prop where
  signature : rewritten.signature? = original.signature?
  rows : original.ComparableOrders inputs → rewritten.rows inputs = original.rows inputs
  comparable : original.ComparableOrders inputs → rewritten.ComparableOrders inputs

namespace Refines

variable {inputs : Inputs}

theorem refl (inputs : Inputs) (chain : Chain) : Refines inputs chain chain :=
  ⟨rfl, fun _ => rfl, id⟩

theorem trans {first second third : Chain} (early : Refines inputs first second)
    (late : Refines inputs second third) : Refines inputs first third where
  signature := late.signature.trans early.signature
  rows comparable := (late.rows (early.comparable comparable)).trans (early.rows comparable)
  comparable comparable := late.comparable (early.comparable comparable)

/-- What is known about a chain is determined by its signature. -/
theorem signature_eq {original rewritten : Chain} (refines : Refines inputs original rewritten) :
    rewritten.signature = original.signature := by
  rw [Chain.signature, Chain.signature, refines.signature]

theorem schema_eq {original rewritten : Chain} (refines : Refines inputs original rewritten) :
    rewritten.schema = original.schema := by
  rw [Chain.schema, Chain.schema, refines.signature_eq]

/-- A step may be put on top of a rewritten chain. -/
theorem apply {original rewritten : Chain} (refines : Refines inputs original rewritten)
    (verb : Verb) : Refines inputs (.apply original verb) (.apply rewritten verb) := by
  have signature : (Chain.apply rewritten verb).signature? = (Chain.apply original verb).signature?
      := by
    rw [signature?, signature?, refines.signature]
  have schema : (Chain.apply rewritten verb).schema = (Chain.apply original verb).schema := by
    rw [Chain.schema, Chain.schema, Chain.signature, Chain.signature, signature]
  refine ⟨signature, ?_, ?_⟩
  · rintro ⟨below, _⟩
    rw [Chain.rows, Chain.rows, refines.rows below, refines.signature_eq, schema]
  · rintro ⟨below, here⟩
    refine ⟨refines.comparable below, fun rows ran => ?_⟩
    rw [refines.schema_eq]
    exact here rows (by rw [← refines.rows below, ran])

/-- Both sides of a join may be rewritten. -/
theorem join {original rewritten originalRight rewrittenRight : Chain}
    (left : Refines inputs original rewritten)
    (right : Refines inputs originalRight rewrittenRight) (kind : JoinKind)
    (pairs : List (String × String)) :
    Refines inputs (.join original originalRight kind pairs)
      (.join rewritten rewrittenRight kind pairs) := by
  refine ⟨?_, ?_, ?_⟩
  · rw [signature?, signature?, left.signature, right.signature]
  · rintro ⟨onLeft, onRight⟩
    rw [Chain.rows, Chain.rows, left.rows onLeft, left.schema_eq, right.schema_eq]
    cases ran : original.rows inputs with
    | error error => rfl
    | ok rows => rw [right.rows (onRight rows ran)]
  · rintro ⟨onLeft, onRight⟩
    refine ⟨left.comparable onLeft, fun rows ran => right.comparable (onRight rows ?_)⟩
    rw [← left.rows onLeft, ran]

end Refines

/-- The chain below the last step of a chain that was built was built. -/
theorem built_below {input : Chain} {verb : Verb} {after : Signature}
    (built : (apply input verb).signature? = .ok after) :
    ∃ before, input.signature? = .ok before ∧ before.apply verb = .ok after := by
  rwa [signature?, bind_eq_ok] at built

/-- Both sides of a join that was built were built. -/
theorem built_sides {input right : Chain} {kind : JoinKind} {pairs : List (String × String)}
    {after : Signature} (built : (join input right kind pairs).signature? = .ok after) :
    ∃ left, input.signature? = .ok left ∧ ∃ beside, right.signature? = .ok beside ∧
      left.join beside kind pairs = .ok after := by
  simpa only [signature?, bind_eq_ok] using built

end Chain

/-- The rows after a filter whose predicate is bound. -/
theorem Verb.rows_filter {before : Signature} {predicate : Expr String} {bound : Expr Nat}
    (resolved : predicate.bind before.schema = .ok bound) (after : Schema) (rows : List Row) :
    (Verb.filter predicate).rows before after rows = .ok (rows.filter bound.holds) := by
  rw [Verb.rows, bindExpr, resolved]
  rfl

/-- Bound keys are keys with the positions of their columns. -/
theorem Schema.mem_orderKeys {schema : Schema} {keys : List OrderKey}
    {bound : List (Nat × OrderKey)} (resolved : schema.orderKeys keys = .ok bound)
    {key : Nat × OrderKey} (member : key ∈ bound) :
    key.2 ∈ keys ∧ schema.position? key.2.column = some key.1 := by
  simp only [orderKeys, positions, bind_eq_ok, mapError_eq_ok, mapM_eq_ok, resolve_eq_ok,
    List.forall₂_map_left_iff, pure_eq_ok] at resolved
  obtain ⟨positions, each, rfl⟩ := resolved
  induction each with
  | nil => cases member
  | cons first _ ih =>
    rcases List.mem_cons.mp member with rfl | member
    · exact ⟨List.mem_cons_self .., first⟩
    · exact ⟨List.mem_cons_of_mem _ (ih member).1, (ih member).2⟩

/-- A column that is not assigned holds in an assigned row what it held before. -/
theorem read_assigned {before after : Schema} {columns : List Column}
    (assigned : before.assign columns = .ok after) {bound : List (String × Expr Nat)}
    {items : List (Expr Nat)} (listed : assignedItems before after bound = .ok items)
    {name : String} (other : name ∉ columns.map (·.name)) (unbound : bound.lookup name = none)
    (row : Row) : after.read (items.map (·.eval row)) name = before.read row name := by
  have same := Schema.column?_assign assigned other
  rw [Schema.read, Schema.read]
  cases placed : after.position? name with
  | none =>
    have missing : (before.position? name).isSome = false := by
      rw [Schema.position?_isSome, ← same, ← Schema.position?_isSome, placed, Option.isSome_none]
    rw [Option.isSome_eq_false_iff, Option.isNone_iff_eq_none] at missing
    rw [missing]
    rfl
  | some position =>
    rw [assignedItems, mapM_eq_ok, Schema.names, List.forall₂_map_left_iff,
      List.forall₂_iff_get] at listed
    obtain ⟨lengths, each⟩ := listed
    obtain ⟨inside, named, _⟩ := List.findIdx?_eq_some_iff_getElem.mp placed
    have inside' : position < items.length := lengths ▸ inside
    have item := each position inside inside'
    simp only [List.get_eq_getElem, of_decide_eq_true named, unbound, bind_eq_ok, mapError_eq_ok,
      Schema.resolve_eq_ok, pure_eq_ok] at item
    obtain ⟨source, found, item⟩ := item
    rw [found, Option.map_some, Option.map_some,
      Row.cell_map (List.getElem?_eq_getElem inside'), ← item]
    rfl

/-- The bound assignments carry the names that are assigned. -/
theorem names_of_bindAssignments {schema : Schema} {assignments : List (String × Expr String)}
    {bound : List (String × Expr Nat)} (resolved : bindAssignments schema assignments = .ok bound) :
    bound.map (·.1) = assignments.map (·.1) := by
  rw [bindAssignments, mapM_eq_ok] at resolved
  induction resolved with
  | nil => rfl
  | cons first _ ih =>
    simp only [bind_eq_ok, pure_eq_ok] at first
    obtain ⟨_, _, rfl⟩ := first
    rw [List.map_cons, List.map_cons, ih]

namespace Chain

variable {inputs : Inputs} {below : Chain} {predicate : Expr String} {before after : Signature}

/-- A step on a chain that was built goes over the rows of the chain. -/
theorem rows_apply {verb : Verb} (built : below.signature? = .ok before)
    (steps : before.apply verb = .ok after) :
    (apply below verb).rows inputs =
      (below.rows inputs >>= fun rows => verb.rows before after.schema rows) := by
  have builtStep : (apply below verb).signature? = .ok after := by
    rw [signature?, built, ok_bind, steps]
  rw [rows, Chain.schema, signature_of_built built, signature_of_built builtStep]

/-- A filter keeps the rows on which its predicate holds. -/
theorem rows_filtered {bound : Expr Nat} (built : below.signature? = .ok before)
    (filters : before.apply (.filter predicate) = .ok before)
    (resolved : predicate.bind before.schema = .ok bound) :
    (apply below (.filter predicate)).rows inputs =
      (below.rows inputs).map (List.filter bound.holds) := by
  rw [rows_apply built filters]
  cases below.rows inputs with
  | error error => rfl
  | ok rows => exact Verb.rows_filter resolved before.schema rows

/-- A filter may go below a step that it fits on both sides of, if keeping rows after the step is
the step on the rows that are kept. -/
theorem refines_exchange {verb : Verb} {bound boundBelow : Expr Nat}
    (built : below.signature? = .ok before) (steps : before.apply verb = .ok after)
    (filters : after.apply (.filter predicate) = .ok after)
    (filtersBelow : before.apply (.filter predicate) = .ok before)
    (resolved : predicate.bind after.schema = .ok bound)
    (resolvedBelow : predicate.bind before.schema = .ok boundBelow)
    (commutes : ∀ rows, verb.ComparableOn before.schema rows →
      (verb.rows before after.schema rows).map (List.filter bound.holds) =
        verb.rows before after.schema (rows.filter boundBelow.holds)) :
    Refines inputs (apply (apply below verb) (.filter predicate))
      (apply (apply below (.filter predicate)) verb) := by
  have builtStep : (apply below verb).signature? = .ok after := by
    rw [signature?, built, ok_bind, steps]
  have builtLast : (apply (apply below verb) (.filter predicate)).signature? = .ok after := by
    rw [signature?, builtStep, ok_bind, filters]
  have builtFilter : (apply below (.filter predicate)).signature? = .ok before := by
    rw [signature?, built, ok_bind, filtersBelow]
  have builtSwapped : (apply (apply below (.filter predicate)) verb).signature? = .ok after := by
    rw [signature?, builtFilter, ok_bind, steps]
  have kept : (apply below (.filter predicate)).rows inputs =
      (below.rows inputs).map (List.filter boundBelow.holds) :=
    rows_filtered built filtersBelow resolvedBelow
  refine ⟨builtSwapped.trans builtLast.symm, ?_, ?_⟩
  · rintro ⟨⟨_, here⟩, _⟩
    rw [rows_apply builtFilter steps, rows_apply builtStep filters, rows_apply built steps, kept]
    cases ran : below.rows inputs with
    | error error => rfl
    | ok rows =>
      have compares := here rows ran
      rw [Chain.schema, signature_of_built built] at compares
      change verb.rows before after.schema (rows.filter boundBelow.holds) = _
      rw [ok_bind, ← commutes rows compares]
      cases verb.rows before after.schema rows with
      | error error => rfl
      | ok stepped => exact (Verb.rows_filter resolved after.schema stepped).symm
  · rintro ⟨⟨onBelow, here⟩, _⟩
    refine ⟨⟨onBelow, fun _ _ => trivial⟩, fun rows ran => ?_⟩
    rw [kept] at ran
    cases ranBelow : below.rows inputs with
    | error error =>
      rw [ranBelow] at ran
      cases ran
    | ok all =>
      rw [ranBelow] at ran
      cases ran
      have compares := here all ranBelow
      rw [Chain.schema, signature_of_built built] at compares
      rw [Chain.schema, signature_of_built builtFilter]
      exact compares.filter boundBelow.holds

/-- A filter may go below an ordering whose values compare. -/
theorem refines_belowOrder {keys : List OrderKey}
    (built : (apply (apply below (.orderBy keys)) (.filter predicate)).signature? = .ok after) :
    Refines inputs (apply (apply below (.orderBy keys)) (.filter predicate))
      (apply (apply below (.filter predicate)) (.orderBy keys)) := by
  obtain ⟨ordered, builtOrder, filters⟩ := built_below built
  obtain ⟨before, builtBelow, orders⟩ := built_below builtOrder
  have known := Signature.apply_orderBy.mp orders
  obtain ⟨_, _, _, rfl⟩ := known
  obtain ⟨_, ⟨value, typed, _⟩, rfl⟩ := Signature.apply_filter.mp filters
  obtain ⟨bound, resolved⟩ :=
    Expr.bind_of_resolves predicate (Expr.resolves_of_infer predicate typed)
  refine refines_exchange builtBelow orders filters filters resolved resolved ?_
  intro rows compares
  rw [Verb.rows, Verb.rows]
  cases listed : after.schema.orderKeys keys with
  | error error => rfl
  | ok ordering =>
    refine congrArg Except.ok (filter_sortRows ?_ bound.holds)
    intro key member a left b right
    obtain ⟨isKey, placed⟩ := Schema.mem_orderKeys listed member
    exact compares key.2 isKey key.1 placed a left b right

/-- A filter may go below an assignment of other columns than it reads. -/
theorem refines_belowMutate {assignments : List (String × Expr String)}
    (built : (apply (apply below (.mutate assignments)) (.filter predicate)).signature? =
      .ok after)
    (apart : ∀ name ∈ predicate.references, name ∉ assignments.map (·.1)) :
    Refines inputs (apply (apply below (.mutate assignments)) (.filter predicate))
      (apply (apply below (.filter predicate)) (.mutate assignments)) := by
  obtain ⟨mutated, builtMutate, filters⟩ := built_below built
  obtain ⟨before, builtBelow, mutates⟩ := built_below builtMutate
  obtain ⟨ungrouped, ⟨value, typed, condition⟩, rfl⟩ := Signature.apply_filter.mp filters
  have known := Signature.apply_mutate.mp mutates
  obtain ⟨_, _, columns, columnsTyped, schema, assigned, rfl⟩ := known
  have named := Signature.names_of_assignedColumns columnsTyped
  have other : ∀ name ∈ predicate.references, name ∉ columns.map (·.name) := by
    intro name member
    rw [named]
    exact apart name member
  have typedBelow : predicate.infer before.schema .filter = .ok value :=
    Expr.infer_of_agree predicate
      (fun name member => Schema.column?_assign assigned (other name member)) typed
  have filtersBelow : before.apply (.filter predicate) = .ok before :=
    Signature.apply_filter.mpr ⟨ungrouped, ⟨value, typedBelow, condition⟩, rfl⟩
  obtain ⟨bound, resolved⟩ :=
    Expr.bind_of_resolves predicate (Expr.resolves_of_infer predicate typed)
  obtain ⟨boundBelow, resolvedBelow⟩ :=
    Expr.bind_of_resolves predicate (Expr.resolves_of_infer predicate typedBelow)
  refine refines_exchange builtBelow mutates filters filtersBelow resolved resolvedBelow ?_
  intro rows _
  rw [Verb.rows, Verb.rows]
  cases boundAll : bindAssignments before.schema assignments with
  | error error => rfl
  | ok boundAssignments =>
    rw [ok_bind, ok_bind]
    cases listed : assignedItems before.schema schema boundAssignments with
    | error error => rfl
    | ok items =>
      have agree (row : Row) : bound.holds (items.map (·.eval row)) = boundBelow.holds row := by
        refine Expr.holds_congr (fun name member => ?_) resolved resolvedBelow
        refine read_assigned assigned listed (other name member) ?_ row
        rw [List.lookup_eq_none_iff]
        intro entry bindsEntry
        have isAssigned : entry.1 ∈ assignments.map (·.1) := by
          rw [← names_of_bindAssignments boundAll]
          exact List.mem_map_of_mem bindsEntry
        have distinct : name ≠ entry.1 := fun same => apart name member (same ▸ isAssigned)
        simpa using distinct
      have kept : bound.holds ∘ (fun row => items.map (·.eval row)) = boundBelow.holds :=
        funext agree
      refine congrArg Except.ok ?_
      rw [List.filter_map, kept]

/-- A join goes over the rows of both sides. -/
theorem rows_join {right : Chain} {kind : JoinKind} {pairs : List (String × String)}
    {beside : Signature} (built : below.signature? = .ok before)
    (builtRight : right.signature? = .ok beside) :
    (join below right kind pairs).rows inputs =
      (below.rows inputs >>= fun leftRows => right.rows inputs >>= fun rightRows =>
        (joinKeyColumns before.schema beside.schema pairs).map fun columns =>
          joinRows kind columns (Schema.joinLayout before.schema beside.schema pairs) leftRows
            rightRows) := by
  rw [rows, Chain.schema, Chain.schema, signature_of_built built, signature_of_built builtRight]
  cases joinKeyColumns before.schema beside.schema pairs <;> rfl

/-- Does a name stand in a join for the column that it stands for on the left side? -/
structure Inherits (schema left right : Schema) (pairs : List (String × String)) (name : String) :
    Prop where
  place : ∃ position index, schema.position? name = some position ∧
    (Schema.joinLayout left right pairs)[position]? = some ⟨.left, index⟩ ∧
    left.position? name = some index
  column : schema.column? name = left.column? name

/-- A predicate that is found to read the left side alone reads names that are inherited from it. -/
theorem inherits_of_leftOnly {right : Chain} {kind : JoinKind} {pairs : List (String × String)}
    {beside : Signature} (builtBelow : below.signature? = .ok before)
    (builtRight : right.signature? = .ok beside)
    (builtJoin : (join below right kind pairs).signature? = .ok after)
    (made : before.schema.join beside.schema kind pairs = .ok after.schema)
    (fromLeft : below.leftOnly right kind pairs predicate) :
    ∀ name ∈ predicate.references,
      Inherits after.schema before.schema beside.schema pairs name := by
  intro name member
  rw [leftOnly, List.all_eq_true] at fromLeft
  have listed := fromLeft name (Expr.mem_columns.mpr member)
  simp only [Chain.schema, signature_of_built builtJoin, signature_of_built builtBelow,
    signature_of_built builtRight] at listed
  split at listed
  · rename_i position placed
    obtain ⟨index, entry, leftPlaced, same⟩ :=
      Schema.left_of_join made placed (of_decide_eq_true listed)
    exact ⟨⟨position, index, placed, entry, leftPlaced⟩, same⟩
  · cases listed

/-- A predicate whose names are inherited holds on a joined row if it does on the left one. -/
theorem holds_joined {schema left right : Schema} {pairs : List (String × String)}
    {bound boundBelow : Expr Nat} (resolved : predicate.bind schema = .ok bound)
    (resolvedBelow : predicate.bind left = .ok boundBelow)
    (inherits : ∀ name ∈ predicate.references, Inherits schema left right pairs name)
    (row : Row) (partner : Option Row) :
    bound.holds (row.joined (Schema.joinLayout left right pairs) partner) =
      boundBelow.holds row := by
  refine Expr.holds_congr (fun name member => ?_) resolved resolvedBelow
  obtain ⟨position, index, placed, entry, leftPlaced⟩ := (inherits name member).place
  rw [Schema.read, Schema.read, placed, leftPlaced, Option.map_some, Option.map_some,
    Row.cell_joined_left entry]

/-- A filter may go into a join that finds all columns that it reads on its left side. -/
theorem refines_intoJoin {right : Chain} {kind : JoinKind} {pairs : List (String × String)}
    (built : (apply (join below right kind pairs) (.filter predicate)).signature? = .ok after)
    (fromLeft : below.leftOnly right kind pairs predicate) :
    Refines inputs (apply (join below right kind pairs) (.filter predicate))
      (join (apply below (.filter predicate)) right kind pairs) := by
  obtain ⟨joined, builtJoin, filters⟩ := built_below built
  obtain ⟨before, builtBelow, beside, builtRight, joins⟩ := built_sides builtJoin
  obtain ⟨_, ⟨value, typed, condition⟩, rfl⟩ := Signature.apply_filter.mp filters
  have known := Signature.join_eq_ok.mp joins
  obtain ⟨ungrouped, schema, made, sources, _, rfl⟩ := known
  have inherits := inherits_of_leftOnly builtBelow builtRight builtJoin made fromLeft
  have typedBelow : predicate.infer before.schema .filter = .ok value :=
    Expr.infer_of_agree predicate (fun name member => (inherits name member).column) typed
  have filtersBelow : before.apply (.filter predicate) = .ok before :=
    Signature.apply_filter.mpr ⟨ungrouped, ⟨value, typedBelow, condition⟩, rfl⟩
  have builtFilter : (apply below (.filter predicate)).signature? = .ok before := by
    rw [signature?, builtBelow, ok_bind, filtersBelow]
  obtain ⟨bound, resolved⟩ :=
    Expr.bind_of_resolves predicate (Expr.resolves_of_infer predicate typed)
  obtain ⟨boundBelow, resolvedBelow⟩ :=
    Expr.bind_of_resolves predicate (Expr.resolves_of_infer predicate typedBelow)
  have kept : (apply below (.filter predicate)).rows inputs =
      (below.rows inputs).map (List.filter boundBelow.holds) :=
    rows_filtered builtBelow filtersBelow resolvedBelow
  refine ⟨?_, ?_, ?_⟩
  · rw [built, signature?, builtFilter, builtRight, ok_bind, ok_bind, joins]
  · rintro ⟨⟨_, _⟩, _⟩
    rw [rows_apply builtJoin filters, rows_join builtFilter builtRight,
      rows_join builtBelow builtRight, kept]
    cases below.rows inputs with
    | error error => rfl
    | ok leftRows =>
      cases right.rows inputs with
      | error error => rfl
      | ok rightRows =>
        cases joinKeyColumns before.schema beside.schema pairs with
        | error error => rfl
        | ok columns =>
          refine Eq.trans ?_ (Verb.rows_filter resolved schema _).symm
          exact congrArg Except.ok
            (filter_joinRows (holds_joined resolved resolvedBelow inherits) leftRows rightRows).symm
  · rintro ⟨⟨onBelow, onRight⟩, _⟩
    refine ⟨⟨onBelow, fun _ _ => trivial⟩, fun rows ran => ?_⟩
    cases ranBelow : below.rows inputs with
    | error error =>
      rw [kept, ranBelow] at ran
      cases ran
    | ok all => exact onRight all ranBelow

end Chain

end TablePipeline
