import TablePipeline.Chain.Run
import TablePipeline.Proofs.Except

/-! # Splitting conditions

A condition is split into the operands of its outermost conjunctions, which are joined again by
conjunctions that are grouped to the left. Grouping makes no difference to the value: the
conjunction of three cells is the same either way, whatever kinds of cells they are. Nor does it
matter to the rows that are kept whether a condition is tested at once or its conjuncts one after
another, and in which order these are tested.
-/

namespace TablePipeline

/-! ## Conjunctions of cells -/

namespace Cell

theorem asBool?_eq_some {cell : Cell} {value : Bool} :
    cell.asBool? = some value ↔ cell = .bool value := by
  cases cell <;> simp [asBool?]

theorem same_true_iff {cell : Cell} : cell.same (.bool true) = true ↔ cell = .bool true := by
  cases cell <;> simp [same, canonical]

end Cell

namespace LogicalOp

/-- The grouping of three operands makes no difference. An operand that is no truth value counts as
null. -/
theorem and_apply_assoc (a b c : Cell) :
    and.apply (and.apply a b) c = and.apply a (and.apply b c) := by
  unfold apply
  rcases a.asBool? with _ | (_ | _) <;> rcases b.asBool? with _ | (_ | _) <;>
    rcases c.asBool? with _ | (_ | _) <;> rfl

theorem and_apply_eq_true {a b : Cell} :
    and.apply a b = .bool true ↔ a = .bool true ∧ b = .bool true := by
  simp only [← Cell.asBool?_eq_some]
  unfold apply
  rcases a.asBool? with _ | (_ | _) <;> rcases b.asBool? with _ | (_ | _) <;> simp [Cell.asBool?]

end LogicalOp

namespace Expr

/-! ## Parts of a condition -/

section Parts

variable {ρ : Type}

theorem conjuncts_and (left right : Expr ρ) :
    (left.and right).conjuncts = left.conjuncts ++ right.conjuncts :=
  rfl

/-- No part of a condition is a conjunction itself. -/
theorem ne_and_of_mem_conjuncts {expr part : Expr ρ} (member : part ∈ expr.conjuncts)
    (left right : Expr ρ) : part ≠ left.and right := by
  fun_induction conjuncts expr with
  | case1 first second ihFirst ihSecond =>
    exact (List.mem_append.mp member).elim ihFirst ihSecond
  | case2 expr other =>
    rintro rfl
    exact other _ _ (List.mem_singleton.mp member).symm

/-- The parts of joined conditions are all their parts. -/
theorem conjuncts_foldl_and (first : Expr ρ) (rest : List (Expr ρ)) :
    (rest.foldl and first).conjuncts = first.conjuncts ++ rest.flatMap conjuncts := by
  induction rest generalizing first with
  | nil => exact (List.append_nil _).symm
  | cons next rest ih =>
    rw [List.foldl_cons, ih, conjuncts_and, List.flatMap_cons, List.append_assoc]

end Parts

/-! ## Values -/

/-- The value of an expression in a row, unless it refers to a column that is not there. -/
def valueIn (schema : Schema) (row : Row) (expr : Expr String) : Except ChainError Cell :=
  return (← expr.bind schema).eval row

/-- Have two expressions the same value in every row, and the same error where there is none? -/
def Equivalent (expr other : Expr String) : Prop :=
  ∀ schema row, expr.valueIn schema row = other.valueIn schema row

/-- Both operands of a conjunction are evaluated. -/
theorem valueIn_and (left right : Expr String) (schema : Schema) (row : Row) :
    (left.and right).valueIn schema row = do
      let first ← left.valueIn schema row
      let second ← right.valueIn schema row
      return LogicalOp.and.apply first second := by
  unfold valueIn
  rw [Expr.and, bind]
  cases left.bind schema with
  | error => rfl
  | ok first => cases right.bind schema <;> rfl

namespace Equivalent

variable {a b c : Expr String}

theorem trans (first : a.Equivalent b) (second : b.Equivalent c) : a.Equivalent c :=
  fun schema row => (first schema row).trans (second schema row)

theorem and {left right : Expr String} (first : a.Equivalent left) (second : b.Equivalent right) :
    (a.and b).Equivalent (left.and right) := by
  intro schema row
  rw [valueIn_and, valueIn_and, first, second]

/-- Conjunctions may be grouped either way. -/
theorem and_assoc (a b c : Expr String) : ((a.and b).and c).Equivalent (a.and (b.and c)) := by
  intro schema row
  simp only [valueIn_and]
  cases a.valueIn schema row with
  | error => rfl
  | ok first =>
    cases b.valueIn schema row with
    | error => rfl
    | ok second =>
      cases c.valueIn schema row with
      | error => rfl
      | ok third => exact congrArg Except.ok (LogicalOp.and_apply_assoc first second third)

theorem foldl_and (equivalent : a.Equivalent b) (rest : List (Expr String)) :
    (rest.foldl Expr.and a).Equivalent (rest.foldl Expr.and b) := by
  induction rest generalizing a b with
  | nil => exact equivalent
  | cons next rest ih => exact ih (equivalent.and fun _ _ => rfl)

/-- What stands in front of joined conditions can be joined with them at last. -/
theorem foldl_and_left (a b : Expr String) (rest : List (Expr String)) :
    (rest.foldl Expr.and (a.and b)).Equivalent (a.and (rest.foldl Expr.and b)) := by
  induction rest generalizing b with
  | nil => exact fun _ _ => rfl
  | cons next rest ih => exact ((and_assoc a b next).foldl_and rest).trans (ih (b.and next))

end Equivalent

/-- The parts of a condition, joined again, have its value. -/
theorem exists_conjunction_conjuncts (expr : Expr String) :
    ∃ joined, conjunction? expr.conjuncts = some joined ∧ joined.Equivalent expr := by
  fun_induction conjuncts expr with
  | case1 left right ihLeft ihRight =>
    obtain ⟨first, isFirst, sameFirst⟩ := ihLeft
    obtain ⟨second, isSecond, sameSecond⟩ := ihRight
    cases parts : left.conjuncts with
    | nil => rw [parts] at isFirst; cases isFirst
    | cons part rest =>
      cases others : right.conjuncts with
      | nil => rw [others] at isSecond; cases isSecond
      | cons other more =>
        rw [parts] at isFirst
        rw [others] at isSecond
        cases isFirst
        cases isSecond
        refine ⟨_, congrArg some List.foldl_append, ?_⟩
        exact (Equivalent.foldl_and_left _ other more).trans (sameFirst.and sameSecond)
  | case2 expr => exact ⟨expr, rfl, fun _ _ => rfl⟩

/-! ## Rows that are kept -/

section Filters

variable {before : Signature} {after : Schema}

/-- A conjunction holds where both operands do. -/
theorem holds_and (left right : Expr Nat) (row : Row) :
    (left.and right).holds row = (left.holds row && right.holds row) := by
  rw [Bool.eq_iff_iff, Bool.and_eq_true]
  unfold holds
  rw [Cell.same_true_iff, Cell.same_true_iff, Cell.same_true_iff]
  exact LogicalOp.and_apply_eq_true

/-- The rows in which a condition holds. -/
def keep (before : Signature) (after : Schema) (rows : List Row) (condition : Expr String) :
    Except RunError (List Row) :=
  (Verb.filter condition).rows before after rows

theorem keep_eq_ok {rows kept : List Row} {condition : Expr String} :
    keep before after rows condition = .ok kept ↔
      ∃ bound, condition.bind before.schema = .ok bound ∧ rows.filter bound.holds = kept := by
  simp only [keep, Verb.rows, bindExpr, bind_eq_ok, mapError_eq_ok, pure_eq_ok]

/-- To test a conjunction is to test one operand and then the other. -/
theorem keep_and (rows : List Row) (left right : Expr String) :
    keep before after rows (left.and right) =
      keep before after rows left >>= (keep before after · right) := by
  simp only [keep, Verb.rows, bindExpr, Expr.and, bind]
  cases left.bind before.schema with
  | error => rfl
  | ok first =>
    cases right.bind before.schema with
    | error => rfl
    | ok second =>
      have kept : rows.filter (first.and second).holds =
          (rows.filter first.holds).filter second.holds := by
        rw [List.filter_filter]
        exact List.filter_congr fun row _ => by rw [holds_and, Bool.and_comm]
      exact congrArg Except.ok kept

/-- To test a condition is to test its parts one after another. -/
theorem foldlM_keep_conjuncts (condition : Expr String) (rows : List Row) :
    condition.conjuncts.foldlM (keep before after) rows = keep before after rows condition := by
  fun_induction conjuncts condition generalizing rows with
  | case1 left right ihLeft ihRight =>
    rw [List.foldlM_append, ihLeft]
    simp only [ihRight]
    exact (keep_and rows left right).symm
  | case2 => exact bind_pure _

/-- Two conditions may be tested in either order. -/
theorem keep_comm {rows kept : List Row} {first second : Expr String} :
    (keep before after rows first >>= (keep before after · second)) = .ok kept →
      (keep before after rows second >>= (keep before after · first)) = .ok kept := by
  simp only [bind_eq_ok, keep_eq_ok]
  rintro ⟨_, ⟨a, isFirst, rfl⟩, b, isSecond, rfl⟩
  exact ⟨_, ⟨b, isSecond, rfl⟩, a, isFirst, List.filter_comm ..⟩

/-- Conditions that are tested one after another keep the same rows in every order. -/
theorem foldlM_keep_of_perm {parts others : List (Expr String)} (moved : parts.Perm others)
    {rows kept : List Row} (keeps : parts.foldlM (keep before after) rows = .ok kept) :
    others.foldlM (keep before after) rows = .ok kept := by
  induction moved generalizing rows with
  | nil => exact keeps
  | cons part _ ih =>
    rw [List.foldlM_cons] at keeps ⊢
    obtain ⟨tested, first, keeps⟩ := bind_eq_ok.mp keeps
    exact bind_eq_ok.mpr ⟨tested, first, ih keeps⟩
  | swap first second rest =>
    rw [List.foldlM_cons] at keeps ⊢
    simp only [List.foldlM_cons, ← bind_assoc] at keeps ⊢
    obtain ⟨tested, both, keeps⟩ := bind_eq_ok.mp keeps
    exact bind_eq_ok.mpr ⟨tested, keep_comm both, keeps⟩
  | trans _ _ ihFirst ihSecond => exact ihSecond (ihFirst keeps)

end Filters

/-- The parts of a condition are no conjunctions. Joined again, they have the value of the condition
in every row. Tested one after another in any order, they keep the rows that the condition keeps; in
the order in which they are written, they also fail as it does. The parts of joined conditions are
the parts of each. -/
theorem conjuncts_rejoined (condition : Expr String) :
    (∀ part ∈ condition.conjuncts, ∀ left right : Expr String, part ≠ left.and right) ∧
      (∃ joined, conjunction? condition.conjuncts = some joined ∧
        ∀ schema row, joined.valueIn schema row = condition.valueIn schema row) ∧
      (∀ before after rows,
        condition.conjuncts.foldlM (keep before after) rows =
          (Verb.filter condition).rows before after rows) ∧
      (∀ parts : List (Expr String), parts.Perm condition.conjuncts →
        ∀ before after rows kept, parts.foldlM (keep before after) rows = .ok kept ↔
          (Verb.filter condition).rows before after rows = .ok kept) ∧
      ∀ conditions : List (Expr String), conditions ≠ [] →
        ∃ joined, conjunction? conditions = some joined ∧
          joined.conjuncts = conditions.flatMap conjuncts := by
  refine ⟨fun part => ne_and_of_mem_conjuncts, exists_conjunction_conjuncts condition,
    fun before after => foldlM_keep_conjuncts condition, ?_, ?_⟩
  · intro parts moved before after rows kept
    have written : condition.conjuncts.foldlM (keep before after) rows =
        (Verb.filter condition).rows before after rows := foldlM_keep_conjuncts condition rows
    rw [← written]
    exact ⟨foldlM_keep_of_perm moved, foldlM_keep_of_perm moved.symm⟩
  · intro conditions nonempty
    cases conditions with
    | nil => exact absurd rfl nonempty
    | cons first rest => exact ⟨_, rfl, conjuncts_foldl_and first rest⟩

/-- Is an order open, with an amount above one and with a note? The last two are grouped. -/
def openAndNoted : Expr String :=
  (column "open").and
    ((binary (.comparison .greater) (column "amount") (literal (.int 1))).and
      (unary .isNotNull (column "note")))

/-- What is known about the orders that `openAndNoted` is tested on. -/
def notedOrders : Signature where
  schema := ⟨[⟨"open", .bool, true⟩, ⟨"amount", .int, true⟩, ⟨"note", .text, true⟩], [], []⟩
  name := "orders"
  sources := ⟨[]⟩

/-- Only one of three orders passes, the last part first as well as the whole at once. -/
theorem conjuncts_rejoined_openAndNoted :
    openAndNoted.conjuncts.reverse.Perm openAndNoted.conjuncts ∧
      openAndNoted.conjuncts.reverse.foldlM (keep notedOrders notedOrders.schema)
        [[.bool true, .int 5, .text "late"], [.null, .int 7, .text "lost"],
          [.bool true, .int 1, .text "small"]] = .ok [[.bool true, .int 5, .text "late"]] ∧
      [openAndNoted, column "paid"] ≠ [] ∧
      ∃ joined, conjunction? [openAndNoted, column "paid"] = some joined ∧
        joined.conjuncts = openAndNoted.conjuncts ++ [column "paid"] := by
  have moved : openAndNoted.conjuncts.reverse.Perm openAndNoted.conjuncts := List.reverse_perm _
  have nonempty : [openAndNoted, column "paid"] ≠ [] := List.cons_ne_nil _ _
  obtain ⟨_, _, _, filters, joins⟩ := conjuncts_rejoined openAndNoted
  exact ⟨moved, (filters _ moved notedOrders notedOrders.schema _ _).mpr rfl, nonempty,
    joins _ nonempty⟩

end Expr

end TablePipeline
