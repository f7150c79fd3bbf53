import Mathlib.Data.List.Nodup
import TablePipeline.Chain.Signature
import TablePipeline.Proofs.Expr.Scope

/-! # What a name stands for after a step

A step that replaces or drops columns leaves the other ones alone. After an assignment, a name that
is not assigned stands for the column that it stood for before. After a join, a name that is found
on the left side of the layout stands for the left column of that name. None of this asks that the
names of a schema be distinct: the first column of a name is the one that is meant. A step that makes
new columns checks that all names are distinct, and then every column is the one of its name.
-/

namespace TablePipeline

/-- Where no element of a list occurs earlier, all are different. -/
theorem nodup_of_firstRepeated? {α : Type} [DecidableEq α] {seen items : List α}
    (none : firstRepeated? seen items = none) : items.Nodup ∧ ∀ item ∈ items, item ∉ seen := by
  induction items generalizing seen with
  | nil => exact ⟨.nil, fun _ member => nomatch member⟩
  | cons item rest ih =>
    rw [firstRepeated?] at none
    split at none
    · cases none
    · rename_i fresh
      obtain ⟨distinct, others⟩ := ih none
      refine ⟨List.nodup_cons.mpr ⟨fun member => ?_, distinct⟩, List.forall_mem_cons.mpr ⟨fresh, ?_⟩⟩
      · exact others item member (List.mem_cons_self ..)
      · exact fun other member isSeen => others other member (List.mem_cons_of_mem _ isSeen)

/-- A schema of columns alone has these columns and no keys, and their names are different. -/
theorem Schema.of_ofColumns {columns : List Column} {schema : Schema}
    (made : ofColumns columns = .ok schema) :
    schema = { columns } ∧ (columns.map (·.name)).Nodup := by
  unfold ofColumns at made
  split at made
  · cases made
  · rename_i none
    cases made
    exact ⟨rfl, (nodup_of_firstRepeated? none).1⟩

/-- A step makes its schemas of columns alone. -/
theorem ofColumns_of_schemaOf {columns : List Column} {schema : Schema}
    (made : schemaOf columns = .ok schema) : Schema.ofColumns columns = .ok schema := by
  unfold schemaOf at made
  split at made
  · cases made
    assumption
  · cases made
  · cases made

theorem columns_of_schemaOf {columns : List Column} {schema : Schema}
    (made : schemaOf columns = .ok schema) : schema.columns = columns := by
  rw [(Schema.of_ofColumns (ofColumns_of_schemaOf made)).1]

/-- The columns of a schema that is made by a step have different names. -/
theorem nodup_of_schemaOf {columns : List Column} {schema : Schema}
    (made : schemaOf columns = .ok schema) : (columns.map (·.name)).Nodup :=
  (Schema.of_ofColumns (ofColumns_of_schemaOf made)).2

theorem nodup_names_of_schemaOf {columns : List Column} {schema : Schema}
    (made : schemaOf columns = .ok schema) : schema.names.Nodup := by
  rw [Schema.names, columns_of_schemaOf made]
  exact nodup_of_schemaOf made

/-- Where names are different, a column is the one of its name. -/
theorem find?_name_of_mem {columns : List Column} (distinct : (columns.map (·.name)).Nodup)
    {column : Column} (member : column ∈ columns) :
    columns.find? (·.name = column.name) = some column := by
  have someFound : (columns.find? (·.name = column.name)).isSome :=
    List.find?_isSome.mpr ⟨column, member, decide_eq_true rfl⟩
  obtain ⟨found, isFound⟩ := Option.isSome_iff_exists.mp someFound
  have same : found.name = column.name := by simpa using List.find?_some isFound
  rw [isFound, List.inj_on_of_nodup_map distinct (List.mem_of_find?_eq_some isFound) member same]

namespace Schema

/-- A column that is replaced keeps its name. -/
theorem name_replaced (columns : List Column) (old : Column) :
    ((columns.find? (·.name = old.name)).getD old).name = old.name := by
  cases found : columns.find? (·.name = old.name) with
  | none => rfl
  | some column => simpa using List.find?_some found

/-- An assignment replaces the columns of the names that are there, and the others follow. -/
theorem columns_of_assign {schema after : Schema} {columns : List Column}
    (assigned : schema.assign columns = .ok after) :
    after.columns = schema.columns.map (fun old => (columns.find? (·.name = old.name)).getD old) ++
      columns.filter fun column => (schema.position? column.name).isNone := by
  simp only [assign, bind_eq_ok, pure_eq_ok] at assigned
  obtain ⟨result, made, rfl⟩ := assigned
  rw [retainKeys, columns_of_schemaOf made]

/-- The names after an assignment are different. -/
theorem nodup_names_assign {schema after : Schema} {columns : List Column}
    (assigned : schema.assign columns = .ok after) : after.names.Nodup := by
  simp only [assign, bind_eq_ok, pure_eq_ok] at assigned
  obtain ⟨result, made, rfl⟩ := assigned
  have different := nodup_names_of_schemaOf made
  exact different

/-- A column after an assignment is an assigned one, or one of before whose name is not assigned. -/
theorem mem_columns_assign {schema after : Schema} {columns : List Column}
    (assigned : schema.assign columns = .ok after) {column : Column}
    (member : column ∈ after.columns) :
    columns.find? (·.name = column.name) = some column ∨
      columns.find? (·.name = column.name) = none ∧ schema.column? column.name = some column := by
  have distinct := nodup_names_assign assigned
  rw [columns_of_assign assigned] at member
  rw [names, columns_of_assign assigned, List.map_append, List.nodup_append, List.map_map]
    at distinct
  obtain ⟨replaced, added, _⟩ := distinct
  rcases List.mem_append.mp member with member | member
  · obtain ⟨old, isOld, rfl⟩ := List.mem_map.mp member
    cases found : columns.find? (·.name = old.name) with
    | some column =>
      have named : column.name = old.name := by simpa using List.find?_some found
      rw [Option.getD_some, named]
      exact .inl found
    | none =>
      have keepsNames : ((fun column : Column => column.name) ∘ fun old : Column =>
          (columns.find? (·.name = old.name)).getD old) = fun old => old.name :=
        funext (name_replaced columns)
      rw [keepsNames] at replaced
      exact .inr ⟨found, find?_name_of_mem replaced isOld⟩
  · obtain ⟨isColumn, fresh⟩ := List.mem_filter.mp member
    have someFound : (columns.find? (·.name = column.name)).isSome :=
      List.find?_isSome.mpr ⟨column, isColumn, decide_eq_true rfl⟩
    obtain ⟨other, found⟩ := Option.isSome_iff_exists.mp someFound
    have same : other.name = column.name := by simpa using List.find?_some found
    have isAdded : other ∈ columns.filter fun column => (schema.position? column.name).isNone :=
      List.mem_filter.mpr ⟨List.mem_of_find?_eq_some found, by rw [same]; exact fresh⟩
    left
    rw [found, List.inj_on_of_nodup_map added isAdded member same]

/-- A name that is not assigned stands for the same column after the assignment. -/
theorem column?_assign {schema after : Schema} {columns : List Column}
    (assigned : schema.assign columns = .ok after) {name : String}
    (other : name ∉ columns.map (·.name)) : after.column? name = schema.column? name := by
  have added : (columns.filter fun column => (schema.position? column.name).isNone).find?
      (·.name = name) = none := by
    rw [List.find?_eq_none]
    intro column member same
    exact other (List.mem_map.mpr ⟨column, (List.mem_filter.mp member).1, by simpa using same⟩)
  rw [column?, columns_of_assign assigned, List.find?_append, added, Option.or_none,
    List.find?_map]
  have sameNames : ((fun column : Column => decide (column.name = name)) ∘ fun old : Column =>
      (columns.find? (·.name = old.name)).getD old) = fun old => decide (old.name = name) := by
    funext old
    simp only [Function.comp_apply, name_replaced]
  rw [sameNames, column?]
  cases found : schema.columns.find? (·.name = name) with
  | none => rfl
  | some old =>
    have named : old.name = name := by simpa using List.find?_some found
    have unassigned : columns.find? (·.name = old.name) = none := by
      rw [List.find?_eq_none]
      intro column member same
      exact other (List.mem_map.mpr ⟨column, member, by simpa [named] using same⟩)
    rw [Option.map_some, unassigned, Option.getD_none]

/-- A join has pairs that are checked, and the columns of its layout. Keys of the left side stay
where the right side has one partner at most for each row. -/
theorem join_eq_ok {left right joined : Schema} {kind : JoinKind} {pairs : List (String × String)} :
    left.join right kind pairs = .ok joined ↔
      pairs ≠ [] ∧ checkPairs left right pairs = .ok () ∧
        ((left.hasKeys || right.hasKeys) && !right.coversKey (pairs.map (·.2)) &&
          !left.coversKey (pairs.map (·.1))) = false ∧
        ∃ result,
          schemaOf ((joinLayout left right pairs).filterMap (joinColumn? left right kind)) =
            .ok result ∧
          joined = if right.coversKey (pairs.map (·.2)) then
              result.retainKeys left fun position =>
                (((joinLayout left right pairs).filter (·.side = .left)).map (·.index)).findIdx?
                  (· = position)
            else result := by
  simp only [join, throw_bind, guard_eq_ok, bind_eq_ok, List.isEmpty_iff, Bool.not_eq_true, ne_eq]
  refine and_congr_right fun _ => ⟨?_, ?_⟩
  · rintro ⟨_, checked, keyed, result, listed, made⟩
    refine ⟨checked, keyed, result, listed, ?_⟩
    rw [← pure_eq_ok.mp ((apply_ite ..).trans made)]
  · rintro ⟨checked, keyed, result, listed, rfl⟩
    refine ⟨_, checked, keyed, result, listed, ?_⟩
    split <;> rfl

/-- The columns of a join are those of its layout. -/
theorem columns_of_join {left right joined : Schema} {kind : JoinKind}
    {pairs : List (String × String)} (made : left.join right kind pairs = .ok joined) :
    joined.columns = (joinLayout left right pairs).filterMap (joinColumn? left right kind) := by
  obtain ⟨_, _, _, result, listed, rfl⟩ := join_eq_ok.mp made
  rw [← columns_of_schemaOf listed]
  split <;> rfl

/-- The columns of a join have different names. -/
theorem nodup_of_join {left right joined : Schema} {kind : JoinKind}
    {pairs : List (String × String)} (made : left.join right kind pairs = .ok joined) :
    joined.names.Nodup := by
  obtain ⟨_, _, _, result, listed, rfl⟩ := join_eq_ok.mp made
  have distinct := nodup_names_of_schemaOf listed
  split <;> exact distinct

/-- All entries of a layout stand for columns. -/
private theorem joinColumn?_isSome {left right : Schema} {kind : JoinKind}
    {pairs : List (String × String)} {entry : JoinColumn}
    (member : entry ∈ joinLayout left right pairs) :
    (joinColumn? left right kind entry).isSome := by
  rw [joinLayout, List.mem_append, List.mem_map, List.mem_map] at member
  rcases member with ⟨index, member, rfl⟩ | ⟨index, member, rfl⟩
  · have bound := List.mem_range.mp (List.mem_filter.mp member).1
    simpa [joinColumn?, width] using bound
  · have bound := List.mem_range.mp (List.mem_filter.mp member).1
    simpa [joinColumn?, width] using bound

/-- Where all elements of a list are kept under a map, so are their places. -/
private theorem findIdx?_filterMap {α β : Type} {f : α → Option β} {p : β → Bool} {items : List α}
    (kept : ∀ item ∈ items, (f item).isSome) :
    (items.filterMap f).findIdx? p = items.findIdx? fun item => (f item).any p := by
  induction items with
  | nil => rfl
  | cons item rest ih =>
    obtain ⟨value, is_kept⟩ := Option.isSome_iff_exists.mp (kept item (List.mem_cons_self ..))
    have others := ih fun other member => kept other (List.mem_cons_of_mem _ member)
    rw [List.filterMap_cons_some is_kept, List.findIdx?_cons, List.findIdx?_cons, is_kept,
      Option.any_some, others]

/-- Where the positions of a schema are kept or dropped by their names, the first kept one of a name
is the first of that name. -/
private theorem position?_of_kept {schema : Schema} {dropped : List String} {name : String}
    {index : Nat}
    (first : ((List.range schema.width).filter (schema.nameAt · ∉ dropped)).find?
      (fun i => schema.columns[i]?.any (·.name = name)) = some index) :
    schema.position? name = some index := by
  rw [List.find?_filter, List.find?_range_eq_some] at first
  obtain ⟨kept, bound, before⟩ := first
  have named {i : Nat} (inside : i < schema.columns.length) :
      schema.columns[i]?.any (·.name = name) = true ↔ schema.columns[i].name = name := by
    rw [List.getElem?_eq_getElem inside, Option.any_some, decide_eq_true_iff]
  have nameAt {i : Nat} (inside : i < schema.columns.length) :
      schema.nameAt i = schema.columns[i].name := by
    rw [Schema.nameAt, List.getElem?_eq_getElem inside]
    rfl
  have inside : index < schema.columns.length := List.mem_range.mp bound
  simp only [named inside, nameAt inside, decide_eq_true_iff] at kept
  refine List.findIdx?_eq_some_iff_getElem.mpr ⟨inside, decide_eq_true kept.2, ?_⟩
  intro j earlier same
  have insideJ := Nat.lt_trans earlier inside
  have sameName : schema.columns[j].name = name := of_decide_eq_true same
  have refuted := before j earlier
  simp only [named insideJ, nameAt insideJ, sameName, and_true, Bool.not_eq_true',
    decide_eq_false_iff_not, decide_eq_true_iff] at refuted
  exact refuted (kept.2 ▸ kept.1)

/-- A name that a join finds on its left side stands for the left column of that name. -/
theorem left_of_join {left right joined : Schema} {kind : JoinKind}
    {pairs : List (String × String)} (made : left.join right kind pairs = .ok joined)
    {name : String} {position : Nat} (placed : joined.position? name = some position)
    (fromLeft : ((joinLayout left right pairs)[position]?.map (·.side)) = some .left) :
    ∃ index, (joinLayout left right pairs)[position]? = some ⟨.left, index⟩ ∧
      left.position? name = some index ∧ joined.column? name = left.column? name := by
  obtain ⟨⟨_, index⟩, here, rfl⟩ := Option.map_eq_some_iff.mp fromLeft
  rw [position?, columns_of_join made, findIdx?_filterMap fun _ => joinColumn?_isSome] at placed
  have first : (joinLayout left right pairs).find?
      (fun entry => (joinColumn? left right kind entry).any (·.name = name)) =
      some ⟨.left, index⟩ := by
    rw [List.find?_eq_bind_findIdx?_getElem?, placed, Option.bind_some, here]
  -- The left part of the layout lists positions in order and keeps or drops all of one name, so
  -- the first of a name that it lists is the first in the schema.
  have leftmost : left.position? name = some index := by
    rw [joinLayout, List.find?_append, Option.or_eq_some_iff] at first
    rcases first with inLeft | ⟨_, inRight⟩
    · rw [List.find?_map, Option.map_eq_some_iff] at inLeft
      obtain ⟨found, inLeft, same⟩ := inLeft
      cases same
      exact position?_of_kept inLeft
    · obtain ⟨other, member, same⟩ := List.mem_map.mp (List.mem_of_find?_eq_some inRight)
      cases same
  refine ⟨index, here, leftmost, ?_⟩
  rw [column?_eq_getElem? leftmost, column?, columns_of_join made, List.find?_filterMap, first]
  rfl

end Schema

end TablePipeline
