import TablePipeline.Proofs.Chain.Joins
import TablePipeline.Proofs.Rows.Keys

/-! # Where keys go

A key is kept as positions, and every step moves the positions or drops the key: a selection looks
its columns up among those that it names, an assignment keeps the columns that it does not replace
where they are, and a join finds those of its left side in its layout. If the rows after a step hold
the cells of rows before it in the columns that were moved, rows that were distinct on every declared
key stay so.
-/

namespace TablePipeline

/-- What is found in a list stands there. -/
theorem getElem?_of_findIdx? {α : Type} [DecidableEq α] {items : List α} {item : α} {place : Nat}
    (found : items.findIdx? (· = item) = some place) : items[place]? = some item := by
  obtain ⟨inside, same, _⟩ := List.findIdx?_eq_some_iff_getElem.mp found
  rw [List.getElem?_eq_getElem inside, of_decide_eq_true same]

namespace Schema

variable {schema source : Schema} {rows : List Row} {position place : Nat} {name : String}
  {names : List String}

/-- Are the names of the columns different, and do all keys consist of positions of columns? -/
structure Formed (schema : Schema) : Prop where
  names : schema.names.Nodup
  keys : ∀ key ∈ schema.keys, ∀ position ∈ key, position < schema.width

/-- Are rows pairwise distinct on the primary key, unless it is empty, and on all unique keys? -/
def KeysHold (schema : Schema) (rows : List Row) : Prop :=
  ∀ key ∈ schema.keys, Row.DistinctOn key rows

instance (schema : Schema) (rows : List Row) : Decidable (schema.KeysHold rows) :=
  inferInstanceAs (Decidable (∀ key ∈ schema.keys, Row.DistinctOn key rows))

/-! ## Names and positions -/

theorem getElem?_names (inside : position < schema.width) :
    schema.names[position]? = some (schema.nameAt position) := by
  rw [names, List.getElem?_map, nameAt, List.getElem?_eq_getElem inside]
  rfl

theorem getElem?_of_position? (placed : schema.position? name = some position) :
    schema.names[position]? = some name := by
  obtain ⟨inside, named, _⟩ := List.findIdx?_eq_some_iff_getElem.mp placed
  rw [names, List.getElem?_map, List.getElem?_eq_getElem inside, Option.map_some,
    of_decide_eq_true named]

/-- Where names are different, the position of a column is found by its name. -/
theorem position?_of_getElem? (distinct : schema.names.Nodup)
    (here : schema.names[position]? = some name) : schema.position? name = some position := by
  obtain ⟨inside, _⟩ := List.getElem?_eq_some_iff.mp here
  have someFound : (schema.position? name).isSome := by
    rw [position?, List.findIdx?_isSome, List.any_eq_true]
    obtain ⟨column, isColumn, named⟩ := List.mem_map.mp (List.mem_of_getElem? here)
    exact ⟨column, isColumn, decide_eq_true named⟩
  obtain ⟨other, placed⟩ := Option.isSome_iff_exists.mp someFound
  have same := (List.getElem?_inj inside distinct).mp (here.trans (getElem?_of_position? placed).symm)
  rw [placed, same]

theorem position?_nameAt (formed : schema.Formed) (inside : position < schema.width) :
    schema.position? (schema.nameAt position) = some position :=
  position?_of_getElem? formed.names (getElem?_names inside)

theorem mem_keys {key : List Nat} :
    key ∈ schema.keys ↔ (key = schema.primaryKey ∧ key ≠ []) ∨ key ∈ schema.uniqueKeys := by
  rw [keys, List.mem_append]
  split
  · rename_i isEmpty
    rw [List.isEmpty_iff] at isEmpty
    simp [isEmpty]
  · rename_i nonempty
    rw [List.isEmpty_iff] at nonempty
    rw [List.mem_singleton]
    refine or_congr ⟨?_, And.left⟩ .rfl
    rintro rfl
    exact ⟨rfl, nonempty⟩

/-! ## Schemas that are declared -/

theorem formed_of_ofColumns {columns : List Column} (made : ofColumns columns = .ok schema) :
    schema.Formed := by
  obtain ⟨rfl, distinct⟩ := of_ofColumns made
  exact ⟨distinct, List.forall_mem_nil _⟩

/-- The positions of a key are those of its names. -/
theorem forall₂_keyPositions {key : List Nat} (found : schema.keyPositions names = .ok key) :
    List.Forall₂ (fun name position => schema.position? name = some position) names key := by
  refine (mapM_eq_ok.mp found).imp fun name position resolved => ?_
  split at resolved
  · cases resolved
    assumption
  · cases resolved

theorem keyPositions_lt {key : List Nat} (found : schema.keyPositions names = .ok key) :
    ∀ position ∈ key, position < schema.width := by
  intro position member
  obtain ⟨name, _, placed⟩ := exists_of_mem_right (forall₂_keyPositions found) member
  exact position?_lt placed

/-- A primary key changes no name. -/
theorem names_of_withPrimaryKey {next : Schema} (made : schema.withPrimaryKey names = .ok next) :
    next.names = schema.names := by
  obtain ⟨key, _, made⟩ := bind_eq_ok.mp made
  cases made
  refine List.ext_getElem? fun position => ?_
  simp only [Schema.names, List.getElem?_map, List.getElem?_mapIdx]
  cases schema.columns[position]? with
  | none => rfl
  | some column =>
    simp only [Option.map_some, Option.some.injEq]
    split <;> rfl

theorem Formed.withPrimaryKey (formed : schema.Formed) {next : Schema}
    (made : schema.withPrimaryKey names = .ok next) : next.Formed := by
  have sameNames := names_of_withPrimaryKey made
  have sameWidth : next.width = schema.width := by
    simpa [Schema.names, width] using congrArg List.length sameNames
  obtain ⟨key, found, made⟩ := bind_eq_ok.mp made
  refine ⟨sameNames ▸ formed.names, fun other member position inKey => ?_⟩
  rw [sameWidth]
  cases made
  rcases mem_keys.mp member with ⟨rfl, _⟩ | unique
  · exact keyPositions_lt found position inKey
  · exact formed.keys other (mem_keys.mpr (.inr unique)) position inKey

/-- A key is an old one, or the one that is added. -/
theorem mem_keys_withUniqueKey {next : Schema} (made : schema.withUniqueKey names = .ok next)
    {key : List Nat} (member : key ∈ next.keys) :
    key ∈ schema.keys ∨ schema.keyPositions names = .ok key := by
  obtain ⟨new, found, made⟩ := bind_eq_ok.mp made
  cases made
  rcases mem_keys.mp member with primary | unique
  · exact .inl (mem_keys.mpr (.inl primary))
  · rcases List.mem_append.mp unique with old | new
    · exact .inl (mem_keys.mpr (.inr old))
    · cases List.mem_singleton.mp new
      exact .inr found

theorem Formed.withUniqueKey (formed : schema.Formed) {next : Schema}
    (made : schema.withUniqueKey names = .ok next) : next.Formed := by
  have inside : ∀ key ∈ next.keys, ∀ position ∈ key, position < schema.width := by
    intro key member
    rcases mem_keys_withUniqueKey made member with old | found
    · exact formed.keys key old
    · exact keyPositions_lt found
  obtain ⟨_, _, made⟩ := bind_eq_ok.mp made
  cases made
  exact ⟨formed.names, inside⟩

theorem keys_of_schemaOf {columns : List Column} (made : schemaOf columns = .ok schema) :
    schema.keys = [] := by
  rw [(of_ofColumns (ofColumns_of_schemaOf made)).1]
  rfl

theorem formed_of_schemaOf {columns : List Column} (made : schemaOf columns = .ok schema) :
    schema.Formed :=
  formed_of_ofColumns (ofColumns_of_schemaOf made)

/-! ## Keys that are kept -/

/-- A key that is kept is an old one with its positions moved. -/
theorem mem_keys_retainKeys {moved : Nat → Option Nat} {key : List Nat}
    (member : key ∈ (schema.retainKeys source moved).keys) :
    ∃ old ∈ source.keys, old.mapM moved = some key := by
  rcases mem_keys.mp member with ⟨same, nonempty⟩ | unique
  · replace same : key = (source.primaryKey.mapM moved).getD [] := same
    cases found : source.primaryKey.mapM moved with
    | none =>
      rw [found] at same
      exact absurd same nonempty
    | some places =>
      rw [found] at same
      cases same
      have old : source.primaryKey ≠ [] := by
        intro isEmpty
        rw [isEmpty] at found
        cases found
        exact nonempty rfl
      exact ⟨_, mem_keys.mpr (.inl ⟨rfl, old⟩), found⟩
  · obtain ⟨old, isOld, found⟩ := List.mem_filterMap.mp unique
    exact ⟨old, mem_keys.mpr (.inr isOld), found⟩

theorem formed_retainKeys {moved : Nat → Option Nat} (formed : source.Formed)
    (distinct : schema.names.Nodup)
    (inside : ∀ position < source.width, ∀ place, moved position = some place →
      place < schema.width) : (schema.retainKeys source moved).Formed := by
  refine ⟨distinct, fun key member place inKey => ?_⟩
  obtain ⟨old, isOld, found⟩ := mem_keys_retainKeys member
  obtain ⟨position, inOld, here⟩ := exists_of_mem_right (mapM_eq_some.mp found) inKey
  exact inside position (formed.keys old isOld position inOld) place here

/-- Keys hold after a step whose rows hold the cells of rows before it, in the places that the
columns are moved to. -/
theorem KeysHold.retainKeys {moved : Nat → Option Nat} (holds : source.KeysHold rows)
    (formed : source.Formed) {α : Type} {items : List α} {origin result : α → Row}
    (part : (items.map origin).Sublist rows)
    (carries : ∀ item ∈ items, ∀ position < source.width, ∀ place, moved position = some place →
      (result item).cell place = (origin item).cell position) :
    (schema.retainKeys source moved).KeysHold (items.map result) := by
  intro key member
  obtain ⟨old, isOld, found⟩ := mem_keys_retainKeys member
  refine ((holds old isOld).sublist part).carry_map fun item isItem => ?_
  exact Row.pick_of_moved found fun position inOld =>
    carries item isItem position (formed.keys old isOld position inOld)

/-! ## Selections -/

theorem formed_select (formed : source.Formed) (made : source.select names = .ok schema) :
    schema.Formed := by
  simp only [select, bind_eq_ok, pure_eq_ok] at made
  obtain ⟨columns, found, result, listed, rfl⟩ := made
  refine formed_retainKeys formed (nodup_names_of_schemaOf listed) fun position _ place moved => ?_
  rw [width, columns_of_schemaOf listed, ← (mapM_eq_ok.mp found).length_eq]
  exact (List.findIdx?_eq_some_iff_getElem.mp moved).1

/-- A selection moves a column to where it is named. -/
theorem KeysHold.select (holds : source.KeysHold rows) (formed : source.Formed)
    (made : source.select names = .ok schema) {positions : List Nat}
    (placed : source.positions .select names = .ok positions) :
    schema.KeysHold (rows.map (·.pick positions)) := by
  simp only [Schema.select, bind_eq_ok, pure_eq_ok] at made
  obtain ⟨columns, found, result, listed, rfl⟩ := made
  have all : (rows.map id).Sublist rows := by simp
  refine holds.retainKeys formed all fun row _ position inside place moved => ?_
  obtain ⟨other, here, resolved⟩ := exists_getElem?_of_forall₂
    (mapM_eq_ok.mp (mapError_eq_ok.mp placed)) (getElem?_of_findIdx? moved)
  have same := (resolve_eq_ok.mp resolved).symm.trans (position?_nameAt formed inside)
  rw [Option.some.injEq] at same
  exact Row.cell_map (same ▸ here)

/-! ## Assignments -/

/-- The old names stay in front, and the names of new columns follow. -/
theorem names_assign {columns : List Column} (made : source.assign columns = .ok schema) :
    schema.names = source.names ++
      (columns.filter fun column => (source.position? column.name).isNone).map (·.name) := by
  rw [Schema.names, columns_of_assign made, List.map_append, List.map_map]
  exact congrArg (· ++ _) (List.map_congr_left fun old _ => name_replaced columns old)

/-- An old name stands after an assignment where it stood before. -/
theorem getElem?_names_assign {columns : List Column} (made : source.assign columns = .ok schema)
    (inside : position < source.width) :
    schema.names[position]? = some (source.nameAt position) := by
  rw [names_assign made, List.getElem?_append_left (by simpa [Schema.names, width] using inside),
    getElem?_names inside]

theorem formed_assign {columns : List Column} (formed : source.Formed)
    (made : source.assign columns = .ok schema) : schema.Formed := by
  have wider : source.width ≤ schema.width := by
    have lengths := congrArg List.length (names_assign made)
    simp only [Schema.names, List.length_append, List.length_map] at lengths
    rw [width, width, lengths]
    exact Nat.le_add_right _ _
  simp only [assign, bind_eq_ok, pure_eq_ok] at made
  obtain ⟨result, listed, rfl⟩ := made
  refine formed_retainKeys formed (nodup_names_of_schemaOf listed) fun position inside place moved =>
    ?_
  split at moved
  · cases moved
  · cases moved
    exact Nat.lt_of_lt_of_le inside wider

/-- An assignment keeps the columns that it does not replace where they are. -/
theorem KeysHold.assign {columns : List Column} (holds : source.KeysHold rows)
    (formed : source.Formed) (made : source.assign columns = .ok schema) {α : Type}
    {items : List α} {origin result : α → Row} (part : (items.map origin).Sublist rows)
    (keeps : ∀ item ∈ items, ∀ position < source.width,
      source.nameAt position ∉ columns.map (·.name) →
        (result item).cell position = (origin item).cell position) :
    schema.KeysHold (items.map result) := by
  simp only [Schema.assign, bind_eq_ok, pure_eq_ok] at made
  obtain ⟨_, listed, rfl⟩ := made
  refine holds.retainKeys formed part fun item isItem position inside place moved => ?_
  split at moved
  · cases moved
  · rename_i other
    cases moved
    exact keeps item isItem position inside other

/-! ## Joins -/

section Joins

variable {left right joined : Schema} {kind : JoinKind} {pairs : List (String × String)}

/-- Are the names on the right of some pairs those of a key? -/
theorem exists_key_of_coversKey (covers : right.coversKey names = true) :
    ∃ key ∈ right.keys, ∀ position ∈ key, right.nameAt position ∈ names := by
  simpa [coversKey, keyNames] using covers

/-- The columns of a join key are those of the pairs, and they are widened exactly where the types
differ. -/
theorem forall₂_joinKeyColumns {columns : List JoinKeyColumn}
    (found : joinKeyColumns left right pairs = .ok columns) :
    List.Forall₂ (fun pair column => left.position? pair.1 = some column.left ∧
      right.position? pair.2 = some column.right ∧
      (column.widened = true ↔
        (left.column? pair.1).map (·.type) ≠ (right.column? pair.2).map (·.type))) pairs columns := by
  simp only [joinKeyColumns, positions, bind_eq_ok, pure_eq_ok, mapError_eq_ok, mapM_eq_ok,
    List.forall₂_map_left_iff, resolve_eq_ok] at found
  obtain ⟨lefts, leftPlaced, rights, rightPlaced, rfl⟩ := found
  induction leftPlaced generalizing rights with
  | nil =>
    cases rightPlaced
    exact .nil
  | @cons pair leftKey _ _ leftFirst _ ih =>
    obtain ⟨rightKey, others, rightFirst, rest, rfl⟩ := List.forall₂_cons_left_iff.mp rightPlaced
    refine .cons ⟨leftFirst, rightFirst, ?_⟩ (ih others rest)
    rw [column?_eq_getElem? leftFirst, column?_eq_getElem? rightFirst, decide_eq_true_iff]

/-- The left entries of the layout of a join come first, and hold their positions. -/
theorem getElem?_joinLayout
    (found : (((joinLayout left right pairs).filter (·.side = .left)).map (·.index)).findIdx?
      (· = position) = some place) :
    (joinLayout left right pairs)[place]? = some ⟨.left, position⟩ := by
  have here := getElem?_of_findIdx? found
  have kept (lefts rights : List Nat) :
      ((lefts.map (JoinColumn.mk .left) ++ rights.map (JoinColumn.mk .right)).filter
        (·.side = .left)).map (·.index) = lefts := by
    simp [List.filter_map, Function.comp_def]
  rw [joinLayout, kept] at here
  obtain ⟨inside, _⟩ := List.getElem?_eq_some_iff.mp here
  rw [joinLayout, List.getElem?_append_left (by rwa [List.length_map]), List.getElem?_map, here,
    Option.map_some]

theorem formed_join (formed : left.Formed) (made : left.join right kind pairs = .ok joined) :
    joined.Formed := by
  have lengths := (forall₂_joinLayout made).length_eq
  obtain ⟨_, _, _, result, listed, rfl⟩ := join_eq_ok.mp made
  split
  · rename_i covers
    rw [if_pos covers] at lengths
    refine formed_retainKeys formed (nodup_names_of_schemaOf listed) fun position _ place moved => ?_
    obtain ⟨inside, _⟩ := List.getElem?_eq_some_iff.mp (getElem?_joinLayout moved)
    exact Nat.lt_of_lt_of_eq inside lengths
  · exact formed_of_schemaOf listed

/-- A row has one partner at most, if the pairs cover a key of the right side and their types are
the same. -/
theorem KeysHold.length_joinPartners_le_one {rightRows : List Row} (holds : right.KeysHold rightRows)
    (formed : right.Formed) (covers : right.coversKey (pairs.map (·.2)) = true)
    (sameTypes : ∀ pair ∈ pairs,
      (left.column? pair.1).map (·.type) = (right.column? pair.2).map (·.type))
    {columns : List JoinKeyColumn} (found : joinKeyColumns left right pairs = .ok columns)
    (row : Row) : (joinPartners id columns rightRows row).length ≤ 1 := by
  obtain ⟨key, isKey, covered⟩ := exists_key_of_coversKey covers
  refine TablePipeline.length_joinPartners_le_one (holds key isKey) (fun position inKey => ?_) row
  obtain ⟨pair, isPair, named⟩ := List.mem_map.mp (covered position inKey)
  obtain ⟨column, isColumn, _, placed, widens⟩ :=
    exists_of_mem_left (forall₂_joinKeyColumns found) isPair
  have here := position?_nameAt formed (formed.keys key isKey position inKey)
  rw [← named, placed, Option.some.injEq] at here
  refine ⟨column, isColumn, here, Bool.eq_false_iff.mpr fun wide => ?_⟩
  exact widens.mp wide (sameTypes pair isPair)

/-- The keys of the left side hold after a join in which rows have one partner at most. -/
theorem KeysHold.join {leftRows rightRows : List Row} (holds : left.KeysHold leftRows)
    (formed : left.Formed) (made : left.join right kind pairs = .ok joined)
    (columns : List JoinKeyColumn) (single : right.coversKey (pairs.map (·.2)) = true →
      ∀ row, (joinPartners id columns rightRows row).length ≤ 1) :
    joined.KeysHold (joinRows kind columns (joinLayout left right pairs) leftRows rightRows) := by
  obtain ⟨_, _, _, result, listed, rfl⟩ := join_eq_ok.mp made
  split
  · rename_i covers
    refine holds.retainKeys formed (joinPairs_sublist (single covers) leftRows)
      fun pair _ position _ place moved => ?_
    exact Row.cell_joined_left (getElem?_joinLayout moved) pair.1 pair.2
  · rw [KeysHold, keys_of_schemaOf listed]
    exact List.forall_mem_nil _

end Joins

end Schema

end TablePipeline
