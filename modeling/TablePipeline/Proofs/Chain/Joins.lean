import TablePipeline.Proofs.Chain.Preservation
import TablePipeline.Proofs.Rows.Joining

/-! # Joins keep to their schemas

The keys of a join that is checked are there on both sides, and every entry of its layout is the
position of a column of its side. A joined row is made of cells of a left row and of cells of a right
one, or of nulls: those come from left joins only, whose right columns all admit null.
-/

namespace TablePipeline

namespace Schema

variable {left right joined : Schema} {kind : JoinKind} {pairs : List (String × String)}

/-- The columns of checked pairs are there, and their types can be compared. -/
theorem comparable_of_checkPairs (checked : checkPairs left right pairs = .ok ()) :
    ∀ pair ∈ pairs, ∃ column other, left.column? pair.1 = some column ∧
      right.column? pair.2 = some other ∧
      (column.type = other.type ∨ (column.type.widest? other.type).isSome = true) := by
  induction pairs with
  | nil => exact fun _ member => nomatch member
  | cons pair rest ih =>
    obtain ⟨l, r⟩ := pair
    simp only [checkPairs, bind_eq_ok, resolveColumn_eq_ok] at checked
    obtain ⟨column, leftKnown, other, rightKnown, checked⟩ := checked
    split at checked
    · rename_i comparable
      exact List.forall_mem_cons.mpr ⟨⟨column, other, leftKnown, rightKnown, comparable⟩, ih checked⟩
    · simp at checked

/-- The columns of checked pairs are there. -/
theorem known_of_checkPairs (checked : checkPairs left right pairs = .ok ()) :
    ∀ pair ∈ pairs, (left.position? pair.1).isSome ∧ (right.position? pair.2).isSome := by
  intro pair member
  obtain ⟨column, other, known, known', _⟩ := comparable_of_checkPairs checked pair member
  rw [position?_isSome, position?_isSome, known, known']
  exact ⟨rfl, rfl⟩

/-- The pairs of a join are checked. -/
theorem checkPairs_of_join (made : left.join right kind pairs = .ok joined) :
    checkPairs left right pairs = .ok () :=
  (join_eq_ok.mp made).2.1

/-- The key columns of a join are positions of rows of their sides. -/
theorem joinKeyColumns_of_join (made : left.join right kind pairs = .ok joined) :
    ∃ columns, joinKeyColumns left right pairs = .ok columns ∧
      ∀ column ∈ columns, column.left < left.width ∧ column.right < right.width := by
  have known := known_of_checkPairs (checkPairs_of_join made)
  have leftKnown : ∀ name ∈ pairs.map (·.1), (left.position? name).isSome := by
    intro name member
    obtain ⟨pair, isPair, rfl⟩ := List.mem_map.mp member
    exact (known pair isPair).1
  have rightKnown : ∀ name ∈ pairs.map (·.2), (right.position? name).isSome := by
    intro name member
    obtain ⟨pair, isPair, rfl⟩ := List.mem_map.mp member
    exact (known pair isPair).2
  obtain ⟨leftKeys, leftFound, leftInside⟩ := positions_of_known .join leftKnown
  obtain ⟨rightKeys, rightFound, rightInside⟩ := positions_of_known .join rightKnown
  refine ⟨_, bind_eq_ok.mpr ⟨leftKeys, leftFound, bind_eq_ok.mpr ⟨rightKeys, rightFound, rfl⟩⟩, ?_⟩
  intro column member
  obtain ⟨⟨l, r⟩, paired, rfl⟩ := List.mem_map.mp member
  obtain ⟨isLeft, isRight⟩ := List.of_mem_zip paired
  exact ⟨leftInside l isLeft, rightInside r isRight⟩

/-- Is an entry of a layout the position of a column? -/
def Inside (left right : Schema) (entry : JoinColumn) : Prop :=
  match entry.side with
  | .left => entry.index < left.width
  | .right => entry.index < right.width

/-- Every entry of a layout is the position of a column. -/
theorem inside_of_mem_joinLayout {entry : JoinColumn}
    (member : entry ∈ joinLayout left right pairs) : Inside left right entry := by
  rw [joinLayout, List.mem_append, List.mem_map, List.mem_map] at member
  rcases member with ⟨index, member, rfl⟩ | ⟨index, member, rfl⟩
  · exact List.mem_range.mp (List.mem_filter.mp member).1
  · exact List.mem_range.mp (List.mem_filter.mp member).1

/-- The entries of the layout of a join stand for its columns. -/
theorem forall₂_joinLayout (made : left.join right kind pairs = .ok joined) :
    List.Forall₂ (fun entry column => joinColumn? left right kind entry = some column)
      (joinLayout left right pairs) joined.columns := by
  rw [columns_of_join made]
  have inside := fun entry => @inside_of_mem_joinLayout left right pairs entry
  generalize joinLayout left right pairs = layout at inside
  induction layout with
  | nil => exact .nil
  | cons entry layout ih =>
    have isSome : (joinColumn? left right kind entry).isSome := by
      have bound := inside entry (.head _)
      obtain ⟨side, index⟩ := entry
      cases side with
      | left => simpa [joinColumn?, Inside, width] using bound
      | right => simpa [joinColumn?, Inside, width] using bound
    obtain ⟨column, isColumn⟩ := Option.isSome_iff_exists.mp isSome
    rw [List.filterMap_cons_some isColumn]
    exact .cons isColumn (ih fun entry member => inside entry (.tail _ member))

/-- Joined cells are such as the columns of their entries admit. -/
theorem Admits.join {row : Row} {partner : Option Row} (admitted : left.Admits row)
    (admitsPartner : ∀ other ∈ partner, right.Admits other)
    (alone : partner = none → kind = .left) {entries : List JoinColumn}
    (inside : ∀ entry ∈ entries, Inside left right entry) :
    List.Forall₂ Column.Admits (entries.filterMap (joinColumn? left right kind))
      (row.joined entries partner) := by
  induction entries with
  | nil => exact .nil
  | cons entry rest ih =>
    have here := inside entry (List.mem_cons_self ..)
    have others := ih fun other member => inside other (List.mem_cons_of_mem _ member)
    obtain ⟨side, index⟩ := entry
    cases side with
    | left =>
      have isColumn : left.columns[index]? = some left.columns[index] :=
        List.getElem?_eq_getElem here
      rw [List.filterMap_cons_some (show joinColumn? left right kind ⟨.left, index⟩ = _ from isColumn)]
      exact .cons (admitted.cell isColumn) others
    | right =>
      have isColumn : right.columns[index]? = some right.columns[index] :=
        List.getElem?_eq_getElem here
      have entryColumn : joinColumn? left right kind ⟨.right, index⟩ = some
          { right.columns[index] with
            nullable := right.columns[index].nullable || decide (kind = .left) } := by
        rw [joinColumn?, isColumn, Option.map_some]
      rw [List.filterMap_cons_some entryColumn]
      refine .cons ?_ others
      cases partner with
      | none =>
        change (_ || decide (kind = .left)) = true
        rw [decide_eq_true (alone rfl), Bool.or_true]
      | some other =>
        have fits := (admitsPartner other rfl).cell isColumn
        refine ValueType.Admits.widen fits (.inl rfl) fun isNull : other.cell index = .null => ?_
        rw [isNull] at fits
        exact Bool.or_eq_true_iff.mpr (.inl fits)

end Schema

/-- A left row is joined with right rows, and only a left join keeps it alone. -/
theorem mem_joinPairs {kind : JoinKind} {columns : List JoinKeyColumn} {left right : List Row}
    {row : Row} {partner : Option Row} (member : (row, partner) ∈ joinPairs id kind columns left right) :
    row ∈ left ∧ (∀ other ∈ partner, other ∈ right) ∧ (partner = none → kind = .left) := by
  rw [joinPairs_eq_flatMap] at member
  obtain ⟨item, isItem, paired⟩ := List.mem_flatMap.mp member
  split at paired
  · cases List.mem_singleton.mp paired
    exact ⟨isItem, fun _ none => (nomatch none), fun _ => rfl⟩
  · obtain ⟨other, isPartner, same⟩ := List.mem_map.mp paired
    cases same
    refine ⟨isItem, fun _ isOther => ?_, fun isNone => (nomatch isNone)⟩
    cases isOther
    exact (joinPartners_sublist row).subset isPartner

/-- The rows of a join are such as its schema admits. -/
theorem admits_joinRows {left right joined : Schema} {kind : JoinKind}
    {pairs : List (String × String)} (made : left.join right kind pairs = .ok joined)
    (columns : List JoinKeyColumn) {leftRows rightRows : List Row}
    (admitsLeft : ∀ row ∈ leftRows, left.Admits row)
    (admitsRight : ∀ row ∈ rightRows, right.Admits row) :
    ∀ row ∈ joinRows kind columns (Schema.joinLayout left right pairs) leftRows rightRows,
      joined.Admits row := by
  intro result member
  obtain ⟨⟨row, partner⟩, paired, rfl⟩ := List.mem_map.mp member
  obtain ⟨isLeft, isRight, alone⟩ := mem_joinPairs paired
  rw [Schema.Admits, Schema.columns_of_join made]
  exact (admitsLeft row isLeft).join (fun other isOther => admitsRight other (isRight other isOther))
    alone fun entry => Schema.inside_of_mem_joinLayout

end TablePipeline
