import TablePipeline.Proofs.Rows.Keys
import TablePipeline.Proofs.Rows.Matching
import TablePipeline.Proofs.Rows.Ordering

/-! # Groups as places

Rows are put into groups in one pass: an index finds the group of a key, a row with a new key opens a
group at the end, and the others join theirs. What is kept is the places of the rows. Every place is in
one group, the groups are in the order of their first places, and the places of a group are those of the
rows whose keys are equal. The pass gives the groups that a row takes out of those behind it.
-/

namespace TablePipeline

/-! ## Equal keys -/

/-- Are two cells equal as parts of a key? Nulls are, and so are the doubles that are no numbers. An
integer equals no double. -/
def Cell.Alike : Cell → Cell → Prop
  | null, null => True
  | bool a, bool b => a = b
  | int a, int b => a = b
  | float a, float b => a == b ∨ (a.isNaN = true ∧ b.isNaN = true)
  | text a, text b => a = b
  | _, _ => False

theorem Cell.canonical_eq_iff_alike {a b : Cell} : a.canonical = b.canonical ↔ a.Alike b := by
  cases a <;> cases b <;> simp [canonical, Alike, Number.canonical_inj]

/-- Are the cells of two rows equal in some columns? -/
def Row.Agree (columns : List Nat) (a b : Row) : Prop :=
  ∀ column ∈ columns, (a.cell column).Alike (b.cell column)

theorem Row.same_pick_iff {columns : List Nat} {a b : Row} :
    (a.pick columns).same (b.pick columns) = true ↔ Agree columns a b := by
  rw [same_iff, pick, pick, List.map_map, List.map_map, List.map_inj_left]
  exact forall₂_congr fun _ _ => Cell.canonical_eq_iff_alike

/-! ## The items of a group -/

section Groups

variable {α β : Type} {key : α → Row}

/-- A group holds the items of one key, as they were. -/
theorem eq_filter_of_mem_groupsOf {items group : List α} (member : group ∈ groupsOf key items)
    {item : α} (isItem : item ∈ group) :
    group = items.filter fun other => (key other).same (key item) := by
  induction items using groupsOf_induction key with
  | nil =>
    rw [groupsOf] at member
    cases member
  | cons head rest ih =>
    rw [groupsOf] at member
    rcases List.mem_cons.mp member with rfl | member
    · have sameKey : (key item).same (key head) = true := by
        rcases List.mem_cons.mp isItem with rfl | isItem
        · exact Row.same_iff.mpr rfl
        · exact (List.mem_filter.mp isItem).2
      rw [Row.same_iff] at sameKey
      simp only [Row.same, List.filter_cons, sameKey, decide_true, if_true]
    · have isOther := mem_of_mem_groupsOf member isItem
      have otherKey := (List.mem_filter.mp isOther).2
      simp only [Row.same, Bool.not_eq_true', decide_eq_false_iff_not] at otherKey
      rw [ih member, List.filter_filter]
      simp only [Row.same, List.filter_cons, Ne.symm otherKey, decide_false, if_neg, Bool.false_eq_true,
        not_false_eq_true]
      refine List.filter_congr fun other _ => ?_
      by_cases same : (key other).map Cell.canonical = (key item).map Cell.canonical
      · simp [same, otherKey]
      · simp [same]

/-- The items of a group are in the order in which they were. -/
theorem sublist_of_mem_groupsOf {items group : List α} (member : group ∈ groupsOf key items) :
    group.Sublist items := by
  obtain ⟨first, others, rfl⟩ := List.exists_cons_of_ne_nil (ne_nil_of_mem_groupsOf member)
  rw [eq_filter_of_mem_groupsOf member (List.mem_cons_self ..)]
  exact List.filter_sublist

/-- The first items of the groups are in the order of the items. -/
theorem heads_groupsOf_sublist (key : α → Row) (items : List α) :
    ((groupsOf key items).filterMap List.head?).Sublist items := by
  induction items using groupsOf_induction key with
  | nil =>
    rw [groupsOf]
    exact .slnil
  | cons head rest ih =>
    rw [groupsOf]
    exact (ih.trans List.filter_sublist).cons_cons head

/-- Items are grouped as what they are made of. -/
theorem groupsOf_map (make : β → α) (items : List β) :
    groupsOf key (items.map make) =
      (groupsOf (fun item => key (make item)) items).map (List.map make) := by
  induction items using groupsOf_induction (fun item => key (make item)) with
  | nil =>
    rw [List.map_nil, groupsOf, groupsOf]
    rfl
  | cons head rest ih =>
    rw [List.map_cons, groupsOf, groupsOf, List.map_cons, List.map_cons, ← ih, List.filter_map,
      List.filter_map]
    rfl

/-- The keys of the groups, in the order of the groups. -/
def groupKeys (key : α → Row) (items : List α) : List (Option Row) :=
  (groupsOf key items).map fun group => group.head?.map fun item => (key item).map Cell.canonical

/-- A last item joins the group of its key, or opens one. -/
theorem groupsOf_concat (key : α → Row) (items : List α) (item : α) :
    groupsOf key (items ++ [item]) =
      match (groupKeys key items).findIdx? (· = some ((key item).map Cell.canonical)) with
      | some place => (groupsOf key items).modify place (· ++ [item])
      | none => groupsOf key items ++ [[item]] := by
  induction items using groupsOf_induction key with
  | nil => simp [groupsOf, groupKeys]
  | cons head rest ih =>
    rw [List.cons_append, groupKeys, groupsOf, groupsOf, List.filter_append, List.filter_append,
      List.map_cons, List.findIdx?_cons]
    by_cases same : (key item).map Cell.canonical = (key head).map Cell.canonical
    · simp [Row.same, same]
    · have differ : decide (((head :: rest.filter fun other => (key other).same (key head)).head?.map
          fun item => (key item).map Cell.canonical) = some ((key item).map Cell.canonical)) =
          false := by
        simpa using Ne.symm same
      have joins : [item].filter (fun other => (key other).same (key head)) = [] := by
        simp [Row.same, same]
      have stays : [item].filter (fun other => !(key other).same (key head)) = [item] := by
        simp [Row.same, same]
      rw [differ, joins, stays, ih, List.append_nil]
      simp only [Bool.false_eq_true, if_false]
      change _ = match ((groupKeys key _).findIdx? _).map (· + 1) with | some _ => _ | none => _
      cases (groupKeys key (rest.filter fun other => !(key other).same (key head))).findIdx?
        (· = some ((key item).map Cell.canonical)) <;> rfl

/-- Whether a last item joins a group or opens one, the keys of the groups before it stay. -/
theorem groupKeys_concat (key : α → Row) (items : List α) (item : α) :
    groupKeys key (items ++ [item]) =
      if some ((key item).map Cell.canonical) ∈ groupKeys key items then groupKeys key items
      else groupKeys key items ++ [some ((key item).map Cell.canonical)] := by
  rw [groupKeys, groupsOf_concat]
  split
  · rename_i place found
    obtain ⟨inside, isKey, _⟩ := List.findIdx?_eq_some_iff_getElem.mp found
    rw [if_pos (of_decide_eq_true isKey ▸ List.getElem_mem inside)]
    refine List.ext_getElem? fun other => ?_
    rw [groupKeys, List.getElem?_map, List.getElem?_map, List.getElem?_modify]
    cases group : (groupsOf key items)[other]? with
    | none => rfl
    | some group =>
      obtain ⟨first, others, rfl⟩ := List.exists_cons_of_ne_nil
        (ne_nil_of_mem_groupsOf (List.mem_of_getElem? group))
      by_cases here : place = other <;> simp [here]
  · rename_i none
    have isNew : some ((key item).map Cell.canonical) ∉ groupKeys key items := fun member => by
      have differs := List.findIdx?_eq_none_iff.mp none _ member
      simp at differs
    rw [if_neg isNew, List.map_append]
    rfl

end Groups

/-! ## One pass over the rows -/

/-- The groups of the rows so far, as places, and where the group of each key is. -/
structure Partition where
  groups : List (List Nat) := []
  index : Dictionary Row Nat := {}

namespace Partition

/-- What a numbered row is grouped by. -/
def numberedKey (columns : List Nat) (numbered : Row × Nat) : Row :=
  numbered.1.pick columns

/-- Puts a numbered row into the group of its key, or into a new one at the end. -/
def add (columns : List Nat) (partition : Partition) (numbered : Row × Nat) : Partition :=
  let key := (numberedKey columns numbered).map Cell.canonical
  match partition.index.find? key with
  | some group => { partition with groups := partition.groups.modify group (· ++ [numbered.2]) }
  | none => ⟨partition.groups ++ [[numbered.2]], partition.index.insert key partition.groups.length⟩

/-- The groups of the places of rows. -/
def ofRows (columns : List Nat) (rows : List Row) : List (List Nat) :=
  (rows.zipIdx.foldl (add columns) {}).groups

variable {columns : List Nat} {partition : Partition}

/-- Has a pass put some rows into their groups, and does its index find the groups? -/
structure Holds (columns : List Nat) (numbered : List (Row × Nat)) (partition : Partition) : Prop where
  groups : partition.groups = (groupsOf (numberedKey columns) numbered).map (·.map (·.2))
  index : ∀ key, partition.index.find? key =
    (groupKeys (numberedKey columns) numbered).findIdx? (· = some key)

/-- A row is put where it belongs, and the index goes on finding the groups. -/
theorem Holds.add {numbered : List (Row × Nat)} (holds : Holds columns numbered partition)
    (last : Row × Nat) : Holds columns (numbered ++ [last]) (partition.add columns last) := by
  have found := holds.index ((numberedKey columns last).map Cell.canonical)
  have joined := groupsOf_concat (numberedKey columns) numbered last
  have keys := groupKeys_concat (numberedKey columns) numbered last
  unfold Partition.add
  dsimp only
  rw [found]
  cases place : (groupKeys (numberedKey columns) numbered).findIdx?
    (· = some ((numberedKey columns last).map Cell.canonical)) with
  | some place' =>
    obtain ⟨inside, isKey, _⟩ := List.findIdx?_eq_some_iff_getElem.mp place
    rw [if_pos (of_decide_eq_true isKey ▸ List.getElem_mem inside)] at keys
    rw [place] at joined
    refine ⟨?_, fun key => ?_⟩
    · rw [joined, holds.groups]
      refine List.ext_getElem? fun other => ?_
      simp only [List.getElem?_map, List.getElem?_modify]
      by_cases here : place' = other <;>
        cases (groupsOf (numberedKey columns) numbered)[other]? <;> simp [here]
    · rw [keys]
      exact holds.index key
  | none =>
    have isNew : some ((numberedKey columns last).map Cell.canonical) ∉
        groupKeys (numberedKey columns) numbered := fun member => by
      have differs := List.findIdx?_eq_none_iff.mp place _ member
      simp at differs
    rw [if_neg isNew] at keys
    rw [place] at joined
    refine ⟨?_, fun key => ?_⟩
    · rw [joined, holds.groups, List.map_append]
      rfl
    · have length : partition.groups.length = (groupKeys (numberedKey columns) numbered).length := by
        rw [holds.groups, groupKeys, List.length_map, List.length_map]
      rw [keys, List.findIdx?_append, Dictionary.find?_insert, length, holds.index key]
      by_cases same : key = (numberedKey columns last).map Cell.canonical
      · rw [if_pos same, same, place]
        simp
      · simp [same, Ne.symm same]

/-- After the pass all rows are in their groups. -/
theorem holds_foldl (columns : List Nat) (numbered : List (Row × Nat)) :
    Holds columns numbered (numbered.foldl (Partition.add columns) {}) := by
  induction numbered using List.reverseRecOn with
  | nil => exact ⟨by rw [groupsOf]; rfl, fun key => by rw [groupKeys, groupsOf]; rfl⟩
  | append_singleton numbered last ih =>
    rw [List.foldl_append]
    exact ih.add last

/-- The pass gives the groups that a row takes out of those behind it. -/
theorem ofRows_eq_groupsOf (columns : List Nat) (rows : List Row) :
    ofRows columns rows =
      (groupsOf (numberedKey columns) rows.zipIdx).map (·.map (·.2)) :=
  (holds_foldl columns rows.zipIdx).groups

end Partition

/-! ## What the groups are -/

/-- Are these the groups of the rows that are equal in some columns, in the order of their first
rows? -/
structure Partitions (columns : List Nat) (rows : List Row) (groups : List (List Nat)) : Prop where
  /-- Every place is in one group, and once. -/
  places : groups.flatten.Perm (List.range rows.length)
  nonempty : ∀ group ∈ groups, group ≠ []
  increasing : ∀ group ∈ groups, group.Pairwise (· < ·)
  /-- Two places are in one group exactly when the rows there are equal. -/
  agree : ∀ {place other : Nat} {row row' : Row}, rows[place]? = some row → rows[other]? = some row' →
    ((∃ group ∈ groups, place ∈ group ∧ other ∈ group) ↔ Row.Agree columns row row')
  firsts : (groups.filterMap List.head?).Pairwise (· < ·)

namespace Partition

variable {rows : List Row}

/-- A numbered row is in some group. -/
theorem exists_group (columns : List Nat) {numbered : Row × Nat} (member : numbered ∈ rows.zipIdx) :
    ∃ group ∈ groupsOf (numberedKey columns) rows.zipIdx, numbered ∈ group :=
  List.mem_flatten.mp ((flatten_groupsOf_perm (numberedKey columns) rows.zipIdx).symm.subset member)

/-- The pass parts rows by their keys. -/
theorem partitions_ofRows (columns : List Nat) (rows : List Row) :
    Partitions columns rows (ofRows columns rows) := by
  rw [ofRows_eq_groupsOf]
  have numbers := pairwise_numbers_zipIdx rows
  refine ⟨?_, ?_, ?_, ?_, ?_⟩
  · rw [← List.map_flatten, List.range_eq_range', ← List.zipIdx_map_snd]
    exact (flatten_groupsOf_perm _ _).map _
  · intro places member
    obtain ⟨group, isGroup, rfl⟩ := List.mem_map.mp member
    simpa using ne_nil_of_mem_groupsOf isGroup
  · intro places member
    obtain ⟨group, isGroup, rfl⟩ := List.mem_map.mp member
    exact List.pairwise_map.mpr (numbers.sublist (sublist_of_mem_groupsOf isGroup))
  · intro place other row row' here there
    rw [← Row.same_pick_iff]
    constructor
    · rintro ⟨places, member, isPlace, isOther⟩
      obtain ⟨group, isGroup, rfl⟩ := List.mem_map.mp member
      obtain ⟨first, inGroup, rfl⟩ := List.mem_map.mp isPlace
      obtain ⟨second, inGroup', rfl⟩ := List.mem_map.mp isOther
      have sameKey := eq_filter_of_mem_groupsOf isGroup inGroup' ▸ inGroup
      obtain ⟨isFirst, sameKey⟩ := List.mem_filter.mp sameKey
      have isSecond := mem_of_mem_groupsOf isGroup inGroup'
      rw [List.mem_zipIdx_iff_getElem?, here, Option.some.injEq] at isFirst
      rw [List.mem_zipIdx_iff_getElem?, there, Option.some.injEq] at isSecond
      rw [isFirst, isSecond]
      exact sameKey
    · intro sameKey
      have isSecond : (row', other) ∈ rows.zipIdx := List.mk_mem_zipIdx_iff_getElem?.mpr there
      obtain ⟨group, isGroup, inGroup⟩ := exists_group columns isSecond
      refine ⟨_, List.mem_map_of_mem isGroup, List.mem_map.mpr ⟨(row, place), ?_, rfl⟩,
        List.mem_map.mpr ⟨_, inGroup, rfl⟩⟩
      rw [eq_filter_of_mem_groupsOf isGroup inGroup]
      exact List.mem_filter.mpr ⟨List.mk_mem_zipIdx_iff_getElem?.mpr here, sameKey⟩
  · have heads : ((groupsOf (numberedKey columns) rows.zipIdx).map (·.map (·.2))).filterMap
        List.head? = ((groupsOf (numberedKey columns) rows.zipIdx).filterMap List.head?).map (·.2) := by
      rw [List.filterMap_map, List.map_filterMap]
      refine List.filterMap_congr fun group _ => ?_
      cases group <;> rfl
    rw [heads]
    exact List.pairwise_map.mpr (numbers.sublist (heads_groupsOf_sublist _ _))

end Partition

end TablePipeline
