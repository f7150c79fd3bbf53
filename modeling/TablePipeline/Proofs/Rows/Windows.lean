import TablePipeline.Proofs.Rows.Partition

/-! # Numbers and values of ordered rows

Every part of the rows is put in order, and a row is numbered by its place in its part. The numbers tell
which row another one looks at: so many places on or back in its own part. The rank of a row is one more
than the number of rows of its part that the keys put before it; it is computed from one row to the next,
by asking whether they tie.
-/

namespace TablePipeline

/-- The row at a place. -/
def rowAt (rows : List Row) (place : Nat) : Row :=
  rows[place]?.getD []

theorem rowAt_of_getElem? {rows : List Row} {place : Nat} {row : Row}
    (here : rows[place]? = some row) : rowAt rows place = row := by
  rw [rowAt, here, Option.getD_some]

/-- Is a cell a number, if 64 bits hold it? -/
def IsNumber (number : Nat) (cell : Cell) : Prop :=
  ∃ value : Int64, cell = .int value ∧ ((number : Int) ≤ Number.maxInt → value.toInt = number)

theorem isNumber_numberCell (number : Nat) : IsNumber number (BoundWindow.numberCell number) := by
  refine ⟨_, rfl, fun fits => Int64.toInt_ofNat_of_lt ?_⟩
  simp only [Number.maxInt] at fits
  omega

/-! ## What the values are -/

/-- Are the places of a group numbered from one, in the order of their rows, and tied ones as they come? -/
structure Numbers (keys : List (Nat × OrderKey)) (rows : List Row) (group : List Nat)
    (number : Nat → Nat) : Prop where
  bijective : (group.map number).Perm (List.range' 1 group.length)
  increasing : ∀ place ∈ group, ∀ other ∈ group, (number place < number other ↔
    Row.Before keys (rowAt rows place, place) (rowAt rows other, other))

/-- Is a cell the value of an argument in the row of a group that is meant, or null if none is? -/
def IsValueAt (rows : List Row) (group : List Nat) (argument : Expr Nat) (meant : Nat → Prop)
    (cell : Cell) : Prop :=
  (∃ other ∈ group, meant other ∧ cell = argument.eval (rowAt rows other)) ∨
    (∀ other ∈ group, ¬ meant other) ∧ cell = .null

namespace BoundWindow

/-- Is a cell what a function gives the row at a place of a group? -/
def Gives (keys : List (Nat × OrderKey)) (rows : List Row) (group : List Nat) (number : Nat → Nat)
    (place : Nat) (cell : Cell) : BoundWindow → Prop
  | rowNumber => IsNumber (number place) cell
  | rank => IsNumber (1 + group.countP fun other =>
      Row.compare keys (rowAt rows other) (rowAt rows place) == .lt) cell
  | lead argument offset =>
    IsValueAt rows group argument (fun other => number other = number place + offset) cell
  | lag argument offset =>
    IsValueAt rows group argument (fun other => number other + offset = number place) cell

end BoundWindow

/-! ## Ranks -/

section Ranks

variable {keys : List (Nat × OrderKey)} {rows : List Row}

/-- The number of rows that the keys put before a row. -/
def countBelow (keys : List (Nat × OrderKey)) (rows : List Row) (row : Row) : Nat :=
  rows.countP fun other => Row.compare keys other row == .lt

/-- Where rows are in order, as many are below a row as there are in front of those that tie with it. -/
theorem countBelow_of_lt (preorder : Row.Preorders keys rows)
    (sorted : rows.Pairwise fun a b => Row.compare keys a b ≠ .gt) {front back : List Row}
    {item next : Row} (split : rows = front ++ item :: next :: back)
    (less : Row.compare keys item next = .lt) :
    countBelow keys rows next = front.length + 1 := by
  have isRow {row : Row} (member : row ∈ front ++ item :: next :: back) : row ∈ rows := split ▸ member
  rw [split, List.pairwise_append, List.pairwise_cons, List.pairwise_cons] at sorted
  obtain ⟨_, ⟨_, later, _⟩, earlier⟩ := sorted
  have itemIsRow : item ∈ rows := isRow (by simp)
  have nextIsRow : next ∈ rows := isRow (by simp)
  have below : ∀ row ∈ front, Row.compare keys row next = .lt := fun row inFront =>
    preorder.lt_of_not_gt_of_lt (isRow (List.mem_append_left _ inFront)) itemIsRow nextIsRow
      (earlier row inFront item (List.mem_cons_self ..)) less
  have notBelow : ∀ row ∈ next :: back, Row.compare keys row next ≠ .lt := fun row inBack => by
    rcases List.mem_cons.mp inBack with rfl | inBack
    · rw [preorder.refl row nextIsRow]
      exact fun same => nomatch same
    · exact (preorder.not_gt_iff nextIsRow (isRow (by simp [inBack]))).mp (later row inBack)
  rw [countBelow, split, List.countP_append, List.countP_cons, less,
    List.countP_eq_length.mpr fun row inFront => beq_iff_eq.mpr (below row inFront),
    List.countP_eq_zero.mpr fun row inBack => by simpa using notBelow row inBack]
  rfl

/-- As many rows are below one of two tied rows as are below the other. -/
theorem countBelow_of_eq (preorder : Row.Preorders keys rows) {a b : Row} (left : a ∈ rows)
    (right : b ∈ rows) (tie : Row.compare keys a b = .eq) :
    countBelow keys rows b = countBelow keys rows a := by
  have tie' : Row.compare keys b a = .eq := by rw [preorder.swap a left b right, tie]; rfl
  refine List.countP_congr fun row isRow => ?_
  rw [beq_iff_eq, beq_iff_eq]
  exact ⟨fun less => preorder.lt_of_lt_of_not_gt isRow right left less (by simp [tie']),
    fun less => preorder.lt_of_lt_of_not_gt isRow left right less (by simp [tie])⟩

/-- From a row on whose rank is right, all ranks are: the next row has the same rank if it ties, and
otherwise all rows in front of it are below it. -/
theorem ranksFrom_eq_map (preorder : Row.Preorders keys rows)
    (sorted : rows.Pairwise fun a b => Row.compare keys a b ≠ .gt) (front : List Row) {item : Row}
    {back : List Row} (split : rows = front ++ item :: back) :
    ranksFrom (fun a b => Row.compare keys a b == .eq) (1 + countBelow keys rows item)
        (front.length + 1) (item :: back) =
      (item :: back).map fun row => 1 + countBelow keys rows row := by
  induction back generalizing front item with
  | nil => rfl
  | cons next back ih =>
    have itemIsRow : item ∈ rows := split ▸ List.mem_append_right _ (List.mem_cons_self ..)
    have nextIsRow : next ∈ rows := by simp [split]
    have notAfter : Row.compare keys item next ≠ .gt := by
      rw [split, List.pairwise_append, List.pairwise_cons] at sorted
      exact sorted.2.1.1 next (List.mem_cons_self ..)
    have step : (if (Row.compare keys item next == .eq) = true then 1 + countBelow keys rows item
        else front.length + 1 + 1) = 1 + countBelow keys rows next := by
      cases order : Row.compare keys item next with
      | lt =>
        rw [countBelow_of_lt preorder sorted split order, if_neg (by simp)]
        omega
      | eq => rw [countBelow_of_eq preorder itemIsRow nextIsRow order, if_pos (by simp)]
      | gt => exact absurd order notAfter
    rw [ranksFrom, step, List.map_cons]
    refine congrArg _ ?_
    have rest := ih (front ++ [item]) (split.trans (List.append_cons ..))
    rwa [List.length_append] at rest

/-- The rank of a row is one more than the number of rows below it. -/
theorem ranksFrom_one (preorder : Row.Preorders keys rows)
    (sorted : rows.Pairwise fun a b => Row.compare keys a b ≠ .gt) :
    ranksFrom (fun a b => Row.compare keys a b == .eq) 1 1 rows =
      rows.map fun row => 1 + countBelow keys rows row := by
  cases rows with
  | nil => rfl
  | cons item back =>
    have first : countBelow keys (item :: back) item = 0 := by
      refine List.countP_eq_zero.mpr fun row member => ?_
      have isItem : item ∈ item :: back := List.mem_cons_self ..
      rw [beq_iff_eq, ← Ne, ← preorder.not_gt_iff isItem member]
      rcases List.mem_cons.mp member with rfl | inBack
      · simp [preorder.refl row isItem]
      · exact (List.pairwise_cons.mp sorted).1 row inBack
    have ranks := ranksFrom_eq_map preorder sorted [] rfl
    rwa [first] at ranks

example : ranksFrom (· == ·) 1 1 [2, 2, 5, 7, 7] = [1, 1, 3, 4, 4] := by decide

end Ranks

/-! ## Numbers -/

/-- What is listed for a name that is listed once is found. -/
theorem lookup_of_mem {α β : Type} [BEq α] [LawfulBEq α] {entries : List (α × β)} {name : α} {value : β}
    (distinct : (entries.map (·.1)).Nodup) (member : (name, value) ∈ entries) :
    entries.lookup name = some value := by
  induction entries with
  | nil => cases member
  | cons entry rest ih =>
    rw [List.map_cons, List.nodup_cons] at distinct
    rcases List.mem_cons.mp member with rfl | member
    · rw [List.lookup_cons, beq_self_eq_true]
    · have other : (name == entry.1) = false := beq_false_of_ne fun same =>
        distinct.1 (same ▸ List.mem_map_of_mem member)
      rw [List.lookup_cons, other]
      exact ih distinct.2 member

namespace BoundWindow

variable {partition : List Nat} {keys : List (Nat × OrderKey)} {rows : List Row}
  {part : List (Row × Nat)}

/-- A row finds what is computed at its place in its part. -/
theorem lookup_scattered {β : Type} {compute : List Row → List β}
    (lengths : ∀ rows, (compute rows).length = rows.length)
    (isPart : part ∈ parts partition keys rows) {place : Nat} {numbered : Row × Nat}
    (here : part[place]? = some numbered) :
    (scattered partition keys rows compute).lookup numbered.2 =
      (compute (part.map (·.1)))[place]? := by
  obtain ⟨inside, _⟩ := List.getElem?_eq_some_iff.mp here
  have inValues : place < (compute (part.map (·.1))).length := by rwa [lengths, List.length_map]
  have distinct : ((scattered partition keys rows compute).map (·.1)).Nodup :=
    (places_scattered_perm lengths rows).nodup_iff.mpr List.nodup_range
  rw [List.getElem?_eq_getElem inValues]
  refine lookup_of_mem distinct (List.mem_flatMap.mpr ⟨part, isPart, ?_⟩)
  refine List.mem_of_getElem? (i := place) (List.getElem?_zip_eq_some.mpr ⟨?_, ?_⟩)
  · rw [List.getElem?_map, here, Option.map_some]
  · exact List.getElem?_eq_getElem inValues

/-- The number of the row at a place: its place in its part, from one. -/
def number (partition : List Nat) (keys : List (Nat × OrderKey)) (rows : List Row) (place : Nat) : Nat :=
  ((scattered partition keys rows fun rows => List.range' 1 rows.length).lookup place).getD 0

theorem number_of_getElem? (isPart : part ∈ parts partition keys rows) {place : Nat}
    {numbered : Row × Nat} (here : part[place]? = some numbered) :
    number partition keys rows numbered.2 = place + 1 := by
  obtain ⟨inside, _⟩ := List.getElem?_eq_some_iff.mp here
  have lengths (rows : List Row) : (List.range' 1 rows.length).length = rows.length := List.length_range'
  rw [number, lookup_scattered lengths isPart here,
    List.getElem?_range' (by rwa [List.length_map]), Option.getD_some]
  omega

/-- A row of a part stands at its place among all rows. -/
theorem rowAt_of_mem_parts (isPart : part ∈ parts partition keys rows) {numbered : Row × Nat}
    (member : numbered ∈ part) : rowAt rows numbered.2 = numbered.1 := by
  have inAll := (flatten_parts_perm rows).subset (List.mem_flatten_of_mem isPart member)
  exact rowAt_of_getElem? (List.mem_zipIdx_iff_getElem?.mp inAll)

/-- The parts are the groups of one pass, put in order. -/
theorem forall₂_parts (partition : List Nat) (keys : List (Nat × OrderKey)) (rows : List Row) :
    List.Forall₂ (fun part group => part ∈ parts partition keys rows ∧ (part.map (·.2)).Perm group)
      (parts partition keys rows) (Partition.ofRows partition rows) := by
  refine forall₂_of_mem ?_ fun part isPart _ isGroup => ⟨isPart, isGroup⟩
  rw [Partition.ofRows_eq_groupsOf, parts, List.forall₂_map_left_iff, List.forall₂_map_right_iff]
  exact List.forall₂_same.mpr fun group _ => (List.mergeSort_perm group _).map _

/-- The value in the row of a part to which a place points, if the rows that are meant are those of its
number. -/
theorem isValueAt_of_points (isPart : part ∈ parts partition keys rows) {group : List Nat}
    (isGroup : (part.map (·.2)).Perm group) (argument : Expr Nat) (meant : Nat → Prop)
    (target : Option Nat) (points : ∀ place, meant (place + 1) ↔ target = some place) :
    IsValueAt rows group argument (fun other => meant (number partition keys rows other))
      (((target.bind fun place => (part.map (·.1))[place]?).map argument.eval).getD .null) := by
  have isMeant {place : Nat} {other : Row × Nat} (there : part[place]? = some other) :
      meant (number partition keys rows other.2) ↔ target = some place := by
    rw [number_of_getElem? isPart there, points]
  cases stands : target.bind fun place => part[place]? with
  | some other =>
    obtain ⟨place, isTarget, there⟩ := Option.bind_eq_some_iff.mp stands
    have member := List.mem_of_getElem? there
    refine .inl ⟨other.2, isGroup.subset (List.mem_map_of_mem member), (isMeant there).mpr isTarget, ?_⟩
    rw [isTarget, Option.bind_some, List.getElem?_map, there, rowAt_of_mem_parts isPart member]
    rfl
  | none =>
    refine .inr ⟨fun other inGroup otherMeant => ?_, ?_⟩
    · obtain ⟨numbered, member, rfl⟩ := List.mem_map.mp (isGroup.symm.subset inGroup)
      obtain ⟨place, there⟩ := List.getElem?_of_mem member
      rw [(isMeant there).mp otherMeant, Option.bind_some, there] at stands
      cases stands
    · cases target with
      | none => rfl
      | some place =>
        rw [Option.bind_some] at stands
        rw [Option.bind_some, List.getElem?_map, stands]
        rfl

section Comparable

variable (comparable : ∀ key ∈ keys, ∀ a ∈ rows, ∀ b ∈ rows,
  (a.cell key.1).Comparable (b.cell key.1))

include comparable

/-- The rows of a part come one before another. -/
theorem pairwise_of_mem_parts (isPart : part ∈ parts partition keys rows) :
    part.Pairwise (Row.Before keys) := by
  obtain ⟨group, isGroup, rfl⟩ := List.mem_map.mp isPart
  have inOrder := sublist_of_mem_groupsOf isGroup
  exact Row.pairwise_sortRows comparable
    (fun _ member => List.fst_mem_of_mem_zipIdx (inOrder.subset member))
    ((pairwise_numbers_zipIdx rows).sublist inOrder)

/-- The rows of a group are numbered in their order. -/
theorem numbers_of_mem_parts (isPart : part ∈ parts partition keys rows) {group : List Nat}
    (isGroup : (part.map (·.2)).Perm group) :
    Numbers keys rows group (number partition keys rows) := by
  have preorder := Row.preorders_of_comparable comparable
  have ordered := pairwise_of_mem_parts comparable isPart
  refine ⟨?_, fun place inGroup other inGroup' => ?_⟩
  · have numbers : (part.map (·.2)).map (number partition keys rows) = List.range' 1 group.length := by
      refine List.ext_getElem? fun index => ?_
      rw [← isGroup.length_eq, List.length_map, List.getElem?_map, List.getElem?_map]
      cases here : part[index]? with
      | none =>
        have outside := List.getElem?_eq_none_iff.mp here
        exact (List.getElem?_eq_none (by rwa [List.length_range'])).symm
      | some numbered =>
        obtain ⟨inside, _⟩ := List.getElem?_eq_some_iff.mp here
        simp only [Option.map_some]
        rw [number_of_getElem? isPart here, List.getElem?_range' inside, Nat.one_mul, Nat.add_comm]
    rw [← numbers]
    exact (isGroup.map _).symm
  · obtain ⟨numbered, member, rfl⟩ := List.mem_map.mp (isGroup.symm.subset inGroup)
    obtain ⟨numbered', member', rfl⟩ := List.mem_map.mp (isGroup.symm.subset inGroup')
    obtain ⟨index, here⟩ := List.getElem?_of_mem member
    obtain ⟨index', there⟩ := List.getElem?_of_mem member'
    have isRow {numbered : Row × Nat} (member : numbered ∈ part) : numbered.1 ∈ rows :=
      mem_of_mem_parts isPart (List.mem_map_of_mem member)
    have before {i j : Nat} {a b : Row × Nat} (left : part[i]? = some a) (right : part[j]? = some b)
        (less : i < j) : Row.Before keys a b := by
      obtain ⟨inside, rfl⟩ := List.getElem?_eq_some_iff.mp left
      obtain ⟨inside', rfl⟩ := List.getElem?_eq_some_iff.mp right
      exact List.pairwise_iff_getElem.mp ordered i j inside inside' less
    rw [number_of_getElem? isPart here, number_of_getElem? isPart there,
      rowAt_of_mem_parts isPart member, rowAt_of_mem_parts isPart member', Nat.add_lt_add_iff_right]
    refine ⟨before here there, fun forward => ?_⟩
    rcases Nat.lt_trichotomy index index' with less | rfl | less
    · exact less
    · cases here.symm.trans there
      exact absurd forward (preorder.not_before (isRow member) (isRow member) forward)
    · exact absurd (before there here less)
        (preorder.not_before (isRow member) (isRow member') forward)

/-- A function gives every row of a part its value. -/
theorem gives_values (isPart : part ∈ parts partition keys rows) {group : List Nat}
    (isGroup : (part.map (·.2)).Perm group) (function : BoundWindow) {index : Nat}
    {numbered : Row × Nat} (here : part[index]? = some numbered) {cell : Cell}
    (value : (function.values keys (part.map (·.1)))[index]? = some cell) :
    function.Gives keys rows group (number partition keys rows) numbered.2 cell := by
  obtain ⟨inside, _⟩ := List.getElem?_eq_some_iff.mp here
  have inRange : (List.range (part.map (·.1)).length)[index]? = some index :=
    List.getElem?_range (by rwa [List.length_map])
  cases function with
  | rowNumber =>
    rw [values, List.getElem?_map, inRange, Option.map_some, Option.some.injEq] at value
    rw [Gives, number_of_getElem? isPart here, ← value]
    exact isNumber_numberCell _
  | rank =>
    have rowsOfPart : ∀ row ∈ part.map (·.1), row ∈ rows := fun _ => mem_of_mem_parts isPart
    have preorder : Row.Preorders keys (part.map (·.1)) := Row.preorders_of_comparable
      fun key isKey a left b right => comparable key isKey a (rowsOfPart a left) b (rowsOfPart b right)
    have sorted : (part.map (·.1)).Pairwise fun a b => Row.compare keys a b ≠ .gt := by
      refine List.pairwise_map.mpr ((pairwise_of_mem_parts comparable isPart).imp fun before => ?_)
      rcases before with less | ⟨tie, _⟩ <;> simp [*]
    have counted : countBelow keys (part.map (·.1)) numbered.1 = group.countP fun other =>
        Row.compare keys (rowAt rows other) (rowAt rows numbered.2) == .lt := by
      rw [← isGroup.countP_eq, countBelow, List.countP_map, List.countP_map,
        rowAt_of_mem_parts isPart (List.mem_of_getElem? here)]
      refine List.countP_congr fun other member => ?_
      rw [Function.comp_apply, Function.comp_apply, rowAt_of_mem_parts isPart member]
    rw [values, ranksFrom_one preorder sorted, List.getElem?_map, List.getElem?_map, List.getElem?_map,
      here, Option.map_some, Option.map_some, Option.map_some, Option.some.injEq, counted] at value
    rw [Gives, ← value]
    exact isNumber_numberCell _
  | lead argument offset =>
    rw [values, List.getElem?_map, inRange, Option.map_some, Option.some.injEq] at value
    rw [Gives, number_of_getElem? isPart here, ← value]
    refine isValueAt_of_points isPart isGroup argument (· = index + 1 + offset) (some (index + offset))
      fun place => ?_
    rw [Option.some.injEq]
    omega
  | lag argument offset =>
    rw [values, List.getElem?_map, inRange, Option.map_some, Option.some.injEq] at value
    rw [Gives, number_of_getElem? isPart here, ← value]
    by_cases enough : offset ≤ index
    · rw [if_pos enough]
      refine isValueAt_of_points isPart isGroup argument (· + offset = index + 1)
        (some (index - offset)) fun place => ?_
      rw [Option.some.injEq]
      omega
    · rw [if_neg enough]
      refine isValueAt_of_points isPart isGroup argument (· + offset = index + 1) none fun place => ?_
      simp only [reduceCtorEq, iff_false]
      omega

/-- Every row is in a group whose rows are numbered, and it has the value that the function gives it
there. -/
theorem gives_column (function : BoundWindow) {group : List Nat}
    (isGroup : group ∈ Partition.ofRows partition rows) :
    Numbers keys rows group (number partition keys rows) ∧
      ∀ place ∈ group, ∃ cell, (function.column partition keys rows)[place]? = some cell ∧
        function.Gives keys rows group (number partition keys rows) place cell := by
  obtain ⟨part, _, isPart, samePlaces⟩ :=
    exists_of_mem_right (forall₂_parts partition keys rows) isGroup
  refine ⟨numbers_of_mem_parts comparable isPart samePlaces, fun place inGroup => ?_⟩
  obtain ⟨numbered, member, rfl⟩ := List.mem_map.mp (samePlaces.symm.subset inGroup)
  obtain ⟨index, here⟩ := List.getElem?_of_mem member
  obtain ⟨inside, _⟩ := List.getElem?_eq_some_iff.mp here
  have inValues : index < (function.values keys (part.map (·.1))).length := by
    rwa [length_values, List.length_map]
  have value := List.getElem?_eq_getElem inValues
  have inAll := (flatten_parts_perm rows).subset (List.mem_flatten_of_mem isPart member)
  obtain ⟨inRows, _⟩ := List.getElem?_eq_some_iff.mp (List.mem_zipIdx_iff_getElem?.mp inAll)
  refine ⟨_, ?_, gives_values comparable isPart samePlaces function here value⟩
  rw [column, List.getElem?_map, List.getElem?_range inRows, placed_eq_scattered, Option.map_some,
    lookup_scattered function.length_values isPart here, value, Option.getD_some]

end Comparable

end BoundWindow

end TablePipeline
