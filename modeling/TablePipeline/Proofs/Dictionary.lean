import TablePipeline.Dictionary

/-! # The keys of dictionaries, and the order of names

A key keeps its place when its value is replaced, and no key comes twice. A dictionary that is filled
by name keeps its entries in the order of their names, so it is determined by what it finds: it does
not matter in which order it was filled.
-/

namespace TablePipeline

namespace Dictionary

/-! ## Keys -/

section Keys

variable {κ ν : Type} [DecidableEq κ]

/-- The keys are those that are found. -/
theorem mem_keys {dictionary : Dictionary κ ν} {key : κ} :
    key ∈ dictionary.keys ↔ ∃ value, dictionary.find? key = some value := by
  rw [← Option.isSome_iff_exists, find?_isSome, contains, List.any_eq_true, keys, List.mem_map]
  simp only [decide_eq_true_eq]

/-- The keys after an entry was made: the old ones, and behind them a new one. -/
theorem keys_insert (dictionary : Dictionary κ ν) (key : κ) (value : ν) :
    (dictionary.insert key value).keys =
      if key ∈ dictionary.keys then dictionary.keys else dictionary.keys ++ [key] := by
  obtain ⟨entries⟩ := dictionary
  simp only [insert, keys]
  induction entries with
  | nil => rfl
  | cons entry rest ih =>
    rw [insertEntry]
    by_cases same : entry.1 = key
    · simp [same]
    · rw [if_neg same, List.map_cons, ih]
      by_cases later : key ∈ rest.map (·.1)
      · simp [later]
      · simp [later, Ne.symm same]

theorem nodup_keys_insert {dictionary : Dictionary κ ν} (distinct : dictionary.keys.Nodup)
    (key : κ) (value : ν) : (dictionary.insert key value).keys.Nodup := by
  rw [keys_insert]
  split
  · exact distinct
  · rename_i new
    refine List.nodup_append.mpr ⟨distinct, List.pairwise_singleton .., ?_⟩
    rintro old member _ (_ | ⟨_, ⟨⟩⟩) rfl
    exact new member

theorem nodup_keys_erase {dictionary : Dictionary κ ν} (distinct : dictionary.keys.Nodup)
    (key : κ) : (dictionary.erase key).keys.Nodup :=
  distinct.sublist (List.filter_sublist.map _)

end Keys

/-! ## The order of names -/

variable {ν : Type}

/-- Are the entries in the order of their names? -/
def Sorted (dictionary : Dictionary String ν) : Prop :=
  dictionary.entries.Pairwise fun entry other => entry.1 < other.1

theorem find?_insertNamed (dictionary : Dictionary String ν) (name other : String) (value : ν) :
    (dictionary.insertNamed name value).find? other =
      if other = name then some value else dictionary.find? other := by
  obtain ⟨entries⟩ := dictionary
  simp only [insertNamed, find?]
  have first (entries : List (String × ν)) :
      (((name, value) :: entries).find? (·.1 = other)).map (·.2) =
        if other = name then some value else (entries.find? (·.1 = other)).map (·.2) := by
    by_cases same : other = name
    · simp [same]
    · simp [same, Ne.symm same]
  induction entries with
  | nil => exact first []
  | cons entry rest ih =>
    rw [insertNamedEntry]
    split
    · rename_i replaced
      rw [first, List.find?_cons]
      by_cases same : other = name
      · simp [same]
      · simp [same, replaced, Ne.symm same]
    · split
      · exact first _
      · rename_i different _
        by_cases found : entry.1 = other
        · have notInserted : other ≠ name := fun same => different (found.trans same)
          simp [found, notInserted]
        · simpa [found] using ih

theorem mem_insertNamedEntry {name : String} {value : ν} {entries : List (String × ν)}
    {entry : String × ν} (member : entry ∈ insertNamedEntry name value entries) :
    entry = (name, value) ∨ entry ∈ entries := by
  induction entries with
  | nil => exact .inl (List.mem_singleton.mp member)
  | cons head rest ih =>
    rw [insertNamedEntry] at member
    split at member
    · exact (List.mem_cons.mp member).imp_right (List.mem_cons_of_mem _)
    · split at member
      · exact List.mem_cons.mp member
      · rcases List.mem_cons.mp member with rfl | member
        · exact .inr (List.mem_cons_self ..)
        · exact (ih member).imp_right (List.mem_cons_of_mem _)

/-- What is found is an entry. -/
theorem mem_of_find? {dictionary : Dictionary String ν} {name : String} {value : ν}
    (found : dictionary.find? name = some value) : (name, value) ∈ dictionary.entries := by
  rw [find?, Option.map_eq_some_iff] at found
  obtain ⟨entry, isFirst, rfl⟩ := found
  have named : entry.1 = name := by simpa using List.find?_some isFirst
  exact named ▸ List.mem_of_find?_eq_some isFirst

/-- A dictionary in the order of its names stays so when a name gets a value. -/
theorem Sorted.insertNamed {dictionary : Dictionary String ν} (sorted : dictionary.Sorted)
    (name : String) (value : ν) : (dictionary.insertNamed name value).Sorted := by
  obtain ⟨entries⟩ := dictionary
  simp only [Sorted, Dictionary.insertNamed] at sorted ⊢
  induction entries with
  | nil => exact List.pairwise_singleton _ _
  | cons head rest ih =>
    obtain ⟨least, sorted⟩ := List.pairwise_cons.mp sorted
    rw [insertNamedEntry]
    split
    · rename_i same
      exact List.pairwise_cons.mpr ⟨fun entry member => same ▸ least entry member, sorted⟩
    · rename_i different
      split
      · rename_i before
        refine List.pairwise_cons.mpr ⟨List.forall_mem_cons.mpr ⟨before, ?_⟩,
          List.pairwise_cons.mpr ⟨least, sorted⟩⟩
        exact fun entry member => String.lt_trans before (least entry member)
      · rename_i notBefore
        have after : head.1 < name := by
          refine String.not_le.mp fun le => different ?_
          exact String.le_antisymm (String.not_lt.mp notBefore) le
        refine List.pairwise_cons.mpr ⟨fun entry member => ?_, ih sorted⟩
        rcases mem_insertNamedEntry member with rfl | member
        · exact after
        · exact least entry member

private theorem find?_eq_none_of_lt {name : String} {entries : List (String × ν)}
    (after : ∀ entry ∈ entries, name < entry.1) :
    (Dictionary.mk entries).find? name = none := by
  rw [find?, Option.map_eq_none_iff, List.find?_eq_none]
  intro entry member same
  exact String.lt_irrefl _ (of_decide_eq_true same ▸ after entry member)

private theorem find?_head (entry : String × ν) (rest : List (String × ν)) :
    (Dictionary.mk (entry :: rest)).find? entry.1 = some entry.2 := by
  simp [find?]

/-- A name that is found does not come before the first of all names. -/
private theorem head_not_lt {first first' : String × ν} {rest rest' : List (String × ν)}
    (least : ∀ entry ∈ rest', first'.1 < entry.1)
    (same : (Dictionary.mk (first :: rest)).find? first.1 =
      (Dictionary.mk (first' :: rest')).find? first.1) : ¬ first.1 < first'.1 := by
  intro before
  have after : ∀ entry ∈ first' :: rest', first.1 < entry.1 :=
    List.forall_mem_cons.mpr
      ⟨before, fun entry member => String.lt_trans before (least entry member)⟩
  rw [find?_head, find?_eq_none_of_lt after] at same
  cases same

/-- Dictionaries in the order of their names that find the same are the same. -/
theorem Sorted.ext {dictionary other : Dictionary String ν} (sorted : dictionary.Sorted)
    (sorted' : other.Sorted) (same : ∀ name, dictionary.find? name = other.find? name) :
    dictionary = other := by
  obtain ⟨entries⟩ := dictionary
  obtain ⟨others⟩ := other
  refine congrArg Dictionary.mk ?_
  simp only [Sorted] at sorted sorted'
  induction entries generalizing others with
  | nil =>
    cases others with
    | nil => rfl
    | cons first rest =>
      have found := same first.1
      rw [find?_head] at found
      cases found
  | cons first rest ih =>
    cases others with
    | nil =>
      have found := same first.1
      rw [find?_head] at found
      cases found
    | cons first' rest' =>
      obtain ⟨least, sorted⟩ := List.pairwise_cons.mp sorted
      obtain ⟨least', sorted'⟩ := List.pairwise_cons.mp sorted'
      have names : first.1 = first'.1 :=
        String.le_antisymm (String.not_lt.mp (head_not_lt least (same first'.1).symm))
          (String.not_lt.mp (head_not_lt least' (same first.1)))
      have values : first.2 = first'.2 := by
        have found := same first.1
        rw [find?_head, names, find?_head, Option.some.injEq] at found
        exact found
      rw [Prod.ext names values, ih sorted rest' sorted']
      -- the first name is missing in both rests, and any other is found behind it
      intro name
      by_cases here : name = first.1
      · rw [find?_eq_none_of_lt fun entry member => here ▸ least entry member,
          find?_eq_none_of_lt fun entry member => here ▸ names ▸ least' entry member]
      · have there := same name
        rw [find?, find?, List.find?_cons_of_neg (by simpa using Ne.symm here),
          List.find?_cons_of_neg (by simpa [← names] using Ne.symm here)] at there
        exact there

end Dictionary

end TablePipeline
