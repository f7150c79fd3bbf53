/-! # Dictionaries

A finite map as the list of its entries, oldest first, with at most one entry a key. An entry keeps
its place when its value is replaced.
-/

namespace TablePipeline

/-- The entries of a finite map. -/
structure Dictionary (κ ν : Type) where
  entries : List (κ × ν) := []
deriving DecidableEq, Repr

namespace Dictionary

variable {κ ν : Type} [DecidableEq κ]

instance : Inhabited (Dictionary κ ν) := ⟨{}⟩

/-- The value of a key. -/
def find? (dictionary : Dictionary κ ν) (key : κ) : Option ν :=
  (dictionary.entries.find? (·.1 = key)).map (·.2)

/-- Does the key have a value? -/
def contains (dictionary : Dictionary κ ν) (key : κ) : Bool :=
  dictionary.entries.any (·.1 = key)

/-- Replaces the entry of a key, or adds one at the end. -/
def insertEntry (key : κ) (value : ν) : List (κ × ν) → List (κ × ν)
  | [] => [(key, value)]
  | entry :: rest =>
    if entry.1 = key then (key, value) :: rest else entry :: insertEntry key value rest

/-- Gives the key a value, in its place if it has one and at the end if not. -/
def insert (dictionary : Dictionary κ ν) (key : κ) (value : ν) : Dictionary κ ν :=
  ⟨insertEntry key value dictionary.entries⟩

/-- Replaces the entry of a name, or adds one before the first greater name. -/
def insertNamedEntry (name : String) (value : ν) : List (String × ν) → List (String × ν)
  | [] => [(name, value)]
  | entry :: rest =>
    if entry.1 = name then (name, value) :: rest
    else if name < entry.1 then (name, value) :: entry :: rest
    else entry :: insertNamedEntry name value rest

/-- Gives a name a value, keeping the entries in the order of their names. -/
def insertNamed (dictionary : Dictionary String ν) (name : String) (value : ν) :
    Dictionary String ν :=
  ⟨insertNamedEntry name value dictionary.entries⟩

/-- Takes the key out. -/
def erase (dictionary : Dictionary κ ν) (key : κ) : Dictionary κ ν :=
  ⟨dictionary.entries.filter (·.1 ≠ key)⟩

/-- The number of keys. -/
def size (dictionary : Dictionary κ ν) : Nat :=
  dictionary.entries.length

/-- The keys, oldest first. -/
def keys (dictionary : Dictionary κ ν) : List κ :=
  dictionary.entries.map (·.1)

@[simp] theorem find?_empty (key : κ) : ({} : Dictionary κ ν).find? key = none := rfl

theorem find?_isSome (dictionary : Dictionary κ ν) (key : κ) :
    (dictionary.find? key).isSome = dictionary.contains key := by
  obtain ⟨entries⟩ := dictionary
  induction entries with
  | nil => rfl
  | cons entry rest ih =>
    by_cases head : entry.1 = key
    · simp [find?, contains, head]
    · simpa [find?, contains, head] using ih

theorem find?_insert (dictionary : Dictionary κ ν) (key other : κ) (value : ν) :
    (dictionary.insert key value).find? other =
      if other = key then some value else dictionary.find? other := by
  obtain ⟨entries⟩ := dictionary
  induction entries with
  | nil =>
    by_cases equal : other = key
    · simp [insert, insertEntry, find?, equal]
    · have : key ≠ other := fun h => equal h.symm
      simp [insert, insertEntry, find?, equal, this]
  | cons entry rest ih =>
    simp only [insert, find?] at ih ⊢
    by_cases head : entry.1 = key
    · by_cases equal : other = key
      · simp [insertEntry, head, equal]
      · have : key ≠ other := fun h => equal h.symm
        simp [insertEntry, head, equal, this]
    · by_cases found : entry.1 = other
      · have : other ≠ key := fun h => head (found.trans h)
        simp [insertEntry, found, this]
      · simpa [insertEntry, head, found] using ih

theorem find?_erase (dictionary : Dictionary κ ν) (key other : κ) :
    (dictionary.erase key).find? other = if other = key then none else dictionary.find? other := by
  obtain ⟨entries⟩ := dictionary
  induction entries with
  | nil => simp [erase, find?]
  | cons entry rest ih =>
    simp only [erase, find?] at ih ⊢
    by_cases head : entry.1 = key
    · by_cases equal : other = key
      · simp_all
      · have : key ≠ other := fun h => equal h.symm
        simpa [head, equal, this] using ih
    · by_cases found : entry.1 = other
      · have : other ≠ key := fun h => head (found.trans h)
        simp [found, this]
      · simpa [head, found] using ih

end Dictionary

end TablePipeline
