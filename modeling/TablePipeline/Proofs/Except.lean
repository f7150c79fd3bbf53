import Mathlib.Data.List.Forall2

/-! # Results that may be errors

A computation in several parts gives a value exactly when each part does. The lemmas below take such
computations apart.
-/

namespace TablePipeline

variable {α β ε ζ : Type}

@[simp]
theorem ok_bind (value : α) (next : α → Except ε β) : (Except.ok value >>= next) = next value :=
  rfl

@[simp]
theorem error_bind (error : ε) (next : α → Except ε β) :
    (Except.error error >>= next) = .error error :=
  rfl

@[simp]
theorem throw_bind (error : ε) (next : α → Except ε β) :
    ((throw error : Except ε α) >>= next) = throw error :=
  rfl

theorem bind_eq_ok {first : Except ε α} {next : α → Except ε β} {result : β} :
    (first >>= next) = .ok result ↔ ∃ value, first = .ok value ∧ next value = .ok result := by
  cases first <;> simp

/-- A computation in two parts fails in the first part or in the second. -/
theorem bind_eq_error {first : Except ε α} {next : α → Except ε β} {error : ε} :
    (first >>= next) = .error error ↔
      first = .error error ∨ ∃ value, first = .ok value ∧ next value = .error error := by
  cases first <;> simp

@[simp]
theorem pure_eq_ok {value result : α} :
    (pure value : Except ε α) = .ok result ↔ value = result := by
  simp [pure, Except.pure]

@[simp]
theorem throw_eq_ok {error : ε} {result : α} : (throw error : Except ε α) = .ok result ↔ False := by
  simp [throw, throwThe, MonadExceptOf.throw]

@[simp]
theorem mapError_eq_ok {first : Except ε α} {change : ε → ζ} {result : α} :
    first.mapError change = .ok result ↔ first = .ok result := by
  cases first <;> simp [Except.mapError]

theorem mapError_eq_error {first : Except ε α} {change : ε → ζ} {result : ζ} :
    first.mapError change = .error result ↔ ∃ error, first = .error error ∧ change error = result := by
  cases first <;> simp [Except.mapError]

/-- A check in front of a computation. -/
@[simp]
theorem guard_eq_ok {refused : Prop} [Decidable refused] {error : ε} {next : Except ε α}
    {result : α} :
    (if refused then (throw error : Except ε α) else next) = .ok result ↔
      ¬ refused ∧ next = .ok result := by
  split <;> simp [*]

/-- A list is computed exactly when each of its elements is. -/
theorem mapM_eq_ok {f : α → Except ε β} {items : List α} {results : List β} :
    items.mapM f = .ok results ↔ List.Forall₂ (fun item result => f item = .ok result) items results
      := by
  induction items generalizing results with
  | nil => cases results <;> simp
  | cons item rest ih =>
    simp only [List.mapM_cons, bind_eq_ok, pure_eq_ok, List.forall₂_cons_left_iff, ih]
    constructor
    · rintro ⟨first, computed, others, all, rfl⟩
      exact ⟨first, others, computed, all, rfl⟩
    · rintro ⟨first, others, computed, all, rfl⟩
      exact ⟨first, computed, others, all, rfl⟩

/-- A list has results exactly when each of its elements has one. -/
theorem mapM_eq_some {f : α → Option β} {items : List α} {results : List β} :
    items.mapM f = some results ↔ List.Forall₂ (fun item result => f item = some result) items
      results := by
  induction items generalizing results with
  | nil => cases results <;> simp
  | cons item rest ih =>
    simp only [List.mapM_cons, Option.bind_eq_bind, Option.bind_eq_some_iff, Option.pure_def,
      Option.some.injEq, List.forall₂_cons_left_iff, ih]
    constructor
    · rintro ⟨first, found, others, all, rfl⟩
      exact ⟨first, others, found, all, rfl⟩
    · rintro ⟨first, others, found, all, rfl⟩
      exact ⟨first, found, others, all, rfl⟩

/-- A list can be computed where each of its elements can. -/
theorem exists_mapM {f : α → Except ε β} {items : List α}
    (each : ∀ item ∈ items, ∃ result, f item = .ok result) :
    ∃ results, items.mapM f = .ok results := by
  simp only [mapM_eq_ok]
  induction items with
  | nil => exact ⟨[], .nil⟩
  | cons item rest ih =>
    obtain ⟨first, computed⟩ := each item (List.mem_cons_self ..)
    obtain ⟨others, all⟩ := ih fun other member => each other (List.mem_cons_of_mem _ member)
    exact ⟨first :: others, .cons computed all⟩

/-- What stands at a place of one list is related to what stands there in the other. -/
theorem exists_getElem?_of_forall₂ {related : α → β → Prop} {items : List α} {others : List β}
    (all : List.Forall₂ related items others) {place : Nat} {item : α}
    (here : items[place]? = some item) :
    ∃ other, others[place]? = some other ∧ related item other := by
  obtain ⟨inside, rfl⟩ := List.getElem?_eq_some_iff.mp here
  have bound : place < others.length := all.length_eq ▸ inside
  exact ⟨others[place], List.getElem?_eq_getElem bound, all.get inside bound⟩

/-- Positions inside a list have elements, which are found in their order. -/
theorem forall₂_filterMap_getElem? {items : List α} {positions : List Nat}
    (inside : ∀ position ∈ positions, position < items.length) :
    List.Forall₂ (fun item position => items[position]? = some item)
      (positions.filterMap (items[·]?)) positions := by
  induction positions with
  | nil => exact .nil
  | cons position rest ih =>
    obtain ⟨here, others⟩ := List.forall_mem_cons.mp inside
    rw [List.filterMap_cons_some (List.getElem?_eq_getElem here)]
    exact .cons (List.getElem?_eq_getElem here) (ih others)

/-- A computation in two parts gives a value, or it fails in a way in which a part may fail. -/
theorem bind_ok_or {ι : Type} {fault : ι → ε} {first : Except ε α} {next : α → Except ε β}
    (start : (∃ value, first = .ok value) ∨ ∃ cause, first = .error (fault cause))
    (rest : ∀ value, first = .ok value →
      (∃ result, next value = .ok result) ∨ ∃ cause, next value = .error (fault cause)) :
    (∃ result, (first >>= next) = .ok result) ∨ ∃ cause, (first >>= next) = .error (fault cause)
      := by
  rcases start with ⟨value, computed⟩ | ⟨cause, failed⟩
  · rw [computed, ok_bind]
    exact rest value computed
  · exact .inr ⟨cause, by rw [failed]; rfl⟩

/-- A list is computed, or it fails in a way in which one of its elements may fail. -/
theorem mapM_ok_or {ι : Type} {fault : ι → ε} {f : α → Except ε β} {items : List α}
    (each : ∀ item ∈ items,
      (∃ result, f item = .ok result) ∨ ∃ cause, f item = .error (fault cause)) :
    (∃ results, items.mapM f = .ok results) ∨ ∃ cause, items.mapM f = .error (fault cause) := by
  induction items with
  | nil => exact .inl ⟨[], rfl⟩
  | cons item rest ih =>
    rw [List.mapM_cons]
    refine bind_ok_or (each item (List.mem_cons_self ..)) fun first _ => ?_
    refine bind_ok_or (ih fun other member => each other (List.mem_cons_of_mem _ member)) ?_
    exact fun others _ => .inl ⟨first :: others, rfl⟩

/-- What fails in a list fails for one of its elements. -/
theorem exists_of_mapM_eq_error {f : α → Except ε β} {items : List α} {error : ε}
    (failed : items.mapM f = .error error) : ∃ item ∈ items, f item = .error error := by
  induction items with
  | nil => cases failed
  | cons item rest ih =>
    rw [List.mapM_cons] at failed
    rcases bind_eq_error.mp failed with first | ⟨_, _, failed⟩
    · exact ⟨item, List.mem_cons_self .., first⟩
    · rcases bind_eq_error.mp failed with others | ⟨_, _, none⟩
      · obtain ⟨other, member, fails⟩ := ih others
        exact ⟨other, List.mem_cons_of_mem _ member, fails⟩
      · cases none

/-- Every result of a list that was computed is that of some element. -/
theorem exists_of_mem_right {related : α → β → Prop} {items : List α} {results : List β}
    (each : List.Forall₂ related items results) {result : β} (member : result ∈ results) :
    ∃ item ∈ items, related item result := by
  induction each with
  | nil => cases member
  | cons first _ ih =>
    rcases List.mem_cons.mp member with rfl | member
    · exact ⟨_, List.mem_cons_self .., first⟩
    · obtain ⟨item, isItem, holds⟩ := ih member
      exact ⟨item, List.mem_cons_of_mem _ isItem, holds⟩

/-- Every element of a list that was computed has a result. -/
theorem exists_of_mem_left {related : α → β → Prop} {items : List α} {results : List β}
    (each : List.Forall₂ related items results) {item : α} (member : item ∈ items) :
    ∃ result ∈ results, related item result := by
  obtain ⟨result, isResult, holds⟩ := exists_of_mem_right each.flip member
  exact ⟨result, isResult, holds⟩

/-- What follows for each element of a list and its result follows for all of them. -/
theorem forall₂_of_mem {related entailed : α → β → Prop} {items : List α} {results : List β}
    (each : List.Forall₂ related items results)
    (follows : ∀ item ∈ items, ∀ result, related item result → entailed item result) :
    List.Forall₂ entailed items results := by
  induction each with
  | nil => exact .nil
  | cons first _ ih =>
    exact .cons (follows _ (List.mem_cons_self ..) _ first)
      (ih fun item member => follows item (List.mem_cons_of_mem _ member))

end TablePipeline
