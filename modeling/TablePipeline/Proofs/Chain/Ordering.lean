import TablePipeline.Proofs.Chain.Steps
import TablePipeline.Proofs.Rows.Ordering

/-! # The rows after an ordering

The key cells of rows that a schema admits compare, whatever their directions and wherever nulls go.
An ordering therefore gives the rows in the one order that its keys and the rows themselves decide.
-/

namespace TablePipeline

namespace Schema

variable {schema : Schema} {rows : List Row}

/-- Bound keys are the keys, each with the position of its column. -/
theorem forall₂_orderKeys {keys : List OrderKey} {bound : List (Nat × OrderKey)}
    (resolved : schema.orderKeys keys = .ok bound) :
    List.Forall₂ (fun key entry => schema.position? key.column = some entry.1 ∧ entry.2 = key) keys
      bound := by
  simp only [orderKeys, positions, bind_eq_ok, mapError_eq_ok, mapM_eq_ok, resolve_eq_ok,
    List.forall₂_map_left_iff, pure_eq_ok] at resolved
  obtain ⟨positions, each, rfl⟩ := resolved
  induction each with
  | nil => exact .nil
  | cons first _ ih => exact .cons ⟨first, rfl⟩ ih

/-- The cells of a bound key compare in rows that the schema admits. -/
theorem comparable_of_orderKeys {keys : List OrderKey} {bound : List (Nat × OrderKey)}
    (resolved : schema.orderKeys keys = .ok bound) (admitted : ∀ row ∈ rows, schema.Admits row) :
    ∀ key ∈ bound, ∀ a ∈ rows, ∀ b ∈ rows, (a.cell key.1).Comparable (b.cell key.1) := by
  intro key member a left b right
  obtain ⟨_, _, placed, _⟩ := exists_of_mem_right (forall₂_orderKeys resolved) member
  obtain ⟨inside, _⟩ := List.findIdx?_eq_some_iff_getElem.mp placed
  have here := List.getElem?_eq_getElem inside
  exact ((admitted a left).cell here).comparable ((admitted b right).cell here)

end Schema

namespace Verb

variable {before after : Signature} {keys : List OrderKey} {rows : List Row}

/-- An ordering that is checked sorts all rows of its schema in the one way that its keys decide, and
leaves tied rows as they were. Its keys put nulls at the ends that they name, in both directions; what is
no number is above all numbers, and the two zeros tie. -/
theorem rows_of_orderBy (applied : before.apply (.orderBy keys) = .ok after)
    (admitted : ∀ row ∈ rows, before.schema.Admits row) :
    ∃ bound sorted, List.Forall₂ (fun key entry =>
        before.schema.position? key.column = some entry.1 ∧ entry.2 = key) keys bound ∧
      (orderBy keys).rows before after.schema rows = .ok sorted ∧
      Row.Preorders bound rows ∧ SortsStably bound rows sorted ∧
      (∀ (key : OrderKey) (a b : Cell), key.reversed.compare a b =
        if a.isNull || b.isNull then key.compare a b else (key.compare a b).swap) ∧
      (∀ value : Float, value.isNaN = true →
        (∀ number, (Cell.float value).order? (.int number) = some .gt) ∧
          ∀ other, other.isNaN = false → (Cell.float value).order? (.float other) = some .gt) ∧
      (Cell.float (-0.0)).order? (.float 0.0) = some .eq := by
  obtain ⟨_, _, ⟨positions, known⟩, _⟩ := Signature.apply_orderBy.mp applied
  obtain ⟨bound, resolved⟩ : ∃ bound, before.schema.orderKeys keys = .ok bound := by
    have placed : before.schema.positions .orderBy (keys.map (·.column)) = .ok positions := by
      rw [Schema.positions, mapError_eq_ok, mapM_eq_ok, List.forall₂_map_left_iff]
      exact mapM_eq_ok.mp known
    exact ⟨_, by rw [Schema.orderKeys, placed]; rfl⟩
  have comparable := Schema.comparable_of_orderKeys resolved admitted
  refine ⟨bound, sortRows bound id rows, Schema.forall₂_orderKeys resolved, ?_,
    Row.preorders_of_comparable comparable, sortsStably_sortRows comparable,
    OrderKey.compare_reversed, fun _ => Cell.order?_of_isNaN, by decide +kernel⟩
  rw [Verb.rows, resolved]
  rfl

/-- Levels at stations, some of them not measured. -/
def levels : Schema :=
  ⟨[⟨"station", .text, false⟩, ⟨"level", .float, true⟩], [], []⟩

/-- The unknown levels first, then the highest; at one level by station. -/
def byLevel : List OrderKey :=
  [⟨"level", true, .first⟩, ⟨"station", false, .last⟩]

/-- Levels that tie as zeros do, an integer among doubles, a level that is no number, and an unknown
one. -/
def levelRows : List Row :=
  [[.text "north", .float (-0.0)], [.text "west", .int 3], [.text "east", .null],
    [.text "south", .float .nan], [.text "north", .float 0.0]]

/-- The levels are sorted, and the two of the north stay as they are. -/
theorem rows_levels :
    (Signature.ofSource "levels" levels).apply (.orderBy byLevel) =
        .ok (Signature.ofSource "levels" levels) ∧
      (∀ row ∈ levelRows, levels.Admits row) ∧
      ∃ bound sorted, (orderBy byLevel).rows (.ofSource "levels" levels) levels levelRows = .ok sorted ∧
        Row.Preorders bound levelRows ∧ SortsStably bound levelRows sorted := by
  have applied : (Signature.ofSource "levels" levels).apply (.orderBy byLevel) =
      .ok (Signature.ofSource "levels" levels) := rfl
  have admitted : ∀ row ∈ levelRows, levels.Admits row := by
    simp [levelRows, levels, Schema.Admits, Column.Admits]
  obtain ⟨bound, sorted, _, computed, preorder, stable, _⟩ := rows_of_orderBy applied admitted
  exact ⟨applied, admitted, bound, sorted, computed, preorder, stable⟩

end Verb

end TablePipeline
