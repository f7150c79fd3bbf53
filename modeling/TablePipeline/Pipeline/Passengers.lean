import TablePipeline.Random.Generator
import TablePipeline.Table

/-! # Passengers and cabins

The tables that the bundled pipelines read. Their rows are drawn from a generator, so equal seeds
give equal tables.
-/

namespace TablePipeline.Passengers

/-- The columns of the passengers. Not every age is known. -/
def passengerSchema : Schema where
  columns := [⟨"pk", .int, false⟩, ⟨"class", .int, false⟩, ⟨"age", .float, true⟩,
    ⟨"fare", .float, false⟩]
  primaryKey := [0]

/-- The columns of the cabins. Not every surcharge is known. -/
def cabinSchema : Schema where
  columns := [⟨"pk", .int, false⟩, ⟨"deck", .int, false⟩, ⟨"surcharge", .float, true⟩]
  primaryKey := [0]

/-- An amount of money between two numbers of cents. -/
def money (low high : Int64) : Drawing Float := do
  return Number.toFloat (← Generator.between low high) / 100.0

/-- A value that is not known with the given probability. -/
def unlessUnknown (probability : Float) (value : Drawing Float) : Drawing Cell := do
  if ← Generator.chance probability then return .null
  return .float (← value)

/-- A passenger. The better the class, the higher the fare. -/
def passenger (key : Int64) : Drawing Row := do
  let travelClass ← Generator.between 1 3
  let age ← unlessUnknown 0.2 (Number.toFloat <$> Generator.between 1 80)
  let fare := (← money 500 5000) * Number.toFloat (4 - travelClass)
  return [.int key, .int travelClass, age, .float fare]

/-- A cabin of a passenger. -/
def cabin (key : Int64) : Drawing Row := do
  let deck ← Generator.between 1 7
  let surcharge ← unlessUnknown 0.1 (money 0 2500)
  return [.int key, .int deck, surcharge]

/-- The keys of some passengers. -/
def keys (count : Nat) : List Int64 :=
  (List.range count).map fun index => Int64.ofNat (index + 1)

/-- Keys of which each is kept as often as not. -/
def halfOf : List Int64 → Drawing (List Int64)
  | [] => return []
  | key :: rest => do
    let kept ← Generator.chance 0.5
    let others ← halfOf rest
    return if kept then key :: others else others

/-- A table of some passengers. -/
def passengers (count : Nat) : Drawing (Except TableError Table) := do
  return Table.ofRows "passengers" passengerSchema (← (keys count).mapM passenger)

/-- A table of the cabins of about half of the passengers, and of three more that nobody booked. -/
def cabins (count : Nat) : Drawing (Except TableError Table) := do
  let booked ← halfOf (keys count)
  let vacant := (keys (count + 3)).drop count
  return Table.ofRows "cabins" cabinSchema (← (booked ++ vacant).mapM cabin)

end TablePipeline.Passengers
