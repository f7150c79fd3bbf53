import TablePipeline.Cell.Basic

/-! # Groups of rows

Items that carry a key fall into groups of the same key. Groups come in the order of their first
items, and items keep their order inside a group.
-/

namespace TablePipeline

/-- The groups of items whose keys are the same. -/
def groupsOf (key : α → Row) : List α → List (List α)
  | [] => []
  | item :: rest =>
    (item :: rest.filter fun other => (key other).same (key item)) ::
      groupsOf key (rest.filter fun other => !(key other).same (key item))
termination_by items => items.length
decreasing_by
  simpa [Nat.lt_succ_iff] using List.length_filter_le _ rest.attach

end TablePipeline
