import TablePipeline.Proofs.Dictionary
import TablePipeline.Proofs.Run.Produced
import TablePipeline.Task.Query

/-! # Names that a query binds

A task that runs a query reads its inputs by position and hands them to the query by name. The names
are not among the fields of its fingerprint. So the fingerprint determines what the task gives only
among binding lists in which every name stands for the same input; two tasks that exchange their
names share a fingerprint and give different tables.
-/

namespace TablePipeline

section TransformTask

variable {name version : String} {backend : Backend} {query : Query} {bindings : List Binding}
  {task : Task}

end TransformTask

/-- A reference to a table that another task loads. -/
def loaded (name : String) : OutputRef :=
  ⟨⟨"load", name⟩, 0, name, .table⟩

end TablePipeline

