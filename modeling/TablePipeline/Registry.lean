import TablePipeline.Backend
import TablePipeline.Config

/-! # Registered backends

Settings choose backends by name. A backend that is registered under a name in use replaces the one
of that name, and goes to the end.
-/

namespace TablePipeline

/-- The backends that settings can choose, in the order of their registration. -/
structure Registry where
  backends : List Backend := []

namespace Registry

/-- The registry without backends. -/
def empty : Registry := {}

/-- The backends of all kinds under their usual names. -/
def usual : Registry where
  backends := BackendKind.all.map .ofKind

/-- Registers a backend in place of any other of its name. -/
def register (registry : Registry) (backend : Backend) : Registry where
  backends := registry.backends.filter (·.name ≠ backend.name) ++ [backend]

/-- The names of the backends. -/
def names (registry : Registry) : List String :=
  registry.backends.map (·.name)

/-- The backend of a name. -/
def get (registry : Registry) (name : String) : Except ConfigError Backend :=
  match registry.backends.find? (·.name = name) with
  | some backend => .ok backend
  | none => .error (.unknownBackend name)

/-- The backends that settings choose, in their order. -/
def select (registry : Registry) (config : RunConfig) : Except ConfigError (List Backend) :=
  config.backends.mapM registry.get

end Registry

end TablePipeline
