/-!
# Scoped ids

The ids that the literal attributes of a template name, numbered in the order of their first occurrence. An id and a
link to it share one entry.
-/

namespace TemplateCompiler.Scoping

/-- The ids of a template, in order of first occurrence and without repetition. -/
structure IdTable where
  ids : List String := []
deriving DecidableEq, Repr

namespace IdTable

/-- The table with the given id. -/
def insert (table : IdTable) (id : String) : IdTable :=
  if table.ids.contains id then table else ⟨table.ids ++ [id]⟩

/-- The number of an id. -/
def index? (table : IdTable) (id : String) : Option Nat :=
  table.ids.idxOf? id

/-- The table of the given ids. -/
def ofList (ids : List String) : IdTable :=
  ids.foldl insert {}

end IdTable

end TemplateCompiler.Scoping
