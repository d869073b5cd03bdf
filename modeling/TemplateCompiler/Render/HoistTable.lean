/-!
# Hoisted declarations

What a render function needs again and again is declared once, beside it. Equal contents share one declaration, and
the declarations stand in the order of their first uses.
-/

namespace TemplateCompiler.Render

/-- What is declared. -/
inductive HoistKind where
  /-- A literal. -/
  | object
  /-- The markup of a fragment. -/
  | fragment
deriving DecidableEq, Repr

/-- A declaration. -/
structure Hoist where
  kind : HoistKind
  /-- The text of the literal, or the markup. -/
  content : String
  name : String
deriving DecidableEq, Repr

/-- The declarations of a module, in order, with a counter for each kind. -/
structure HoistTable where
  entries : List Hoist := []
  objects : Nat := 0
  fragments : Nat := 0
deriving DecidableEq, Repr

namespace HoistTable

/-- The declaration of a content. -/
def find? (table : HoistTable) (kind : HoistKind) (content : String) : Option Hoist :=
  table.entries.find? fun h => h.kind == kind && h.content == content

/-- The name of the next declaration of a kind. Literals are counted from zero, and fragments from one. -/
def nextName (table : HoistTable) : HoistKind → String
  | .object => "stc" ++ toString table.objects
  | .fragment => "$fragment" ++ toString (table.fragments + 1)

/-- The name that a content is declared under, which may be a new one. -/
def nameFor (table : HoistTable) (kind : HoistKind) (content : String) : String :=
  match table.find? kind content with
  | some h => h.name
  | none => table.nextName kind

/-- The table with one more declaration. -/
def declare (table : HoistTable) (kind : HoistKind) (content : String) : HoistTable :=
  let entries := table.entries ++ [⟨kind, content, table.nextName kind⟩]
  match kind with
  | .object => { table with entries, objects := table.objects + 1 }
  | .fragment => { table with entries, fragments := table.fragments + 1 }

@[simp] theorem entries_declare (table : HoistTable) (kind : HoistKind) (content : String) :
    (table.declare kind content).entries = table.entries ++ [⟨kind, content, table.nextName kind⟩] := by
  cases kind <;> rfl

/-- The table with a declaration of a content. -/
def insert (table : HoistTable) (kind : HoistKind) (content : String) : HoistTable :=
  if (table.find? kind content).isSome then table else table.declare kind content

/-- Whether a fragment is declared. -/
def hasFragments (table : HoistTable) : Bool :=
  decide (0 < table.fragments)

end HoistTable

end TemplateCompiler.Render
