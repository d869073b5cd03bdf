import TemplateCompiler.Template.NodeTable
import TemplateCompiler.Template.Problem
/-!
# Drafts of a template

What a template has gathered while it is built, in document order: its nodes, its slots and its problems.
-/

namespace TemplateCompiler.Template

open Text (Position)

/-- A template in the making. -/
structure Draft where
  table : NodeTable := {}
  /-- The names of the slots, each with the place of the first slot of that name. -/
  slots : List (String × Position) := []
  diagnostics : List Diagnostic := []
deriving Repr

/-- A step in the making of a template. -/
abbrev Building := StateM Draft

namespace Building

/-- Notes diagnostics. -/
def note (diagnostics : List Diagnostic) : Building Unit :=
  modify fun draft => { draft with diagnostics := draft.diagnostics ++ diagnostics }

/-- Reports problems, all at one position. -/
def report (problems : List Problem) (position : Position) : Building Unit :=
  note (problems.map (·.diagnostic position))

/-- Gives a new node its number. -/
def allocate (parent : Option Nat) (label : String) (position : Position) : Building Nat :=
  modifyGet fun draft => (draft.table.size, { draft with table := draft.table.push ⟨parent, label, position⟩ })

/-- Declares a slot. Its name has to be new. -/
def declareSlot (name : String) (position : Position) : Building Unit := do
  match (← get).slots.lookup name with
  | some first => report [.duplicateSlot name first] position
  | none => modify fun draft => { draft with slots := draft.slots ++ [(name, position)] }

/-- Where the innermost iteration around a node stands. -/
def iterationAround (id : Nat) : Building (Option Position) := do
  let table := (← get).table
  return ((table.iteration? id).bind table.get?).map NodeEntry.position

end Building

end TemplateCompiler.Template
