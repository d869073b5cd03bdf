import TemplateCompiler.Text.Position
/-!
# Table of nodes

The number of a node is its place in the table, which knows where the node stands and which node it stands in.
-/

namespace TemplateCompiler.Template

open Text (Position)

/-- What the table knows of a node. -/
structure NodeEntry where
  parent : Option Nat
  /-- A short description, such as `<li>`. -/
  label : String
  position : Position
deriving DecidableEq, Repr

/-- The nodes of a template, by their numbers. -/
structure NodeTable where
  entries : Array NodeEntry := #[]
deriving Repr

/-- The label of an iteration. -/
def iterationLabel : String := "for:each"

namespace NodeTable

/-- The number of nodes. -/
def size (table : NodeTable) : Nat := table.entries.size

/-- The table with a further node, whose number is the size of the table before. -/
def push (table : NodeTable) (entry : NodeEntry) : NodeTable :=
  ⟨table.entries.push entry⟩

/-- The node with the given number. -/
def get? (table : NodeTable) (id : Nat) : Option NodeEntry := table.entries[id]?

/-- The node that a node stands in. -/
def parent? (table : NodeTable) (id : Nat) : Option Nat :=
  (table.get? id).bind NodeEntry.parent

/-- The label of a node. -/
def label (table : NodeTable) (id : Nat) : String :=
  ((table.get? id).map NodeEntry.label).getD "<unknown>"

/-- The nodes that a node stands in, from the inside, at most `bound` of them. -/
def ancestorsWithin (table : NodeTable) : Nat → Nat → List Nat
  | 0, _ => []
  | bound + 1, id =>
    match table.parent? id with
    | none => []
    | some parent => parent :: table.ancestorsWithin bound parent

/-- The nodes that a node stands in, from the inside. Where no node stands in itself there is at most one for each
node of the table, and one that the table does not know. -/
def ancestors (table : NodeTable) (id : Nat) : List Nat :=
  table.ancestorsWithin (table.size + 1) id

/-- The innermost iteration that a node stands in. -/
def iteration? (table : NodeTable) (id : Nat) : Option Nat :=
  (table.ancestors id).find? (table.label · == iterationLabel)

end NodeTable

end TemplateCompiler.Template
