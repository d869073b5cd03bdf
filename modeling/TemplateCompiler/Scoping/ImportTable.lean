import TemplateCompiler.Text.Camel
import TemplateCompiler.Text.Identifier
/-!
# Imports of components

Each custom element of a template is imported once, from the module that its tag names and under a name of its own.
-/

namespace TemplateCompiler.Scoping

open TemplateCompiler.Text

/-- An imported component. -/
structure Import where
  tag : String
  /-- The name of the component in the importing module. -/
  «local» : String
  /-- The module that it comes from. -/
  path : String
deriving DecidableEq, Repr

/-- The module of a component: what stands before the first hyphen is a folder of it. -/
def modulePath (tag : String) : String :=
  match tag.toList.dropWhile (· != '-') with
  | [] => tag
  | _ :: name => String.ofList (tag.toList.takeWhile (· != '-')) ++ "/" ++ camelCase (String.ofList name)

/-- The character that stands for `c` where a name has characters that no identifier has. -/
def identifierChar (c : Char) : Char :=
  if c.isAlphanum || c == '_' || c == '$' then c else '_'

/-- The name that the tag of a component suggests. -/
def suggestedName (tag : String) : String :=
  let name := "_" ++ camelCase tag
  if isIdentifierName name then name else String.ofList (name.toList.map identifierChar)

/-- A name that is not taken: `base`, or `base` with the least number behind it that makes it new. One of the
candidates is new, since there are more of them than taken names. -/
def freshName (base : String) (taken : List String) : String :=
  let numbered := (List.range taken.length).map fun n => base ++ toString (n + 1)
  ((base :: numbered).find? fun name => !taken.contains name).getD base

/-- The imported components, in the order of their first occurrences. -/
structure ImportTable where
  entries : List Import := []
deriving DecidableEq, Repr

namespace ImportTable

/-- The import of a tag. -/
def find? (table : ImportTable) (tag : String) : Option Import :=
  table.entries.find? (·.tag == tag)

/-- The name that the component of a tag is imported under. -/
def local? (table : ImportTable) (tag : String) : Option String :=
  (table.find? tag).map Import.local

/-- The import of a tag, made up if it is new. -/
def entryFor (table : ImportTable) (tag : String) : Import :=
  match table.find? tag with
  | some entry => entry
  | none => ⟨tag, freshName (suggestedName tag) (table.entries.map Import.local), modulePath tag⟩

/-- The table with an import of a tag. -/
def insert (table : ImportTable) (tag : String) : ImportTable :=
  if (table.find? tag).isSome then table else ⟨table.entries ++ [table.entryFor tag]⟩

/-- The table of the given tags. -/
def ofList (tags : List String) : ImportTable :=
  tags.foldl insert {}

end ImportTable

end TemplateCompiler.Scoping
