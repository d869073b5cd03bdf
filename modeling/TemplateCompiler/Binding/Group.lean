import TemplateCompiler.Text.Blank
import TemplateCompiler.Text.Bytes
/-!
# Balanced braces

A group is a piece of text from an opening brace to the brace that closes it. Braces in strings and template
strings do not count, except around a substitution, and a character behind a backslash never does.
-/

namespace TemplateCompiler.Binding

open TemplateCompiler.Text

/-- What is open where a scan for the closing brace stands. -/
structure Nesting where
  /-- The number of open braces. -/
  depth : Nat
  /-- The quote that ends the open string. -/
  quote : Option Char
  /-- For each open template string, innermost first, the number of braces open around it. -/
  templates : List Nat
  /-- The last character was a backslash, and the next one stands for itself. -/
  escaped : Bool
  /-- The last character was a dollar sign in a template string. -/
  dollar : Bool
deriving DecidableEq

/-- Nothing is open. -/
def Nesting.outside : Nesting := ⟨0, none, [], false, false⟩

/-- The scan stands in the text of a template string, not in a substitution of one. -/
def Nesting.inTemplate (n : Nesting) : Bool :=
  n.templates.head? == some n.depth

/-- What a character does to a scan. -/
inductive Outcome where
  | inside (n : Nesting)
  | closed
  | unbalanced

/-- The scan behind the character `c`. -/
def Nesting.step (n : Nesting) (c : Char) : Outcome :=
  if n.escaped then .inside { n with escaped := false, dollar := false }
  else if c = '\\' then .inside { n with escaped := true, dollar := false }
  else
    match n.quote with
    | some q => .inside { n with quote := if c = q then none else some q }
    | none =>
      if n.inTemplate then
        if c = '`' then .inside { n with templates := n.templates.tail, dollar := false }
        else if c = '{' && n.dollar then .inside { n with depth := n.depth + 1, dollar := false }
        else .inside { n with dollar := c = '$' }
      else if c = '"' || c = '\'' then .inside { n with quote := some c }
      else if c = '`' then .inside { n with templates := n.depth :: n.templates }
      else if c = '{' then .inside { n with depth := n.depth + 1 }
      else if c = '}' then
        match n.depth with
        | 0 => .unbalanced
        | 1 => .closed
        | depth + 2 => .inside { n with depth := depth + 1 }
      else .inside n

/-- The rest of a group up to the brace that closes it, and what follows it. -/
def closeGroup? (n : Nesting) : List Char → Option (List Char × List Char)
  | [] => none
  | c :: cs =>
    match n.step c with
    | .inside n => (closeGroup? n cs).map fun (group, rest) => (c :: group, rest)
    | .closed => some ([c], cs)
    | .unbalanced => none

/-- The text up to the end of its first group, and what follows it. -/
def group? (cs : List Char) : Option (List Char × List Char) :=
  closeGroup? .outside cs

/-- A group and what follows it make up the text. -/
theorem closeGroup?_append {n : Nesting} {cs group rest : List Char}
    (h : closeGroup? n cs = some (group, rest)) : cs = group ++ rest ∧ group ≠ [] := by
  induction cs generalizing n group with
  | nil => simp [closeGroup?] at h
  | cons c cs ih =>
    rw [closeGroup?] at h
    split at h
    · obtain ⟨⟨g, r⟩, hg, he⟩ := Option.map_eq_some_iff.1 h
      simp only [Prod.mk.injEq] at he
      obtain ⟨rfl, rfl⟩ := he
      obtain ⟨rfl, -⟩ := ih hg
      simp
    · simp only [Option.some.injEq, Prod.mk.injEq] at h
      obtain ⟨rfl, rfl⟩ := h
      simp
    · simp at h

theorem group?_length_lt {cs group rest : List Char} (h : group? cs = some (group, rest)) :
    rest.length < cs.length := by
  obtain ⟨rfl, hg⟩ := closeGroup?_append h
  have := List.length_pos_iff.2 hg
  simp
  omega

/-- The byte offset behind the first group that opens at or after the byte `start`. -/
def groupEnd? (source : List Char) (start : Nat) : Option Nat :=
  match source with
  | [] => none
  | c :: cs =>
    if start = 0 then (group? (c :: cs)).map fun (group, _) => byteLength group
    else (groupEnd? cs (start - c.utf8Size)).map (· + c.utf8Size)

/-- The code between the braces of a value that is one group and nothing else, blanks around it aside. -/
def bindingCode? (value : String) : Option (List Char) :=
  match trim value.toList with
  | '{' :: cs =>
    match group? ('{' :: cs) with
    | some (_, []) => some cs.dropLast
    | _ => none
  | _ => none

/-- Whether a value is a binding as a whole. -/
def isBinding (value : String) : Bool :=
  (bindingCode? value).isSome

end TemplateCompiler.Binding
