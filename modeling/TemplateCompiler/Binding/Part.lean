import TemplateCompiler.Binding.Group
import TemplateCompiler.Binding.Read
/-!
# Text with bindings

Text content is a sequence of literal runs and bindings. Every opening brace starts a binding.
-/

namespace TemplateCompiler.Binding

open TemplateCompiler.Text

/-- A piece of text content. -/
inductive TextPart where
  | literal (text : String)
  | expression (expr : Expr)
deriving Repr

/-- Whether a piece of text content is a binding. -/
def TextPart.isExpression : TextPart → Bool
  | .literal _ => false
  | .expression _ => true

/-- Why text content is refused. -/
inductive TextError where
  | unterminated
  | binding (error : BindingError)
deriving DecidableEq, Repr

/-- The message for the author of the template. -/
def TextError.message : TextError → String
  | .unterminated => "unterminated `\x7b` in text"
  | .binding error => error.message

/-- The code between the braces of a group. -/
def groupCode (group : List Char) : List Char :=
  (group.drop 1).dropLast

/-- The literal part that `run` is, unless it is empty. -/
def literalParts (run : List Char) : List TextPart :=
  if run.isEmpty then [] else [.literal (String.ofList run)]

/-- The parts of `cs`, which starts at the byte `offset`. An error comes with the offset of its brace. -/
def splitFrom (offset : Nat) (cs : List Char) : Except (Nat × TextError) (List TextPart) :=
  let run := cs.takeWhile (· != '{')
  let brace := offset + byteLength run
  match _h : cs.dropWhile (· != '{') with
  | [] => .ok (literalParts run)
  | open' :: inside =>
    match _hg : group? (open' :: inside) with
    | none => .error (brace, .unterminated)
    | some (group, rest) =>
      match readBinding (groupCode group) with
      | .error error => .error (brace, .binding error)
      | .ok expr =>
        match splitFrom (brace + byteLength group) rest with
        | .error error => .error error
        | .ok parts => .ok (literalParts run ++ .expression expr :: parts)
termination_by cs.length
decreasing_by
  have hlt := group?_length_lt _hg
  have hle := (List.dropWhile_sublist (· != '{') (l := cs)).length_le
  rw [_h] at hle
  omega

/-- The parts of a text. -/
def splitText (text : List Char) : Except (Nat × TextError) (List TextPart) :=
  splitFrom 0 text

end TemplateCompiler.Binding
