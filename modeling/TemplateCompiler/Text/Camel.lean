import TemplateCompiler.Text.UpperCaseTable
/-!
# Camel case

A hyphenated name becomes one word: each hyphen goes, and the character after it turns to upper case.
-/

namespace TemplateCompiler.Text

/-- The upper-case form of a character: a sequence, since some characters have no single one. -/
def upperCase (c : Char) : List Char :=
  if c.toNat < 128 then [c.toUpper]
  else
    match upperCaseSequences.lookup c.toNat with
    | some codes => codes.map Char.ofNat
    | none =>
      match upperCaseRuns.find? fun run =>
          run.first ≤ c.toNat && c.toNat ≤ run.last && (c.toNat - run.first) % run.step == 0 with
      | some run => [Char.ofNat (run.target + (c.toNat - run.first))]
      | none => [c]

/-- The camel-case form of `cs`; `raise` says that a hyphen stands before it. -/
def camelChars (raise : Bool) : List Char → List Char
  | [] => []
  | c :: cs =>
    if c = '-' then camelChars true cs
    else (if raise then upperCase c else [c]) ++ camelChars false cs

/-- The camel-case form of a hyphenated name. -/
def camelCase (name : String) : String :=
  String.ofList (camelChars false name.toList)

end TemplateCompiler.Text
