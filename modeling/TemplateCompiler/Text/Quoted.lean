import TemplateCompiler.Text.Hex
/-!
# Quoted strings

A string in double quotes, as JSON and JavaScript both read it. Quotes, backslashes and control characters
are escaped, all else stands for itself.
-/

namespace TemplateCompiler.Text

/-- A character as it is written between quotes. -/
def escapeChar (c : Char) : List Char :=
  if c = '"' then ['\\', '"']
  else if c = '\\' then ['\\', '\\']
  else if c = '\n' then ['\\', 'n']
  else if c = '\r' then ['\\', 'r']
  else if c = '\t' then ['\\', 't']
  else if c.toNat = 8 then ['\\', 'b']
  else if c.toNat = 12 then ['\\', 'f']
  else if c.toNat < 32 then ['\\', 'u', '0', '0', hexDigit (c.toNat / 16), hexDigit (c.toNat % 16)]
  else [c]

/-- The characters of `cs` in double quotes. -/
def quoteChars (cs : List Char) : List Char :=
  '"' :: cs.flatMap escapeChar ++ ['"']

/-- `s` in double quotes. -/
def quote (s : String) : String :=
  String.ofList (quoteChars s.toList)

end TemplateCompiler.Text
