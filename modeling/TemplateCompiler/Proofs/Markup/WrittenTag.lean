import TemplateCompiler.Proofs.Markup.Cursor
import TemplateCompiler.Proofs.Markup.Scan
/-!
# Tags as they are written

The text of a tag, cut up as the tokenization rules cut it: a name, attributes with what stands around their parts, and
what is left at the end. `TagSource.Spells` ties such a text to the tag that it is read as.
-/

namespace TemplateCompiler.Markup

open TemplateCompiler.Text

/-! ## Attributes -/

/-- What delimits a value, on each side of it. -/
def Quoting.marks : Quoting → List Char
  | .double => ['"']
  | .single => ['\'']
  | .unquoted => []

/-- Whether a character can stand in a value that is delimited this way. -/
def Quoting.allows : Quoting → Char → Bool
  | .double, c => c != '"'
  | .single, c => c != '\''
  | .unquoted, c => !(isSourceBlank c || c == '>' || c == '"' || c == '\'' || c == '<' || c == '=' || c == '`')

/-- A value as it is written behind a name: the blanks around the sign, and the text between the delimiters. -/
structure WrittenValue where
  before : List Char
  after : List Char
  quoting : Quoting
  text : List Char

/-- The source of a value. -/
def WrittenValue.source (v : WrittenValue) : List Char :=
  v.before ++ '=' :: (v.after ++ (v.quoting.marks ++ (v.text ++ v.quoting.marks)))

/-- A value as the tokenization rules allow it. -/
structure WrittenValue.Valid (v : WrittenValue) : Prop where
  before : ∀ c ∈ v.before, isSourceBlank c = true
  after : ∀ c ∈ v.after, isSourceBlank c = true
  text : ∀ c ∈ v.text, v.quoting.allows c = true
  written : v.quoting = .unquoted → v.text ≠ []

/-- A character of the name of an attribute. -/
def isNameChar (c : Char) : Bool :=
  !(isSourceBlank c || c == '/' || c == '=' || c == '>' || c == '"' || c == '\'' || c == '<')

/-- An attribute as it is written, with the blanks before it. -/
structure WrittenAttribute where
  gap : List Char
  name : List Char
  value : Option WrittenValue

namespace WrittenAttribute

/-- The source of an attribute. -/
def source (w : WrittenAttribute) : List Char :=
  w.gap ++ (w.name ++ (w.value.map WrittenValue.source).getD [])

/-- Whether the value is in quotes. -/
def isQuoted (w : WrittenAttribute) : Bool :=
  w.value.any (·.quoting != .unquoted)

/-- An attribute as the tokenization rules allow it. -/
structure Valid (w : WrittenAttribute) : Prop where
  gap : w.gap ≠ []
  blank : ∀ c ∈ w.gap, isSourceBlank c = true
  name : w.name ≠ []
  nameChars : ∀ c ∈ w.name, isNameChar c = true
  value : ∀ v, w.value = some v → v.Valid

/-- The attribute that is read where `w` is written from the byte `start` on, its value aside. -/
structure Denotes (w : WrittenAttribute) (start : Nat) (t : TagAttribute) : Prop where
  name : t.name.toList = w.name.map Char.toLower
  start : t.start = start + byteLength w.gap
  hasValue : t.hasValue = w.value.isSome
  quoted : t.quoted = w.isQuoted

end WrittenAttribute

/-- The source of attributes, of which the last one stands first. -/
def sources : List WrittenAttribute → List Char
  | [] => []
  | w :: older => sources older ++ w.source

/-- Attributes that are read where `written` stands from the byte `start` on. Of both the last one stands first. -/
inductive Attributed (start : Nat) : List WrittenAttribute → List TagAttribute → Prop where
  | nil : Attributed start [] []
  | cons {w : WrittenAttribute} {t : TagAttribute} {older : List WrittenAttribute} {ts : List TagAttribute}
      (valid : w.Valid) (denotes : w.Denotes (start + byteLength (sources older)) t) (rest : Attributed start older ts) :
      Attributed start (w :: older) (t :: ts)

/-! ## Tags -/

/-- A character of the name of a tag. -/
def isTagNameChar (c : Char) : Bool :=
  !(isSourceBlank c || c == '/' || c == '>')

/-- A quote. -/
def isQuote (c : Char) : Bool :=
  c == '"' || c == '\''

/-- The source of a tag, with the text before it. -/
structure TagSource where
  text : List Char
  name : List Char
  /-- The attributes, the last one first. -/
  attributes : List WrittenAttribute
  /-- What stands behind the last attribute. -/
  tail : List Char

/-- What a tag starts with. -/
def opening (closing : Bool) : List Char :=
  if closing then ['<', '/'] else ['<']

namespace TagSource

/-- What stands between the name of the tag and the bracket that closes it. -/
def body (s : TagSource) : List Char :=
  sources s.attributes ++ s.tail

/-- The tag, but for the bracket that closes it. -/
def inner (s : TagSource) (closing : Bool) : List Char :=
  opening closing ++ (s.name ++ s.body)

/-- The whole source, but for the bracket that closes the tag. -/
def source (s : TagSource) (closing : Bool) : List Char :=
  s.text ++ s.inner closing

/-- The tag is read from the source `s`, which starts at the byte `offset`, and no slash has closed it yet. -/
structure Spells (s : TagSource) (offset : Nat) (tag : Tag) : Prop where
  text : '<' ∉ s.text
  name : s.name.map Char.toLower = tag.name.toList
  nameChars : ∀ c ∈ s.name, isTagNameChar c = true
  start : tag.start = offset + byteLength s.text
  attributes : Attributed (tag.start + byteLength (opening tag.closing) + byteLength s.name) s.attributes tag.attributes
  distinct : (tag.attributes.tail.map TagAttribute.name).Nodup
  selfClosing : tag.selfClosing = false

end TagSource

/-! ## Quotes of tags -/

open Cursor

theorem passes_blank {c : Char} (h : isSourceBlank c = true) : Passes none [c] none := by
  refine passes_outside ⟨?_, ?_, ?_⟩ <;> rintro rfl <;> revert h <;> decide

theorem passes_nameChar {c : Char} (h : isNameChar c = true) : Passes none [c] none := by
  refine passes_outside ⟨?_, ?_, ?_⟩ <;> rintro rfl <;> revert h <;> decide

theorem passes_sign : Passes none ['='] none :=
  passes_outside (by decide)

theorem passes_value {q : Quoting} {text : List Char} (h : ∀ c ∈ text, q.allows c = true) :
    Passes none (q.marks ++ (text ++ q.marks)) none := by
  cases q with
  | double =>
    refine (passes_open (.inl rfl)).append (.append (passes_all fun c hc => passes_inside ?_) (passes_close '"'))
    simpa [Quoting.allows] using h c hc
  | single =>
    refine (passes_open (.inr rfl)).append (.append (passes_all fun c hc => passes_inside ?_) (passes_close '\''))
    simpa [Quoting.allows] using h c hc
  | unquoted =>
    refine .append (.nil none) (.append (passes_all fun c hc => passes_outside ?_) (.nil none))
    have hallows := h c hc
    refine ⟨?_, ?_, ?_⟩ <;> rintro rfl <;> revert hallows <;> decide

theorem WrittenAttribute.Valid.passes {w : WrittenAttribute} (h : w.Valid) : Passes none w.source none := by
  refine .append (passes_all fun c hc => passes_blank (h.blank c hc)) ?_
  refine .append (passes_all fun c hc => passes_nameChar (h.nameChars c hc)) ?_
  cases hv : w.value with
  | none => exact .nil none
  | some v =>
    have hvalid := h.value v hv
    refine .append (passes_all fun c hc => passes_blank (hvalid.before c hc)) ?_
    refine .append passes_sign ?_
    refine .append (passes_all fun c hc => passes_blank (hvalid.after c hc)) ?_
    exact passes_value hvalid.text

theorem Attributed.passes {start : Nat} {ws : List WrittenAttribute} {ts : List TagAttribute}
    (h : Attributed start ws ts) : Passes none (sources ws) none := by
  induction h with
  | nil => exact .nil none
  | cons valid _ _ ih => exact ih.append valid.passes

theorem passes_opening (closing : Bool) : Passes none (opening closing) none := by
  cases closing <;> exact passes_all fun c hc => passes_outside (by
    simp [opening] at hc
    rcases hc with rfl | rfl <;> decide)

end TemplateCompiler.Markup
