import TemplateCompiler.Proofs.Template.Style
/-!
# Which declarations are read back

A list of declarations is read back from its written form exactly if each of them is as declarations are read
(`styleDeclarations_styleText_iff`). Of the declarations that CSS allows these are the ones without a semicolon, with a
property that has no colon and no capital letter, and without blanks at their ends: a semicolon ends a declaration
also inside a string or parentheses, and the names of custom properties lose their case.
-/

namespace TemplateCompiler.Template

open TemplateCompiler.Text

/-! ## Declarations of CSS -/

/-- The blanks of CSS. -/
def isStyleBlank (c : Char) : Bool :=
  c == ' ' || c == '\t' || c == '\n' || c == '\r' || c == '\x0c'

/-- Whether a name may have the character. -/
def isNameChar (c : Char) : Bool :=
  c.isAlphanum || c == '-' || c == '_' || 128 ≤ c.toNat

/-- Whether the character is a digit of an escape. -/
def isEscapeDigit (c : Char) : Bool :=
  c.isDigit || ('a' ≤ c && c ≤ 'f') || ('A' ≤ c && c ≤ 'F')

/-- Whether a name goes on with `cs`: characters of names, and any others behind a backslash. A blank may end an escape
by digits, and `digits` says that one has come last. -/
def isName (digits : Bool) : List Char → Bool
  | [] => true
  | '\\' :: c :: cs => c != '\n' && isName (isEscapeDigit c) cs
  | c :: cs =>
    if isStyleBlank c then digits && isName false cs
    else isNameChar c && isName (digits && isEscapeDigit c) cs

/-- Whether `cs` is the name of a property: of a custom one, or else an identifier without capital letters. -/
def isPropertyName : List Char → Bool
  | [] => false
  | '-' :: '-' :: cs => isName false cs
  | c :: cs => !c.isDigit && !(c :: cs).any Char.isUpper && isName false (c :: cs)

/-- Whether quotes and parentheses are balanced behind some open parentheses, and in a string if there is a quote. What
is behind a backslash does not count. -/
def isBalanced (depth : Nat) (quote : Option Char) : List Char → Bool
  | [] => depth == 0 && quote.isNone
  | '\\' :: _ :: cs => isBalanced depth quote cs
  | c :: cs =>
    match quote with
    | some q => isBalanced depth (if c = q then none else some q) cs
    | none =>
      if c = '"' || c = '\'' then isBalanced depth (some c) cs
      else if c = '(' then isBalanced (depth + 1) none cs
      else if c = ')' then 0 < depth && isBalanced (depth - 1) none cs
      else isBalanced depth none cs

/-- Whether `cs` ends in the mark of an important declaration. -/
def endsInMark (cs : List Char) : Bool :=
  isImportantMark (cs.drop (cs.length - importantMark.length))

/-- A declaration that CSS allows, its mark aside. -/
structure StyleDeclaration.IsCss (d : StyleDeclaration) : Prop where
  property : isPropertyName d.property.toList = true
  value : d.value ≠ ""
  starts : d.value.toList.head?.any isStyleBlank = false
  ends : d.value.toList.getLast?.any isStyleBlank = false
  balanced : isBalanced 0 none d.value.toList = true
  unmarked : endsInMark d.value.toList = false

/-- A declaration that is read as it is written. -/
structure StyleDeclaration.IsPlain (d : StyleDeclaration) : Prop where
  small : ∀ c ∈ d.property.toList, c.isUpper = false
  noColon : ':' ∉ d.property.toList
  noSemicolon : ';' ∉ d.property.toList ∧ ';' ∉ d.value.toList
  trimmed : Trimmed d.property.toList ∧ Trimmed d.value.toList

/-! ## Declarations that are read back -/

theorem toLower_eq_self_iff {c : Char} : c.toLower = c ↔ c.isUpper = false := by
  by_cases h : 'A'.val ≤ c.val ∧ c.val ≤ 'Z'.val
  · have hval : c.toLower.val = c.val + ('a'.val - 'A'.val) := by
      unfold Char.toLower
      rw [dif_pos h]
    have hne : c.toLower ≠ c := fun heq => by
      rw [heq] at hval
      exact absurd (UInt32.left_eq_add.1 hval) (by decide)
    have hupper : c.isUpper = true := by
      unfold Char.isUpper
      simpa using h
    simp [hne, hupper]
  · have hsame : c.toLower = c := by
      unfold Char.toLower
      rw [dif_neg h]
    have hother : c.isUpper = false := by
      unfold Char.isUpper
      simpa using h
    simp [hsame, hother]

theorem map_toLower_eq_self_iff {cs : List Char} : cs.map Char.toLower = cs ↔ ∀ c ∈ cs, c.isUpper = false := by
  calc cs.map Char.toLower = cs ↔ cs.map Char.toLower = cs.map id := by rw [List.map_id]
    _ ↔ ∀ c ∈ cs, c.toLower = id c := List.map_inj_left
    _ ↔ ∀ c ∈ cs, c.isUpper = false := by simp only [id, toLower_eq_self_iff]

theorem cutImportant_of_not_endsInMark {cs : List Char} (h : endsInMark cs = false) :
    cutImportant cs = (cs, false) := by
  unfold cutImportant
  dsimp only
  rw [if_neg]
  rw [List.length_take, Nat.min_eq_left (Nat.sub_le _ _)]
  simpa [endsInMark] using h

namespace StyleDeclaration

theorem Sound.isPlain {d : StyleDeclaration} (h : d.Sound) : d.IsPlain where
  small := map_toLower_eq_self_iff.1 h.small
  noColon := h.noColon
  noSemicolon := h.noSemicolon
  trimmed := ⟨h.property.2, h.value.2⟩

theorem IsPlain.sound {d : StyleDeclaration} (h : d.IsPlain) (hcss : d.IsCss) : d.Sound where
  property := by
    refine ⟨fun hnone => ?_, h.trimmed.1⟩
    have hname := hcss.property
    rw [hnone] at hname
    exact absurd hname (by decide)
  small := map_toLower_eq_self_iff.2 h.small
  noColon := h.noColon
  value := ⟨hcss.value, h.trimmed.2⟩
  unmarked _ := cutImportant_of_not_endsInMark hcss.unmarked
  noSemicolon := h.noSemicolon

end StyleDeclaration

/-- A list of declarations is read back exactly if each of them is as declarations are read. If they are what CSS
allows, this means that they are plain. -/
theorem styleDeclarations_styleText_iff (ds : List StyleDeclaration) :
    (styleDeclarations (styleText ds) = ds ↔ ∀ d ∈ ds, d.Sound) ∧
      ((∀ d ∈ ds, d.IsCss) → (styleDeclarations (styleText ds) = ds ↔ ∀ d ∈ ds, d.IsPlain)) := by
  have hsound : styleDeclarations (styleText ds) = ds ↔ ∀ d ∈ ds, d.Sound := by
    refine ⟨fun h d hd => ?_, styleDeclarations_styleText⟩
    rw [← h] at hd
    exact (sound_of_mem_styleDeclarations hd).1
  refine ⟨hsound, fun hcss => hsound.trans ?_⟩
  exact ⟨fun h d hd => (h d hd).isPlain, fun h d hd => (h d hd).sound (hcss d hd)⟩

/-- A semicolon in a string ends the declaration, and the name of a custom property loses its case. -/
theorem styleDeclarations_styleText_ne :
    (⟨"content", "';'", false⟩ : StyleDeclaration).IsCss ∧
      styleDeclarations (styleText [⟨"content", "';'", false⟩]) = [⟨"content", "'", false⟩] ∧
    (⟨"--Main", "red", false⟩ : StyleDeclaration).IsCss ∧
      styleDeclarations (styleText [⟨"--Main", "red", false⟩]) = [⟨"--main", "red", false⟩] := by
  refine ⟨?_, by decide, ?_, by decide⟩ <;> constructor <;> decide

end TemplateCompiler.Template
