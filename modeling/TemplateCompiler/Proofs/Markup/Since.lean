import TemplateCompiler.Proofs.Markup.WrittenTag
/-!
# What a scan has read since the last tag

`Since` is the invariant of a scan: in each state, what the source between the last tag and the scan looks like. A step
keeps it, or hands out a token whose source is known (`Outcome`).
-/

namespace TemplateCompiler.Markup

open TemplateCompiler.Text
open Cursor (Passes)

/-! ## Comments -/

/-- The number of dashes at the end of `cs`. -/
def dashes (cs : List Char) : Nat :=
  (cs.reverse.takeWhile (· == '-')).length

theorem dashes_append_dash (cs : List Char) : dashes (cs ++ ['-']) = dashes cs + 1 := by
  simp [dashes]

theorem dashes_append {cs eaten : List Char} (hne : eaten ≠ []) (h : '-' ∉ eaten) : dashes (cs ++ eaten) = 0 := by
  obtain ⟨front, c, rfl⟩ : ∃ front c, eaten = front ++ [c] :=
    ⟨eaten.dropLast, eaten.getLast hne, (List.dropLast_concat_getLast hne).symm⟩
  have hc : c ≠ '-' := by
    rintro rfl
    simp at h
  simp [dashes, ← List.append_assoc, hc]

theorem dashes_ge_two {cs : List Char} (h : 2 ≤ dashes cs) : ∃ front, cs = front ++ ['-', '-'] := by
  have hcs : cs = cs.reverse.reverse := cs.reverse_reverse.symm
  unfold dashes at h
  rcases hrev : cs.reverse with _ | ⟨c, _ | ⟨d, rest⟩⟩
  · simp [hrev] at h
  · rw [hrev] at h
    have := (List.takeWhile_sublist (l := [c]) (· == '-')).length_le
    simp at this
    omega
  · rw [hrev] at h
    have hc : c = '-' := by
      by_cases hc : c = '-'
      · exact hc
      · simp [hc] at h
    have hd : d = '-' := by
      by_cases hd : d = '-'
      · exact hd
      · simp [hc, hd] at h
    refine ⟨rest.reverse, ?_⟩
    rw [hcs, hrev, hc, hd]
    simp

/-- No comment ends in `cs`. -/
def Unclosed (cs : List Char) : Prop :=
  ∀ front back, cs ≠ front ++ '-' :: '-' :: '>' :: back

theorem Unclosed.push {cs : List Char} (h : Unclosed cs) {c : Char} (hc : c = '>' → dashes cs < 2) :
    Unclosed (cs ++ [c]) := by
  intro front back heq
  rcases List.eq_nil_or_concat back with rfl | ⟨back, d, rfl⟩
  · have heq' : cs ++ [c] = (front ++ ['-', '-']) ++ ['>'] := by simpa using heq
    obtain ⟨rfl, hlast⟩ := List.append_inj' heq' rfl
    have hc := hc (by simpa using hlast)
    have htwo : dashes (front ++ ['-', '-']) = dashes front + 2 := by
      rw [show front ++ ['-', '-'] = (front ++ ['-']) ++ ['-'] by simp, dashes_append_dash, dashes_append_dash]
    omega
  · have heq' : cs ++ [c] = (front ++ '-' :: '-' :: '>' :: back) ++ [d] := by simpa using heq
    exact h front back (List.append_inj' heq' rfl).1

theorem Unclosed.append {cs eaten : List Char} (h : Unclosed cs) (heaten : '>' ∉ eaten) : Unclosed (cs ++ eaten) := by
  induction eaten generalizing cs with
  | nil => simpa using h
  | cons c eaten ih =>
    simp only [List.mem_cons, not_or] at heaten
    rw [show cs ++ c :: eaten = (cs ++ [c]) ++ eaten by simp]
    exact ih (h.push fun hc => absurd hc.symm heaten.1) heaten.2

/-- The source of a comment that is being read, and how many dashes it ends with. -/
structure CommentSource (whole : List Char) (enough : Nat → Prop) : Prop where
  starts : ∃ body, whole = ['<', '!', '-', '-'] ++ body
  unclosed : Unclosed whole
  dashes : enough (dashes whole)

/-! ## Tags -/

namespace TagSource

/-- The last attribute has no value yet. -/
def LastBare (s : TagSource) : Prop :=
  ∃ w older, s.attributes = w :: older ∧ w.value = none

/-- The last attribute has a value. -/
def LastValued (s : TagSource) (quoting : Quoting) : Prop :=
  ∃ w older v, s.attributes = w :: older ∧ w.value = some v ∧ v.quoting = quoting

/-- The tag can be closed: behind its attributes stand blanks, and a slash at most, which does not run into a value
without quotes. -/
structure Closable (s : TagSource) : Prop where
  tail : ∃ blanks slash, s.tail = blanks ++ slash ∧ (∀ c ∈ blanks, isSourceBlank c = true) ∧
    (slash = [] ∨ slash = ['/'])
  apart : s.tail.head? = some '/' → ¬ s.LastValued .unquoted

/-- The tag ends in a slash of its own, which is not one of a value without quotes. -/
def Slashed (s : TagSource) : Prop :=
  s.tail.getLast? = some '/'

/-- The tag `t` is handed out where the scan has read `s` and a closing bracket from the byte `offset` on. -/
structure Closes (s : TagSource) (offset : Nat) (t : Tag) : Prop where
  spells : s.Spells offset { t with attributes := t.attributes.reverse, selfClosing := false }
  closable : s.Closable
  slashed : t.selfClosing = true ↔ s.Slashed
  distinct : (t.attributes.map TagAttribute.name).Nodup
  stop : t.stop = offset + byteLength (s.source t.closing) + 1

end TagSource

/-- The scan has read the source of `tag` so far, of which `more` holds. -/
def TagSince (offset : Nat) (mid : List Char) (tag : Tag) (more : TagSource → Prop) : Prop :=
  ∃ s : TagSource, s.Spells offset tag ∧ mid = s.source tag.closing ∧ more s

/-- The scan has read a text and, behind it, something that starts with an opening bracket. -/
def MarkSince (mid : List Char) (more : List Char → Prop) : Prop :=
  ∃ text whole, mid = text ++ whole ∧ '<' ∉ text ∧ more whole

/-- The source of a document type that is being read; `quote` is the quote that is open. -/
def DoctypeSource (quote : Option Char) (whole : List Char) : Prop :=
  (∃ body, whole = ['<', '!'] ++ body) ∧ Passes none whole quote

/-- The mark that delimits an identifier. -/
def Quoting.mark : Quoting → Char
  | .double => '"'
  | _ => '\''

/-- What the source from the byte `offset` on, where the last tag has ended, to the scan looks like. -/
def Since (offset : Nat) (mid : List Char) : State → Prop
  | .data => '<' ∉ mid
  | .tagOpen => MarkSince mid (· = ['<'])
  | .endTagOpen => MarkSince mid (· = ['<', '/'])
  | .tagName tag => TagSince offset mid tag fun s => s.attributes = [] ∧ s.tail = []
  | .beforeAttributeName tag =>
    TagSince offset mid tag fun s => s.tail ≠ [] ∧ ∀ c ∈ s.tail, isSourceBlank c = true
  | .attributeName tag => TagSince offset mid tag fun s => s.LastBare ∧ s.tail = []
  | .afterAttributeName tag =>
    TagSince offset mid tag fun s => s.LastBare ∧ s.tail ≠ [] ∧ ∀ c ∈ s.tail, isSourceBlank c = true
  | .beforeAttributeValue tag =>
    TagSince offset mid tag fun s => s.LastBare ∧ ∃ before after, s.tail = before ++ '=' :: after ∧
      (∀ c ∈ before, isSourceBlank c = true) ∧ ∀ c ∈ after, isSourceBlank c = true
  | .attributeValue quoting tag =>
    TagSince offset (mid ++ quoting.marks) tag fun s => s.LastValued quoting ∧ s.tail = []
  | .afterAttributeValueQuoted tag =>
    TagSince offset mid tag fun s => (∃ quoting, quoting ≠ .unquoted ∧ s.LastValued quoting) ∧ s.tail = []
  | .selfClosingStartTag tag => TagSince offset mid tag fun s => s.Closable ∧ s.Slashed
  | .markupDeclarationOpen => False
  | .commentStart | .commentStartDash => MarkSince mid (CommentSource · (2 ≤ ·))
  | .comment _ | .commentLessThan _ | .commentLessThanBang _ | .commentEndBang _ =>
    MarkSince mid (CommentSource · (· = 0))
  | .commentEndDash _ | .commentLessThanBangDash _ => MarkSince mid (CommentSource · (· = 1))
  | .commentEnd _ | .commentLessThanBangDashDash _ => MarkSince mid (CommentSource · (2 ≤ ·))
  | .doctypeIdentifier quoting _ => MarkSince mid (DoctypeSource (some quoting.mark))
  | _ => MarkSince mid (DoctypeSource none)

/-- What a step does to a scan that has read `mid` from the byte `offset` on, where it takes `eaten` off the front. -/
inductive Outcome (offset : Nat) (mid eaten : List Char) : State → List Token → Prop where
  | goes {next : State} (since : Since offset (mid ++ eaten) next) : Outcome offset mid eaten next []
  | characters (cs : List Char) (since : Since offset (mid ++ eaten) .data) :
    Outcome offset mid eaten .data (cs.map .character)
  | tag {t : Tag} (s : TagSource) (closes : s.Closes offset t) (source : mid = s.source t.closing)
      (bracket : eaten = ['>']) : Outcome offset mid eaten .data [.tag t]
  | comment {text : String} (since : MarkSince mid (CommentSource · (2 ≤ ·))) (bracket : eaten = ['>']) :
    Outcome offset mid eaten .data [.comment text]
  | doctype (since : MarkSince mid (DoctypeSource none)) (bracket : eaten = ['>']) :
    Outcome offset mid eaten .data [.doctype]

end TemplateCompiler.Markup
