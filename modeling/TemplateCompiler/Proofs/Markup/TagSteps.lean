import TemplateCompiler.Proofs.Markup.Lookahead
/-!
# Steps in a tag

A scan that stands in a tag stands in a part of it. The part, the character and what follows decide what a step does to
the tag, whatever the tag is and wherever it stands (`Part.exists_move`): the tag is edited, an attribute is started, or
the tag is handed out.
-/

namespace TemplateCompiler.Markup

open TemplateCompiler.Text

/-! ## Parts and moves -/

/-- A part of a tag. -/
inductive Part where
  | tagName
  | beforeAttributeName
  | attributeName
  | afterAttributeName
  | beforeAttributeValue
  | attributeValue (quoting : Quoting)
  | afterAttributeValueQuoted
  | selfClosingStartTag

/-- The state of a scan that stands in a part of a tag. -/
def Part.state : Part → Tag → State
  | .tagName => .tagName
  | .beforeAttributeName => .beforeAttributeName
  | .attributeName => .attributeName
  | .afterAttributeName => .afterAttributeName
  | .beforeAttributeValue => .beforeAttributeValue
  | .attributeValue quoting => .attributeValue quoting
  | .afterAttributeValueQuoted => .afterAttributeValueQuoted
  | .selfClosingStartTag => .selfClosingStartTag

@[simp] theorem Part.tag?_state (part : Part) (tag : Tag) : (part.state tag).tag? = some tag := by
  cases part <;> rfl

theorem exists_part {state : State} {tag : Tag} (h : state.tag? = some tag) : ∃ part : Part, state = part.state tag := by
  cases state with
  | tagName t => exact ⟨.tagName, by rw [Option.some.inj h]; rfl⟩
  | beforeAttributeName t => exact ⟨.beforeAttributeName, by rw [Option.some.inj h]; rfl⟩
  | attributeName t => exact ⟨.attributeName, by rw [Option.some.inj h]; rfl⟩
  | afterAttributeName t => exact ⟨.afterAttributeName, by rw [Option.some.inj h]; rfl⟩
  | beforeAttributeValue t => exact ⟨.beforeAttributeValue, by rw [Option.some.inj h]; rfl⟩
  | attributeValue quoting t => exact ⟨.attributeValue quoting, by rw [Option.some.inj h]; rfl⟩
  | afterAttributeValueQuoted t => exact ⟨.afterAttributeValueQuoted, by rw [Option.some.inj h]; rfl⟩
  | selfClosingStartTag t => exact ⟨.selfClosingStartTag, by rw [Option.some.inj h]; rfl⟩
  | _ => cases h

/-- A character that ends the name of an attribute. -/
def endsName (c : Char) : Bool :=
  isTagBlank c || c == '/' || c == '=' || c == '>'

/-- What a step does to a tag that goes on. -/
inductive Edit where
  | keep
  | pushTagName (c : Char)
  | pushName (c : Char)
  | openValue (quoted : Bool)
  | pushValue (chars : List Char)
  /-- A value without quotes starts. -/
  | startValue (chars : List Char)

/-- The tag as it is edited. -/
def Edit.apply (tag : Tag) : Edit → Tag
  | .keep => tag
  | .pushTagName c => { tag with name := tag.name.push c.toLower }
  | .pushName c => tag.pushName c
  | .openValue quoted => tag.openValue quoted
  | .pushValue chars => tag.pushValue chars
  | .startValue chars => (tag.openValue false).pushValue chars

/-- What a step does in a tag. -/
inductive Move where
  | goOn (edit : Edit) (part : Part)
  | start (c : Char)
  | finish (selfClosing : Bool)

namespace Move

/-- A move in the tag `tag` at the byte `pos`, where `size` characters are skipped. -/
def run (tag : Tag) (pos size : Nat) : Move → Step
  | goOn edit part => .go (part.state (edit.apply tag)) [] size
  | start c => startAttribute tag pos c
  | finish selfClosing => endTag { tag with selfClosing := tag.selfClosing || selfClosing } pos

/-- A move that may be made from a part where `c` is read: a name goes on in a name only, and starts between attributes. -/
def FollowsFrom (part : Part) (c : Char) : Move → Prop
  | goOn (.pushName _) behind => part = .attributeName ∧ behind = .attributeName ∧ endsName c = false
  | goOn _ behind => behind ≠ .attributeName
  | start _ => part = .beforeAttributeName ∨ part = .afterAttributeName
  | finish _ => True

end Move

/-! ## Every step is a move -/

variable {tag : Tag} {pos size : Nat} {c : Char} {rest : List Char} {next : State} {tokens : List Token}

/-- What is read in a value does not depend on the tag. -/
theorem exists_valueCharacter {quoting : Quoting} (h : valueCharacter quoting tag c rest = .go next tokens size) :
    ∃ chars, ∀ t, valueCharacter quoting t c rest = .go (.attributeValue quoting (t.pushValue chars)) [] size := by
  unfold valueCharacter at h ⊢
  split_ifs at h ⊢ with hamp hzero
  · cases hreference : reference true rest with
    | ampersand =>
      rw [hreference] at h
      obtain ⟨-, -, rfl⟩ := to_eq_go.1 h
      exact ⟨['&'], fun _ => rfl⟩
    | characters chars n =>
      rw [hreference] at h
      obtain ⟨-, -, rfl⟩ := Step.go.inj h
      exact ⟨chars, fun _ => rfl⟩
    | fault fault =>
      rw [hreference] at h
      cases h
  · obtain ⟨-, -, rfl⟩ := to_eq_go.1 h
    exact ⟨[c], fun _ => rfl⟩

theorem exists_goOn {part : Part} {state : State} (h : Step.to state = .go next tokens size) (edit : Edit) (behind : Part)
    (hfollows : Move.FollowsFrom part c (.goOn edit behind)) :
    ∃ m : Move, m.FollowsFrom part c ∧ ∀ (t : Tag) (p : Nat), Step.to (behind.state (edit.apply t)) = m.run t p size := by
  obtain ⟨-, -, rfl⟩ := to_eq_go.1 h
  exact ⟨.goOn edit behind, hfollows, fun _ _ => rfl⟩

theorem exists_finish (part : Part) (c : Char) (size : Nat) :
    ∃ m : Move, m.FollowsFrom part c ∧ ∀ t p, endTag t p = m.run t p size :=
  ⟨.finish false, trivial, fun t p => by simp [Move.run]⟩

theorem exists_attributeValue {part : Part} {quoting : Quoting} {t₀ : Tag}
    (h : attributeValueStep quoting t₀ pos c rest = .go next tokens size) :
    ∃ m : Move, m.FollowsFrom part c ∧ ∀ t p, attributeValueStep quoting t p c rest = m.run t p size := by
  cases quoting with
  | unquoted =>
    simp only [attributeValueStep] at h ⊢
    split_ifs at h ⊢
    · exact exists_goOn h .keep .beforeAttributeName (fun h => by cases h)
    · exact exists_finish part c size
    · obtain ⟨chars, hchars⟩ := exists_valueCharacter h
      exact ⟨.goOn (.pushValue chars) (.attributeValue .unquoted), (fun h => by cases h), fun t _ => hchars t⟩
  | _ =>
    simp only [attributeValueStep] at h ⊢
    split_ifs at h ⊢
    · exact exists_goOn h .keep .afterAttributeValueQuoted (fun h => by cases h)
    · obtain ⟨chars, hchars⟩ := exists_valueCharacter h
      exact ⟨.goOn (.pushValue chars) (.attributeValue _), (fun h => by cases h), fun t _ => hchars t⟩

/-- A step in a part of a tag is a move, which depends neither on the tag nor on where it stands. -/
theorem Part.exists_move {part : Part} (h : (part.state tag).step pos c rest = .go next tokens size) :
    ∃ m : Move, m.FollowsFrom part c ∧ ∀ t p, (part.state t).step p c rest = m.run t p size := by
  cases part with
  | tagName =>
    simp only [Part.state, State.step, tagNameStep] at h ⊢
    split_ifs at h ⊢
    · exact exists_goOn h .keep .beforeAttributeName (fun h => by cases h)
    · exact exists_goOn h .keep .selfClosingStartTag (fun h => by cases h)
    · exact exists_finish _ c size
    · exact exists_goOn h (.pushTagName c) .tagName (fun h => by cases h)
  | beforeAttributeName =>
    simp only [Part.state, State.step, beforeAttributeNameStep] at h ⊢
    split_ifs at h ⊢
    · exact exists_goOn h .keep .beforeAttributeName (fun h => by cases h)
    · exact exists_goOn h .keep .selfClosingStartTag (fun h => by cases h)
    · exact exists_finish _ c size
    · exact ⟨.start c, .inl rfl, fun _ _ => rfl⟩
  | attributeName =>
    simp only [Part.state, State.step, attributeNameStep] at h ⊢
    split_ifs at h ⊢
    · exact exists_goOn h .keep .afterAttributeName (fun h => by cases h)
    · exact exists_goOn h .keep .selfClosingStartTag (fun h => by cases h)
    · exact exists_goOn h .keep .beforeAttributeValue (fun h => by cases h)
    · exact exists_finish _ c size
    · exact exists_goOn h (.pushName c) .attributeName ⟨rfl, rfl, by simp_all [endsName]⟩
  | afterAttributeName =>
    simp only [Part.state, State.step, afterAttributeNameStep] at h ⊢
    split_ifs at h ⊢
    · exact exists_goOn h .keep .afterAttributeName (fun h => by cases h)
    · exact exists_goOn h .keep .selfClosingStartTag (fun h => by cases h)
    · exact exists_goOn h .keep .beforeAttributeValue (fun h => by cases h)
    · exact exists_finish _ c size
    · exact ⟨.start c, .inr rfl, fun _ _ => rfl⟩
  | beforeAttributeValue =>
    simp only [Part.state, State.step, beforeAttributeValueStep] at h ⊢
    split_ifs at h ⊢
    · exact exists_goOn h .keep .beforeAttributeValue (fun h => by cases h)
    · exact exists_goOn h (.openValue true) (.attributeValue .double) (fun h => by cases h)
    · exact exists_goOn h (.openValue true) (.attributeValue .single) (fun h => by cases h)
    · rename_i hblank _ _ hbracket
      simp only [attributeValueStep, hblank, hbracket, Bool.false_eq_true, if_false] at h ⊢
      split_ifs at h ⊢
      obtain ⟨chars, hchars⟩ := exists_valueCharacter h
      exact ⟨.goOn (.startValue chars) (.attributeValue .unquoted), (fun h => by cases h),
        fun t _ => hchars (t.openValue false)⟩
  | attributeValue quoting =>
    simp only [Part.state, State.step] at h ⊢
    exact exists_attributeValue h
  | afterAttributeValueQuoted =>
    simp only [Part.state, State.step, afterAttributeValueQuotedStep] at h ⊢
    split_ifs at h ⊢
    · exact exists_goOn h .keep .beforeAttributeName (fun h => by cases h)
    · exact exists_goOn h .keep .selfClosingStartTag (fun h => by cases h)
    · exact exists_finish _ c size
  | selfClosingStartTag =>
    simp only [Part.state, State.step, selfClosingStartTagStep] at h ⊢
    split_ifs at h ⊢
    exact ⟨.finish true, trivial, fun t p => by simp [Move.run]⟩

end TemplateCompiler.Markup
