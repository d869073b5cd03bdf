import TemplateCompiler.Proofs.Script.Numerals
import TemplateCompiler.Proofs.Template.Proper
/-!
# Names of variables

Every name that is made up for a module may be the name of a variable: it is an identifier name and no reserved word.
-/

namespace TemplateCompiler

open Render
open Text (isIdentifierName isIdentifierChars isIdentifierPart isIdentifierStart)

/-- A name that a variable of a module may have. -/
structure IsVariableName (name : String) : Prop where
  identifier : isIdentifierName name = true
  allowed : name ∉ moduleReservedWords

theorem not_reserved_of_looksMadeUp {name : String} (h : looksMadeUp name = true) : name ∉ moduleReservedWords := by
  have hreserved : ∀ word ∈ moduleReservedWords, looksMadeUp word = false := by decide
  intro hm
  rw [hreserved name hm] at h
  cases h

theorem isVariableName_localName (helper : Helper) : IsVariableName helper.localName :=
  ⟨by cases helper <;> decide, not_reserved_of_looksMadeUp (looksMadeUp_localName helper)⟩

/-! ## Numbered names -/

/-- An identifier name goes on with characters of identifiers. -/
theorem isIdentifierName_append {base : String} (h : isIdentifierName base = true) {more : String}
    (hmore : ∀ c ∈ more.toList, isIdentifierPart c = true) : isIdentifierName (base ++ more) = true := by
  unfold isIdentifierName at h ⊢
  rw [String.toList_append]
  cases hbase : base.toList with
  | nil => simp [hbase, isIdentifierChars] at h
  | cons c cs =>
    rw [hbase, isIdentifierChars, Bool.and_eq_true, List.all_eq_true] at h
    rw [List.cons_append, isIdentifierChars, h.1, Bool.true_and, List.all_eq_true]
    exact List.forall_mem_append.2 ⟨h.2, hmore⟩

theorem isIdentifierPart_toString (n : Nat) : ∀ c ∈ (toString n).toList, isIdentifierPart c = true := by
  intro c hc
  rw [toList_toString] at hc
  exact Script.Tree.isIdentifierPart_of_isDigit (isDigit_of_mem_toDigits c hc)

theorem isVariableName_nameAt (kind : HoistKind) (n : Nat) : IsVariableName (kind.nameAt n) := by
  refine ⟨?_, not_reserved_of_looksMadeUp (looksMadeUp_nameAt kind n)⟩
  cases kind
  case object => exact isIdentifierName_append (by decide) (isIdentifierPart_toString n)
  case fragment => exact isIdentifierName_append (by decide) (isIdentifierPart_toString (n + 1))

theorem isVariableName_memoName (n : Nat) : IsVariableName (memoName n) := by
  refine ⟨isIdentifierName_append (by decide) (isIdentifierPart_toString n), not_reserved_of_looksMadeUp ?_⟩
  exact looksMadeUp_of_underscore (by simp [memoName])

/-- What is declared has the name of a variable. -/
theorem Render.HoistTable.Sound.isVariableName {table : HoistTable} (hs : table.Sound) {kind : HoistKind}
    {content name : String} (h : table.Declares kind content name) : IsVariableName name := by
  obtain ⟨n, -, heq⟩ := hs.numbered _ h
  rw [show name = kind.nameAt n from heq]
  exact isVariableName_nameAt kind n

/-! ## Imports -/

theorem isIdentifierPart_identifierChar (c : Char) : isIdentifierPart (Scoping.identifierChar c) = true := by
  unfold Scoping.identifierChar
  split
  · rename_i hc
    have hlow : c.toNat < 128 := by
      unfold Char.isAlphanum Char.isAlpha Char.isUpper Char.isLower Char.isDigit at hc
      simp only [UInt32.le_iff_toNat_le, Bool.or_eq_true, Bool.and_eq_true, decide_eq_true_eq, beq_iff_eq] at hc
      rcases hc with (((⟨-, h⟩ | ⟨-, h⟩) | ⟨-, h⟩) | rfl) | rfl
      · exact lt_of_le_of_lt h (by decide)
      · exact lt_of_le_of_lt h (by decide)
      · exact lt_of_le_of_lt h (by decide)
      · decide
      · decide
    rw [isIdentifierPart, if_pos hlow]
    simp only [Bool.or_eq_true] at hc ⊢
    tauto
  · decide

theorem isIdentifierName_suggestedName (tag : String) : isIdentifierName (Scoping.suggestedName tag) = true := by
  unfold Scoping.suggestedName
  dsimp only
  split
  · assumption
  · rw [String.toList_append, isIdentifierName, String.toList_ofList]
    have hparts : ∀ d ∈ (Text.camelCase tag).toList.map Scoping.identifierChar, isIdentifierPart d = true :=
      List.forall_mem_map.2 fun c _ => isIdentifierPart_identifierChar c
    have hstart : isIdentifierStart (Scoping.identifierChar '_') = true := by decide
    exact Bool.and_eq_true_iff.2 ⟨hstart, List.all_eq_true.2 hparts⟩

theorem isIdentifierName_freshName {base : String} (h : isIdentifierName base = true) (taken : List String) :
    isIdentifierName (Scoping.freshName base taken) = true := by
  rcases Scoping.freshName_cases base taken with heq | ⟨n, heq⟩
  · rw [heq, h]
  · rw [heq]
    exact isIdentifierName_append h (isIdentifierPart_toString n)

theorem isIdentifierName_locals_ofList (tags : List String) :
    ∀ name ∈ (Scoping.ImportTable.ofList tags).locals, isIdentifierName name = true := by
  induction tags using List.reverseRecOn with
  | nil => simp [Scoping.ImportTable.ofList, Scoping.ImportTable.locals]
  | append_singleton tags tag ih =>
    rw [Scoping.ImportTable.ofList_concat]
    cases hfind : (Scoping.ImportTable.ofList tags).find? tag with
    | some entry => rwa [(Scoping.ImportTable.insert_known hfind).1]
    | none =>
      obtain ⟨hinsert, hentry⟩ := Scoping.ImportTable.insert_new hfind
      rw [hinsert, hentry, Scoping.ImportTable.locals, List.map_append]
      refine List.forall_mem_append.2 ⟨ih, List.forall_mem_singleton.2 ?_⟩
      exact isIdentifierName_freshName (isIdentifierName_suggestedName tag) _

/-- An import has the name of a variable. -/
theorem isVariableName_of_local? {tags : List String} {tag name : String}
    (h : (Scoping.ImportTable.ofList tags).local? tag = some name) : IsVariableName name := by
  have hm := local?_mem_locals h
  exact ⟨isIdentifierName_locals_ofList tags name hm, not_reserved_of_looksMadeUp
    (looksMadeUp_of_underscore ((Scoping.ImportTable.sound_ofList tags).underscore name hm))⟩

end TemplateCompiler
