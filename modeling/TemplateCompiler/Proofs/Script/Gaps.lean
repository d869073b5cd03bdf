import TemplateCompiler.Proofs.Script.Readers
import TemplateCompiler.Proofs.Script.Suffixes
import TemplateCompiler.Proofs.Text.Blank
/-!
# Gaps between tokens

Blanks and block comments between two tokens make no difference to the second one (`Tree.next_gap`), except that it may
stand on a new line, and they stay such when blanks are collapsed (`IsGap.collapse`). A comment up to the end of its
line does not: where the line end becomes a space, the comment goes on.
-/

namespace TemplateCompiler.Script

open TemplateCompiler.Text

/-- The text takes a scan between two tokens from `gap` to the next token, without a comment up to the end of a line. -/
inductive IsGap : Gap → List Char → Prop where
  | nil : IsGap .code []
  | blank {c : Char} {cs : List Char} (hc : isSpace c = true ∨ isLineEnd c = true) (h : IsGap .code cs) :
      IsGap .code (c :: cs)
  | opens {cs : List Char} (h : IsGap .blockComment cs) : IsGap .code ('/' :: '*' :: cs)
  | inside {c : Char} {cs : List Char} (hc : c = '*' → cs.head? ≠ some '/') (h : IsGap .blockComment cs) :
      IsGap .blockComment (c :: cs)
  | closes {cs : List Char} (h : IsGap .code cs) : IsGap .blockComment ('*' :: '/' :: cs)

theorem isSpace_of_isBlank {c : Char} (h : isBlank c = true) : isLineEnd c = true ∨ isSpace c = true := by
  have hfeed : c = '\n' ↔ c.toNat = 10 := ⟨fun h => h ▸ rfl, fun h => Char.toNat_inj.1 h⟩
  have hreturn : c = '\r' ↔ c.toNat = 13 := ⟨fun h => h ▸ rfl, fun h => Char.toNat_inj.1 h⟩
  simp only [isBlank, Bool.or_eq_true, Bool.and_eq_true, beq_iff_eq, decide_eq_true_eq] at h
  simp only [isLineEnd, isSpace, Bool.or_eq_true, Bool.and_eq_true, beq_iff_eq, decide_eq_true_eq, hfeed, hreturn]
  omega

/-- Blanks are a gap. -/
theorem isGap_of_isBlank {cs : List Char} (h : ∀ c ∈ cs, isBlank c = true) : IsGap .code cs := by
  induction cs with
  | nil => exact .nil
  | cons c cs ih =>
    obtain ⟨hc, hcs⟩ := List.forall_mem_cons.1 h
    exact .blank (isSpace_of_isBlank hc).symm (ih hcs)

/-! ## Scans -/

theorem skipGap_blank_cons {c : Char} (hc : isSpace c = true ∨ isLineEnd c = true) (newline : Bool) (cs : List Char) :
    skipGap .code newline (c :: cs) = skipGap .code (newline || isLineEnd c) cs := by
  have hslash : c ≠ '/' := by
    rintro rfl
    rcases hc with hc | hc <;> cases hc
  rw [skipGap]
  · by_cases hline : isLineEnd c = true
    · simp [hline]
    · simp [hline, hc.resolve_right hline]
  all_goals simp_all

theorem skipGap_inside {c : Char} {cs : List Char} (hc : c = '*' → cs.head? ≠ some '/') (newline : Bool) :
    skipGap .blockComment newline (c :: cs) = skipGap .blockComment (newline || isLineEnd c) cs := by
  cases cs with
  | nil => simp [skipGap]
  | cons d cs =>
    rw [skipGap]
    simp_all

/-- A gap is skipped. -/
theorem IsGap.skipGap {gap : Gap} {cs : List Char} (h : IsGap gap cs) (newline : Bool) (rest : List Char) :
    ∃ newline', Script.skipGap gap newline (cs ++ rest) = Script.skipGap .code newline' rest := by
  induction h generalizing newline with
  | nil => exact ⟨newline, rfl⟩
  | blank hc _ ih =>
    rw [List.cons_append, skipGap_blank_cons hc]
    exact ih _
  | opens _ ih => exact ih newline
  | @inside c cs hc hcs ih =>
    have hne : cs ≠ [] := by
      rintro rfl
      cases hcs
    rw [List.cons_append, skipGap_inside (by rwa [List.head?_append_of_ne_nil _ hne])]
    exact ih _
  | closes _ ih => exact ih newline

/-- What a scan finds does not depend on the lines that have ended before. -/
theorem skipGap_newline (gap : Gap) (newline newline' : Bool) (cs : List Char) :
    (skipGap gap newline cs).map Prod.snd = (skipGap gap newline' cs).map Prod.snd := by
  fun_induction skipGap gap newline cs generalizing newline'
  case case1 ih | case2 ih | case8 ih => exact ih newline'
  case case4 hline hspace ih =>
    rw [skipGap_blank_cons (.inl hspace)]
    exact ih _
  case case7 hline ih =>
    rw [skipGap, if_neg hline]
    exact ih newline'
  case case9 c rest hclose ih =>
    rw [skipGap_inside fun hc hhead => ?_]
    · exact ih _
    · obtain ⟨more, rfl⟩ := List.head?_eq_some_iff.1 hhead
      exact hclose more hc rfl
  all_goals simp_all [skipGap]

/-- The token behind a gap is the same as without the gap. -/
theorem exists_lexeme_gap {gap : List Char} (h : IsGap .code gap) (rest : List Char) :
    ∃ onNewLine, lexeme (gap ++ rest) = { lexeme rest with onNewLine } := by
  obtain ⟨newline, hskip⟩ := h.skipGap false rest
  have hsame := skipGap_newline .code newline false rest
  unfold lexeme
  rw [hskip]
  cases hgap : skipGap .code newline rest with
  | none =>
    rw [hgap, Option.map_none, eq_comm, Option.map_eq_none_iff] at hsame
    rw [hsame]
    exact ⟨false, rfl⟩
  | some found =>
    rw [hgap, Option.map_some, eq_comm, Option.map_eq_some_iff] at hsame
    obtain ⟨found', hgap', hrest⟩ := hsame
    rw [hgap']
    obtain ⟨_, start⟩ := found
    obtain ⟨_, start'⟩ := found'
    obtain rfl : start' = start := hrest
    exact ⟨_, rfl⟩

theorem Tree.next_gap {gap : List Char} (h : IsGap .code gap) (rest : List Char) :
    Tree.next (gap ++ rest) = Tree.next rest := by
  obtain ⟨onNewLine, hlexeme⟩ := exists_lexeme_gap h rest
  simp only [Tree.next, hlexeme]

/-! ## What starts with a gap -/

theorem not_word_of_gap : ∀ n ∈ 0x2F :: Tree.gapCodes, isIdentifierPart (Char.ofNat n) = false ∧ Char.ofNat n ≠ '\\' ∧
    Char.ofNat n ≠ '.' ∧ (Char.ofNat n).isDigit = false := by
  decide +kernel

/-- A gap starts with no part of a word or a number, and with no dot. -/
theorem IsGap.head {gap : List Char} (h : IsGap .code gap) {c : Char} (hc : gap.head? = some c) :
    isIdentifierPart c = false ∧ c ≠ '\\' ∧ c ≠ '.' ∧ c.isDigit = false := by
  have hcode : c.toNat ∈ 0x2F :: Tree.gapCodes := by
    cases h with
    | nil => cases hc
    | blank hblank h =>
      obtain rfl := Option.some.inj hc
      exact List.mem_cons_of_mem _ (Tree.mem_gapCodes hblank)
    | opens h =>
      obtain rfl := Option.some.inj hc
      exact List.mem_cons_self
  have hnot := not_word_of_gap _ hcode
  rwa [Char.ofNat_toNat] at hnot

section

variable {gap rest : List Char}

theorem IsGap.endsWord (h : IsGap .code gap) (hrest : Tree.EndsWord rest) : Tree.EndsWord (gap ++ rest) := by
  cases gap with
  | nil => exact hrest
  | cons c gap =>
    obtain ⟨hpart, hbackslash, -⟩ := h.head rfl
    exact Tree.endsWord_cons ⟨hpart, hbackslash⟩ (gap ++ rest)

theorem IsGap.endsValue (h : IsGap .code gap) (hrest : Tree.EndsValue rest) : Tree.EndsValue (gap ++ rest) where
  word := h.endsWord hrest.word
  dot := by
    cases gap with
    | nil => exact hrest.dot
    | cons c gap => simpa using (h.head rfl).2.2.1
  token := by
    rw [Tree.next_gap h]
    exact hrest.token

/-- A dot before a gap and a name is a token of its own. -/
theorem IsGap.next_dot (h : IsGap .code gap) {name : String} (hname : isIdentifierName name = true) (rest : List Char) :
    Tree.next ('.' :: (gap ++ (name.toList ++ rest))) = some (.punct ".", gap ++ (name.toList ++ rest)) := by
  cases gap with
  | nil => exact Tree.next_dot hname rest
  | cons c gap =>
    obtain ⟨-, -, hdot, hdigit⟩ := h.head rfl
    exact Tree.next_dot_cons hdot hdigit _

end

/-! ## Collapsed gaps -/

/-- A gap stays a gap where its blanks are collapsed. -/
theorem IsGap.collapse {gap : Gap} {cs : List Char} (h : IsGap gap cs) : IsGap gap (collapse cs) := by
  have hspace : isSpace ' ' = true ∨ isLineEnd ' ' = true := .inl rfl
  induction h with
  | nil => exact .nil
  | @blank c cs hc _ ih =>
    rcases collapse_cons c cs with heq | ⟨-, heq | heq⟩
    · exact heq ▸ .blank hc ih
    · exact heq ▸ ih
    · exact heq ▸ .blank hspace ih
  | opens _ ih => exact .opens ih
  | @inside c cs hc _ ih =>
    have hhead : (Text.collapse cs).head? = some '/' → cs.head? = some '/' := by
      rw [head?_collapse]
      intro h
      obtain ⟨d, hd, heq⟩ := Option.map_eq_some_iff.1 h
      split at heq
      · cases heq
      · rw [hd, heq]
    rcases collapse_cons c cs with heq | ⟨-, heq | heq⟩
    · exact heq ▸ .inside (fun hstar => mt hhead (hc hstar)) ih
    · exact heq ▸ ih
    · exact heq ▸ .inside (fun hstar => absurd hstar (by decide)) ih
  | closes _ ih => exact .closes ih

end TemplateCompiler.Script
