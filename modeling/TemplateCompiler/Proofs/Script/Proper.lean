import TemplateCompiler.Proofs.Script.NumberText
import TemplateCompiler.Proofs.Script.NumericLiteral
import TemplateCompiler.Proofs.Script.Suffixes
/-!
# What tokens carry

A word that nothing is at fault in is an identifier name, its escapes undone, and a number carries the text of its value
(`exists_of_lexeme`).
-/

namespace TemplateCompiler.Script

open TemplateCompiler.Text TemplateCompiler.Number

/-! ## Words -/

/-- The first character of a word is one of `isNext`, and the others go on with an identifier. -/
def IsWordOf (isNext : Char → Bool) (name : List Char) : Prop :=
  ∀ c more, name = c :: more → isNext c = true ∧ ∀ d ∈ more, isIdentifierPart d = true

theorem IsWordOf.cons {isNext : Char → Bool} {c : Char} {name : List Char} (hc : isNext c = true)
    (h : IsWordOf isIdentifierPart name) : IsWordOf isNext (c :: name) := by
  intro d more heq
  obtain ⟨rfl, rfl⟩ := List.cons.inj heq
  refine ⟨hc, ?_⟩
  cases name with
  | nil => simp
  | cons e name => exact List.forall_mem_cons.2 (h e name rfl)

/-- A word is as it should be unless something is at fault in it. -/
theorem isWordOf_word (isNext : Char → Bool) (cs : List Char) (h : (word isNext cs).flawed = false) :
    IsWordOf isNext (word isNext cs).name := by
  fun_induction word isNext cs with
  | case1 isNext => exact fun c more heq => by cases heq
  | case2 isNext rest code n size hcode more hnext ih =>
    exact .cons (Bool.and_eq_true_iff.1 hnext).2 (ih h)
  | case3 isNext rest code n size hcode more hnext ih => cases h
  | case4 isNext rest code hcode opening more ih => cases h
  | case5 isNext c rest hc hnext more ih => exact .cons hnext (ih h)
  | case6 isNext c rest hc hnext => exact fun c more heq => by cases heq

/-- A word at the front of a text has a name unless something is at fault in it. -/
theorem isIdentifierName_word {cs : List Char} (hstarts : startsWord cs = true)
    (h : (word isIdentifierStart cs).flawed = false) :
    isIdentifierName (String.ofList (word isIdentifierStart cs).name) = true := by
  have hne : (word isIdentifierStart cs).name ≠ [] := by
    unfold startsWord at hstarts
    cases cs with
    | nil => cases hstarts
    | cons c rest =>
      simp only [List.head?_cons, Option.any_some, Bool.or_eq_true, beq_iff_eq] at hstarts
      by_cases hc : c = '\\'
      · rw [word, if_pos hc] at h ⊢
        cases hcode : if rest.head? = some 'u' then codeEscape? (rest.drop 1) else none with
        | none =>
          simp only [hcode] at h
          cases h
        | some found =>
          simp only [hcode] at h ⊢
          split at h
          · rename_i hnext
            rw [if_pos hnext]
            simp
          · cases h
      · rw [word, if_neg hc, if_pos (hstarts.resolve_right hc)]
        simp
  have hword := isWordOf_word isIdentifierStart cs h
  obtain ⟨c, more, hname⟩ := List.exists_cons_of_ne_nil hne
  obtain ⟨hc, hmore⟩ := hword c more hname
  rw [isIdentifierName, String.toList_ofList, hname, isIdentifierChars, hc, Bool.true_and, List.all_eq_true]
  exact hmore

/-! ## Numbers -/

/-- A text is one that numbers are written as. -/
def IsNumeral (text : String) : Prop :=
  text = "inf" ∨ Tree.IsDecimal text.toList

/-- A number is kept as a numeral. -/
theorem IsKeptAs.isNumeral {literal : List Char} {text : String} (h : IsKeptAs literal text) : IsNumeral text := by
  obtain ⟨q, b, -, hresult, rfl⟩ := h
  cases b with
  | infinite => exact .inl rfl
  | finite m e => exact .inr (Tree.isDecimal_text hresult.2)

/-! ## Tokens -/

/-- What a token carries is as it should be if the token is what `read` is written as: a name is a name, and the text of a
number is that of a literal. -/
def Token.IsReadFrom (read : List Char) : Token → Prop
  | .word name _ => isIdentifierName name = true
  | .number text => HoldsNumbers read [text]
  | _ => True

theorem Token.IsReadFrom.behind {read : List Char} {token : Token} (h : token.IsReadFrom read) (before : List Char) :
    token.IsReadFrom (before ++ read) := by
  cases token with
  | number text => exact HoldsNumbers.behind h before
  | word name escaped => exact h
  | privateName | bigInteger | string | backquote | punct | invalid | done => trivial

/-- A token has been read from the front of a text. -/
def IsTokenIn (cs : List Char) (found : Written) : Prop :=
  ∃ read, cs = read ++ found.rest ∧ (found.flawed = false → found.token.IsReadFrom read)

theorem IsTokenIn.of_suffix {cs : List Char} {found : Written} (h : found.rest <:+ cs)
    (htoken : ∀ read, found.token.IsReadFrom read) : IsTokenIn cs found := by
  obtain ⟨read, hread⟩ := h
  exact ⟨read, hread.symm, fun _ => htoken read⟩

theorem IsNumberIn.isTokenIn {cs : List Char} {found : Written} (h : IsNumberIn cs found) : IsTokenIn cs found := by
  obtain ⟨literal, hcs, htoken⟩ := h
  refine ⟨literal, hcs, fun hflawed => ?_⟩
  rcases htoken hflawed with hbig | ⟨text, htext, hkept⟩
  · rw [hbig]
    trivial
  · rw [htext]
    exact .single hkept

theorem isTokenIn_punct? {cs : List Char} {found : Written} (h : punct? cs = some found) : IsTokenIn cs found := by
  unfold punct? at h
  split at h
  · split at h
    · cases h
      exact .of_suffix (List.suffix_cons _ _) fun _ => trivial
    · cases h
      exact .of_suffix ((List.suffix_cons _ _).trans (List.suffix_cons _ _)) fun _ => trivial
  · obtain ⟨⟨chars, text⟩, -, rfl⟩ := Option.map_eq_some_iff.1 h
    exact .of_suffix (List.drop_suffix _ _) fun _ => trivial

theorem isTokenIn_token? {cs : List Char} {found : Written} (h : token? cs = some found) : IsTokenIn cs found := by
  unfold token? at h
  split at h
  · cases h
    exact .of_suffix List.suffix_rfl fun _ => trivial
  · dsimp only at h
    split_ifs at h with hstarts hdigit hquote htemplate hprivate hname
    · cases h
      obtain ⟨read, hread⟩ := suffix_word isIdentifierStart _
      exact ⟨read, hread.symm, isIdentifierName_word hstarts⟩
    · exact (isNumberIn_number? h).isTokenIn
    · obtain ⟨⟨codes, flawed, after⟩, hbody, rfl⟩ := Option.map_eq_some_iff.1 h
      exact .of_suffix ((suffix_stringBody? hbody).trans (List.suffix_cons _ _)) fun _ => trivial
    · obtain ⟨chunk, -, rfl⟩ := Option.map_eq_some_iff.1 h
      exact .of_suffix (List.suffix_cons _ _) fun _ => trivial
    · cases h
      exact .of_suffix ((suffix_word _ _).trans (List.suffix_cons _ _)) fun _ => trivial
    · exact isTokenIn_punct? h

/-- The next token takes a piece from the front of a text, and what it carries is as it should be unless something is at
fault in it. -/
theorem exists_of_lexeme (cs : List Char) :
    ∃ read, cs = read ++ (lexeme cs).rest ∧ ((lexeme cs).flawed = false → (lexeme cs).token.IsReadFrom read) := by
  unfold lexeme
  dsimp only
  split
  · rename_i onNewLine start hgap
    obtain ⟨gap, rfl⟩ := suffix_skipGap hgap
    cases htoken : token? start with
    | none => exact ⟨gap ++ start, (List.append_nil _).symm, fun hflawed => by cases hflawed⟩
    | some found =>
      obtain ⟨read, rfl, hread⟩ := isTokenIn_token? htoken
      exact ⟨gap ++ read, (List.append_assoc _ _ _).symm, fun hflawed => (hread hflawed).behind gap⟩
  · exact ⟨cs, (List.append_nil _).symm, fun hflawed => by cases hflawed⟩

end TemplateCompiler.Script
