import Mathlib.Algebra.Ring.Parity
import Mathlib.Data.List.DropRight
import TemplateCompiler.Proofs.Script.Pieces
import TemplateCompiler.Text.TemplateLiteral
/-!
# Escaped text in a template literal

Escaped text between backquotes is a template without substitutions, and it denotes the text that was escaped
(`escapeTemplateLiteral_isExact`). The characters are escaped in one pass; three replacements one after the other,
each of them in the whole text, come to the same (`escapeLiteral_eq_replaceAll`).
-/

namespace TemplateCompiler.Text

open Script (IsPiece lineFeeds lineFeeds_of_not_mem templateChunk? templateChunk?_plain)

/-! ## Reading a template literal -/

/-- The text that a piece of a template denotes whose escapes are such of backslashes, backquotes and dollar signs. -/
def pieceText? : List Char → Option (List Char)
  | [] => some []
  | '\\' :: c :: cs => if c = '\\' ∨ c = '`' ∨ c = '$' then (pieceText? cs).map (c :: ·) else none
  | c :: cs => if c = '\\' then none else (pieceText? cs).map (c :: ·)

/-- The text that a template without substitutions denotes, read behind its opening backquote, and what follows its
closing one. -/
def literalText? (cs : List Char) : Option (List Char × List Char) :=
  match templateChunk? cs with
  | some (⟨raw, true, false⟩, rest) => (pieceText? (lineFeeds raw)).map fun text => (text, rest)
  | _ => none

theorem pieceText?_plain {c : Char} (hc : c ≠ '\\') (cs : List Char) :
    pieceText? (c :: cs) = (pieceText? cs).map (c :: ·) := by
  rw [pieceText?]
  · rw [if_neg hc]
  · rintro d ds rfl
    exact absurd rfl hc

/-! ## Escaped text is a piece of a template -/

/-- An opening brace is never escaped itself, and no escape starts with one. -/
theorem head?_escapeLiteral (cs : List Char) : (escapeLiteral cs).head? = some '{' ↔ cs.head? = some '{' := by
  fun_cases escapeLiteral cs <;> simp

theorem dollar_not_brace {c : Char} {cs : List Char} (h : ∀ ds, c = '$' → cs = '{' :: ds → False) :
    c = '$' → (escapeLiteral cs).head? ≠ some '{' := by
  intro hc hhead
  obtain ⟨ds, rfl⟩ := List.head?_eq_some_iff.1 ((head?_escapeLiteral cs).1 hhead)
  exact h ds hc rfl

theorem isPiece_escapeLiteral (cs : List Char) : IsPiece (escapeLiteral cs) := by
  fun_induction escapeLiteral cs with
  | case1 => exact .nil
  | case2 cs ih => exact .escape _ ih
  | case3 cs ih => exact .escape _ ih
  | case4 cs ih => exact .escape _ (.plain (by decide) (by decide) (fun h => absurd h (by decide)) ih)
  | case5 c cs hbackslash hquote hdollar ih => exact .plain hquote hbackslash (dollar_not_brace hdollar) ih

/-- The number of backslashes at the end of a text. -/
def backslashesAfter (cs : List Char) : Nat :=
  (cs.rtakeWhile (· == '\\')).length

theorem backslashesAfter_backslash (cs : List Char) : backslashesAfter (cs ++ ['\\']) = backslashesAfter cs + 1 := by
  rw [backslashesAfter, List.rtakeWhile_concat_pos _ _ _ (by decide), List.length_append]
  rfl

theorem backslashesAfter_other {c : Char} (hc : c ≠ '\\') (cs : List Char) : backslashesAfter (cs ++ [c]) = 0 := by
  rw [backslashesAfter, List.rtakeWhile_concat_neg _ _ _ (by simpa using hc)]
  rfl

/-- In a piece of a template an odd number of backslashes stands before whatever would end it. What is before the piece
counts too, as long as it does not escape the first character. -/
theorem odd_backslashesAfter {cs : List Char} (h : IsPiece cs) {before front back : List Char}
    (hbefore : Even (backslashesAfter before)) (hsplit : cs = front ++ back)
    (hback : back.head? = some '`' ∨ ['$', '{'] <+: back) : Odd (backslashesAfter (before ++ front)) := by
  induction h generalizing before front with
  | nil =>
    obtain ⟨rfl, rfl⟩ := List.append_eq_nil_iff.1 hsplit.symm
    simp at hback
  | escape c h ih =>
    match front with
    | [] =>
      obtain rfl : _ = back := hsplit
      simp at hback
    | [d] =>
      -- What would end the piece is what the escape is of.
      obtain ⟨rfl, -⟩ := List.cons.inj hsplit
      rw [backslashesAfter_backslash]
      exact hbefore.add_one
    | d :: e :: front =>
      simp only [List.cons_append, List.cons.injEq] at hsplit
      obtain ⟨rfl, rfl, hsplit⟩ := hsplit
      have heven : Even (backslashesAfter (before ++ ['\\', c])) := by
        rw [List.append_cons before]
        by_cases hc : c = '\\'
        · rw [hc, backslashesAfter_backslash, backslashesAfter_backslash]
          exact hbefore.add_one.add_one
        · rw [backslashesAfter_other hc]
          exact Even.zero
      simpa using ih heven hsplit
  | @plain c cs hquote hbackslash hdollar h ih =>
    match front with
    | [] =>
      obtain rfl : _ = back := hsplit
      rcases hback with hback | ⟨rest, hback⟩
      · exact absurd (Option.some.inj hback) hquote
      · obtain ⟨hc, rfl⟩ := List.cons.inj hback
        exact absurd rfl (hdollar hc.symm)
    | d :: front =>
      simp only [List.cons_append, List.cons.injEq] at hsplit
      obtain ⟨rfl, hsplit⟩ := hsplit
      have heven : Even (backslashesAfter (before ++ [c])) := by
        rw [backslashesAfter_other hbackslash]
        exact Even.zero
      simpa using ih heven hsplit

/-! ## Escaping by replacement -/

/-- `cs` with each `pattern` replaced, from left to right; its first `skip` characters have been replaced already. -/
def replaceFrom (pattern replacement : List Char) : Nat → List Char → List Char
  | _, [] => []
  | skip + 1, _ :: cs => replaceFrom pattern replacement skip cs
  | 0, c :: cs =>
    if pattern.isPrefixOf (c :: cs) then replacement ++ replaceFrom pattern replacement (pattern.length - 1) cs
    else c :: replaceFrom pattern replacement 0 cs

/-- `cs` with each occurrence of `pattern` replaced. -/
def replaceAll (pattern replacement cs : List Char) : List Char :=
  replaceFrom pattern replacement 0 cs

theorem replaceAll_single (p : Char) (replacement cs : List Char) :
    replaceAll [p] replacement cs = cs.flatMap fun c => if c = p then replacement else [c] := by
  unfold replaceAll
  induction cs with
  | nil => rfl
  | cons c cs ih =>
    by_cases hc : c = p
    · simp [replaceFrom, hc, ih]
    · simp [replaceFrom, hc, Ne.symm hc, ih]

/-- Backslashes and then backquotes with a backslash before them. -/
theorem replaceAll_backslash_backquote (cs : List Char) :
    replaceAll ['`'] ['\\', '`'] (replaceAll ['\\'] ['\\', '\\'] cs) =
      cs.flatMap fun c => if c = '\\' ∨ c = '`' then ['\\', c] else [c] := by
  rw [replaceAll_single, replaceAll_single, List.flatMap_assoc]
  refine congrArg (List.flatMap · cs) (funext fun c => ?_)
  by_cases hc : c = '\\' <;> by_cases hq : c = '`' <;> simp [hc, hq]

/-- What is escaped in one pass are the backslashes, then the backquotes and then the openings of substitutions. -/
theorem escapeLiteral_eq_replaceAll (cs : List Char) :
    escapeLiteral cs = replaceAll ['$', '{'] ['\\', '$', '{']
      (replaceAll ['`'] ['\\', '`'] (replaceAll ['\\'] ['\\', '\\'] cs)) := by
  rw [replaceAll_backslash_backquote, replaceAll]
  fun_induction escapeLiteral cs with
  | case1 => rfl
  | case2 cs ih => simp [replaceFrom, ih]
  | case3 cs ih => simp [replaceFrom, ih]
  | case4 cs ih => simp [replaceFrom, ih]
  | case5 c cs hbackslash hquote hdollar ih =>
    -- No brace gets behind a dollar sign: what is put in before a character starts with a backslash.
    have hhead : ¬ ['$', '{'] <+: c :: cs.flatMap fun c => if c = '\\' ∨ c = '`' then ['\\', c] else [c] := by
      rintro ⟨rest, hrest⟩
      obtain ⟨hc, hrest⟩ := List.cons.inj hrest
      cases cs with
      | nil => simp at hrest
      | cons d ds =>
        by_cases hd : d = '\\' ∨ d = '`'
        · simp [hd] at hrest
        · rw [List.flatMap_cons, if_neg hd] at hrest
          exact hdollar ds hc.symm (congrArg (· :: ds) (List.cons.inj hrest).1.symm)
    rw [List.flatMap_cons, if_neg (not_or.2 ⟨hbackslash, hquote⟩), List.singleton_append, replaceFrom,
      if_neg (by simpa using hhead), ih]

/-! ## Escaped text is read back -/

theorem templateChunk?_escapeLiteral (cs rest : List Char) :
    templateChunk? (escapeLiteral cs ++ '`' :: rest) = some (⟨escapeLiteral cs, true, false⟩, rest) := by
  fun_induction escapeLiteral cs with
  | case1 => rfl
  | case2 cs ih => simp [templateChunk?, ih]
  | case3 cs ih => simp [templateChunk?, ih]
  | case4 cs ih =>
    rw [List.cons_append, List.cons_append, templateChunk?, List.cons_append,
      templateChunk?_plain (by decide) (by decide) fun h => absurd h (by decide), ih]
    rfl
  | case5 c cs hbackslash hquote hdollar ih =>
    have hhead : c = '$' → (escapeLiteral cs ++ '`' :: rest).head? ≠ some '{' := by
      intro hc
      cases hcs : escapeLiteral cs with
      | nil => simp
      | cons d ds => simpa [hcs] using dollar_not_brace hdollar hc
    rw [List.cons_append, templateChunk?_plain hquote hbackslash hhead, ih]
    rfl

theorem pieceText?_escapeLiteral (cs : List Char) : pieceText? (escapeLiteral cs) = some cs := by
  fun_induction escapeLiteral cs with
  | case1 => rfl
  | case2 cs ih => simp [pieceText?, ih]
  | case3 cs ih => simp [pieceText?, ih]
  | case4 cs ih =>
    have hbrace : pieceText? ('{' :: escapeLiteral cs) = some ('{' :: cs) := by
      rw [pieceText?_plain (by decide), ih]
      rfl
    simp [pieceText?, hbrace]
  | case5 c cs hbackslash hquote hdollar ih =>
    rw [pieceText?_plain hbackslash, ih]
    rfl

theorem mem_escapeLiteral {cs : List Char} {c : Char} (h : c ∈ escapeLiteral cs) : c ∈ cs ∨ c = '\\' := by
  fun_induction escapeLiteral cs with
  | case1 => cases h
  | case2 cs ih => grind
  | case3 cs ih => grind
  | case4 cs ih => grind
  | case5 d cs hbackslash hquote hdollar ih => grind

/-- Escaped text is read back. In it, an odd number of backslashes stands before every backquote and before every dollar
sign with an opening brace. -/
theorem escapeTemplateLiteral_isExact (text : String) (h : '\r' ∉ text.toList) :
    (∀ front back, (escapeTemplateLiteral text).toList = front ++ back →
      (back.head? = some '`' ∨ ['$', '{'] <+: back) → Odd (backslashesAfter front)) ∧
    ∀ rest, literalText? ((escapeTemplateLiteral text).toList ++ '`' :: rest) = some (text.toList, rest) := by
  rw [escapeTemplateLiteral, String.toList_ofList]
  refine ⟨fun front back hsplit hback => ?_, fun rest => ?_⟩
  · exact @odd_backslashesAfter _ (isPiece_escapeLiteral _) [] front back Even.zero hsplit hback
  · have hlines : lineFeeds (escapeLiteral text.toList) = escapeLiteral text.toList := by
      refine lineFeeds_of_not_mem fun hmem => ?_
      rcases mem_escapeLiteral hmem with hmem | hmem
      · exact h hmem
      · exact absurd hmem (by decide)
    rw [literalText?, templateChunk?_escapeLiteral]
    simp [hlines, pieceText?_escapeLiteral]

/-- A backslash, a backquote, and a dollar sign before the opening of a substitution. -/
theorem escapeTemplateLiteral_isExact_mixed :
    '\r' ∉ "\\`$$\x7b".toList ∧ (escapeTemplateLiteral "\\`$$\x7b").toList = "\\\\\\`$\\$\x7b".toList ∧
      Odd (backslashesAfter "\\\\\\".toList) ∧
      literalText? "\\\\\\`$\\$\x7b`;".toList = some ("\\`$$\x7b".toList, [';']) := by
  have h : '\r' ∉ "\\`$$\x7b".toList := by decide
  have htext : (escapeTemplateLiteral "\\`$$\x7b").toList = "\\\\\\".toList ++ "`$\\$\x7b".toList := by decide
  obtain ⟨hodd, hread⟩ := escapeTemplateLiteral_isExact "\\`$$\x7b" h
  refine ⟨h, htext, hodd _ _ htext (.inl rfl), ?_⟩
  have hliteral := hread [';']
  rw [htext] at hliteral
  exact hliteral

end TemplateCompiler.Text
