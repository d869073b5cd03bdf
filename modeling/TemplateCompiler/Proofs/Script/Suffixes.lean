import Mathlib.Data.List.Infix
import TemplateCompiler.Proofs.Script.Lexemes
/-!
# What is left behind a token

What makes a token takes a piece from the front of a text, and what it leaves is an end of the text.
-/

namespace TemplateCompiler.Script

open TemplateCompiler.Text

theorem suffix_skipGap {gap : Gap} {newline found : Bool} {cs rest : List Char}
    (h : skipGap gap newline cs = some (found, rest)) : rest <:+ cs := by
  fun_induction skipGap gap newline cs
  case case1 ih | case2 ih | case8 ih => exact (ih h).trans ((List.suffix_cons _ _).trans (List.suffix_cons _ _))
  case case3 ih | case4 ih | case6 ih | case7 ih | case9 ih => exact (ih h).trans (List.suffix_cons _ _)
  case case5 => cases h; exact List.suffix_rfl
  case case10 => cases h
  case case11 => cases h; exact List.suffix_rfl

theorem suffix_word (isNext : Char → Bool) (cs : List Char) : (word isNext cs).rest <:+ cs := by
  fun_induction word isNext cs
  case case1 => exact List.suffix_rfl
  case case2 ih | case3 ih | case4 ih => exact ih.trans ((List.drop_suffix _ _).trans (List.suffix_cons _ _))
  case case5 ih => exact ih.trans (List.suffix_cons _ _)
  case case6 => exact List.suffix_rfl

theorem suffix_stringBody? {close : Char} {cs : List Char} {found : List Nat × Bool × List Char}
    (h : stringBody? close cs = some found) : found.2.2 <:+ cs := by
  fun_induction stringBody? close cs generalizing found
  case case1 => cases h
  case case2 => cases h; exact List.suffix_cons _ _
  case case3 ih | case4 ih =>
    obtain ⟨⟨more, flawed, after⟩, hmore, h⟩ := Option.bind_eq_some_iff.1 h
    cases h
    exact (ih hmore).trans ((List.drop_suffix _ _).trans (List.suffix_cons _ _))
  case case5 => cases h
  case case6 ih =>
    obtain ⟨⟨more, flawed, after⟩, hmore, h⟩ := Option.bind_eq_some_iff.1 h
    cases h
    exact (ih hmore).trans (List.suffix_cons _ _)

theorem suffix_templateChunk? {cs : List Char} {found : Chunk × List Char} (h : templateChunk? cs = some found) :
    found.2 <:+ cs := by
  fun_induction templateChunk? cs generalizing found
  case case1 => cases h
  case case2 => cases h; exact List.suffix_cons _ _
  case case3 => cases h; exact (List.suffix_cons _ _).trans (List.suffix_cons _ _)
  case case4 ih | case5 ih | case6 ih =>
    obtain ⟨more, hmore, rfl⟩ := Option.map_eq_some_iff.1 h
    exact (ih hmore).trans ((List.suffix_cons _ _).trans (List.suffix_cons _ _))
  case case7 ih | case8 ih =>
    obtain ⟨more, hmore, rfl⟩ := Option.map_eq_some_iff.1 h
    exact (ih hmore).trans (List.suffix_cons _ _)

end TemplateCompiler.Script
