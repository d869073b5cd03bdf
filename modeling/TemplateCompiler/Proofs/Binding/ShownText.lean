import TemplateCompiler.Proofs.Binding.Parts
import TemplateCompiler.Proofs.Render.Occurrences
import TemplateCompiler.Proofs.Script.SpacedTerms
/-!
# Bindings in shown text

What is shown of a text is split into parts, and not the text as it is written. The groups of a text stay where they
are when its blanks are collapsed, since all blanks do the same to a scan for a brace (`closeGroup?_collapse`). The code
of a binding is collapsed with the text around it. That makes no difference where blanks stand between its tokens only
(`readBinding_collapse`), but it does in a string (`not_hasBindings_shown`).
-/

namespace TemplateCompiler.Binding

open TemplateCompiler.Text TemplateCompiler.Script

/-! ## Groups of collapsed text -/

namespace Nesting

variable {n n' : Nesting}

/-- The scan behind a blank. -/
def pastBlank (n : Nesting) : Nesting :=
  if n.escaped || (n.quote.isNone && n.inTemplate) then { n with escaped := false, dollar := false } else n

/-- No blank ends the open string. -/
def QuoteNotBlank (n : Nesting) : Prop :=
  ∀ q, n.quote = some q → isBlank q = false

theorem step_of_isBlank (h : n.QuoteNotBlank) {c : Char} (hc : isBlank c = true) : n.step c = .inside n.pastBlank := by
  have hne {d : Char} (hd : isBlank d = false) : c ≠ d := by
    rintro rfl
    rw [hc] at hd
    cases hd
  have hplain : c ≠ '\\' ∧ c ≠ '`' ∧ c ≠ '{' ∧ c ≠ '}' ∧ c ≠ '"' ∧ c ≠ '\'' ∧ c ≠ '$' := by
    refine ⟨?_, ?_, ?_, ?_, ?_, ?_, ?_⟩ <;> exact hne (by decide)
  obtain ⟨depth, quote, templates, escaped, dollar⟩ := n
  cases escaped
  case true => rfl
  cases quote with
  | some q => simp [step, pastBlank, hplain, hne (h q rfl)]
  | none =>
    by_cases htemplate : inTemplate ⟨depth, none, templates, false, dollar⟩ = true
    · simp [step, pastBlank, hplain, htemplate]
    · simp [step, pastBlank, hplain, htemplate]

theorem pastBlank_pastBlank (n : Nesting) : n.pastBlank.pastBlank = n.pastBlank := by
  by_cases h : (n.escaped || (n.quote.isNone && n.inTemplate)) = true
  · simp [pastBlank, h]
  · simp [pastBlank, h]

theorem QuoteNotBlank.pastBlank (h : n.QuoteNotBlank) : n.pastBlank.QuoteNotBlank := by
  unfold Nesting.pastBlank
  split
  · exact h
  · exact h

theorem quote_of_step {c : Char} (h : n.step c = .inside n') :
    n'.quote = n.quote ∨ n'.quote = none ∨ n'.quote = some '"' ∨ n'.quote = some '\'' := by
  unfold step at h
  repeat' split at h
  all_goals cases h
  all_goals simp_all

theorem QuoteNotBlank.step (h : n.QuoteNotBlank) {c : Char} (hstep : n.step c = .inside n') : n'.QuoteNotBlank := by
  intro q hq
  rcases quote_of_step hstep with hsame | hnone | hdouble | hsingle
  · exact h q (hsame ▸ hq)
  · simp [hnone] at hq
  · obtain rfl := Option.some.inj (hdouble ▸ hq)
    decide
  · obtain rfl := Option.some.inj (hsingle ▸ hq)
    decide

theorem quoteNotBlank_outside : outside.QuoteNotBlank := by
  intro q hq
  cases hq

end Nesting

/-- The group at the front of a text is found in the collapsed text, where it is collapsed too. -/
theorem closeGroup?_collapse {n : Nesting} (h : n.QuoteNotBlank) (cs : List Char) :
    closeGroup? n (collapse cs) = (closeGroup? n cs).map fun p => (collapse p.1, collapse p.2) := by
  induction cs generalizing n with
  | nil => rfl
  | cons c cs ih =>
    by_cases hc : isBlank c = true
    · have hstep := Nesting.step_of_isBlank h hc
      cases cs with
      | nil =>
        have hspace := Nesting.step_of_isBlank h (show isBlank ' ' = true by decide)
        simp [collapse, hc, closeGroup?, hstep, hspace]
      | cons d cs =>
        by_cases hd : isBlank d = true
        · -- The first of two blanks is left out, and the scan stands behind the other where it stood behind both.
          have hfirst := Nesting.step_of_isBlank h hd
          have hsecond := Nesting.step_of_isBlank h.pastBlank hd
          rw [Nesting.pastBlank_pastBlank] at hsecond
          rw [collapse_blank_blank hc hd, ih h, closeGroup?, closeGroup?, hstep, hfirst]
          dsimp only
          rw [closeGroup?, hsecond]
          simp only [Option.map_map, Function.comp_def, collapse_blank_blank hc hd]
        · rw [Bool.not_eq_true] at hd
          have hspace := Nesting.step_of_isBlank h (show isBlank ' ' = true by decide)
          rw [collapse_blank_not hc hd, closeGroup?, hspace, closeGroup?, hstep]
          dsimp only
          rw [ih h.pastBlank, Option.map_map, Option.map_map]
          refine Option.map_congr fun p hp => ?_
          obtain ⟨group, rest⟩ := p
          obtain ⟨hsplit, hne⟩ := closeGroup?_append hp
          obtain ⟨e, group, rfl⟩ := List.exists_cons_of_ne_nil hne
          obtain rfl := (List.cons.inj hsplit).1
          simp [collapse_blank_not hc hd]
    · rw [Bool.not_eq_true] at hc
      rw [collapse_cons_of_not hc, closeGroup?, closeGroup?]
      cases hstep : n.step c with
      | inside n' =>
        simp [ih (h.step hstep), Function.comp_def, collapse_cons_of_not hc]
      | closed => simp [collapse, hc]
      | unbalanced => rfl

theorem collapse_braced (code : List Char) : collapse (braced code) = braced (collapse code) := by
  rw [braced, collapse_cons_of_not (by decide), collapse_append_cons (by decide)]
  rfl

/-- The text has these groups, between runs without a brace. -/
inductive HasGroups : List Char → List (List Char) → Prop where
  | plain {run : List Char} (h : '{' ∉ run) : HasGroups run []
  | group {run after code rest : List Char} {codes : List (List Char)} (hrun : '{' ∉ run)
    (h : group? ('{' :: after) = some (braced code, rest)) (hrest : HasGroups rest codes) :
    HasGroups (run ++ '{' :: after) (code :: codes)

theorem HasGroups.collapse {cs : List Char} {codes : List (List Char)} (h : HasGroups cs codes) :
    HasGroups (collapse cs) (codes.map Text.collapse) := by
  have hrun {run : List Char} (h : '{' ∉ run) : '{' ∉ Text.collapse run := by
    intro hmem
    rcases mem_collapse hmem with hmem | hmem
    · exact h hmem
    · cases hmem
  induction h with
  | plain h => exact .plain (hrun h)
  | @group run after code rest codes h hgroup hrest ih =>
    rw [collapse_append_cons (by decide)]
    refine .group (hrun h) ?_ ih
    rw [← collapse_cons_of_not (by decide), group?, closeGroup?_collapse Nesting.quoteNotBlank_outside, ← group?,
      hgroup, Option.map_some, collapse_braced]

/-! ## Parts -/

theorem filterMap_literalParts (run : List Char) : (literalParts run).filterMap TextPart.expr? = [] := by
  unfold literalParts
  split <;> rfl

/-- The bindings of a text that is split are read from the codes of its groups. -/
theorem HasGroups.of_splits {cs : List Char} {parts : List TextPart} (h : Splits parts cs) :
    ∃ codes, HasGroups cs codes ∧ codes.map readBinding = (parts.filterMap TextPart.expr?).map .ok := by
  induction h with
  | plain h => exact ⟨[], .plain h, by simp [filterMap_literalParts]⟩
  | @binding run after code rest expr parts hrun hbinding _ ih =>
    obtain ⟨codes, hcodes, hread⟩ := ih
    refine ⟨code :: codes, .group hrun (group?_eq_some_iff.2 ⟨hbinding.split, hbinding.group⟩) hcodes, ?_⟩
    simp [filterMap_literalParts, TextPart.expr?, hbinding.read, hread]

/-- A text is split if its groups are bindings, and its bindings are read from their codes. -/
theorem HasGroups.splits {cs : List Char} {codes : List (List Char)} (h : HasGroups cs codes) {exprs : List Expr}
    (hread : codes.map readBinding = exprs.map .ok) :
    ∃ parts, Splits parts cs ∧ parts.filterMap TextPart.expr? = exprs := by
  induction h generalizing exprs with
  | plain h =>
    obtain rfl : exprs = [] := by simpa using hread
    exact ⟨_, .plain h, filterMap_literalParts _⟩
  | @group run after code rest codes hrun hgroup _ ih =>
    obtain ⟨hsplit, hgroup⟩ := group?_eq_some_iff.1 hgroup
    cases exprs with
    | nil => cases hread
    | cons expr exprs =>
      obtain ⟨hcode, hread⟩ := List.cons.inj hread
      obtain ⟨parts, hparts, rfl⟩ := ih hread
      exact ⟨_, .binding hrun ⟨hsplit, hgroup, hcode⟩ hparts, by simp [filterMap_literalParts, TextPart.expr?]⟩

theorem HasGroups.unique {cs : List Char} {codes codes' : List (List Char)} (h : HasGroups cs codes)
    (h' : HasGroups cs codes') : codes = codes' := by
  induction h generalizing codes' with
  | plain hplain =>
    cases h' with
    | plain => rfl
    | group => exact absurd (List.mem_append_right _ List.mem_cons_self) hplain
  | @group run after code rest codes hrun hgroup _ ih =>
    generalize hcs : run ++ '{' :: after = cs at h'
    cases h' with
    | plain hplain =>
      rw [← hcs] at hplain
      exact absurd (List.mem_append_right _ List.mem_cons_self) hplain
    | @group run' after' code' rest' codes' hrun' hgroup' hrest' =>
      obtain ⟨-, hdrop⟩ := takeWhile_run hrun after
      rw [hcs, (takeWhile_run hrun' after').2] at hdrop
      obtain rfl := (List.cons.inj hdrop).2
      rw [hgroup] at hgroup'
      obtain ⟨hcode, rfl⟩ := Prod.mk.inj (Option.some.inj hgroup')
      have hcode : code = code' := by simpa using congrArg groupCode hcode
      rw [hcode, ih hrest']

/-- The text is split into parts, and its bindings are these expressions, in their order. -/
def HasBindings (text : String) (exprs : List Expr) : Prop :=
  ∃ parts, splitText text.toList = .ok parts ∧ parts.filterMap TextPart.expr? = exprs

/-- A text whose bindings print as given. -/
theorem exists_hasBindings {text : String} {printed : List String} (h : (splitText text.toList).toOption.map
    (fun parts => (parts.filterMap TextPart.expr?).map (Expr.toJs [])) = some printed) :
    ∃ exprs, HasBindings text exprs ∧ exprs.map (Expr.toJs []) = printed := by
  cases hsplit : splitText text.toList with
  | error error => rw [hsplit] at h; cases h
  | ok parts =>
    rw [hsplit] at h
    exact ⟨_, ⟨parts, hsplit, rfl⟩, Option.some.inj h⟩

/-- The bindings of a text are read from the codes of its groups. -/
theorem HasGroups.hasBindings_iff {text : String} {codes : List (List Char)} (h : HasGroups text.toList codes)
    (exprs : List Expr) : HasBindings text exprs ↔ codes.map readBinding = exprs.map .ok := by
  constructor
  · rintro ⟨parts, hparts, rfl⟩
    obtain ⟨codes', hcodes', hread⟩ := HasGroups.of_splits (splits_iff.2 (splitText_eq_ok_iff.1 hparts))
    rw [h.unique hcodes', hread]
  · intro hread
    obtain ⟨parts, hparts, hexprs⟩ := h.splits hread
    exact ⟨parts, splitText_eq_ok_iff.2 (splits_iff.1 hparts), hexprs⟩

/-- The code of a binding reads the same with its blanks collapsed if it is a term with gaps between its tokens. -/
theorem readBinding_collapse {code : List Char} {t : Term} (h : IsSpacedCode code t) :
    readBinding (collapse code) = readBinding code := by
  simp only [readBinding, h.not_blank, h.collapse.not_blank, h.readExpression, h.collapse.readExpression]

/-- Where blanks are kept the text is shown as it is. Where they are collapsed it has the same groups with their codes
collapsed, and it has the same bindings if and only if each of them reads the same in its collapsed code. So it has them
if each is a term with gaps between its tokens. -/
theorem hasBindings_shown {text : String} {exprs : List Expr} (h : HasBindings text exprs)
    (hvisible : text.toList.all isBlank = false) :
    shown true text = some text ∧ ∃ visible codes, shown false text = some visible ∧ HasGroups text.toList codes ∧
      HasGroups visible.toList (codes.map collapse) ∧
      (HasBindings visible exprs ↔ ∀ code ∈ codes, readBinding (collapse code) = readBinding code) ∧
      ((∀ code ∈ codes, ∃ t, IsSpacedCode code t) → HasBindings visible exprs) := by
  have hkept : shown true text = some text := by
    have hne : text.isEmpty = false := by
      cases hempty : text.isEmpty with
      | false => rfl
      | true => simp [String.isEmpty_iff.1 hempty] at hvisible
    simp [shown, hne]
  have hshown : shown false text = some (String.ofList (collapse text.toList)) := by simp [shown, hvisible]
  obtain ⟨parts, hparts, rfl⟩ := h
  obtain ⟨codes, hcodes, hread⟩ := HasGroups.of_splits (splits_iff.2 (splitText_eq_ok_iff.1 hparts))
  have hcollapsed : HasGroups (String.ofList (collapse text.toList)).toList (codes.map collapse) := by
    rw [String.toList_ofList]
    exact hcodes.collapse
  have hsame : HasBindings (String.ofList (collapse text.toList)) (parts.filterMap TextPart.expr?) ↔
      ∀ code ∈ codes, readBinding (collapse code) = readBinding code := by
    rw [hcollapsed.hasBindings_iff, ← hread, List.map_map, List.map_inj_left]
    rfl
  refine ⟨hkept, _, codes, hshown, hcodes, hcollapsed, hsame, fun hspaced => hsame.2 fun code hcode => ?_⟩
  obtain ⟨t, ht⟩ := hspaced code hcode
  exact readBinding_collapse ht

/-- A member that is read off on another line. -/
theorem hasBindings_shown_lines :
    ∃ exprs, HasBindings "Hi  \x7ba\n  .b \x7d!" exprs ∧ "Hi  \x7ba\n  .b \x7d!".toList.all isBlank = false ∧
      exprs.map (Expr.toJs []) = ["$cmp.a.b"] ∧
      ∃ visible, shown false "Hi  \x7ba\n  .b \x7d!" = some visible ∧ HasBindings visible exprs := by
  obtain ⟨exprs, hexprs, hprinted⟩ := exists_hasBindings (show
    (splitText "Hi  \x7ba\n  .b \x7d!".toList).toOption.map (fun parts =>
      (parts.filterMap TextPart.expr?).map (Expr.toJs [])) = some ["$cmp.a.b"] by decide +kernel)
  have hvisible : "Hi  \x7ba\n  .b \x7d!".toList.all isBlank = false := by decide
  obtain ⟨-, visible, codes, hshown, hcodes, -, -, hspaced⟩ := hasBindings_shown hexprs hvisible
  refine ⟨exprs, hexprs, hvisible, hprinted, visible, hshown, hspaced ?_⟩
  have hgroups : HasGroups "Hi  \x7ba\n  .b \x7d!".toList ["a\n  .b ".toList] :=
    @HasGroups.group "Hi  ".toList "a\n  .b \x7d!".toList "a\n  .b ".toList ['!'] [] (by decide) rfl
      (.plain (by decide))
  have hgap {cs : List Char} (h : cs.all isBlank = true) : IsGap .code cs := isGap_of_isBlank (List.all_eq_true.1 h)
  have hmember : IsSpaced "a\n  .b".toList (.object (.member (.name "a") "b")) :=
    @IsSpaced.member "a".toList "\n  ".toList [] (.name "a") "b" (.name (by decide) (by decide) (by decide))
      (hgap (by decide)) .nil (by decide)
  intro code hcode
  rw [hcodes.unique hgroups, List.mem_singleton] at hcode
  exact ⟨_, "a\n  .b".toList, [' '], hcode, .value .nil hmember, hgap (by decide)⟩

/-- Blanks in a string are collapsed as well, and the binding reads another member then. -/
theorem not_hasBindings_shown :
    ¬ ∀ (text : String) (exprs : List Expr), HasBindings text exprs → text.toList.all isBlank = false →
      ∃ visible, shown false text = some visible ∧ HasBindings visible exprs := by
  intro h
  obtain ⟨exprs, hexprs, hprinted⟩ := exists_hasBindings (show
    (splitText "\x7bm[\"a  b\"]\x7d".toList).toOption.map (fun parts =>
      (parts.filterMap TextPart.expr?).map (Expr.toJs [])) = some ["$cmp.m[\"a  b\"]"] by decide +kernel)
  obtain ⟨exprs', ⟨parts', hparts', hexprs'⟩, hprinted'⟩ := exists_hasBindings (show
    (splitText "\x7bm[\"a b\"]\x7d".toList).toOption.map (fun parts =>
      (parts.filterMap TextPart.expr?).map (Expr.toJs [])) = some ["$cmp.m[\"a b\"]"] by decide +kernel)
  obtain ⟨visible, hvisible, parts, hparts, rfl⟩ := h _ exprs hexprs (by decide)
  obtain rfl : "\x7bm[\"a b\"]\x7d" = visible := Option.some.inj (Eq.trans (by decide +kernel) hvisible)
  rw [hparts'] at hparts
  obtain rfl := Except.ok.inj hparts
  rw [hexprs', hprinted'] at hprinted
  simp at hprinted

end TemplateCompiler.Binding
