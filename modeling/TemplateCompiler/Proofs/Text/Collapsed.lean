import TemplateCompiler.Proofs.Text.Blank
/-!
# Collapsed text

Text of blanks alone is not shown, and what is shown of any other text has one space for each run of blanks in it
(`shown_collapses`). Blanks are all characters with the property `White_Space`, a no-break space among them: only for
texts without such blanks of their own would it do to collapse the blanks of markup (`collapses_isMarkupBlank_iff`).
-/

namespace TemplateCompiler.Text

/-! ## Runs of characters -/

/-- The text `ds` is `cs` with each maximal run of characters that satisfy `p` replaced by one space. -/
inductive RunsReplaced (p : Char → Bool) : List Char → List Char → Prop where
  | nil : RunsReplaced p [] []
  | kept {c : Char} {cs ds : List Char} (hc : p c = false) (h : RunsReplaced p cs ds) : RunsReplaced p (c :: cs) (c :: ds)
  | run {run cs ds : List Char} (hne : run ≠ []) (hrun : ∀ c ∈ run, p c = true)
      (hend : ∀ c, cs.head? = some c → p c = false) (h : RunsReplaced p cs ds) : RunsReplaced p (run ++ cs) (' ' :: ds)

namespace RunsReplaced

variable {p : Char → Bool} {cs ds : List Char}

/-- A character that does not satisfy `p` stays. -/
theorem mem_iff (h : RunsReplaced p cs ds) {c : Char} (hc : p c = false) (hspace : c ≠ ' ') : c ∈ ds ↔ c ∈ cs := by
  induction h with
  | nil => exact .rfl
  | kept hd h ih => rw [List.mem_cons, List.mem_cons, ih]
  | run hne hrun hend h ih =>
    have hnot : c ∉ _ := fun hmem => Bool.false_ne_true (hc.symm.trans (hrun c hmem))
    simp [hspace, hnot, ih]

/-- Of the characters that satisfy `p`, only spaces are left. -/
theorem eq_space (h : RunsReplaced p cs ds) {c : Char} (hmem : c ∈ ds) (hc : p c = true) : c = ' ' := by
  induction h with
  | nil => cases hmem
  | kept hd h ih =>
    rcases List.mem_cons.1 hmem with rfl | hmem
    · exact absurd (hd.symm.trans hc) Bool.false_ne_true
    · exact ih hmem
  | run hne hrun hend h ih =>
    rcases List.mem_cons.1 hmem with rfl | hmem
    · rfl
    · exact ih hmem

/-- Only characters of the text itself count. -/
theorem congr {q : Char → Bool} (h : RunsReplaced p cs ds) (hpq : ∀ c ∈ cs, p c = q c) : RunsReplaced q cs ds := by
  induction h with
  | nil => exact .nil
  | kept hc h ih =>
    obtain ⟨hfirst, hlater⟩ := List.forall_mem_cons.1 hpq
    exact .kept (hfirst ▸ hc) (ih hlater)
  | run hne hrun hend h ih =>
    rw [List.forall_mem_append] at hpq
    refine .run hne (fun c hc => hpq.1 c hc ▸ hrun c hc) (fun c hc => ?_) (ih hpq.2)
    rw [← hpq.2 c (List.mem_of_mem_head? hc)]
    exact hend c hc

end RunsReplaced

theorem exists_runsReplaced (p : Char → Bool) : ∀ cs, ∃ ds, RunsReplaced p cs ds
  | [] => ⟨[], .nil⟩
  | c :: cs => by
    cases hc : p c with
    | false =>
      obtain ⟨ds, h⟩ := exists_runsReplaced p cs
      exact ⟨c :: ds, .kept hc h⟩
    | true =>
      obtain ⟨ds, h⟩ := exists_runsReplaced p (cs.dropWhile p)
      have hsplit : c :: cs = (c :: cs.takeWhile p) ++ cs.dropWhile p := by simp
      rw [hsplit]
      refine ⟨' ' :: ds, .run (List.cons_ne_nil _ _) ?_ (fun d hd => ?_) h⟩
      · exact List.forall_mem_cons.2 ⟨hc, fun d hd => List.mem_takeWhile_imp hd⟩
      · have hnot := List.head?_dropWhile_not p cs
        rwa [hd] at hnot
termination_by cs => cs.length
decreasing_by
  · exact Nat.lt_succ_self _
  · exact Nat.lt_succ_of_le (List.dropWhile_sublist p).length_le

/-! ## Collapsed text -/

theorem collapse_run {run cs : List Char} (hne : run ≠ []) (hrun : ∀ c ∈ run, isBlank c = true)
    (hend : ∀ c, cs.head? = some c → isBlank c = false) : collapse (run ++ cs) = ' ' :: collapse cs := by
  rw [collapse_append_of_head hend]
  induction run with
  | nil => exact absurd rfl hne
  | cons c run ih =>
    obtain ⟨hc, hlater⟩ := List.forall_mem_cons.1 hrun
    cases run with
    | nil => simp [collapse, hc]
    | cons d run =>
      rw [collapse_blank_blank hc (hlater d (by simp))]
      exact ih (List.cons_ne_nil _ _) hlater

theorem RunsReplaced.eq_collapse {cs ds : List Char} (h : RunsReplaced isBlank cs ds) : ds = collapse cs := by
  induction h with
  | nil => rfl
  | kept hc h ih => rw [collapse_cons_of_not hc, ih]
  | run hne hrun hend h ih => rw [collapse_run hne hrun hend, ih]

/-- Collapsed text is the text with its runs of blanks replaced. -/
theorem runsReplaced_iff {cs ds : List Char} : RunsReplaced isBlank cs ds ↔ ds = collapse cs := by
  refine ⟨RunsReplaced.eq_collapse, ?_⟩
  rintro rfl
  obtain ⟨ds, h⟩ := exists_runsReplaced isBlank cs
  exact h.eq_collapse ▸ h

/-- In collapsed text, each run of blanks is one space already. -/
theorem collapse_collapse (cs : List Char) : collapse (collapse cs) = collapse cs := by
  refine (RunsReplaced.eq_collapse ?_).symm
  have h := runsReplaced_iff.2 (Eq.refl (collapse cs))
  generalize collapse cs = ds at h
  induction h with
  | nil => exact .nil
  | kept hc h ih => exact .kept hc ih
  | @run run cs ds hne hrun hend h ih =>
    -- The space that a run has become is a run by itself: no blank follows.
    refine RunsReplaced.run (List.cons_ne_nil ' ' []) (List.forall_mem_singleton.2 rfl) (fun c hc => ?_) ih
    rw [h.eq_collapse, head?_collapse, Option.map_eq_some_iff] at hc
    obtain ⟨d, hd, rfl⟩ := hc
    simp [hend d hd]

/-! ## Shown text -/

theorem shown_eq_some_iff {text visible : String} :
    shown false text = some visible ↔ (∃ c ∈ text.toList, isBlank c = false) ∧ visible.toList = collapse text.toList := by
  rw [shown, if_neg Bool.false_ne_true]
  by_cases hsome : ∃ c ∈ text.toList, isBlank c = false
  · have hall : ¬ text.toList.all isBlank = true := by simpa using hsome
    rw [if_neg hall, Option.some.injEq, and_iff_right hsome, ← String.toList_inj, String.toList_ofList, eq_comm]
  · have hall : text.toList.all isBlank = true := by simpa using hsome
    simp [hall, hsome]

theorem shown_eq_none_iff {text : String} : shown false text = none ↔ ∀ c ∈ text.toList, isBlank c = true := by
  simp [shown]

/-- What is shown of a text is shown as it is. -/
theorem shown_shown {text visible : String} (h : shown false text = some visible) :
    shown false visible = some visible := by
  obtain ⟨⟨c, hmem, hc⟩, hvisible⟩ := shown_eq_some_iff.1 h
  have hspace : c ≠ ' ' := by
    rintro rfl
    cases hc
  have hkept : c ∈ visible.toList := by
    rw [hvisible]
    exact ((runsReplaced_iff.2 rfl).mem_iff hc hspace).2 hmem
  exact shown_eq_some_iff.2 ⟨⟨c, hkept, hc⟩, by rw [hvisible, collapse_collapse]⟩

/-- What is shown of a text where blanks are those characters that satisfy `p`: nothing if it is blank, and otherwise
the text with its runs of blanks replaced, which is shown as it is. -/
structure Collapses (p : Char → Bool) (text : String) : Prop where
  none_iff : shown false text = none ↔ ∀ c ∈ text.toList, p c = true
  some_iff : ∀ visible, shown false text = some visible ↔
    (∃ c ∈ text.toList, p c = false) ∧ RunsReplaced p text.toList visible.toList
  again : ∀ visible, shown false text = some visible → shown false visible = some visible

/-- Text of blanks alone is not shown. Elsewhere runs of blanks become spaces, and what is shown then is shown as it
is. -/
theorem shown_collapses (text : String) : Collapses isBlank text where
  none_iff := shown_eq_none_iff
  some_iff visible := by rw [shown_eq_some_iff, runsReplaced_iff]
  again _ := shown_shown

/-! ## Blanks of markup -/

/-- The blanks of markup. -/
def isMarkupBlank (c : Char) : Bool :=
  c == ' ' || c == '\t' || c == '\n' || c == '\x0c' || c == '\r'

theorem isBlank_of_isMarkupBlank {c : Char} (h : isMarkupBlank c = true) : isBlank c = true := by
  simp only [isMarkupBlank, Bool.or_eq_true, beq_iff_eq] at h
  rcases h with (((rfl | rfl) | rfl) | rfl) | rfl <;> decide

/-- Text is shown with no blanks but those of markup collapsed exactly if it has no others. -/
theorem collapses_isMarkupBlank_iff (text : String) :
    Collapses isMarkupBlank text ↔ ∀ c ∈ text.toList, isBlank c = isMarkupBlank c := by
  constructor
  · intro h c hmem
    by_contra hne
    have hc : isBlank c = true ∧ isMarkupBlank c = false := by
      cases hb : isBlank c <;> cases hm : isMarkupBlank c <;> simp_all [isBlank_of_isMarkupBlank]
    -- Where only the blanks of markup count the character is kept, but no blank except spaces is.
    cases hshown : shown false text with
    | none => exact Bool.false_ne_true (hc.2.symm.trans (h.none_iff.1 hshown c hmem))
    | some visible =>
      have hspace : c ≠ ' ' := by
        rintro rfl
        exact absurd hc.2 (by decide)
      have hkept := (((h.some_iff visible).1 hshown).2.mem_iff hc.2 hspace).2 hmem
      exact hspace ((runsReplaced_iff.2 (shown_eq_some_iff.1 hshown).2).eq_space hkept hc.1)
  · intro h
    refine ⟨?_, fun visible => ?_, fun visible => shown_shown⟩
    · rw [shown_eq_none_iff]
      exact forall₂_congr fun c hc => by rw [h c hc]
    · have hruns : RunsReplaced isBlank text.toList visible.toList ↔ RunsReplaced isMarkupBlank text.toList visible.toList :=
        ⟨fun hr => hr.congr h, fun hr => hr.congr fun c hc => (h c hc).symm⟩
      rw [shown_eq_some_iff, ← runsReplaced_iff, hruns]
      exact and_congr_left' (exists_congr fun c => and_congr_right fun hc => by rw [h c hc])

/-- A no-break space is no blank of markup, and is not shown. -/
theorem not_collapses_isMarkupBlank : ¬ Collapses isMarkupBlank "\u00a0" := by
  intro h
  have hall := h.none_iff.1 (by decide)
  exact absurd (hall '\u00a0' (by decide)) (by decide)

end TemplateCompiler.Text
