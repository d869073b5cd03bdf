import Mathlib.Data.List.DropRight
import TemplateCompiler.Proofs.Text.LowerCase
import TemplateCompiler.Text.Blank
/-!
# Words and trimmed text

Words are the runs of characters that are not blank, so that names without blanks are the words of their own list.
Trimmed text neither starts nor ends with a blank.
-/

namespace TemplateCompiler.Text

theorem isBlank_toLower (c : Char) : isBlank c.toLower = isBlank c := by
  rcases toLower_cases c with hl | ⟨h1, h2, h3⟩
  · rw [hl]
  · rw [Bool.eq_iff_iff]
    simp [isBlank]
    omega

/-! ## Runs -/

theorem runsOf_cons_not {p : Char → Bool} {c : Char} (hc : p c = false) (cs : List Char) :
    runsOf p (c :: cs) = runsOf p cs := by
  simp [runsOf, hc]

theorem runsOf_append {p : Char → Bool} {run rest : List Char} (hne : run ≠ []) (hrun : ∀ c ∈ run, p c = true)
    (hrest : ∀ c, rest.head? = some c → p c = false) : runsOf p (run ++ rest) = run :: runsOf p rest := by
  induction run with
  | nil => exact absurd rfl hne
  | cons c run ih =>
    have hc := hrun c (by simp)
    cases run with
    | nil =>
      cases rest with
      | nil => simp [runsOf, hc]
      | cons d rest =>
        have hd := hrest d rfl
        generalize hruns : runsOf p (d :: rest) = runs
        rw [List.singleton_append]
        unfold runsOf
        rw [if_pos hc, hruns]
        cases runs <;> simp [hd]
    | cons d run =>
      have hrec := ih (by simp) fun e he => hrun e (by simp [he])
      generalize hruns : runsOf p rest = runs at hrec ⊢
      rw [List.cons_append]
      unfold runsOf
      rw [if_pos hc, hrec]
      simp [hrun d (by simp)]

/-- The runs are what is left without the other characters. -/
theorem flatten_runsOf (p : Char → Bool) (cs : List Char) : (runsOf p cs).flatten = cs.filter p := by
  induction cs with
  | nil => rfl
  | cons c cs ih =>
    by_cases hc : p c = true
    · rw [List.filter_cons_of_pos hc, ← ih]
      generalize hruns : runsOf p cs = runs
      unfold runsOf
      rw [if_pos hc, hruns]
      cases cs with
      | nil => rfl
      | cons d ds =>
        cases runs with
        | nil => rfl
        | cons run runs => by_cases hd : p d = true <;> simp [hd]
    · rw [List.filter_cons_of_neg hc, runsOf_cons_not (by simpa using hc), ih]

theorem mem_runsOf {p : Char → Bool} {cs run : List Char} (h : run ∈ runsOf p cs) :
    run ≠ [] ∧ ∀ c ∈ run, p c = true ∧ c ∈ cs := by
  refine ⟨?_, fun c hc => ?_⟩
  · induction cs with
    | nil => cases h
    | cons c cs ih =>
      unfold runsOf at h
      split at h
      · split at h
        · rename_i d ds run' runs heq
          split at h
          · rcases List.mem_cons.1 h with rfl | h
            · simp
            · exact ih (by rw [heq]; simp [h])
          · rcases List.mem_cons.1 h with rfl | h
            · simp
            · exact ih (by rw [heq]; exact h)
        · rcases List.mem_cons.1 h with rfl | h
          · simp
          · exact ih h
      · exact ih h
  · have hflat : c ∈ (runsOf p cs).flatten := List.mem_flatten.2 ⟨run, h, hc⟩
    rw [flatten_runsOf, List.mem_filter] at hflat
    exact ⟨hflat.2, hflat.1⟩

/-! ## Words -/

/-- A word: not empty, and without blanks. -/
def isWord (s : String) : Bool :=
  !s.isEmpty && s.toList.all fun c => !isBlank c

theorem isWord_of_mem_words {s word : String} (h : word ∈ words s) :
    isWord word = true ∧ ∀ c ∈ word.toList, c ∈ s.toList := by
  obtain ⟨run, hrun, rfl⟩ := List.mem_map.1 h
  obtain ⟨hne, hall⟩ := mem_runsOf hrun
  refine ⟨?_, fun c hc => (hall c (by simpa using hc)).2⟩
  have hempty : (String.ofList run).isEmpty = false := by
    cases hr : (String.ofList run).isEmpty
    · rfl
    · rw [String.isEmpty_iff] at hr
      exact absurd (by simpa using congrArg String.toList hr) hne
  simp only [isWord, hempty, String.toList_ofList, Bool.not_false, Bool.true_and, List.all_eq_true]
  exact fun c hc => (hall c hc).1

theorem toList_intercalate (separator : String) (s : String) (ss : List String) :
    (separator.intercalate (s :: ss)).toList = s.toList ++ ss.flatMap fun t => separator.toList ++ t.toList := by
  induction ss generalizing s with
  | nil => simp
  | cons t ss ih =>
    rw [String.intercalate_cons_cons, String.toList_append, String.toList_append, ih]
    simp

theorem mem_intercalate {separator : String} {ss : List String} {c : Char}
    (h : c ∈ (separator.intercalate ss).toList) : (∃ s ∈ ss, c ∈ s.toList) ∨ c ∈ separator.toList := by
  cases ss with
  | nil => simp at h
  | cons s ss =>
    rw [toList_intercalate, List.mem_append, List.mem_flatMap] at h
    rcases h with h | ⟨t, ht, h⟩
    · exact .inl ⟨s, by simp, h⟩
    · rcases List.mem_append.1 h with h | h
      · exact .inr h
      · exact .inl ⟨t, by simp [ht], h⟩

/-- Words are the words of their list. -/
theorem words_intercalate {ss : List String} (h : ∀ s ∈ ss, isWord s = true) : words (" ".intercalate ss) = ss := by
  have hword : ∀ s ∈ ss, s.toList ≠ [] ∧ ∀ c ∈ s.toList, (!isBlank c) = true := by
    intro s hs
    have := h s hs
    simp only [isWord, Bool.and_eq_true, List.all_eq_true, Bool.not_eq_true'] at this
    refine ⟨fun hnil => ?_, fun c hc => by simpa using this.2 c hc⟩
    rw [String.toList_eq_nil_iff] at hnil
    simp [hnil] at this
  suffices hruns : runsOf (fun c => !isBlank c) (" ".intercalate ss).toList = ss.map String.toList by
    rw [words, hruns, List.map_map]
    simp [Function.comp_def]
  cases ss with
  | nil => rfl
  | cons s ss =>
    rw [toList_intercalate]
    induction ss generalizing s with
    | nil =>
      have := runsOf_append (hword s (by simp)).1 (hword s (by simp)).2 (show ∀ c, [].head? = some c → _ by simp)
      simpa [runsOf] using this
    | cons t ss ih =>
      have hlater := ih t (fun u hu => h u (by simp [List.mem_cons.1 hu])) fun u hu => hword u (by simp [List.mem_cons.1 hu])
      rw [runsOf_append (hword s (by simp)).1 (hword s (by simp)).2 (by simp; decide), List.flatMap_cons]
      rw [show (" ".toList ++ t.toList ++ ss.flatMap fun t => " ".toList ++ t.toList) =
        ' ' :: (t.toList ++ ss.flatMap fun t => " ".toList ++ t.toList) from rfl]
      rw [runsOf_cons_not (by decide), hlater]
      rfl

/-- A text that is cut at its end, where it has no blank, has other words. -/
theorem words_concat_ne {front : List Char} {c : Char} (hc : isBlank c = false) :
    words (String.ofList front) ≠ words (String.ofList (front ++ [c])) := by
  intro h
  have hflat := congrArg (fun ws => (ws.map String.toList).flatten.length) h
  simp only [words, List.map_map, Function.comp_def, String.toList_ofList, List.map_id'] at hflat
  rw [flatten_runsOf, flatten_runsOf, List.filter_append] at hflat
  simp [hc] at hflat

/-! ## Trimmed text -/

/-- Text without blanks around it. -/
structure Trimmed (cs : List Char) : Prop where
  head : ∀ c, cs.head? = some c → isBlank c = false
  last : ∀ c, cs.getLast? = some c → isBlank c = false

theorem trimEnd_eq_rdropWhile (cs : List Char) : trimEnd cs = cs.rdropWhile isBlank := by
  induction cs with
  | nil => rfl
  | cons c cs ih =>
    rw [trimEnd, ih, List.rdropWhile, List.rdropWhile, List.reverse_cons, List.dropWhile_append]
    cases hdrop : cs.reverse.dropWhile isBlank with
    | nil => cases hc : isBlank c <;> simp [hc]
    | cons d ds =>
      have hne : (d :: ds).reverse ≠ [] := by simp
      obtain ⟨e, es, hes⟩ := List.exists_cons_of_ne_nil hne
      rw [hes]
      simp [← hes]

theorem mem_trim {cs : List Char} {c : Char} (h : c ∈ trim cs) : c ∈ cs := by
  rw [trim, trimEnd_eq_rdropWhile] at h
  exact (List.dropWhile_sublist isBlank).subset ((List.rdropWhile_prefix isBlank _).subset h)

theorem trimmed_trimEnd {cs : List Char} (h : ∀ c, cs.head? = some c → isBlank c = false) : Trimmed (trimEnd cs) := by
  rw [trimEnd_eq_rdropWhile]
  refine ⟨fun c hc => ?_, fun c hc => ?_⟩
  · obtain ⟨back, hback⟩ := List.rdropWhile_prefix isBlank cs
    refine h c ?_
    rw [← hback, List.head?_append, hc]
    rfl
  · have hne : cs.rdropWhile isBlank ≠ [] := by
      intro hnil
      rw [hnil] at hc
      cases hc
    rw [List.getLast?_eq_some_getLast hne] at hc
    obtain rfl := Option.some.inj hc
    simpa using List.rdropWhile_last_not isBlank cs hne

theorem trimmed_trim (cs : List Char) : Trimmed (trim cs) := by
  refine trimmed_trimEnd fun c hc => ?_
  have hnot := List.head?_dropWhile_not isBlank cs
  rw [hc] at hnot
  exact hnot

theorem Trimmed.trimEnd {cs : List Char} (h : Trimmed cs) : Text.trimEnd cs = cs := by
  rw [trimEnd_eq_rdropWhile, List.rdropWhile_eq_self_iff]
  intro hne
  simpa using h.last _ (List.getLast?_eq_some_getLast hne)

theorem Trimmed.trim {cs : List Char} (h : Trimmed cs) : Text.trim cs = cs := by
  have hdrop : cs.dropWhile isBlank = cs := by
    cases cs with
    | nil => rfl
    | cons c cs => simp [h.head c rfl]
  rw [Text.trim, hdrop, h.trimEnd]

theorem Trimmed.map_toLower {cs : List Char} (h : Trimmed cs) : Trimmed (cs.map Char.toLower) := by
  refine ⟨fun c hc => ?_, fun c hc => ?_⟩
  · rw [List.head?_map] at hc
    obtain ⟨d, hd, rfl⟩ := Option.map_eq_some_iff.1 hc
    rw [isBlank_toLower, h.head d hd]
  · rw [List.getLast?_map] at hc
    obtain ⟨d, hd, rfl⟩ := Option.map_eq_some_iff.1 hc
    rw [isBlank_toLower, h.last d hd]

theorem trimmed_of_not {cs : List Char} (h : ∀ c ∈ cs, isBlank c = false) : Trimmed cs :=
  ⟨fun c hc => h c (List.mem_of_mem_head? hc), fun c hc => h c (List.mem_of_mem_getLast? hc)⟩

/-- A text starts and ends as what stands at its front and at its back. -/
theorem Trimmed.between {front back : List Char} (hfront : Trimmed front) (hback : Trimmed back) (hne : front ≠ [])
    (hne' : back ≠ []) (mid : List Char) : Trimmed (front ++ (mid ++ back)) := by
  refine ⟨fun c hc => hfront.head c ?_, fun c hc => hback.last c ?_⟩
  · rwa [List.head?_append_of_ne_nil _ hne] at hc
  · rwa [← List.append_assoc, List.getLast?_append_of_ne_nil _ hne'] at hc

theorem trimmed_delimited {c d : Char} (hc : isBlank c = false) (hd : isBlank d = false) (cs : List Char) :
    Trimmed (c :: (cs ++ [d])) :=
  (@trimmed_of_not [c] (by simpa using hc)).between (@trimmed_of_not [d] (by simpa using hd)) (by simp) (by simp) cs

/-! ## Collapsed text -/

@[simp] theorem collapse_nil : collapse [] = [] := rfl

theorem collapse_cons_of_not {c : Char} (hc : isBlank c = false) (cs : List Char) :
    collapse (c :: cs) = c :: collapse cs := by
  simp [collapse, hc]

theorem collapse_blank_blank {c d : Char} (hc : isBlank c = true) (hd : isBlank d = true) (cs : List Char) :
    collapse (c :: d :: cs) = collapse (d :: cs) := by
  rw [collapse, if_pos hc, if_pos hd]

theorem collapse_blank_not {c d : Char} (hc : isBlank c = true) (hd : isBlank d = false) (cs : List Char) :
    collapse (c :: d :: cs) = ' ' :: collapse (d :: cs) := by
  rw [collapse, if_pos hc, if_neg (by simp [hd])]

/-- A character is kept, or it is a blank that is left out or is a space. -/
theorem collapse_cons (c : Char) (cs : List Char) :
    collapse (c :: cs) = c :: collapse cs ∨
      isBlank c = true ∧ (collapse (c :: cs) = collapse cs ∨ collapse (c :: cs) = ' ' :: collapse cs) := by
  by_cases hc : isBlank c = true
  · refine .inr ⟨hc, ?_⟩
    cases cs with
    | nil => exact .inr (by simp [collapse, hc])
    | cons d cs =>
      by_cases hd : isBlank d = true
      · exact .inl (collapse_blank_blank hc hd cs)
      · exact .inr (collapse_blank_not hc (by simpa using hd) cs)
  · exact .inl (collapse_cons_of_not (by simpa using hc) cs)

theorem head?_collapse (cs : List Char) : (collapse cs).head? = cs.head?.map fun c => if isBlank c then ' ' else c := by
  induction cs with
  | nil => rfl
  | cons c cs ih =>
    by_cases hc : isBlank c = true
    · cases cs with
      | nil => simp [collapse, hc]
      | cons d cs =>
        by_cases hd : isBlank d = true
        · rw [collapse_blank_blank hc hd, ih]
          simp [hc, hd]
        · rw [collapse_blank_not hc (by simpa using hd)]
          simp [hc]
    · rw [collapse_cons_of_not (by simpa using hc)]
      simp [hc]

theorem collapse_of_not {cs : List Char} (h : ∀ c ∈ cs, isBlank c = false) : collapse cs = cs := by
  induction cs with
  | nil => rfl
  | cons c cs ih =>
    obtain ⟨hc, hcs⟩ := List.forall_mem_cons.1 h
    rw [collapse_cons_of_not hc, ih hcs]

/-- What stands before a character that is not blank is collapsed by itself. -/
theorem collapse_append_cons {c : Char} (hc : isBlank c = false) (front back : List Char) :
    collapse (front ++ c :: back) = collapse front ++ c :: collapse back := by
  induction front with
  | nil => exact collapse_cons_of_not hc back
  | cons d front ih =>
    by_cases hd : isBlank d = true
    · cases front with
      | nil =>
        rw [List.singleton_append, collapse_blank_not hd hc, collapse_cons_of_not hc, collapse, if_pos hd]
        rfl
      | cons e front =>
        rw [List.cons_append] at ih
        by_cases he : isBlank e = true
        · rw [List.cons_append, List.cons_append, collapse_blank_blank hd he, collapse_blank_blank hd he, ih]
        · rw [Bool.not_eq_true] at he
          rw [List.cons_append, List.cons_append, collapse_blank_not hd he, collapse_blank_not hd he, ih,
            List.cons_append]
    · rw [Bool.not_eq_true] at hd
      rw [List.cons_append, collapse_cons_of_not hd, collapse_cons_of_not hd, ih, List.cons_append]

theorem collapse_append_of_head {front back : List Char} (h : ∀ c, back.head? = some c → isBlank c = false) :
    collapse (front ++ back) = collapse front ++ collapse back := by
  cases back with
  | nil => simp
  | cons c back =>
    have hc := h c rfl
    rw [collapse_append_cons hc, collapse_cons_of_not hc]

theorem collapse_append_of_last {front back : List Char} (h : ∀ c, front.getLast? = some c → isBlank c = false) :
    collapse (front ++ back) = collapse front ++ collapse back := by
  rcases List.eq_nil_or_concat front with rfl | ⟨front, c, rfl⟩
  · rfl
  · have hc := h c (by simp)
    rw [List.concat_eq_append, List.append_assoc, List.singleton_append, collapse_append_cons hc,
      collapse_append_cons hc]
    simp

/-! ## Shown text -/

theorem mem_collapse {cs : List Char} {c : Char} (h : c ∈ collapse cs) : c ∈ cs ∨ c = ' ' := by
  fun_induction collapse cs with
  | case1 => cases h
  | case2 d hd e cs he ih =>
    rcases ih h with h | h
    · exact .inl (by simp [List.mem_cons.1 h])
    · exact .inr h
  | case3 d hd e cs he ih =>
    rcases List.mem_cons.1 h with rfl | h
    · exact .inr rfl
    · rcases ih h with h | h
      · exact .inl (by simp [List.mem_cons.1 h])
      · exact .inr h
  | case4 d hd => exact .inr (by simpa using h)
  | case5 d cs hd ih =>
    rcases List.mem_cons.1 h with rfl | h
    · exact .inl (by simp)
    · rcases ih h with h | h
      · exact .inl (by simp [h])
      · exact .inr h

theorem mem_shown {keepBlanks : Bool} {s text : String} (h : shown keepBlanks s = some text) {c : Char}
    (hc : c ∈ text.toList) : c ∈ s.toList ∨ c = ' ' := by
  unfold shown at h
  split at h
  · split at h
    · cases h
    · obtain rfl := Option.some.inj h
      exact .inl hc
  · split at h
    · cases h
    · obtain rfl := Option.some.inj h
      exact mem_collapse (by simpa using hc)

theorem collapse_ne_nil {cs : List Char} (h : cs ≠ []) : collapse cs ≠ [] := by
  induction cs with
  | nil => exact absurd rfl h
  | cons c cs ih =>
    unfold collapse
    split
    · split
      · split
        · exact ih (List.cons_ne_nil _ _)
        · exact List.cons_ne_nil _ _
      · exact List.cons_ne_nil _ _
    · exact List.cons_ne_nil _ _

/-- What is shown of a text is not empty. -/
theorem shown_ne_nil {keepBlanks : Bool} {text visible : String} (h : shown keepBlanks text = some visible) :
    visible.toList ≠ [] := by
  unfold shown at h
  split at h
  · split at h
    · cases h
    · rename_i hne
      obtain rfl := Option.some.inj h
      simpa using hne
  · split at h
    · cases h
    · rename_i hblank
      obtain rfl := Option.some.inj h
      rw [String.toList_ofList]
      refine collapse_ne_nil fun hnil => hblank ?_
      rw [hnil]
      rfl

end TemplateCompiler.Text
