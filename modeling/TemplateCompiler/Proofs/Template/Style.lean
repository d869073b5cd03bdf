import TemplateCompiler.Template.Style
import TemplateCompiler.Proofs.Text.Blank
import TemplateCompiler.Proofs.Text.LowerCase
/-!
# Styles are read back

The written form of the declarations of a style has the same declarations (`styleDeclarations_styleText`).
-/

namespace TemplateCompiler.Template

open TemplateCompiler.Text

/-! ## Pieces -/

theorem pieces_ne_nil (c : Char) (cs : List Char) : pieces c cs ≠ [] := by
  cases cs with
  | nil => simp [pieces]
  | cons d cs =>
    rw [pieces]
    split
    · simp
    · split <;> simp

theorem pieces_append {c : Char} {xs : List Char} (h : c ∉ xs) (ys : List Char) :
    pieces c (xs ++ c :: ys) = xs :: pieces c ys := by
  induction xs with
  | nil => simp [pieces]
  | cons d xs ih =>
    obtain ⟨hd, hxs⟩ := not_or.1 (List.mem_cons.not.1 h)
    rw [List.cons_append, pieces, if_neg (Ne.symm hd), ih hxs]

theorem not_mem_of_mem_pieces {c : Char} {cs piece : List Char} (h : piece ∈ pieces c cs) :
    c ∉ piece ∧ ∀ d ∈ piece, d ∈ cs := by
  induction cs generalizing piece with
  | nil => simp [List.mem_singleton.1 h]
  | cons d cs ih =>
    rw [pieces] at h
    split at h
    · rcases List.mem_cons.1 h with rfl | h
      · simp
      · exact ⟨(ih h).1, fun e he => by simp [(ih h).2 e he]⟩
    · rename_i hd
      split at h
      · rename_i first rest heq
        rw [heq] at ih
        rcases List.mem_cons.1 h with rfl | h
        · obtain ⟨hnot, hmem⟩ := ih (List.mem_cons_self ..)
          refine ⟨List.mem_cons.not.2 (not_or.2 ⟨Ne.symm hd, hnot⟩), fun e he => ?_⟩
          rcases List.mem_cons.1 he with rfl | he
          · simp
          · simp [hmem e he]
        · obtain ⟨hnot, hmem⟩ := ih (List.mem_cons_of_mem _ h)
          exact ⟨hnot, fun e he => by simp [hmem e he]⟩
      · rename_i heq
        exact absurd heq (pieces_ne_nil c cs)

/-! ## Declarations -/

/-- A declaration as it can be read. -/
structure StyleDeclaration.Sound (d : StyleDeclaration) : Prop where
  property : d.property ≠ "" ∧ Trimmed d.property.toList
  small : d.property.toList.map Char.toLower = d.property.toList
  noColon : ':' ∉ d.property.toList
  value : d.value ≠ "" ∧ Trimmed d.value.toList
  unmarked : d.important = false → cutImportant d.value.toList = (d.value.toList, false)
  noSemicolon : ';' ∉ d.property.toList ∧ ';' ∉ d.value.toList

theorem mem_cutImportant {cs : List Char} {c : Char} (h : c ∈ (cutImportant cs).1) : c ∈ cs := by
  unfold cutImportant at h
  dsimp only at h
  split at h
  · rw [trimEnd_eq_rdropWhile] at h
    exact List.mem_of_mem_take ((List.rdropWhile_prefix _ _).subset h)
  · exact h

theorem toLower_ne_of_ne {c d : Char} (hd : d.toNat < 97 ∨ 122 < d.toNat) (hcap : d.toNat < 65 ∨ 90 < d.toNat)
    (h : c ≠ d) : c.toLower ≠ d :=
  fun heq => h ((toLower_eq_iff hd hcap).1 heq)

theorem trimmed_cutImportant {cs : List Char} (h : Trimmed cs) : Trimmed (cutImportant cs).1 := by
  unfold cutImportant
  dsimp only
  split
  · refine trimmed_trimEnd fun c hc => h.head c ?_
    cases cs with
    | nil => cases hc
    | cons d cs =>
      rw [List.head?_take] at hc
      split at hc
      · cases hc
      · exact hc
  · exact h

theorem cutImportant_unmarked {cs : List Char} (h : (cutImportant cs).2 = false) : cutImportant cs = (cs, false) := by
  unfold cutImportant at h ⊢
  dsimp only at h ⊢
  split
  · rename_i hmark
    rw [if_pos hmark] at h
    cases h
  · rfl

theorem ofList_ne_empty {cs : List Char} (h : cs.isEmpty = false) : String.ofList cs ≠ "" := by
  intro heq
  have := congrArg String.toList heq
  rw [String.toList_ofList] at this
  simp [this] at h

/-- What is read as a declaration is one. -/
theorem sound_of_styleDeclaration? {cs : List Char} (hcs : ';' ∉ cs) {d : StyleDeclaration}
    (h : styleDeclaration? cs = some d) :
    d.Sound ∧ (∀ c ∈ d.value.toList, c ∈ cs) ∧ ∀ c ∈ d.property.toList, ∃ e ∈ cs, c = e.toLower := by
  unfold styleDeclaration? at h
  split at h
  · cases h
  · rename_i colon after hdrop
    dsimp only at h
    split at h
    · cases h
    · rename_i hempty
      obtain rfl := Option.some.inj h
      simp only [Bool.or_eq_true, not_or, Bool.not_eq_true] at hempty
      have hproperty : ∀ c ∈ (trim (cs.takeWhile (· != ':'))).map Char.toLower,
          ∃ e ∈ cs, e ≠ ':' ∧ c = e.toLower := by
        intro c hc
        obtain ⟨e, he, rfl⟩ := List.mem_map.1 hc
        have hrun := mem_trim he
        exact ⟨e, (List.takeWhile_prefix _).subset hrun, by simpa using List.mem_takeWhile_imp hrun, rfl⟩
      have hvalue : ∀ c ∈ (cutImportant (trim after)).1, c ∈ cs := by
        intro c hc
        have hafter : c ∈ cs.dropWhile (· != ':') := by
          rw [hdrop]
          exact List.mem_cons_of_mem _ (mem_trim (mem_cutImportant hc))
        exact (List.dropWhile_suffix _).subset hafter
      refine ⟨⟨⟨ofList_ne_empty hempty.1, ?_⟩, ?_, ?_, ⟨ofList_ne_empty hempty.2, ?_⟩, ?_, ?_, ?_⟩, ?_, ?_⟩
      · simpa using (trimmed_trim _).map_toLower
      · simp [Function.comp_def]
      · rw [String.toList_ofList]
        intro hc
        obtain ⟨e, -, hne, heq⟩ := hproperty _ hc
        exact toLower_ne_of_ne (by decide) (by decide) hne heq.symm
      · simpa using trimmed_cutImportant (trimmed_trim after)
      · intro himportant
        have hcut := cutImportant_unmarked himportant
        simp [hcut]
      · rw [String.toList_ofList]
        intro hc
        obtain ⟨e, he, -, heq⟩ := hproperty _ hc
        have hne : e ≠ ';' := fun hsemicolon => hcs (hsemicolon ▸ he)
        exact toLower_ne_of_ne (by decide) (by decide) hne heq.symm
      · rw [String.toList_ofList]
        exact fun hc => hcs (hvalue _ hc)
      · simpa using hvalue
      · rw [String.toList_ofList]
        intro c hc
        obtain ⟨e, he, -, heq⟩ := hproperty c hc
        exact ⟨e, he, heq⟩

/-- What is read as the declarations of a style are declarations. -/
theorem sound_of_mem_styleDeclarations {style : String} {d : StyleDeclaration} (h : d ∈ styleDeclarations style) :
    d.Sound ∧ (∀ c ∈ d.value.toList, c ∈ style.toList) ∧
      ∀ c ∈ d.property.toList, ∃ e ∈ style.toList, c = e.toLower := by
  obtain ⟨piece, hpiece, hread⟩ := List.mem_filterMap.1 h
  obtain ⟨hnot, hmem⟩ := not_mem_of_mem_pieces hpiece
  obtain ⟨hsound, hvalue, hproperty⟩ := sound_of_styleDeclaration? hnot hread
  refine ⟨hsound, fun c hc => hmem c (hvalue c hc), fun c hc => ?_⟩
  obtain ⟨e, he, heq⟩ := hproperty c hc
  exact ⟨e, hmem e he, heq⟩

/-! ## Written declarations -/

/-- The written form of a declaration, the semicolon aside. -/
def StyleDeclaration.chars (d : StyleDeclaration) : List Char :=
  d.property.toList ++ ':' :: ' ' :: (d.value.toList ++ if d.important then ' ' :: importantMark else [])

theorem StyleDeclaration.toList_text (d : StyleDeclaration) : d.text.toList = d.chars ++ [';'] := by
  unfold StyleDeclaration.text StyleDeclaration.chars
  cases d.important with
  | false => simp
  | true => simp [show (" !important".toList) = ' ' :: importantMark by decide]

namespace StyleDeclaration.Sound

variable {d : StyleDeclaration}

theorem property_ne_nil (h : d.Sound) : d.property.toList ≠ [] :=
  fun hnil => h.property.1 (String.toList_eq_nil_iff.1 hnil)

theorem value_ne_nil (h : d.Sound) : d.value.toList ≠ [] :=
  fun hnil => h.value.1 (String.toList_eq_nil_iff.1 hnil)

theorem semicolon_not_mem_chars (h : d.Sound) : ';' ∉ d.chars := by
  obtain ⟨hproperty, hvalue⟩ := h.noSemicolon
  unfold StyleDeclaration.chars
  split
  · simp [hproperty, hvalue, show ';' ∉ importantMark by decide]
  · simp [hproperty, hvalue]

theorem trim_value (h : d.Sound) :
    trim (' ' :: (d.value.toList ++ if d.important then ' ' :: importantMark else [])) =
      d.value.toList ++ if d.important then ' ' :: importantMark else [] := by
  have hblank : ∀ cs, trim (' ' :: cs) = trim cs := fun cs => by
    rw [trim, trim, List.dropWhile_cons_of_pos (by decide)]
  rw [hblank]
  refine Trimmed.trim ⟨fun c hc => ?_, fun c hc => ?_⟩
  · rw [List.head?_append_of_ne_nil _ h.value_ne_nil] at hc
    exact h.value.2.head c hc
  · split at hc
    · rw [List.getLast?_append_of_ne_nil _ (by simp)] at hc
      obtain rfl : 't' = c := Option.some.inj hc
      decide
    · rw [List.append_nil] at hc
      exact h.value.2.last c hc

theorem cutImportant_value (h : d.Sound) :
    cutImportant (d.value.toList ++ if d.important then ' ' :: importantMark else []) =
      (d.value.toList, d.important) := by
  cases himportant : d.important with
  | false => simpa using h.unmarked himportant
  | true =>
    have hsplit : d.value.toList ++ ' ' :: importantMark = (d.value.toList ++ [' ']) ++ importantMark := by simp
    have htrim : trimEnd (d.value.toList ++ [' ']) = d.value.toList := by
      rw [trimEnd_eq_rdropWhile, List.rdropWhile_concat_pos _ _ _ (by decide), ← trimEnd_eq_rdropWhile, h.value.2.trimEnd]
    have hlength : ((d.value.toList ++ [' ']) ++ importantMark).length - importantMark.length =
        (d.value.toList ++ [' ']).length := by
      rw [List.length_append, Nat.add_sub_cancel]
    rw [if_pos rfl, hsplit, cutImportant, hlength]
    simp only [List.take_left, List.drop_left]
    rw [if_pos (by decide), htrim]

/-- A declaration is read back, also with spaces before it. -/
theorem styleDeclaration?_chars (h : d.Sound) {spaces : List Char} (hspaces : ∀ c ∈ spaces, c = ' ') :
    styleDeclaration? (spaces ++ d.chars) = some d := by
  have hrun : ∀ c ∈ spaces ++ d.property.toList, (c != ':') = true := by
    intro c hc
    rcases List.mem_append.1 hc with hc | hc
    · simp [hspaces c hc]
    · simp only [bne_iff_ne]
      exact fun heq => h.noColon (heq ▸ hc)
  have hchars : spaces ++ d.chars = (spaces ++ d.property.toList) ++
      ':' :: ' ' :: (d.value.toList ++ if d.important then ' ' :: importantMark else []) := by
    rw [StyleDeclaration.chars, List.append_assoc]
  have hproperty : trim (spaces ++ d.property.toList) = d.property.toList := by
    have hblank : ∀ c ∈ spaces, isBlank c = true := fun c hc => by
      rw [hspaces c hc]
      decide
    rw [trim, List.dropWhile_append_of_pos hblank]
    exact h.property.2.trim
  have hdrop : (spaces ++ d.chars).dropWhile (· != ':') =
      ':' :: ' ' :: (d.value.toList ++ if d.important then ' ' :: importantMark else []) := by
    rw [hchars, List.dropWhile_append_of_pos hrun, List.dropWhile_cons_of_neg (by decide)]
  have htake : (spaces ++ d.chars).takeWhile (· != ':') = spaces ++ d.property.toList := by
    rw [hchars, List.takeWhile_append_of_pos hrun, List.takeWhile_cons_of_neg (by decide), List.append_nil]
  unfold styleDeclaration?
  simp only [hdrop, htake, hproperty, h.trim_value, h.cutImportant_value, h.small, String.ofList_toList]
  rw [if_neg]
  simp [h.property_ne_nil, h.value_ne_nil]

end StyleDeclaration.Sound

/-- Declarations are read back. -/
theorem styleDeclarations_styleText {ds : List StyleDeclaration} (h : ∀ d ∈ ds, d.Sound) :
    styleDeclarations (styleText ds) = ds := by
  have hpieces : ∀ d ∈ ds, ∀ spaces : List Char, (∀ c ∈ spaces, c = ' ') → ∀ rest,
      (pieces ';' (spaces ++ d.chars ++ ';' :: rest)).filterMap styleDeclaration? =
        d :: (pieces ';' rest).filterMap styleDeclaration? := by
    intro d hd spaces hspaces rest
    have hnot : ';' ∉ spaces ++ d.chars := by
      refine List.mem_append.not.2 (not_or.2 ⟨fun hmem => ?_, (h d hd).semicolon_not_mem_chars⟩)
      have := hspaces _ hmem
      revert this
      decide
    rw [pieces_append hnot, List.filterMap_cons_some ((h d hd).styleDeclaration?_chars hspaces)]
  have hend : ([[]] : List (List Char)).filterMap styleDeclaration? = [] := by decide
  have hlater : ∀ es : List StyleDeclaration, (∀ d ∈ es, d ∈ ds) →
      (pieces ';' ((es.map StyleDeclaration.text).flatMap fun t => " ".toList ++ t.toList)).filterMap
        styleDeclaration? = es := by
    intro es
    induction es with
    | nil => exact fun _ => hend
    | cons d es ih =>
      intro hes
      have hd := hpieces d (hes d (by simp)) [' '] (by simp)
        ((es.map StyleDeclaration.text).flatMap fun t => " ".toList ++ t.toList)
      rw [ih fun e he => hes e (by simp [he])] at hd
      simpa [StyleDeclaration.toList_text] using hd
  unfold styleDeclarations styleText
  cases ds with
  | nil => exact hend
  | cons d ds =>
    rw [List.map_cons, toList_intercalate]
    have hd := hpieces d (by simp) [] (by simp) ((ds.map StyleDeclaration.text).flatMap fun t => " ".toList ++ t.toList)
    rw [hlater ds fun e he => by simp [he]] at hd
    simpa [StyleDeclaration.toList_text] using hd

/-- The characters of written declarations are those of a property or a value, or hold them together. -/
theorem mem_styleText {ds : List StyleDeclaration} {c : Char} (h : c ∈ (styleText ds).toList) :
    (∃ d ∈ ds, c ∈ d.property.toList ∨ c ∈ d.value.toList) ∨ c ∈ ": !important;".toList := by
  have hmarks : ∀ c, c = ':' ∨ c = ' ' ∨ c ∈ importantMark ∨ c = ';' → c ∈ ": !important;".toList := by
    rintro c (rfl | rfl | hmark | rfl)
    · decide
    · decide
    · have hall : importantMark.all (": !important;".toList.contains ·) = true := by decide
      exact List.contains_iff_mem.1 (List.all_eq_true.1 hall c hmark)
    · decide
  rcases mem_intercalate h with ⟨text, htext, hc⟩ | hc
  · obtain ⟨d, hd, rfl⟩ := List.mem_map.1 htext
    rw [StyleDeclaration.toList_text, StyleDeclaration.chars] at hc
    simp only [List.mem_append, List.mem_cons, List.not_mem_nil, or_false] at hc
    rcases hc with (hc | rfl | rfl | hc | hc) | rfl
    · exact .inl ⟨d, hd, .inl hc⟩
    · exact .inr (hmarks _ (by simp))
    · exact .inr (hmarks _ (by simp))
    · exact .inl ⟨d, hd, .inr hc⟩
    · split at hc
      · rcases List.mem_cons.1 hc with rfl | hc
        · exact .inr (hmarks _ (by simp))
        · exact .inr (hmarks _ (by simp [hc]))
      · cases hc
    · exact .inr (hmarks _ (by simp))
  · exact .inr (hmarks _ (.inr (.inl (by simpa using hc))))

/-- The written form of declarations ends in a semicolon. -/
theorem getLast?_styleText {ds : List StyleDeclaration} (h : ds ≠ []) : (styleText ds).toList.getLast? = some ';' := by
  have hsplit : ∀ (d : StyleDeclaration) (ds : List StyleDeclaration),
      ∃ front, (styleText (d :: ds)).toList = front ++ [';'] := by
    intro d ds
    induction ds generalizing d with
    | nil => exact ⟨d.chars, by simp [styleText, StyleDeclaration.toList_text]⟩
    | cons e es ih =>
      obtain ⟨front, hfront⟩ := ih e
      exact ⟨d.text.toList ++ ' ' :: front, by
        rw [styleText, List.map_cons, List.map_cons, String.intercalate_cons_cons, ← List.map_cons, ← styleText]
        simp [hfront]⟩
  obtain ⟨d, ds, rfl⟩ := List.exists_cons_of_ne_nil h
  obtain ⟨front, hfront⟩ := hsplit d ds
  rw [hfront, List.getLast?_concat]

end TemplateCompiler.Template
