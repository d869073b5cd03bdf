import Mathlib.Data.List.TakeWhile
import TemplateCompiler.Proofs.Script.Lexemes
/-!
# Pieces of templates as they are kept

A piece of a template in which every escape denotes something is read again as it is kept, whatever follows its end
(`isStable_lineFeeds`): an escape that denotes something does not reach beyond the piece.
-/

namespace TemplateCompiler.Script

open TemplateCompiler.Text

/-- A piece that is read as it is, with escapes that denote something, before either of the delimiters. -/
structure IsStable (cs : List Char) : Prop where
  close : ∀ rest, templateChunk? (cs ++ '`' :: rest) = some (⟨cs, true, false⟩, rest)
  opens : ∀ rest, templateChunk? (cs ++ '$' :: '{' :: rest) = some (⟨cs, true, true⟩, rest)
  lines : lineFeeds cs = cs

theorem IsStable.isPiece {cs : List Char} (h : IsStable cs) : IsPiece cs :=
  (isPiece_of_templateChunk? (h.close [])).1

/-! ## Line ends -/

theorem not_mem_lineFeeds (cs : List Char) : '\r' ∉ lineFeeds cs := by
  fun_induction lineFeeds cs with
  | case1 rest ih => simpa using ih
  | case2 rest hne ih => simpa using ih
  | case3 c rest hpair hreturn ih => exact List.not_mem_cons_of_ne_of_not_mem (fun h => hreturn h.symm) ih
  | case4 => simp

theorem lineFeeds_of_not_mem {cs : List Char} (h : '\r' ∉ cs) : lineFeeds cs = cs := by
  induction cs with
  | nil => rfl
  | cons c cs ih =>
    rw [lineFeeds_cons (List.ne_of_not_mem_cons h).symm, ih (List.not_mem_of_not_mem_cons h)]

theorem lineFeeds_append {cs : List Char} (h : '\r' ∉ cs) (rest : List Char) :
    lineFeeds (cs ++ rest) = cs ++ lineFeeds rest := by
  induction cs with
  | nil => rfl
  | cons c cs ih =>
    rw [List.cons_append, lineFeeds_cons (List.ne_of_not_mem_cons h).symm, ih (List.not_mem_of_not_mem_cons h),
      List.cons_append]

theorem exists_lineFeeds_cons (c : Char) (cs : List Char) :
    ∃ more, lineFeeds (c :: cs) = (if c = '\r' then '\n' else c) :: more := by
  unfold lineFeeds
  split
  · cases ‹_ = _›
    exact ⟨_, rfl⟩
  · cases ‹_ = _›
    exact ⟨_, rfl⟩
  · rename_i hreturn heq
    cases heq
    rw [if_neg hreturn]
    exact ⟨_, rfl⟩
  · cases ‹_ = _›

/-! ## Escapes -/

/-- A delimiter of a template, as far as an escape could reach into it. -/
def EndsPiece (cs : List Char) : Prop :=
  ∃ c rest, cs = c :: rest ∧ (c = '`' ∨ c = '$')

theorem EndsPiece.head {c : Char} {cs : List Char} (h : EndsPiece (c :: cs)) : c = '`' ∨ c = '$' := by
  obtain ⟨d, rest, heq, hd⟩ := h
  rwa [(List.cons.inj heq).1]

/-- A hexadecimal digit that is taken before a delimiter is one of the piece. -/
theorem exists_of_hexDigits {cs tail digits rest : List Char} (hdigits : ∀ c ∈ digits, isDigitIn 16 c = true)
    (htail : EndsPiece tail) (h : cs ++ tail = digits ++ rest) :
    ∃ more, cs = digits ++ more ∧ rest = more ++ tail := by
  induction digits generalizing cs with
  | nil => exact ⟨cs, rfl, h.symm⟩
  | cons d digits ih =>
    obtain ⟨hd, hmore⟩ := List.forall_mem_cons.1 hdigits
    cases cs with
    | nil =>
      rw [List.nil_append] at h
      rw [h] at htail
      rcases htail.head with rfl | rfl <;> cases hd
    | cons c cs =>
      obtain ⟨rfl, hbehind⟩ := List.cons.inj h
      obtain ⟨more, rfl, rfl⟩ := ih hmore hbehind
      exact ⟨more, rfl, rfl⟩

theorem return_not_mem {digits : List Char} (hdigits : ∀ c ∈ digits, isDigitIn 16 c = true) : '\r' ∉ digits :=
  fun h => by cases hdigits _ h

/-- Four digits at the front of a text stand there before any other rest. -/
theorem fourDigits?_lineFeeds {cs tail : List Char} (htail : EndsPiece tail) (h : (fourDigits? (cs ++ tail)).isSome = true)
    (tail' : List Char) : (fourDigits? (lineFeeds cs ++ tail')).isSome = true := by
  have hsplit : cs ++ tail = (cs ++ tail).take 4 ++ (cs ++ tail).drop 4 := (List.take_append_drop 4 _).symm
  unfold fourDigits? at h
  generalize (cs ++ tail).take 4 = digits at h hsplit
  dsimp only at h
  split at h
  · rename_i hfour
    obtain ⟨hlength, hall⟩ := Bool.and_eq_true_iff.1 hfour
    rw [List.all_eq_true] at hall
    rw [decide_eq_true_eq] at hlength
    obtain ⟨more, rfl, -⟩ := exists_of_hexDigits hall htail hsplit
    have hagain : (lineFeeds (digits ++ more) ++ tail').take 4 = digits := by
      rw [lineFeeds_append (return_not_mem hall), List.append_assoc, ← hlength, List.take_left]
    unfold fourDigits?
    rw [hagain]
    simp [hfour]
  · cases h

/-- An escape in braces denotes something if its digits do, whatever follows them. -/
theorem codeEscape?_braces {digits : List Char} (hall : ∀ c ∈ digits, isDigitIn 16 c = true) (rest : List Char) :
    codeEscape? ('{' :: (digits ++ '}' :: rest)) =
      if digits.isEmpty || 0x10FFFF < valueIn 16 digits then none else some (valueIn 16 digits, digits.length + 2) := by
  have htake : (digits ++ '}' :: rest).takeWhile (isDigitIn 16) = digits := by
    rw [List.takeWhile_append_of_pos hall, List.takeWhile_cons_of_neg (by decide), List.append_nil]
  rw [codeEscape?, htake, List.drop_left]
  rfl

/-- An escape by a code that denotes something in a piece is one before any other rest. -/
theorem codeEscape?_lineFeeds {cs tail : List Char} (htail : EndsPiece tail)
    (h : (codeEscape? (cs ++ tail)).isSome = true) (tail' : List Char) :
    (codeEscape? (lineFeeds cs ++ tail')).isSome = true := by
  by_cases hbrace : cs.head? = some '{'
  · obtain ⟨cs, rfl⟩ := List.head?_eq_some_iff.1 hbrace
    obtain ⟨digits, rest, hall, hcut, htake⟩ : ∃ digits rest, (∀ c ∈ digits, isDigitIn 16 c = true) ∧
        cs ++ tail = digits ++ rest ∧ (cs ++ tail).takeWhile (isDigitIn 16) = digits :=
      ⟨_, _, fun c hc => List.mem_takeWhile_imp hc, List.takeWhile_append_dropWhile.symm, rfl⟩
    obtain ⟨more, rfl, rfl⟩ := exists_of_hexDigits hall htail hcut
    rw [List.cons_append, codeEscape?, htake, hcut, List.drop_left] at h
    split at h
    · rename_i rest heq
      cases more with
      | nil =>
        rw [List.nil_append] at heq
        rw [heq] at htail
        rcases htail.head with hc | hc <;> cases hc
      | cons c more =>
        obtain rfl := (List.cons.inj heq).1
        rw [lineFeeds_cons (by decide), lineFeeds_append (return_not_mem hall), lineFeeds_cons (by decide)]
        simp only [List.cons_append, List.append_assoc]
        rwa [codeEscape?_braces hall]
    · cases h
  · have hnone {rest : List Char} (hrest : rest.head? ≠ some '{') :
        codeEscape? rest = (fourDigits? rest).map (·, 4) := by
      rw [codeEscape?]
      rintro more rfl
      exact hrest rfl
    have hhead (rest : List Char) (hrest : EndsPiece rest) : (cs ++ rest).head? ≠ some '{' := by
      obtain ⟨c, more, rfl, hc⟩ := hrest
      cases cs with
      | nil => rcases hc with rfl | rfl <;> simp
      | cons d cs => exact hbrace
    rw [hnone (hhead tail htail), Option.isSome_map] at h
    have hfour := fourDigits?_lineFeeds htail h tail'
    rw [hnone, Option.isSome_map]
    · exact hfour
    · intro hhead
      obtain ⟨more, heq⟩ := List.head?_eq_some_iff.1 hhead
      have hdigit : isDigitIn 16 '{' = false := rfl
      simp [heq, fourDigits?, hdigit] at hfour

theorem templateEscapeDenotes_lineFeeds {cs tail tail' : List Char} (htail : EndsPiece tail) (htail' : EndsPiece tail')
    (h : templateEscapeDenotes (cs ++ tail) = true) : templateEscapeDenotes (lineFeeds cs ++ tail') = true := by
  obtain ⟨c', rest', rfl, hc'⟩ := htail'
  cases cs with
  | nil => rcases hc' with rfl | rfl <;> rfl
  | cons c cs =>
    rw [List.cons_append] at h
    by_cases hhex : c = 'x'
    · subst hhex
      rw [lineFeeds_cons (by decide), List.cons_append]
      simp only [templateEscapeDenotes, Bool.and_eq_true, beq_iff_eq, List.all_eq_true] at h ⊢
      have hsplit : cs ++ tail = (cs ++ tail).take 2 ++ (cs ++ tail).drop 2 := (List.take_append_drop 2 _).symm
      generalize (cs ++ tail).take 2 = digits at h hsplit
      obtain ⟨hlength, hall⟩ := h
      obtain ⟨more, rfl, -⟩ := exists_of_hexDigits hall htail hsplit
      rw [lineFeeds_append (return_not_mem hall), List.append_assoc, ← hlength, List.take_left]
      exact ⟨rfl, hall⟩
    by_cases hcode : c = 'u'
    · subst hcode
      rw [lineFeeds_cons (by decide), List.cons_append]
      exact codeEscape?_lineFeeds htail h _
    by_cases hzero : c = '0'
    · subst hzero
      rw [lineFeeds_cons (by decide), List.cons_append]
      cases cs with
      | nil => rcases hc' with rfl | rfl <;> rfl
      | cons d cs =>
        obtain ⟨more, hmore⟩ := exists_lineFeeds_cons d cs
        rw [hmore]
        split
        · rfl
        · exact h
    · have hplain {d : Char} (hx : d ≠ 'x') (hu : d ≠ 'u') (h0 : d ≠ '0') (rest : List Char) :
          templateEscapeDenotes (d :: rest) = !d.isDigit := by
        rw [templateEscapeDenotes]
        all_goals simp_all
      rw [hplain hhex hcode hzero] at h
      obtain ⟨more, hmore⟩ := exists_lineFeeds_cons c cs
      rw [hmore, List.cons_append]
      split
      · rfl
      · rw [hplain hhex hcode hzero]
        exact h

/-! ## Pieces -/

/-- A piece stands at the front of the text that it is read from, before a delimiter. -/
theorem exists_of_templateChunk? {cs rest : List Char} {k : Chunk} (h : templateChunk? cs = some (k, rest)) :
    ∃ tail, cs = k.raw ++ tail ∧ EndsPiece tail := by
  fun_induction templateChunk? cs generalizing k rest with
  | case1 => cases h
  | case2 cs => cases h; exact ⟨_, rfl, _, _, rfl, .inl rfl⟩
  | case3 cs => cases h; exact ⟨_, rfl, _, _, rfl, .inr rfl⟩
  | case4 cs ih | case5 cs ih | case6 cs ih =>
    obtain ⟨⟨k', rest'⟩, hk', heq⟩ := Option.map_eq_some_iff.1 h
    cases heq
    obtain ⟨tail, rfl, htail⟩ := ih hk'
    exact ⟨tail, rfl, htail⟩
  | case7 cs hquote hdollar hbackslash ih | case8 c cs hquote hdollar h1 h2 h3 h4 ih =>
    obtain ⟨⟨k', rest'⟩, hk', heq⟩ := Option.map_eq_some_iff.1 h
    cases heq
    obtain ⟨tail, rfl, htail⟩ := ih hk'
    exact ⟨tail, rfl, htail⟩

theorem EndsPiece.append_head {tail : List Char} (h : EndsPiece tail) (more : List Char) :
    (tail ++ more).head? ≠ some '{' := by
  obtain ⟨c, rest, rfl, hc⟩ := h
  rcases hc with rfl | rfl <;> simp

theorem EndsPiece.append {tail : List Char} (h : EndsPiece tail) (more : List Char) : EndsPiece (tail ++ more) := by
  obtain ⟨c, rest, rfl, hc⟩ := h
  exact ⟨c, rest ++ more, rfl, hc⟩

/-- A character that no line end becomes stands at the front of a kept piece only if it stood there before. -/
theorem lineFeeds_append_ne_cons {raw tail tail' : List Char} {c : Char} (hc : c ≠ '\n')
    (h : ∀ rest, raw ++ tail ≠ c :: rest) (htail : raw = [] → ∀ rest, tail' ≠ c :: rest) (rest : List Char) :
    lineFeeds raw ++ tail' ≠ c :: rest := by
  cases raw with
  | nil => exact htail rfl rest
  | cons d raw =>
    obtain ⟨raw', hraw'⟩ := exists_lineFeeds_cons d raw
    rw [hraw', List.cons_append]
    intro heq
    have hd := (List.cons.inj heq).1
    split at hd
    · exact hc hd.symm
    · exact h (raw ++ tail) (by rw [hd, List.cons_append])

/-- A piece goes on with a character that starts neither an escape nor a delimiter. -/
theorem templateChunk?_lineFeeds_cons {c : Char} {raw tail rest : List Char} {opens : Bool} (hquote : c ≠ '`')
    (hbackslash : c ≠ '\\') (hdollar : c = '$' → (lineFeeds raw ++ tail).head? ≠ some '{')
    (h : templateChunk? (lineFeeds raw ++ tail) = some (⟨lineFeeds raw, true, opens⟩, rest)) :
    templateChunk? (lineFeeds (c :: raw) ++ tail) = some (⟨lineFeeds (c :: raw), true, opens⟩, rest) := by
  have hplain {c : Char} (hquote : c ≠ '`') (hbackslash : c ≠ '\\')
      (hdollar : c = '$' → (lineFeeds raw ++ tail).head? ≠ some '{') :
      templateChunk? (c :: (lineFeeds raw ++ tail)) = some (⟨c :: lineFeeds raw, true, opens⟩, rest) := by
    rw [templateChunk?_plain hquote hbackslash hdollar, h]
    rfl
  by_cases hreturn : c = '\r'
  · subst hreturn
    by_cases hfeed : raw.head? = some '\n'
    · obtain ⟨raw, rfl⟩ := List.head?_eq_some_iff.1 hfeed
      rw [lineFeeds_cons (by decide)] at h
      rw [lineFeeds]
      exact h
    · rw [lineFeeds]
      · exact hplain (by decide) (by decide) (fun h => absurd h (by decide))
      · rintro raw rfl
        exact hfeed rfl
  · rw [lineFeeds_cons hreturn]
    exact hplain hquote hbackslash hdollar

/-- A piece that is read with escapes that denote something is read with them before either delimiter. -/
theorem templateChunk?_lineFeeds {cs rest : List Char} {k : Chunk} {opens : Bool}
    (h : templateChunk? cs = some (k, rest)) (hdenotes : k.denotes = true) (tail : List Char) (hends : EndsPiece tail)
    (htail : ∀ more, templateChunk? (tail ++ more) = some (⟨[], true, opens⟩, more)) (more : List Char) :
    templateChunk? (lineFeeds k.raw ++ (tail ++ more)) = some (⟨lineFeeds k.raw, true, opens⟩, more) := by
  fun_induction templateChunk? cs generalizing k rest with
  | case1 => cases h
  | case2 cs => cases h; exact htail more
  | case3 cs => cases h; exact htail more
  | case4 cs ih | case5 cs ih | case6 cs ih =>
    obtain ⟨⟨k', rest'⟩, hk', heq⟩ := Option.map_eq_some_iff.1 h
    cases heq
    rw [lineFeeds_cons (by decide), lineFeeds_cons (by decide)]
    simp [templateChunk?, ih hk' hdenotes]
  | case7 cs hquote hdollar hbackslash ih =>
    obtain ⟨⟨k', rest'⟩, hk', heq⟩ := Option.map_eq_some_iff.1 h
    cases heq
    obtain ⟨hchunk, hescape⟩ := Bool.and_eq_true_iff.1 hdenotes
    obtain ⟨tail', rfl, hends'⟩ := exists_of_templateChunk? hk'
    have hagain := templateEscapeDenotes_lineFeeds hends' (hends.append more) hescape
    have hread := ih hk' hchunk
    rw [lineFeeds_cons (by decide), List.cons_append]
    -- The character behind the backslash belongs to the piece: it is no delimiter and no other backslash.
    have hraw : k'.raw ≠ [] := by
      intro hnil
      obtain ⟨c, rest, rfl, hc⟩ := hends'
      rw [hnil] at hquote hdollar
      rcases hc with rfl | rfl
      · exact hquote rest rfl
      · exact hdollar rest rfl
    rw [templateChunk?]
    · rw [hread]
      simp [hagain]
    · exact lineFeeds_append_ne_cons (by decide) hquote fun hnil => absurd hnil hraw
    · exact lineFeeds_append_ne_cons (by decide) hdollar fun hnil => absurd hnil hraw
    · exact lineFeeds_append_ne_cons (by decide) hbackslash fun hnil => absurd hnil hraw
  | case8 c cs hquote hdollar h1 h2 h3 h4 ih =>
    obtain ⟨⟨k', rest'⟩, hk', heq⟩ := Option.map_eq_some_iff.1 h
    cases heq
    obtain ⟨tail', rfl, -⟩ := exists_of_templateChunk? hk'
    refine templateChunk?_lineFeeds_cons hquote h4 (fun hc hhead => ?_) (ih hk' hdenotes)
    obtain ⟨rest, hrest⟩ := List.head?_eq_some_iff.1 hhead
    refine lineFeeds_append_ne_cons (by decide) (fun rest => hdollar rest hc) (fun _ rest heq => ?_) rest hrest
    exact hends.append_head more (by rw [heq]; rfl)

/-- A piece in which every escape denotes something is kept as one that is read as it is. -/
theorem isStable_lineFeeds {cs rest : List Char} {k : Chunk} (h : templateChunk? cs = some (k, rest))
    (hdenotes : k.denotes = true) : IsStable (lineFeeds k.raw) where
  close := templateChunk?_lineFeeds h hdenotes ['`'] ⟨_, _, rfl, .inl rfl⟩ fun more => by
    simp [templateChunk?]
  opens := templateChunk?_lineFeeds h hdenotes ['$', '{'] ⟨_, _, rfl, .inr rfl⟩ fun more => by
    simp [templateChunk?]
  lines := lineFeeds_of_not_mem (not_mem_lineFeeds _)

end TemplateCompiler.Script
