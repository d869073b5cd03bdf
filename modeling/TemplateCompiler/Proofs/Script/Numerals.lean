import TemplateCompiler.Proofs.Script.Lexemes
/-!
# Numbers as they are written

A decimal without an exponent is read as a number wherever it stands, unless a digit, a letter or a dot follows it
(`exists_next`). The digits of a natural number are one (`isWhole_toDigits`).
-/

namespace TemplateCompiler.Script

open TemplateCompiler.Text TemplateCompiler.Number

namespace Tree

/-! ## Decimals -/

/-- The digits before a decimal point, or a whole number: no zero stands before another digit. -/
structure IsWhole (cs : List Char) : Prop where
  digits : ∀ c ∈ cs, c.isDigit = true
  ne_nil : cs ≠ []
  leading : cs.head? = some '0' → cs = ['0']

/-- A decimal as it is written without a sign and without an exponent. -/
inductive IsDecimal : List Char → Prop where
  | whole {cs : List Char} (h : IsWhole cs) : IsDecimal cs
  | fraction {whole fraction : List Char} (h : IsWhole whole) (hdigits : ∀ c ∈ fraction, c.isDigit = true) :
      IsDecimal (whole ++ '.' :: fraction)

/-! ## Where numbers end -/

theorem isIdentifierPart_of_isDigit {c : Char} (h : c.isDigit = true) : isIdentifierPart c = true := by
  have hlow : c.toNat < 128 := by
    have hrange : 48 ≤ c.toNat ∧ c.toNat ≤ 57 := by
      simpa [Char.isDigit, UInt32.le_iff_toNat_le] using h
    omega
  simp [isIdentifierPart, hlow, Char.isAlphanum, h]

/-- No number goes on at the front of a text where no identifier does. -/
theorem EndsWord.endsNumber {rest : List Char} (h : EndsWord rest) : endsNumber rest = true := by
  cases rest with
  | nil => rfl
  | cons c cs =>
    have hpart := (h c rfl).1
    have hdigit : c.isDigit = false := by
      by_contra hdigit
      rw [isIdentifierPart_of_isDigit (by simpa using hdigit)] at hpart
      cases hpart
    have hstart : isIdentifierStart c = false := by
      by_contra hstart
      rw [Render.isIdentifierPart_of_start (by simpa using hstart)] at hpart
      cases hpart
    simp [Script.endsNumber, hdigit, hstart]

theorem EndsWord.ne {rest : List Char} (h : EndsWord rest) {c : Char} (hc : isIdentifierPart c = true) :
    rest.head? ≠ some c := by
  intro hhead
  rw [(h c hhead).1] at hc
  cases hc

theorem EndsWord.not_digit {rest : List Char} (h : EndsWord rest) : ∀ c ∈ rest.head?, c.isDigit = false := by
  intro c hc
  by_contra hdigit
  exact h.ne (isIdentifierPart_of_isDigit (by simpa using hdigit)) hc

theorem digitRun_append {cs rest : List Char} (hdigits : ∀ c ∈ cs, c.isDigit = true)
    (hrest : ∀ c ∈ rest.head?, c.isDigit = false ∧ c ≠ '_') (inside : Bool) :
    digitRun Char.isDigit inside (cs ++ rest) = (cs, false, rest) := by
  induction cs generalizing inside with
  | nil =>
    cases rest with
    | nil => rfl
    | cons c rest =>
      obtain ⟨hdigit, hne⟩ := hrest c rfl
      simp [digitRun, hdigit, hne]
  | cons c cs ih =>
    have hc := hdigits c List.mem_cons_self
    simp [digitRun, hc, ih (fun d hd => hdigits d (List.mem_cons_of_mem c hd)) true]

theorem exponent?_of_endsWord {rest : List Char} (h : EndsWord rest) : exponent? rest = some (0, rest) := by
  unfold exponent?
  split
  · exact absurd rfl (h.ne (c := 'e') (by decide))
  · exact absurd rfl (h.ne (c := 'E') (by decide))
  · rfl

/-! ## Reading decimals -/

/-- The digits before the point have been read: nothing follows them. -/
theorem decimalTail?_whole (whole : List Char) {rest : List Char} (h : EndsWord rest) (hdot : rest.head? ≠ some '.') :
    decimalTail? whole rest = some { token := decimal whole [] 0, rest } := by
  unfold decimalTail?
  split
  · exact absurd rfl hdot
  · simp [exponent?_of_endsWord h, Written.ended?, h.endsNumber]

theorem decimalTail?_fraction (whole : List Char) {fraction rest : List Char}
    (hdigits : ∀ c ∈ fraction, c.isDigit = true) (h : EndsWord rest) :
    decimalTail? whole ('.' :: (fraction ++ rest)) = some { token := decimal whole fraction 0, rest } := by
  have hrun := digitRun_append hdigits (fun c hc => ⟨h.not_digit c hc, fun heq => h.ne (c := '_') (by decide) (heq ▸ hc)⟩)
    false
  simp [decimalTail?, hrun, exponent?_of_endsWord h, Written.ended?, h.endsNumber]

theorem number?_whole {whole tail : List Char} (h : IsWhole whole) (htail : EndsWord tail) :
    number? (whole ++ tail) = decimalTail? whole tail := by
  have hrun := digitRun_append h.digits
    (fun c hc => ⟨htail.not_digit c hc, fun heq => htail.ne (c := '_') (by decide) (heq ▸ hc)⟩) false
  unfold number?
  split
  case h_1 c rest heq =>
    have hzero : whole = ['0'] := h.leading (by
      cases whole with
      | nil => exact absurd rfl h.ne_nil
      | cons d ds => rw [List.cons_append] at heq; rw [(List.cons.inj heq).1]; rfl)
    subst hzero
    obtain rfl : tail = c :: rest := (List.cons.inj heq).2
    have hne {d : Char} (hd : isIdentifierPart d = true) : c ≠ d := fun heq => htail.ne hd (heq ▸ rfl)
    simp [hne (d := 'x') (by decide), hne (d := 'X') (by decide), hne (d := 'o') (by decide), hne (d := 'O') (by decide),
      hne (d := 'b') (by decide), hne (d := 'B') (by decide), hne (d := 'e') (by decide), hne (d := 'E') (by decide),
      hne (d := 'n') (by decide), htail.not_digit c rfl]
  case h_2 rest heq =>
    cases whole with
    | nil => exact absurd rfl h.ne_nil
    | cons d ds =>
      rw [List.cons_append] at heq
      have hd := h.digits d List.mem_cons_self
      rw [(List.cons.inj heq).1] at hd
      cases hd
  case h_3 =>
    rw [hrun]
    split
    · rename_i heq
      exact absurd (Prod.mk.inj heq).1 h.ne_nil
    · rename_i heq
      exact absurd (congrArg List.head? (Prod.mk.inj (Prod.mk.inj heq).2).2) (htail.ne (c := 'n') (by decide))
    · rename_i heq
      simp only [Prod.mk.injEq, true_and] at heq
      obtain ⟨rfl, rfl⟩ := heq
      rfl
    · rename_i heq
      simp at heq

/-- A decimal as it is written, which stands for `digits · 10^power`. -/
inductive IsDecimalOf : List Char → Nat → Int → Prop where
  | whole {cs : List Char} (h : IsWhole cs) : IsDecimalOf cs (valueIn 10 cs) 0
  | fraction {whole fraction : List Char} (h : IsWhole whole) (hdigits : ∀ c ∈ fraction, c.isDigit = true) :
      IsDecimalOf (whole ++ '.' :: fraction) (valueIn 10 (whole ++ fraction)) (-fraction.length)

theorem IsDecimalOf.isDecimal {cs : List Char} {digits : Nat} {power : Int} (h : IsDecimalOf cs digits power) :
    IsDecimal cs := by
  cases h with
  | whole h => exact .whole h
  | fraction h hdigits => exact .fraction h hdigits

theorem IsDecimal.exists_isDecimalOf {cs : List Char} (h : IsDecimal cs) : ∃ digits power, IsDecimalOf cs digits power := by
  cases h with
  | whole h => exact ⟨_, _, .whole h⟩
  | fraction h hdigits => exact ⟨_, _, .fraction h hdigits⟩

/-- A decimal is read as what its value is rounded to, wherever it is written. -/
theorem IsDecimalOf.number? {cs rest : List Char} {digits : Nat} {power : Int} (h : IsDecimalOf cs digits power)
    (hrest : EndsWord rest) (hdot : rest.head? ≠ some '.') :
    number? (cs ++ rest) = some { token := .number (Binary64.nearestDecimal digits power).text, rest } := by
  cases h with
  | whole h =>
    rw [number?_whole h hrest, decimalTail?_whole cs hrest hdot, decimal, List.append_nil]
    rfl
  | @fraction whole fraction h hdigits =>
    have htail : EndsWord ('.' :: (fraction ++ rest)) := by
      intro c hc
      obtain rfl := Option.some.inj hc
      decide
    rw [List.append_assoc, List.cons_append, number?_whole h htail, decimalTail?_fraction whole hdigits hrest, decimal,
      Int.zero_sub]

theorem IsDecimal.exists_head {cs : List Char} (h : IsDecimal cs) : ∃ c rest, cs = c :: rest ∧ c.isDigit = true := by
  have hwhole {whole : List Char} (h : IsWhole whole) : ∃ c rest, whole = c :: rest ∧ c.isDigit = true := by
    cases whole with
    | nil => exact absurd rfl h.ne_nil
    | cons c rest => exact ⟨c, rest, rfl, h.digits c List.mem_cons_self⟩
  cases h with
  | whole h => exact hwhole h
  | fraction h _ =>
    obtain ⟨c, rest, rfl, hc⟩ := hwhole h
    exact ⟨c, _, rfl, hc⟩

theorem next_digit {c : Char} (h : c.isDigit = true) (rest : List Char) :
    next (c :: rest) = (number? (c :: rest)).bind fun found =>
      if found.flawed then none else some (found.token, found.rest) := by
  have hcodes : ∀ n ∈ '/'.toNat :: '\\'.toNat :: gapCodes, (Char.ofNat n).isDigit = false := by decide
  have hnot : c.toNat ∉ '/'.toNat :: '\\'.toNat :: gapCodes := fun hc => by
    have hdigit := hcodes _ hc
    rw [Char.ofNat_toNat, h] at hdigit
    cases hdigit
  have hspace : isSpace c = false := by
    by_contra hspace
    exact hnot (List.mem_cons_of_mem _ (List.mem_cons_of_mem _ (mem_gapCodes (.inl (by simpa using hspace)))))
  have hline : isLineEnd c = false := by
    by_contra hline
    exact hnot (List.mem_cons_of_mem _ (List.mem_cons_of_mem _ (mem_gapCodes (.inr (by simpa using hline)))))
  have hslash : c ≠ '/' := by
    rintro rfl
    exact hnot List.mem_cons_self
  have hbackslash : c ≠ '\\' := by
    rintro rfl
    exact absurd h (by decide)
  have hstart : isIdentifierStart c = false := by
    by_contra hstart
    rw [not_digit_of_start (by simpa using hstart)] at h
    cases h
  have hgap : skipGap .code false (c :: rest) = some (false, c :: rest) := by
    rw [skipGap]
    · simp [hspace, hline]
    all_goals simp_all
  have hword : startsWord (c :: rest) = false := by simp [startsWord, hstart, hbackslash]
  simp only [next, lexeme, hgap, token?, hword, h, Bool.true_or, if_true]
  cases number? (c :: rest) with
  | none => rfl
  | some found => rfl

/-- The next token is a decimal. -/
theorem IsDecimalOf.next {cs rest : List Char} {digits : Nat} {power : Int} (h : IsDecimalOf cs digits power)
    (hrest : EndsWord rest) (hdot : rest.head? ≠ some '.') :
    next (cs ++ rest) = some (.number (Binary64.nearestDecimal digits power).text, rest) := by
  have hread := h.number? hrest hdot
  obtain ⟨c, more, rfl, hc⟩ := h.isDecimal.exists_head
  rw [List.cons_append] at hread ⊢
  rw [next_digit hc, hread]
  rfl

/-- A decimal is read as a number, wherever it is written. -/
theorem exists_next {cs : List Char} (h : IsDecimal cs) :
    ∃ text, ∀ rest, EndsWord rest → rest.head? ≠ some '.' → next (cs ++ rest) = some (.number text, rest) := by
  obtain ⟨digits, power, hdecimal⟩ := h.exists_isDecimalOf
  exact ⟨_, fun rest hrest hdot => hdecimal.next hrest hdot⟩

/-! ## Digits of natural numbers -/

/-- The digits of a number other than zero start with another digit than zero. -/
theorem head?_toDigits {n : Nat} (h : n ≠ 0) : (Nat.toDigits 10 n).head? ≠ some '0' := by
  induction n using Nat.strongRecOn with
  | ind n ih =>
    by_cases hlt : n < 10
    · have hsmall : ∀ k < 10, k ≠ 0 → Nat.digitChar k ≠ '0' := by decide
      rw [Nat.toDigits_of_lt_base hlt]
      simpa using hsmall n hlt h
    · rw [Nat.toDigits_of_base_le (by decide) (by omega), List.head?_append]
      have hhead := ih (n / 10) (by omega) (by omega)
      cases hdigits : Nat.toDigits 10 (n / 10) with
      | nil => exact absurd hdigits Nat.toDigits_ne_nil
      | cons c cs => simpa [hdigits] using hhead

theorem isWhole_toDigits (n : Nat) : IsWhole (Nat.toDigits 10 n) := by
  refine ⟨Render.isDigit_of_mem_toDigits, Nat.toDigits_ne_nil, fun hhead => ?_⟩
  by_cases hzero : n = 0
  · subst hzero
    rfl
  · exact absurd hhead (head?_toDigits hzero)

end Tree
end TemplateCompiler.Script
