import TemplateCompiler.Proofs.Render.Literals
import TemplateCompiler.Proofs.Script.Tree
/-!
# Tokens of written texts

What is written as one token is read as that token, wherever what follows cannot go on with it: punctuators, names,
strings and numbers.
-/

namespace TemplateCompiler.Script

open TemplateCompiler.Text TemplateCompiler.Number

namespace Tree

/-! ## Blanks and punctuators -/

@[simp] theorem next_nil : next [] = some (.done, []) := rfl

@[simp] theorem next_space (rest : List Char) : next (' ' :: rest) = next rest := rfl

@[simp] theorem next_comma (rest : List Char) : next (',' :: rest) = some (.punct ",", rest) := rfl

@[simp] theorem next_colon (rest : List Char) : next (':' :: rest) = some (.punct ":", rest) := rfl

@[simp] theorem next_semicolon (rest : List Char) : next (';' :: rest) = some (.punct ";", rest) := rfl

@[simp] theorem next_leftParen (rest : List Char) : next ('(' :: rest) = some (.punct "(", rest) := rfl

@[simp] theorem next_rightParen (rest : List Char) : next (')' :: rest) = some (.punct ")", rest) := rfl

@[simp] theorem next_leftBracket (rest : List Char) : next ('[' :: rest) = some (.punct "[", rest) := rfl

@[simp] theorem next_rightBracket (rest : List Char) : next (']' :: rest) = some (.punct "]", rest) := rfl

@[simp] theorem next_leftBrace (rest : List Char) : next ('{' :: rest) = some (.punct leftBrace, rest) := rfl

@[simp] theorem next_rightBrace (rest : List Char) : next ('}' :: rest) = some (.punct rightBrace, rest) := rfl

/-- An operator or an arrow, with blanks around it. -/
theorem next_operator (rest : List Char) :
    next ('?' :: ' ' :: rest) = some (.punct "?", ' ' :: rest) ∧
      next ('+' :: ' ' :: rest) = some (.punct "+", ' ' :: rest) ∧
      next ('=' :: ' ' :: rest) = some (.punct "=", ' ' :: rest) ∧
      next ('=' :: '>' :: ' ' :: rest) = some (.punct "=>", ' ' :: rest) ∧
      next ('|' :: '|' :: ' ' :: rest) = some (.punct "||", ' ' :: rest) :=
  ⟨rfl, rfl, rfl, rfl, rfl⟩

theorem punct?_not {c : Char} (h : c ≠ '=') (rest : List Char) :
    punct? ('!' :: c :: rest) = some { token := .punct "!", rest := c :: rest } := by
  have hc : ('=' == c) = false := by simpa using h.symm
  unfold punct? punctuators
  simp [List.isPrefixOf, hc, leftBrace, rightBrace]

/-- A sign of negation, with its operand right behind it. -/
theorem next_not {c : Char} (h : c ≠ '=') (rest : List Char) :
    next ('!' :: c :: rest) = some (.punct "!", c :: rest) := by
  have hlexeme : lexeme ('!' :: c :: rest) =
      { (punct? ('!' :: c :: rest)).getD { token := .invalid, flawed := true, rest := [] } with onNewLine := false } :=
    rfl
  rw [next, hlexeme, punct?_not h]
  rfl

theorem punct?_dot {c : Char} (h : c ≠ '.') (rest : List Char) :
    punct? ('.' :: c :: rest) = some { token := .punct ".", rest := c :: rest } := by
  have hc : ('.' == c) = false := by simpa using h.symm
  unfold punct? punctuators
  simp [List.isPrefixOf, hc, leftBrace, rightBrace]

/-! ## Names -/

/-- No identifier goes on at the front of the text. -/
def EndsWord (cs : List Char) : Prop :=
  ∀ c ∈ cs.head?, isIdentifierPart c = false ∧ c ≠ '\\'

theorem ne_backslash_of_part {c : Char} (h : isIdentifierPart c = true) : c ≠ '\\' := by
  rintro rfl
  exact absurd h (by decide)

/-- The rest of a name is read as far as it goes. -/
theorem word_parts {cs rest : List Char} (h : ∀ c ∈ cs, isIdentifierPart c = true) (hrest : EndsWord rest) :
    word isIdentifierPart (cs ++ rest) = { name := cs, rest } := by
  induction cs with
  | nil =>
    cases rest with
    | nil => rw [List.nil_append, word]
    | cons c rest =>
      obtain ⟨hpart, hne⟩ := hrest c rfl
      rw [List.nil_append, word, if_neg hne, if_neg (by simp [hpart])]
  | cons c cs ih =>
    have hc := h c List.mem_cons_self
    rw [List.cons_append, word, if_neg (ne_backslash_of_part hc), if_pos hc, ih fun d hd => h d (List.mem_cons_of_mem c hd)]

theorem word_name {cs rest : List Char} (h : isIdentifierChars cs = true) (hrest : EndsWord rest) :
    word isIdentifierStart (cs ++ rest) = { name := cs, rest } := by
  cases cs with
  | nil => cases h
  | cons c cs =>
    obtain ⟨hc, hcs⟩ := Bool.and_eq_true_iff.1 h
    have hne := ne_backslash_of_part (Render.isIdentifierPart_of_start hc)
    rw [List.cons_append, word, if_neg hne, if_pos hc, word_parts (List.all_eq_true.1 hcs) hrest]

/-- The codes of the characters that may stand between tokens. -/
def gapCodes : List Nat :=
  [9, 10, 11, 12, 13, 0x20, 0x85, 0xA0, 0x1680, 0x2000, 0x2001, 0x2002, 0x2003, 0x2004, 0x2005, 0x2006, 0x2007, 0x2008,
    0x2009, 0x200A, 0x200B, 0x2028, 0x2029, 0x202F, 0x205F, 0x3000, 0xFEFF]

theorem mem_gapCodes {c : Char} (h : isSpace c = true ∨ isLineEnd c = true) : c.toNat ∈ gapCodes := by
  rcases h with h | h
  · simp only [isSpace, Bool.or_eq_true, beq_iff_eq, Bool.and_eq_true, decide_eq_true_eq] at h
    simp only [gapCodes, List.mem_cons, List.not_mem_nil, or_false]
    omega
  · simp only [isLineEnd, Bool.or_eq_true, beq_iff_eq] at h
    rcases h with ((rfl | rfl) | h) | h
    · decide
    · decide
    · simp [h, gapCodes]
    · simp [h, gapCodes]

theorem not_start_of_gap : ∀ n ∈ 0x2F :: gapCodes, isIdentifierStart (Char.ofNat n) = false := by
  decide +kernel

/-- No identifier starts with what stands between tokens. -/
theorem not_space_of_start {c : Char} (h : isIdentifierStart c = true) :
    isSpace c = false ∧ isLineEnd c = false ∧ c ≠ '/' := by
  have hgap : c.toNat ∉ 0x2F :: gapCodes := fun hc => by
    have hstart := not_start_of_gap _ hc
    rw [Char.ofNat_toNat, h] at hstart
    cases hstart
  refine ⟨?_, ?_, ?_⟩
  · by_contra hspace
    exact hgap (List.mem_cons_of_mem _ (mem_gapCodes (.inl (by simpa using hspace))))
  · by_contra hline
    exact hgap (List.mem_cons_of_mem _ (mem_gapCodes (.inr (by simpa using hline))))
  · rintro rfl
    exact hgap List.mem_cons_self

/-- No identifier starts with a digit. -/
theorem not_digit_of_start {c : Char} (h : isIdentifierStart c = true) : c.isDigit = false := by
  have hdigits : ∀ n < 10, isIdentifierStart (Char.ofNat (48 + n)) = false := by decide
  by_contra hdigit
  have hrange : 48 ≤ c.toNat ∧ c.toNat ≤ 57 := by
    simpa [Char.isDigit, UInt32.le_iff_toNat_le] using hdigit
  have hstart := hdigits (c.toNat - 48) (by omega)
  rw [show 48 + (c.toNat - 48) = c.toNat by omega, Char.ofNat_toNat, h] at hstart
  cases hstart


theorem skipGap_start {c : Char} (h : isIdentifierStart c = true) (rest : List Char) :
    skipGap .code false (c :: rest) = some (false, c :: rest) := by
  obtain ⟨hspace, hline, hslash⟩ := not_space_of_start h
  rw [skipGap]
  · simp [hspace, hline]
  all_goals simp_all

/-- What starts with an identifier is read as a word. -/
theorem next_word {c : Char} (hc : isIdentifierStart c = true) (rest : List Char) :
    next (c :: rest) =
      if (word isIdentifierStart (c :: rest)).flawed then none
      else
        some (.word (String.ofList (word isIdentifierStart (c :: rest)).name) (word isIdentifierStart (c :: rest)).escaped,
          (word isIdentifierStart (c :: rest)).rest) := by
  have hstarts : startsWord (c :: rest) = true := by simp [startsWord, hc]
  simp only [next, lexeme, skipGap_start hc, token?, hstarts, if_true, Option.getD_some]

/-- A name is read as a word. -/
theorem next_name {name : String} {rest : List Char} (h : isIdentifierName name = true) (hrest : EndsWord rest) :
    next (name.toList ++ rest) = some (.word name false, rest) := by
  have hword := word_name h hrest
  cases hname : name.toList with
  | nil => simp [isIdentifierName, isIdentifierChars, hname] at h
  | cons c cs =>
    rw [hname] at hword
    have hc : isIdentifierStart c = true := by
      simp only [isIdentifierName, isIdentifierChars, hname, Bool.and_eq_true] at h
      exact h.1
    rw [List.cons_append] at hword ⊢
    rw [next_word hc, hword, if_neg (by simp), ← hname, String.ofList_toList]

/-- A dot is a token of its own before what goes on with neither dots nor a number. -/
theorem next_dot_cons {c : Char} (hdot : c ≠ '.') (hdigit : c.isDigit = false) (rest : List Char) :
    next ('.' :: c :: rest) = some (.punct ".", c :: rest) := by
  have hlexeme : lexeme ('.' :: c :: rest) =
      { (if c.isDigit then number? ('.' :: c :: rest) else punct? ('.' :: c :: rest)).getD
          { token := .invalid, flawed := true, rest := [] } with onNewLine := false } := by
    rfl
  simp [next, hlexeme, hdigit, punct?_dot hdot]

/-- A dot before a name is a token of its own. -/
theorem next_dot {name : String} (h : isIdentifierName name = true) (rest : List Char) :
    next ('.' :: (name.toList ++ rest)) = some (.punct ".", name.toList ++ rest) := by
  cases hname : name.toList with
  | nil => simp [isIdentifierName, isIdentifierChars, hname] at h
  | cons c cs =>
    have hc : isIdentifierStart c = true := by
      simp only [isIdentifierName, isIdentifierChars, hname, Bool.and_eq_true] at h
      exact h.1
    have hdot : c ≠ '.' := by
      rintro rfl
      exact absurd hc (by decide)
    exact next_dot_cons hdot (not_digit_of_start hc) (cs ++ rest)

/-! ## Strings -/

theorem stringBody?_plain {close c : Char} (hclose : c ≠ close) (hbackslash : c ≠ '\\') (hfeed : c ≠ '\n')
    (hreturn : c ≠ '\r') (rest : List Char) :
    stringBody? close (c :: rest) =
      (stringBody? close rest).map fun (codes, flawed, after) => (c.toNat :: codes, flawed, after) := by
  rw [stringBody?, if_neg hclose, if_neg hbackslash, if_neg (by simp [hfeed, hreturn])]
  cases stringBody? close rest <;> rfl

theorem stringBody?_escaped {close : Char} (hclose : close ≠ '\\') {code size : Nat} {rest : List Char}
    (h : stringEscape? rest = some ([code], size)) :
    stringBody? close ('\\' :: rest) =
      (stringBody? close (rest.drop size)).map fun (codes, flawed, after) => (code :: codes, flawed, after) := by
  rw [stringBody?, if_neg hclose.symm, if_pos rfl]
  simp only [h]
  cases stringBody? close (rest.drop size) <;> rfl

theorem stringEscape?_control {n : Nat} (h : n < 32) (rest : List Char) :
    stringEscape? ('u' :: '0' :: '0' :: hexDigit (n / 16) :: hexDigit (n % 16) :: rest) = some ([n], 5) := by
  have hhigh : hexValue? (hexDigit (n / 16)) = some (n / 16) := Render.hexValue?_hexDigit (by omega)
  have hlow : hexValue? (hexDigit (n % 16)) = some (n % 16) := Render.hexValue?_hexDigit (by omega)
  have hcode : codeEscape? ('0' :: '0' :: hexDigit (n / 16) :: hexDigit (n % 16) :: rest) = some (n, 4) := by
    have hvalue : valueIn 16 ['0', '0', hexDigit (n / 16), hexDigit (n % 16)] = n := by
      have hzero : hexValue? '0' = some 0 := rfl
      simp only [valueIn, List.foldl_cons, List.foldl_nil, hzero, hhigh, hlow, Option.getD_some]
      omega
    have hdigits : (['0', '0', hexDigit (n / 16), hexDigit (n % 16)].all (isDigitIn 16)) = true := by
      have hzero : isDigitIn 16 '0' = true := rfl
      have h1 : isDigitIn 16 (hexDigit (n / 16)) = true := by
        rw [isDigitIn, hhigh]
        exact decide_eq_true (by omega)
      have h2 : isDigitIn 16 (hexDigit (n % 16)) = true := by
        rw [isDigitIn, hlow]
        exact decide_eq_true (by omega)
      simp [hzero, h1, h2]
    rw [codeEscape?]
    · unfold fourDigits?
      simp only [List.take_succ_cons, List.take_zero, List.length_cons, List.length_nil, hdigits, hvalue]
      rfl
    · simp
  have hpair : pairEscape? ('0' :: '0' :: hexDigit (n / 16) :: hexDigit (n % 16) :: rest) = some (n, 4) := by
    have hsurrogate (low : Nat) : surrogatePair? n low = none := by
      have : ¬ 0xD800 ≤ n := by omega
      simp [surrogatePair?, this]
    rw [pairEscape?, hcode]
    simp only [Option.bind_eq_bind, Option.bind_some, List.drop_succ_cons, List.drop_zero]
    split
    · have hnone : ∀ found : Option Nat, (found.bind (surrogatePair? n)) = none := fun found => by
        cases found with
        | none => rfl
        | some low => exact hsurrogate low
      rw [hnone]
      rfl
    · rfl
  have hletter : stringEscape? ('u' :: '0' :: '0' :: hexDigit (n / 16) :: hexDigit (n % 16) :: rest) =
      (pairEscape? ('0' :: '0' :: hexDigit (n / 16) :: hexDigit (n % 16) :: rest)).map
        fun found => ([found.1], found.2 + 1) := rfl
  rw [hletter, hpair]
  rfl

theorem stringBody?_escapeChar (c : Char) (rest : List Char) :
    stringBody? '"' (escapeChar c ++ rest) =
      (stringBody? '"' rest).map fun (codes, flawed, after) => (c.toNat :: codes, flawed, after) := by
  have hnat {n : Nat} (h : c.toNat = n) : c = Char.ofNat n := by rw [← h, Char.ofNat_toNat]
  have hletter {letter : Char} (h : stringEscape? (letter :: rest) = some ([c.toNat], 1)) :
      stringBody? '"' (['\\', letter] ++ rest) =
        (stringBody? '"' rest).map fun (codes, flawed, after) => (c.toNat :: codes, flawed, after) :=
    stringBody?_escaped (by decide) h
  unfold escapeChar
  split_ifs with hquote hbackslash hline hreturn htab hback hfeed hcontrol
  · exact hletter (by rw [hquote]; rfl)
  · exact hletter (by rw [hbackslash]; rfl)
  · exact hletter (by rw [hline]; rfl)
  · exact hletter (by rw [hreturn]; rfl)
  · exact hletter (by rw [htab]; rfl)
  · exact hletter (by rw [hback]; rfl)
  · exact hletter (by rw [hfeed]; rfl)
  · exact stringBody?_escaped (by decide) (stringEscape?_control hcontrol rest)
  · exact stringBody?_plain hquote hbackslash hline hreturn rest

theorem stringBody?_flatMap (cs rest : List Char) :
    stringBody? '"' (cs.flatMap escapeChar ++ '"' :: rest) = some (cs.map Char.toNat, false, rest) := by
  induction cs with
  | nil => rw [List.flatMap_nil, List.nil_append, stringBody?, if_pos rfl]; rfl
  | cons c cs ih =>
    rw [List.flatMap_cons, List.append_assoc, stringBody?_escapeChar, ih]
    rfl

/-- No character is half of a surrogate pair. -/
theorem isSurrogate_toNat (c : Char) : isSurrogate c.toNat = false := by
  have := c.valid
  simp only [isSurrogate, Char.toNat, UInt32.isValidChar, Nat.isValidChar] at *
  simp only [Bool.and_eq_false_iff, decide_eq_false_iff_not]
  omega

theorem textOfCodes_toNat (cs : List Char) : textOfCodes (cs.map Char.toNat) = String.ofList cs := by
  have hnone : (cs.map Char.toNat).any isSurrogate = false := by
    simp [isSurrogate_toNat]
  rw [textOfCodes, hnone, if_neg (by simp), List.map_map]
  congr 1
  exact (List.map_congr_left fun c _ => Char.ofNat_toNat c).trans (List.map_id cs)

/-- A string in quotes is read as the string. -/
theorem next_quote (s : String) (rest : List Char) : next ((quote s).toList ++ rest) = some (.string s, rest) := by
  have hlexeme : lexeme ('"' :: (s.toList.flatMap escapeChar ++ '"' :: rest)) =
      { ((stringBody? '"' (s.toList.flatMap escapeChar ++ '"' :: rest)).map fun (codes, flawed, after) =>
          ({ token := .string (textOfCodes codes), flawed, rest := after } : Written)).getD
            { token := .invalid, flawed := true, rest := [] } with onNewLine := false } := rfl
  have htext : (quote s).toList ++ rest = '"' :: (s.toList.flatMap escapeChar ++ '"' :: rest) := by
    simp [quote, quoteChars]
  rw [htext, next, hlexeme, stringBody?_flatMap]
  simp [textOfCodes_toNat]

end Tree

/-! ## Pieces of templates -/

/-- A text that can stand in a template: no backquote and no substitution starts in it unless a backslash stands before
it, and it does not end behind a lone backslash. -/
inductive IsPiece : List Char → Prop where
  | nil : IsPiece []
  | escape (c : Char) {cs : List Char} (h : IsPiece cs) : IsPiece ('\\' :: c :: cs)
  | plain {c : Char} {cs : List Char} (hquote : c ≠ '`') (hbackslash : c ≠ '\\')
      (hdollar : c = '$' → cs.head? ≠ some '{') (h : IsPiece cs) : IsPiece (c :: cs)

theorem templateChunk?_plain {c : Char} {cs : List Char} (hquote : c ≠ '`') (hbackslash : c ≠ '\\')
    (hdollar : c = '$' → cs.head? ≠ some '{') :
    templateChunk? (c :: cs) = (templateChunk? cs).map fun (k, rest) => ({ k with raw := c :: k.raw }, rest) := by
  cases cs with
  | nil => simp [templateChunk?]
  | cons d ds =>
    rw [templateChunk?]
    all_goals simp_all

/-- A character behind a backslash does not end a piece. -/
theorem exists_templateChunk?_escape (c : Char) (cs : List Char) :
    ∃ denotes, ∀ k rest, templateChunk? cs = some (k, rest) →
      templateChunk? ('\\' :: c :: cs) =
        some ({ k with raw := '\\' :: c :: k.raw, denotes := k.denotes && denotes }, rest) := by
  by_cases hspecial : c = '`' ∨ c = '$' ∨ c = '\\'
  · refine ⟨true, fun k rest hk => ?_⟩
    rcases hspecial with rfl | rfl | rfl <;> simp [templateChunk?, hk]
  · simp only [not_or] at hspecial
    obtain ⟨hquote, hdollar, hbackslash⟩ := hspecial
    refine ⟨templateEscapeDenotes (c :: cs), fun k rest hk => ?_⟩
    rw [templateChunk?]
    · rw [templateChunk?_plain hquote hbackslash fun h => absurd h hdollar, hk]
      rfl
    all_goals simp_all

/-- A piece is read as it is written, up to a delimiter. -/
theorem IsPiece.templateChunk?_append {cs tail rest : List Char} {opens : Bool} (h : IsPiece cs)
    (hbrace : tail.head? ≠ some '{') (htail : templateChunk? tail = some (⟨[], true, opens⟩, rest)) :
    ∃ denotes, templateChunk? (cs ++ tail) = some (⟨cs, denotes, opens⟩, rest) := by
  induction h with
  | nil => exact ⟨true, htail⟩
  | escape c h ih =>
    obtain ⟨denotes, hread⟩ := ih
    obtain ⟨denotes', hescape⟩ := exists_templateChunk?_escape c _
    exact ⟨_, hescape _ _ hread⟩
  | @plain c cs hquote hbackslash hdollar h ih =>
    obtain ⟨denotes, hread⟩ := ih
    refine ⟨denotes, ?_⟩
    rw [List.cons_append, templateChunk?_plain hquote hbackslash, hread]
    · rfl
    · intro hc
      cases cs with
      | nil => exact hbrace
      | cons d ds => exact hdollar hc

/-- A piece before the closing backquote. -/
theorem IsPiece.templateChunk?_close {cs : List Char} (h : IsPiece cs) (rest : List Char) :
    ∃ denotes, templateChunk? (cs ++ '`' :: rest) = some (⟨cs, denotes, false⟩, rest) :=
  h.templateChunk?_append (by simp) (by simp [templateChunk?])

/-- A piece before a substitution. -/
theorem IsPiece.templateChunk?_open {cs : List Char} (h : IsPiece cs) (rest : List Char) :
    ∃ denotes, templateChunk? (cs ++ '$' :: '{' :: rest) = some (⟨cs, denotes, true⟩, rest) :=
  h.templateChunk?_append (by simp) (by simp [templateChunk?])

theorem head?_of_raw_nil {cs rest : List Char} {k : Chunk} (h : templateChunk? cs = some (k, rest)) (hnil : k.raw = []) :
    cs.head? = some '`' ∨ cs.head? = some '$' := by
  unfold templateChunk? at h
  split at h
  case h_1 => cases h
  case h_2 => exact .inl rfl
  case h_3 => exact .inr rfl
  all_goals
    obtain ⟨⟨k', rest'⟩, -, heq⟩ := Option.map_eq_some_iff.1 h
    rw [← (Prod.mk.inj heq).1] at hnil
    cases hnil

/-- What is read as a piece is one, and stands at the front of the text. -/
theorem isPiece_of_templateChunk? {cs rest : List Char} {k : Chunk} (h : templateChunk? cs = some (k, rest)) :
    IsPiece k.raw ∧ k.raw <+: cs := by
  fun_induction templateChunk? cs generalizing k rest with
  | case1 => cases h
  | case2 cs =>
    obtain ⟨rfl, -⟩ := Prod.mk.inj (Option.some.inj h)
    exact ⟨.nil, List.nil_prefix⟩
  | case3 cs =>
    obtain ⟨rfl, -⟩ := Prod.mk.inj (Option.some.inj h)
    exact ⟨.nil, List.nil_prefix⟩
  | case4 cs ih | case5 cs ih | case6 cs ih =>
    obtain ⟨⟨k', rest'⟩, hk', heq⟩ := Option.map_eq_some_iff.1 h
    obtain ⟨rfl, rfl⟩ := Prod.mk.inj heq
    obtain ⟨hpiece, hprefix⟩ := ih hk'
    exact ⟨.escape _ hpiece, by simpa using hprefix⟩
  | case7 cs hquote hdollar hbackslash ih =>
    obtain ⟨⟨k', rest'⟩, hk', heq⟩ := Option.map_eq_some_iff.1 h
    obtain ⟨rfl, rfl⟩ := Prod.mk.inj heq
    obtain ⟨hpiece, hprefix⟩ := ih hk'
    refine ⟨?_, by simpa using hprefix⟩
    -- What stands behind the backslash belongs to the piece: it is no delimiter and no other backslash.
    cases hpiece' : k'.raw with
    | nil =>
      rcases head?_of_raw_nil hk' hpiece' with hhead | hhead
      · obtain ⟨more, rfl⟩ := List.head?_eq_some_iff.1 hhead
        exact absurd rfl (hquote more)
      · obtain ⟨more, rfl⟩ := List.head?_eq_some_iff.1 hhead
        exact absurd rfl (hdollar more)
    | cons c raw =>
      obtain ⟨more, rfl⟩ := hprefix
      rw [hpiece'] at hpiece
      cases hpiece with
      | escape d hraw => exact absurd (by rw [hpiece']; rfl) (hbackslash _)
      | plain _ _ _ hraw => exact .escape c hraw
  | case8 c cs hquote hdollar h1 h2 h3 h4 ih =>
    obtain ⟨⟨k', rest'⟩, hk', heq⟩ := Option.map_eq_some_iff.1 h
    obtain ⟨rfl, rfl⟩ := Prod.mk.inj heq
    obtain ⟨hpiece, hprefix⟩ := ih hk'
    refine ⟨.plain hquote h4 (fun hc hhead => ?_) hpiece, by simpa using hprefix⟩
    obtain ⟨more, hraw⟩ := List.head?_eq_some_iff.1 hhead
    obtain ⟨after, rfl⟩ := hprefix
    exact hdollar _ hc (by rw [hraw]; rfl)

theorem lineFeeds_cons {c : Char} (h : c ≠ '\r') (cs : List Char) : lineFeeds (c :: cs) = c :: lineFeeds cs := by
  rw [lineFeeds]
  all_goals simp_all

/-- The backquote that opens a template. -/
theorem Tree.next_backquote {cs : List Char} (h : (templateChunk? cs).isSome = true) :
    Tree.next ('`' :: cs) = some (.backquote, cs) := by
  have hlexeme : lexeme ('`' :: cs) =
      { ((templateChunk? cs).map fun _ => ({ token := .backquote, rest := cs } : Written)).getD
          { token := .invalid, flawed := true, rest := [] } with onNewLine := false } := rfl
  obtain ⟨found, hfound⟩ := Option.isSome_iff_exists.1 h
  simp [Tree.next, hlexeme, hfound]

end TemplateCompiler.Script
