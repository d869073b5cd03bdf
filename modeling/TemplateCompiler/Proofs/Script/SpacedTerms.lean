import TemplateCompiler.Proofs.Script.WrittenTerms
/-!
# Terms with gaps between their tokens

`IsSpaced` describes how a term may be written with gaps between its tokens, where its strings and templates have no
blanks but single spaces. What is written so is read as the term (`IsSpaced.isRead`), and is still written so when its
blanks are collapsed (`IsSpaced.collapse`).
-/

namespace TemplateCompiler.Script

open TemplateCompiler.Text

/-! ## Gaps in front of a term -/

section

variable {α : Type} {g : Grammar} {ctx : Context} {gap cs : List Char}

/-- A reader that takes the next token does not see the gap before it, but for the line that the token stands on. -/
theorem take_gap {f : Lexeme → Reader α} (hf : ∀ next onNewLine, f { next with onNewLine } = f next)
    (hgap : IsGap .code gap) (scan : Scan) :
    (do
      let next ← peek
      skip next
      f next) { scan with rest := gap ++ cs } =
    (do
      let next ← peek
      skip next
      f next) { scan with rest := cs } := by
  have hrun (cs : List Char) : (do
      let next ← peek
      skip next
      f next) { scan with rest := cs } =
      f (lexeme cs) { scan with rest := (lexeme cs).rest, flawed := scan.flawed || (lexeme cs).flawed } := rfl
  obtain ⟨onNewLine, hlexeme⟩ := exists_lexeme_gap hgap cs
  rw [hrun, hrun, hlexeme, hf]

theorem StartsTerm.behind (h : StartsTerm cs) (hgap : IsGap .code gap) : StartsTerm (gap ++ cs) := by
  have hnext := Tree.next_gap hgap cs
  cases h with
  | number h => exact .number (hnext.trans h)
  | string h => exact .string (hnext.trans h)
  | template h => exact .template (hnext.trans h)
  | paren h hinner => exact .paren (hnext.trans h) hinner
  | word h hname hrest htoken => exact .word (hnext.trans h) hname hrest htoken

theorem primary_gap (h : StartsTerm cs) (hgap : IsGap .code gap) (scan : Scan) :
    primary g ctx { scan with rest := gap ++ cs } = primary g ctx { scan with rest := cs } := by
  have hahead : aheadAsyncFunction { scan with rest := cs } = (some false, { scan with rest := cs }) :=
    h.reads_aheadAsyncFunction scan
  have hbehind : aheadAsyncFunction { scan with rest := gap ++ cs } = (some false, { scan with rest := gap ++ cs }) :=
    (h.behind hgap).reads_aheadAsyncFunction scan
  unfold primary
  rw [bind_run, bind_run, hahead, hbehind]
  exact take_gap (fun _ _ => rfl) hgap scan

theorem Term.IsOperand.behind {text : List Char} {t : Term} (h : IsOperand text t) (hgap : IsGap .code gap) :
    IsOperand (gap ++ text) t where
  starts hrest := by
    rw [List.append_assoc]
    exact (h.starts hrest).behind hgap
  reads := by
    intro ctx rest depth hctx hrest hdepth scan
    rw [List.length_append] at hdepth
    have hread : chained (grammar depth) ctx { scan with rest := text ++ rest } = (some t, { scan with rest }) :=
      h.reads hctx hrest (by omega) scan
    have hsame : chained (grammar depth) ctx { scan with rest := gap ++ (text ++ rest) } =
        chained (grammar depth) ctx { scan with rest := text ++ rest } := by
      unfold chained
      rw [bind_run, bind_run, primary_gap (h.starts hrest) hgap]
    rw [List.append_assoc]
    exact hsame.trans hread

end

/-! ## How terms are written -/

/-- What a text may be written as: a term that members may be read off, a term with a gap in front of it, or the
substitutions of a template with the pieces behind them. -/
inductive Form where
  | object (t : Term)
  | value (t : Term)
  | tail (tail : List (Term × String))

/-- The text is written in the form, with gaps between its tokens. Its strings and the pieces of its templates have no
blanks but single spaces. A name does not stand alone in parentheses, where it could be a parameter. -/
inductive IsSpaced : List Char → Form → Prop where
  | name {name : String} (h : isIdentifierName name = true) (hvariable : isVariable name = true)
      (hawait : name ≠ "await") : IsSpaced name.toList (.object (.name name))
  | boolean (value : Bool) : IsSpaced (if value then "true" else "false").toList (.object (.boolean value))
  | null : IsSpaced "null".toList (.object .null)
  | string {quote : Char} {body : List Char} {codes : List Nat} (hquote : quote = '"' ∨ quote = '\'')
      (hbody : ∀ rest, stringBody? quote (body ++ quote :: rest) = some (codes, false, rest))
      (hkept : collapse body = body) : IsSpaced (quote :: (body ++ [quote])) (.object (.string (textOfCodes codes)))
  | template {head text : List Char} {tail : List (Term × String)} (hhead : IsStable head)
      (hkept : collapse head = head) (htail : IsSpaced text (.tail tail)) :
      IsSpaced ('`' :: (head ++ (text ++ ['`']))) (.object (.template (String.ofList head) tail))
  | paren {inner gap : List Char} {t : Term} (h : IsSpaced inner (.value t)) (hname : ∀ name, t ≠ .name name)
      (hgap : IsGap .code gap) : IsSpaced ('(' :: (inner ++ (gap ++ [')']))) (.object (.paren t))
  | member {text gap gap' : List Char} {t : Term} {name : String} (h : IsSpaced text (.object t))
      (hgap : IsGap .code gap) (hgap' : IsGap .code gap') (hname : isIdentifierName name = true) :
      IsSpaced (text ++ (gap ++ '.' :: (gap' ++ name.toList))) (.object (.member t name))
  | index {text gap key gap' : List Char} {t k : Term} (h : IsSpaced text (.object t)) (hgap : IsGap .code gap)
      (hkey : IsSpaced key (.value k)) (hgap' : IsGap .code gap') :
      IsSpaced (text ++ (gap ++ '[' :: (key ++ (gap' ++ [']'])))) (.object (.index t k))
  | number {gap text : List Char} {value : String} (hgap : IsGap .code gap) (hnumber : ∀ c ∈ text, isBlank c = false)
      (hnext : ∀ rest, Tree.EndsValue rest → Tree.next (text ++ rest) = some (.number value, rest)) :
      IsSpaced (gap ++ text) (.value (.number value))
  | value {gap text : List Char} {t : Term} (hgap : IsGap .code gap) (h : IsSpaced text (.object t)) :
      IsSpaced (gap ++ text) (.value t)
  | nil : IsSpaced [] (.tail [])
  | cons {inner gap after text : List Char} {t : Term} {tail : List (Term × String)} (h : IsSpaced inner (.value t))
      (hgap : IsGap .code gap) (hafter : IsStable after) (hkept : collapse after = after)
      (htail : IsSpaced text (.tail tail)) :
      IsSpaced ('$' :: '{' :: (inner ++ (gap ++ '}' :: (after ++ text)))) (.tail ((t, String.ofList after) :: tail))

/-! ## How they are read -/

/-- Behind a parenthesis the text opens no parameters. -/
def OpensNone (text : List Char) : Prop :=
  guessInside (lexeme text) = .never

/-- What follows reads a member off an object. -/
def ReadsMember (rest : List Char) : Prop :=
  ∃ token more, Tree.next rest = some (token, more) ∧ token ∈ [.punct ".", .punct "["]

/-- The text is read as the form says, and does not open parameters. Only a name may do that, unless a member is read
off it. -/
def Form.IsRead (text : List Char) : Form → Prop
  | .object t => Term.IsObject text t ∧
    ∀ rest, Follows rest → (∀ name, t ≠ .name name) ∨ ReadsMember rest → OpensNone (text ++ rest)
  | .value t => Term.IsOperand text t ∧
    ∀ rest, Tree.EndsValue rest → (∀ name, t ≠ .name name) → OpensNone (text ++ rest)
  | .tail ts => Term.IsTail text ts

theorem next_string {quote : Char} {body : List Char} {codes : List Nat} (hquote : quote = '"' ∨ quote = '\'')
    (hbody : ∀ rest, stringBody? quote (body ++ quote :: rest) = some (codes, false, rest)) (rest : List Char) :
    Tree.next (quote :: (body ++ quote :: rest)) = some (.string (textOfCodes codes), rest) := by
  have hlexeme : lexeme (quote :: (body ++ quote :: rest)) =
      { ((stringBody? quote (body ++ quote :: rest)).map fun read =>
          ({ token := .string (textOfCodes read.1), flawed := read.2.1, rest := read.2.2 } : Written)).getD
            { token := .invalid, flawed := true, rest := [] } with onNewLine := false } := by
    rcases hquote with rfl | rfl <;> rfl
  rw [Tree.next, hlexeme, hbody]
  simp

/-! ## Parameters -/

theorem OpensNone.behind {gap text : List Char} (h : OpensNone text) (hgap : IsGap .code gap) :
    OpensNone (gap ++ text) := by
  obtain ⟨onNewLine, hlexeme⟩ := exists_lexeme_gap hgap text
  rw [OpensNone, hlexeme]
  exact h

/-- A guess is made from the next token. -/
theorem guessInside_of_next {cs rest : List Char} {token : Token} (h : Tree.next cs = some (token, rest)) :
    guessInside (lexeme cs) = guessInside ⟨⟨token, false, rest⟩, false⟩ := by
  obtain ⟨_, hlexeme⟩ := lexeme_of_next h
  rw [hlexeme]
  rfl

theorem opensNone_word {word : String} (h : isIdentifierName word = true) (hword : isVariable word = false)
    (hthis : word ≠ "this") (hmodifier : word ∉ modifierWords) {rest : List Char} (hrest : Follows rest) :
    OpensNone (word.toList ++ rest) := by
  have hguess : guessAtWord word (lexeme rest) = .never := by simp [guessAtWord, hword, hthis, hmodifier]
  exact (guessInside_of_next (Tree.next_name h hrest.word)).trans hguess

theorem opensNone_name {name : String} (h : isIdentifierName name = true) {rest : List Char} (hrest : Follows rest)
    (hmember : ReadsMember rest) : OpensNone (name.toList ++ rest) := by
  obtain ⟨token, more, hnext, htoken⟩ := hmember
  obtain ⟨_, hlexeme⟩ := lexeme_of_next hnext
  have hguess : guessAtWord name (lexeme rest) = .never := by
    rw [hlexeme]
    simp only [List.mem_cons, List.not_mem_nil, or_false] at htoken
    rcases htoken with rfl | rfl <;> simp [guessAtWord, guessAtName, Token.isVariable]
  exact (guessInside_of_next (Tree.next_name h hrest.word)).trans hguess

/-! ## Reading -/

/-- What is written in a form is read as the form says. -/
theorem IsSpaced.isRead {text : List Char} {form : Form} (h : IsSpaced text form) : form.IsRead text := by
  induction h with
  | name h hvariable hawait =>
    refine ⟨(Term.isPrimary_name h hvariable hawait).isObject, fun rest hrest hmember => ?_⟩
    exact opensNone_name h hrest (hmember.resolve_left fun hname => hname _ rfl)
  | boolean value =>
    refine ⟨(Term.isPrimary_boolean value).isObject, fun rest hrest _ => ?_⟩
    cases value
    case false => exact @opensNone_word "false" (by decide) (by decide) (by decide) (by decide) rest hrest
    case true => exact @opensNone_word "true" (by decide) (by decide) (by decide) (by decide) rest hrest
  | null =>
    refine ⟨Term.isPrimary_null.isObject, fun rest hrest _ => ?_⟩
    exact opensNone_word (by decide) (by decide) (by decide) (by decide) hrest
  | @string quote body codes hquote hbody hkept =>
    have hprimary : Term.IsPrimary (quote :: (body ++ [quote])) (.string (textOfCodes codes)) :=
      Term.isPrimary_string_of_next (by simp) fun rest => by simpa using next_string hquote hbody rest
    refine ⟨hprimary.isObject, fun rest _ _ => ?_⟩
    have hnone : OpensNone (quote :: (body ++ quote :: rest)) := guessInside_of_next (next_string hquote hbody rest)
    simpa using hnone
  | @template head text tail hhead hkept htail ih =>
    refine ⟨(Term.isPrimary_template hhead ih).isObject, fun rest _ _ => ?_⟩
    have hchunk : (templateChunk? (head ++ (text ++ '`' :: rest))).isSome = true := ih.chunk hhead
    have hnone : OpensNone ('`' :: (head ++ (text ++ '`' :: rest))) := guessInside_of_next (Tree.next_backquote hchunk)
    simpa using hnone
  | @paren inner gap t h hname hgap ih =>
    have hends (rest : List Char) := hgap.endsValue (Tree.endsValue_cons (c := ')') (by decide) rest)
    refine ⟨(ih.1.isValue.paren hgap fun rest => ih.2 _ (hends rest) hname).isObject, fun rest _ _ => rfl⟩
  | @member text gap gap' t name h hgap hgap' hname ih =>
    refine ⟨ih.1.memberBehind hgap hgap' hname, fun rest hrest _ => ?_⟩
    have hmember : ReadsMember (gap ++ '.' :: (gap' ++ (name.toList ++ rest))) :=
      ⟨_, _, (Tree.next_gap hgap _).trans (hgap'.next_dot hname rest), by decide⟩
    simpa using ih.2 _ (hgap.follows (follows_dot hgap' hname rest)) (.inr hmember)
  | @index text gap key gap' t k h hgap hkey hgap' ih ihkey =>
    refine ⟨ih.1.indexBehind hgap ihkey.1.isValue hgap', fun rest hrest _ => ?_⟩
    have hmember : ReadsMember (gap ++ '[' :: (key ++ (gap' ++ ']' :: rest))) :=
      ⟨_, _, (Tree.next_gap hgap _).trans (Tree.next_leftBracket _), by decide⟩
    simpa using ih.2 _ (hgap.follows (follows_bracket (key ++ (gap' ++ ']' :: rest)))) (.inr hmember)
  | @number gap text value hgap hnumber hnext =>
    refine ⟨(Term.isOperand_number_of_next hnext).behind hgap, fun rest hrest _ => ?_⟩
    rw [List.append_assoc]
    exact OpensNone.behind (guessInside_of_next (hnext rest hrest)) hgap
  | @value gap text t hgap h ih =>
    refine ⟨ih.1.isOperand.behind hgap, fun rest hrest hname => ?_⟩
    rw [List.append_assoc]
    exact (ih.2 rest hrest.follows (.inl hname)).behind hgap
  | nil => exact Term.isTail_nil
  | cons h hgap hafter hkept htail ih ihtail => exact .consBefore ih.1.isValue hgap hafter ihtail

/-! ## Collapsed terms -/

theorem not_isBlank_of_part {c : Char} (h : isIdentifierPart c = true) : isBlank c = false := by
  by_contra hblank
  have hgap : IsGap .code [c] := isGap_of_isBlank (by simpa using hblank)
  rw [(hgap.head rfl).1] at h
  cases h

theorem not_isBlank_of_name {name : String} (h : isIdentifierName name = true) :
    ∀ c ∈ name.toList, isBlank c = false := by
  unfold isIdentifierName isIdentifierChars at h
  intro c hc
  cases hname : name.toList with
  | nil => simp [hname] at hc
  | cons d cs =>
    rw [hname, Bool.and_eq_true] at h
    rw [hname] at hc
    rcases List.mem_cons.1 hc with rfl | hc
    · exact not_isBlank_of_part (Render.isIdentifierPart_of_start h.1)
    · exact not_isBlank_of_part (List.all_eq_true.1 h.2 c hc)

/-- Where a form has no blank: an object starts and ends without one, a value ends without one, and what stands behind a
piece of a template does not start with one. -/
def Form.IsSolid (text : List Char) : Form → Prop
  | .object _ => text ≠ [] ∧ Trimmed text
  | .value _ => text ≠ [] ∧ ∀ c, text.getLast? = some c → isBlank c = false
  | .tail _ => ∀ c, text.head? = some c → isBlank c = false

theorem IsSpaced.isSolid {text : List Char} {form : Form} (h : IsSpaced text form) : form.IsSolid text := by
  induction h with
  | name h => exact ⟨Tree.toList_ne_nil h, trimmed_of_not (not_isBlank_of_name h)⟩
  | boolean value =>
    cases value
    case false => exact ⟨by simp, trimmed_of_not (@not_isBlank_of_name "false" (by decide))⟩
    case true => exact ⟨by simp, trimmed_of_not (@not_isBlank_of_name "true" (by decide))⟩
  | null => exact ⟨by simp, trimmed_of_not (@not_isBlank_of_name "null" (by decide))⟩
  | @string quote body codes hquote _ _ =>
    have hblank : isBlank quote = false := by rcases hquote with rfl | rfl <;> decide
    exact ⟨by simp, trimmed_delimited hblank hblank body⟩
  | @template head text tail _ _ _ _ =>
    have htrimmed := @trimmed_delimited '`' '`' (by decide) (by decide) (head ++ text)
    exact ⟨by simp, by simpa using htrimmed⟩
  | @paren inner gap t _ _ _ _ =>
    have htrimmed := @trimmed_delimited '(' ')' (by decide) (by decide) (inner ++ gap)
    exact ⟨by simp, by simpa using htrimmed⟩
  | @member text gap gap' t name h hgap hgap' hname ih =>
    have htrimmed := ih.2.between (trimmed_of_not (not_isBlank_of_name hname)) ih.1 (Tree.toList_ne_nil hname)
      (gap ++ '.' :: gap')
    exact ⟨by simp, by simpa using htrimmed⟩
  | @index text gap key gap' t k h hgap hkey hgap' ih ihkey =>
    have hclose : Trimmed [']'] := trimmed_of_not (List.forall_mem_singleton.2 (by decide))
    have htrimmed := ih.2.between hclose ih.1 (by simp) (gap ++ '[' :: (key ++ gap'))
    exact ⟨by simp, by simpa using htrimmed⟩
  | @number gap text value hgap hnumber hnext =>
    have hne := Term.ne_nil_of_next_number hnext
    refine ⟨by simp [hne], fun c hc => ?_⟩
    rw [List.getLast?_append_of_ne_nil _ hne] at hc
    exact (trimmed_of_not hnumber).last c hc
  | @value gap text t hgap h ih =>
    refine ⟨by simp [ih.1], fun c hc => ?_⟩
    rw [List.getLast?_append_of_ne_nil _ ih.1] at hc
    exact ih.2.last c hc
  | nil =>
    intro c hc
    cases hc
  | cons =>
    intro c hc
    obtain rfl := Option.some.inj hc
    decide

/-- What is written in a form is written in it with its blanks collapsed, too. -/
theorem IsSpaced.collapse {text : List Char} {form : Form} (h : IsSpaced text form) :
    IsSpaced (Text.collapse text) form := by
  induction h with
  | name h hvariable hawait =>
    rw [collapse_of_not (not_isBlank_of_name h)]
    exact .name h hvariable hawait
  | boolean value =>
    cases value
    case false => exact .boolean false
    case true => exact .boolean true
  | null => exact .null
  | @string quote body codes hquote hbody hkept =>
    have hblank : isBlank quote = false := by rcases hquote with rfl | rfl <;> decide
    rw [collapse_cons_of_not hblank, collapse_append_cons hblank, hkept]
    exact .string hquote hbody hkept
  | @template head text tail hhead hkept htail ih =>
    rw [collapse_cons_of_not (by decide), ← List.append_assoc, collapse_append_cons (by decide),
      collapse_append_of_head htail.isSolid, hkept, List.append_assoc]
    exact .template hhead hkept ih
  | @paren inner gap t h hname hgap ih =>
    rw [collapse_cons_of_not (by decide), ← List.append_assoc, collapse_append_cons (by decide),
      collapse_append_of_last h.isSolid.2, List.append_assoc]
    exact .paren ih hname hgap.collapse
  | @member text gap gap' t name h hgap hgap' hname ih =>
    have hword := not_isBlank_of_name hname
    rw [← List.append_assoc, collapse_append_cons (by decide), collapse_append_of_last h.isSolid.2.last,
      collapse_append_of_head (trimmed_of_not hword).head, collapse_of_not hword, List.append_assoc]
    exact .member ih hgap.collapse hgap'.collapse hname
  | @index text gap key gap' t k h hgap hkey hgap' ih ihkey =>
    rw [← List.append_assoc, collapse_append_cons (by decide), collapse_append_of_last h.isSolid.2.last,
      ← List.append_assoc key, collapse_append_cons (by decide), collapse_append_of_last hkey.isSolid.2,
      List.append_assoc, List.append_assoc]
    exact .index ih hgap.collapse ihkey hgap'.collapse
  | @number gap text value hgap hnumber hnext =>
    rw [collapse_append_of_head (trimmed_of_not hnumber).head, collapse_of_not hnumber]
    exact .number hgap.collapse hnumber hnext
  | @value gap text t hgap h ih =>
    rw [collapse_append_of_head h.isSolid.2.head]
    exact .value hgap.collapse ih
  | nil => exact .nil
  | @cons inner gap after text t tail h hgap hafter hkept htail ih ihtail =>
    rw [collapse_cons_of_not (by decide), collapse_cons_of_not (by decide), ← List.append_assoc,
      collapse_append_cons (by decide), collapse_append_of_last h.isSolid.2, collapse_append_of_head htail.isSolid,
      hkept, List.append_assoc]
    exact .cons ih hgap.collapse hafter hkept ihtail

/-! ## Code -/

/-- The code is a term with gaps between its tokens and around it. -/
def IsSpacedCode (code : List Char) (t : Term) : Prop :=
  ∃ text gap, code = text ++ gap ∧ IsSpaced text (.value t) ∧ IsGap .code gap

theorem IsSpacedCode.collapse {code : List Char} {t : Term} (h : IsSpacedCode code t) :
    IsSpacedCode (Text.collapse code) t := by
  obtain ⟨text, gap, rfl, htext, hgap⟩ := h
  exact ⟨_, _, collapse_append_of_last htext.isSolid.2, htext.collapse, hgap.collapse⟩

theorem IsSpacedCode.readExpression {code : List Char} {t : Term} (h : IsSpacedCode code t) :
    readExpression code = some t := by
  obtain ⟨text, gap, rfl, htext, hgap⟩ := h
  exact htext.isRead.1.isValue.readExpression_gap hgap

theorem IsSpacedCode.not_blank {code : List Char} {t : Term} (h : IsSpacedCode code t) : code.all isBlank = false := by
  obtain ⟨text, gap, rfl, htext, hgap⟩ := h
  have hends : Tree.EndsValue gap := by simpa using hgap.endsValue Tree.endsValue_nil
  exact (htext.isRead.1.starts hends).not_blank

end TemplateCompiler.Script
