import Mathlib.Tactic.FinCases
import TemplateCompiler.Proofs.Script.Gaps
import TemplateCompiler.Proofs.Script.NumberText
import TemplateCompiler.Proofs.Script.Pieces
import TemplateCompiler.Proofs.Script.Takes
import TemplateCompiler.Script.Grammar
/-!
# Written terms

`Term.IsValue` and `Term.IsOperand` say that the grammar reads a text as a term wherever what follows ends it. They are
shown of the forms that a binding is written in, one form at a time. What is written so is read as a whole
(`Term.IsValue.readExpression`).
-/

namespace TemplateCompiler.Script

open TemplateCompiler.Text TemplateCompiler.Number

/-! ## Runs on a text -/

/-- In front of `cs` a reader hands out `a` and goes on to `rest`, and it notes nothing. -/
def Reads {α : Type} (p : Reader α) (cs : List Char) (a : α) (rest : List Char) : Prop :=
  ∀ scan : Scan, Takes p { scan with rest := cs } a { scan with rest }

section Reads

variable {α β : Type} {cs mid rest : List Char} {token : Token} {text : String}

theorem Reads.pure (a : α) (cs : List Char) : Reads (pure a) cs a cs :=
  fun _ => takes_pure.2 ⟨rfl, rfl⟩

theorem Reads.bind {p : Reader α} {f : α → Reader β} {a : α} {b : β} (hp : Reads p cs a mid)
    (hf : Reads (f a) mid b rest) : Reads (p >>= f) cs b rest :=
  fun scan => takes_bind.2 ⟨a, _, hp scan, hf scan⟩

/-- A reader that looks at what is ahead only. -/
theorem Reads.get {f : Scan → Reader β} {b : β} (h : ∀ scan : Scan, scan.rest = cs → Reads (f scan) cs b rest) :
    Reads (get >>= f) cs b rest :=
  fun scan => takes_bind.2 ⟨_, _, takes_get.2 ⟨rfl, rfl⟩, h _ rfl scan⟩

theorem lexeme_of_next (h : Tree.next cs = some (token, rest)) :
    ∃ onNewLine, lexeme cs = { token, rest, onNewLine } := by
  simp only [Tree.next, Option.ite_none_left_eq_some, Bool.not_eq_true, Option.some.injEq, Prod.mk.injEq] at h
  obtain ⟨hflawed, rfl, rfl⟩ := h
  exact ⟨(lexeme cs).onNewLine, by rw [← hflawed]⟩

theorem Reads.peek {f : Lexeme → Reader β} {b : β} (h : Tree.next cs = some (token, mid))
    (hf : ∀ onNewLine, Reads (f { token, rest := mid, onNewLine }) cs b rest) : Reads (Script.peek >>= f) cs b rest := by
  obtain ⟨onNewLine, hlexeme⟩ := lexeme_of_next h
  intro scan
  exact takes_bind.2 ⟨_, _, takes_peek.2 ⟨rfl, rfl⟩, hlexeme ▸ hf onNewLine scan⟩

theorem reads_skip (token : Token) (rest : List Char) (onNewLine : Bool) (cs : List Char) :
    Reads (skip { token, rest, onNewLine }) cs () rest :=
  fun _ => takes_skip.2 (by rw [Bool.or_false])

/-- A reader that takes the next token first. -/
theorem Reads.next {f : Lexeme → Reader β} {b : β} (h : Tree.next cs = some (token, mid))
    (hf : ∀ onNewLine, Reads (f { token, rest := mid, onNewLine }) mid b rest) :
    Reads (do
      let next ← Script.peek
      skip next
      f next) cs b rest :=
  .peek h fun onNewLine => (reads_skip token mid onNewLine cs).bind (hf onNewLine)

theorem reads_accept (h : Tree.next cs = some (.punct text, rest)) : Reads (accept text) cs true rest :=
  .peek h fun onNewLine => by
    rw [if_pos rfl]
    exact (reads_skip _ rest onNewLine cs).bind (.pure true rest)

theorem reads_accept_of_ne (h : Tree.next cs = some (token, rest)) (hne : token ≠ .punct text) :
    Reads (accept text) cs false cs :=
  .peek h fun _ => by
    rw [if_neg hne]
    exact .pure false cs

theorem reads_expect (h : Tree.next cs = some (.punct text, rest)) : Reads (expect text) cs () rest :=
  (reads_accept h).bind (.pure () rest)

end Reads

/-! ## What stands around a term -/

/-- The tokens that stand behind what members may be read off. -/
def followers : List Token :=
  Tree.separators ++ [.punct ".", .punct "["]

/-- What follows ends a value, or reads a member off it. -/
structure Follows (rest : List Char) : Prop where
  word : Tree.EndsWord rest
  token : ∃ token more, Tree.next rest = some (token, more) ∧ token ∈ followers

theorem Tree.EndsValue.follows {rest : List Char} (h : EndsValue rest) : Follows rest := by
  obtain ⟨token, more, hnext, htoken⟩ := h.token
  exact ⟨h.word, token, more, hnext, List.mem_append_left _ htoken⟩

theorem IsGap.follows {gap rest : List Char} (h : IsGap .code gap) (hrest : Follows rest) : Follows (gap ++ rest) where
  word := h.endsWord hrest.word
  token := by
    rw [Tree.next_gap h]
    exact hrest.token

theorem follows_dot {gap : List Char} (hgap : IsGap .code gap) {name : String} (h : isIdentifierName name = true)
    (rest : List Char) : Follows ('.' :: (gap ++ (name.toList ++ rest))) :=
  ⟨Tree.endsWord_link (by decide) _, _, _, hgap.next_dot h rest, by decide⟩

theorem follows_bracket (rest : List Char) : Follows ('[' :: rest) :=
  ⟨Tree.endsWord_link (by decide) _, _, _, Tree.next_leftBracket rest, by decide⟩

/-- The words that are operators before an operand. -/
def prefixWords : List String :=
  ["delete", "typeof", "void", "await"]

/-- A text starts like a term that is written. Nothing else that an expression can be starts so. -/
inductive StartsTerm (cs : List Char) : Prop where
  | number {text : String} {rest : List Char} (h : Tree.next cs = some (.number text, rest))
  | string {value : String} {rest : List Char} (h : Tree.next cs = some (.string value, rest))
  | template {rest : List Char} (h : Tree.next cs = some (.backquote, rest))
  /-- A parenthesis that opens no parameters. -/
  | paren {inner : List Char} (h : Tree.next cs = some (.punct "(", inner))
      (hinner : guessInside (lexeme inner) = .never)
  | word {name : String} {token : Token} {rest more : List Char} (h : Tree.next cs = some (.word name false, rest))
      (hname : name ∉ prefixWords) (hrest : Tree.next rest = some (token, more)) (htoken : token ∈ followers)

namespace StartsTerm

variable {cs rest : List Char} {g : Grammar} {ctx : Context} {t : Term}

theorem guessArrow (h : StartsTerm cs) : Script.guessArrow cs = .never := by
  cases h with
  | number h | string h | template h =>
    obtain ⟨_, hlexeme⟩ := lexeme_of_next h
    rw [Script.guessArrow, hlexeme]
    rfl
  | paren h hinner =>
    obtain ⟨_, hlexeme⟩ := lexeme_of_next h
    rw [Script.guessArrow, hlexeme]
    simpa only [Token.isWord, Bool.false_eq_true, if_false, if_true] using hinner
  | @word name token rest more h hname hrest htoken =>
    obtain ⟨onNewLine, hlexeme⟩ := lexeme_of_next h
    obtain ⟨onNewLine', hlexemeRest⟩ := lexeme_of_next hrest
    have hparen : token ≠ .punct "(" := (by decide : ∀ token ∈ followers, token ≠ .punct "(") token htoken
    rw [Script.guessArrow, hlexeme]
    -- Behind `async` it is the second token that could open the parameters.
    have hopening : (if (Token.word name false).isWord "async" = true then
        if onNewLine' = true then (⟨⟨.word name false, false, rest⟩, onNewLine⟩ : Lexeme)
        else ⟨⟨token, false, more⟩, onNewLine'⟩
      else ⟨⟨.word name false, false, rest⟩, onNewLine⟩).token ≠ .punct "(" := by
      split_ifs <;> simp [hparen]
    simp only [hlexemeRest]
    exact if_neg hopening

theorem startsAsyncArrow (h : StartsTerm cs) : Script.startsAsyncArrow cs = false := by
  cases h with
  | number h | string h | template h | paren h =>
    obtain ⟨_, hlexeme⟩ := lexeme_of_next h
    rw [Script.startsAsyncArrow, hlexeme]
    rfl
  | @word name token rest more h hname hrest htoken =>
    obtain ⟨_, hlexeme⟩ := lexeme_of_next h
    obtain ⟨_, hlexemeRest⟩ := lexeme_of_next hrest
    have hvariable : token.isVariable = false := (by decide : ∀ token ∈ followers, token.isVariable = false) token htoken
    rw [Script.startsAsyncArrow, hlexeme]
    simp [hlexemeRest, hvariable]

theorem reads_aheadYield (h : StartsTerm cs) (hctx : ctx.yields = false) : Reads (aheadYield ctx) cs false cs := by
  cases h with
  | number h | string h | template h | paren h => exact .peek h fun _ => .pure false cs
  | @word name token rest more h hname hrest htoken =>
    obtain ⟨onNewLine, hlexemeRest⟩ := lexeme_of_next hrest
    have hcontinues : Lexeme.continuesLine ⟨⟨token, false, more⟩, onNewLine⟩ = false := by
      cases onNewLine
      · exact (by decide : ∀ token ∈ followers, Lexeme.continuesLine ⟨⟨token, false, []⟩, false⟩ = false) token htoken
      · rfl
    refine .peek h fun _ => ?_
    simp only [hctx, hlexemeRest, hcontinues, Bool.or_self, Bool.and_false]
    exact .pure false cs

theorem reads_aheadAsyncFunction (h : StartsTerm cs) : Reads aheadAsyncFunction cs false cs := by
  cases h with
  | number h | string h | template h | paren h => exact .peek h fun _ => .pure false cs
  | @word name token rest more h hname hrest htoken =>
    obtain ⟨_, hlexemeRest⟩ := lexeme_of_next hrest
    have hfunction : token.isWord "function" = false :=
      (by decide : ∀ token ∈ followers, token.isWord "function" = false) token htoken
    refine .peek h fun _ => ?_
    simp only [hlexemeRest, hfunction, Bool.and_false, Bool.false_and]
    exact .pure false cs

theorem reads_arrowFunction? (h : StartsTerm cs) : Reads (arrowFunction? g ctx) cs none cs :=
  .get fun scan hscan => by
    simp only [hscan, h.guessArrow]
    exact .pure none cs

/-- No operator stands before a term. -/
theorem unary (h : StartsTerm cs) (hcounted : Reads (counted g ctx) cs t rest) : Reads (Script.unary g ctx) cs t rest := by
  cases h with
  | number h | string h | template h | paren h => exact .peek h fun _ => hcounted
  | @word name token rest more h hname hrest htoken =>
    simp only [prefixWords, List.mem_cons, List.not_mem_nil, or_false, not_or] at hname
    refine .peek h fun _ => ?_
    unfold wordUnary
    simpa [hname] using hcounted

theorem operand (h : StartsTerm cs) (hcounted : Reads (counted g ctx) cs t rest) (close : Bool) :
    Reads (Script.operand g ctx close) cs t rest := by
  have hunary := h.unary hcounted
  cases h with
  | number h | string h | template h | paren h | word h =>
    refine .peek h fun _ => ?_
    simp only [Token.isPrivateName, Bool.and_false, Bool.false_eq_true, if_false]
    exact hunary

end StartsTerm

namespace Term

/-! ## Texts that are read -/

/-- The text is read as a term without members wherever they may follow. -/
structure IsPrimary (text : List Char) (t : Term) : Prop where
  ne_nil : text ≠ []
  starts : ∀ {rest}, Follows rest → StartsTerm (text ++ rest)
  reads : ∀ {ctx rest depth}, ctx.yields = false → Follows rest → 8 * text.length ≤ depth →
    Reads (primary (grammar depth) ctx) (text ++ rest) t rest

/-- The text is read as a term that the members behind it are read off. -/
structure IsObject (text : List Char) (t : Term) : Prop where
  starts : ∀ {rest}, Follows rest → StartsTerm (text ++ rest)
  reads : ∀ {ctx rest depth}, ctx.yields = false → Follows rest → 8 * text.length ≤ depth →
    ∃ left, depth ≤ left + 8 * text.length ∧ ∀ u after, Reads ((grammar (left + 1)).chain ctx ⟨true, false⟩ t) rest u after →
      Reads ((grammar (depth + 1)).chained ctx) (text ++ rest) u after

/-- The text is read as a term wherever what follows ends it. -/
structure IsOperand (text : List Char) (t : Term) : Prop where
  starts : ∀ {rest}, Tree.EndsValue rest → StartsTerm (text ++ rest)
  reads : ∀ {ctx rest depth}, ctx.yields = false → Tree.EndsValue rest → 8 * text.length ≤ depth →
    Reads ((grammar (depth + 1)).chained ctx) (text ++ rest) t rest

/-- The text is read as a value wherever what follows ends it. -/
structure IsValue (text : List Char) (t : Term) : Prop where
  starts : ∀ {rest}, Tree.EndsValue rest → StartsTerm (text ++ rest)
  reads : ∀ {ctx rest depth}, ctx.yields = false → Tree.EndsValue rest → 8 * text.length + 4 ≤ depth →
    Reads ((grammar depth).assignment ctx) (text ++ rest) t rest

variable {text : List Char} {t : Term}

theorem IsPrimary.isObject (h : IsPrimary text t) : IsObject text t where
  starts := h.starts
  reads := by
    intro ctx rest depth hctx hrest hdepth
    have hpos := List.length_pos_iff.2 h.ne_nil
    obtain ⟨left, rfl⟩ := Nat.exists_eq_add_of_le' (show 1 ≤ depth by omega)
    exact ⟨left, by omega, fun u after hchain => (h.reads hctx hrest hdepth).bind hchain⟩

/-- No member follows where a value ends. -/
theorem reads_chain_of_ends {g : Grammar} {ctx : Context} {rest : List Char} (h : Tree.EndsValue rest) (t : Term) :
    Reads (chain g ctx ⟨true, false⟩ t) rest t rest := by
  obtain ⟨token, more, hnext, htoken⟩ := h.token
  refine .peek hnext fun _ => ?_
  fin_cases htoken <;> exact .pure t rest

theorem IsObject.isOperand (h : IsObject text t) : IsOperand text t where
  starts hrest := h.starts hrest.follows
  reads := by
    intro ctx rest depth hctx hrest hdepth
    obtain ⟨left, -, hread⟩ := h.reads hctx hrest.follows hdepth
    exact hread t rest (reads_chain_of_ends hrest t)

theorem reads_counted {g : Grammar} {ctx : Context} {cs rest : List Char} (h : Reads (g.chained ctx) cs t rest)
    (hrest : Tree.EndsValue rest) : Reads (counted g ctx) cs t rest := by
  obtain ⟨token, more, hnext, htoken⟩ := hrest.token
  have hsigns : ∀ token ∈ Tree.separators, token ≠ .punct "++" ∧ token ≠ .punct "--" := by decide
  refine h.bind (.peek hnext fun _ => ?_)
  simp only [hsigns token htoken, decide_false, Bool.or_self, Bool.false_and, Bool.false_eq_true, if_false]
  exact .pure t rest

theorem reads_binary {g : Grammar} {ctx : Context} {cs rest : List Char} (h : Reads (Script.operand g ctx false) cs t rest)
    (hrest : Tree.EndsValue rest) : Reads (binary g ctx) cs t rest := by
  obtain ⟨token, more, hnext, htoken⟩ := hrest.token
  refine h.bind (.peek hnext fun onNewLine => ?_)
  have hoperator : operator? ctx token = none := by
    fin_cases htoken <;> rfl
  have hremark : Lexeme.startsRemark ⟨⟨token, false, more⟩, onNewLine⟩ = false := by
    have hwords : ∀ token ∈ Tree.separators, (token.isWord "as" || token.isWord "satisfies") = false := by decide
    simp [Lexeme.startsRemark, hwords token htoken]
  simp only [hoperator, hremark, Option.isSome_none, Bool.or_self, Bool.false_eq_true, if_false]
  exact .pure t rest

theorem reads_assignmentRest (g : Grammar) (ctx : Context) {rest : List Char} (hrest : Tree.EndsValue rest) (t : Term) :
    Reads (assignmentRest g ctx t) rest t rest := by
  obtain ⟨token, more, hnext, htoken⟩ := hrest.token
  refine .peek hnext fun _ => ?_
  fin_cases htoken <;> exact .pure t rest

theorem IsOperand.isValue (h : IsOperand text t) : IsValue text t where
  starts := h.starts
  reads := by
    intro ctx rest depth hctx hrest hdepth
    -- The rules between a value and its operand come back to each other twice.
    obtain ⟨depth, rfl⟩ := Nat.exists_eq_add_of_le' (show 2 ≤ depth by omega)
    have hstarts := h.starts hrest
    have hcounted : Reads (counted (grammar (depth + 1)) ctx) (text ++ rest) t rest :=
      reads_counted (h.reads hctx hrest (by omega)) hrest
    refine (hstarts.reads_aheadYield hctx).bind (hstarts.reads_arrowFunction?.bind (.get fun scan hscan => ?_))
    rw [hscan, hstarts.startsAsyncArrow]
    exact (reads_binary (hstarts.operand hcounted false) hrest).bind (reads_assignmentRest _ ctx hrest t)

theorem IsValue.expression (h : IsValue text t) (ctx : Context) {rest more : List Char} {token : Token} {depth : Nat}
    (hctx : ctx.yields = false) (hrest : Tree.EndsValue rest) (hnext : Tree.next rest = some (token, more))
    (hcomma : token ≠ .punct ",") (hdepth : 8 * text.length + 5 ≤ depth) :
    Reads ((grammar depth).expression ctx) (text ++ rest) t rest := by
  obtain ⟨depth, rfl⟩ := Nat.exists_eq_add_of_le' (show 1 ≤ depth by omega)
  exact (h.reads hctx hrest (by omega)).bind ((reads_accept_of_ne hnext hcomma).bind (.pure t rest))

/-- What is written as a value is read as a whole, up to a gap. -/
theorem IsValue.readExpression_gap (h : IsValue text t) {gap : List Char} (hgap : IsGap .code gap) :
    Script.readExpression (text ++ gap) = some t := by
  have hends : Tree.EndsValue gap := by simpa using hgap.endsValue Tree.endsValue_nil
  have hnext : Tree.next gap = some (.done, []) := by simpa using Tree.next_gap hgap []
  have hdepth : 8 * text.length + 5 ≤ 8 * (text ++ gap).length + 8 := by
    rw [List.length_append]
    omega
  have hread : (grammar (8 * (text ++ gap).length + 8)).expression Context.module { rest := text ++ gap } =
      (some t, { rest := gap }) :=
    h.expression Context.module rfl hends hnext (by decide) hdepth { rest := gap }
  obtain ⟨_, hlexeme⟩ := lexeme_of_next hnext
  rw [Script.readExpression, hread]
  simp [hlexeme]

/-- What is written as a value is read as a whole. -/
theorem IsValue.readExpression (h : IsValue text t) : readExpression text = some t := by
  simpa using h.readExpression_gap .nil

/-! ## Names and literals -/

theorem isPrimary_word (word : String) {t : Term} (h : isIdentifierName word = true) (hword : word ∉ prefixWords)
    (hterm : ∀ {g ctx} {rest : List Char}, ctx.yields = false → Reads (wordTerm g ctx word false) rest t rest) :
    IsPrimary word.toList t where
  ne_nil := Tree.toList_ne_nil h
  starts hrest := by
    obtain ⟨token, more, hnext, htoken⟩ := hrest.token
    exact .word (Tree.next_name h hrest.word) hword hnext htoken
  reads := by
    intro ctx rest depth hctx hrest _
    have hnext := Tree.next_name h hrest.word
    obtain ⟨token, more, hnextRest, htoken⟩ := hrest.token
    have hstarts : StartsTerm (word.toList ++ rest) := .word hnext hword hnextRest htoken
    exact hstarts.reads_aheadAsyncFunction.bind (.next hnext fun _ => hterm hctx)

theorem isPrimary_name {name : String} (h : isIdentifierName name = true) (hvariable : isVariable name = true)
    (hawait : name ≠ "await") : IsPrimary name.toList (.name name) := by
  have hreserved : name ∉ reservedWords := by simpa [isVariable] using hvariable
  have hne {word : String} (hword : word ∈ reservedWords) : name ≠ word := fun heq => hreserved (heq ▸ hword)
  refine isPrimary_word name h ?_ fun {g ctx rest} hctx => ?_
  · simp only [prefixWords, List.mem_cons, List.not_mem_nil, or_false, not_or]
    exact ⟨hne (by decide), hne (by decide), hne (by decide), hawait⟩
  · have hkeyword : keywordTerm? g ctx name = none := by
      unfold keywordTerm?
      split
      case h_10 => rfl
      all_goals exact absurd rfl (hne (by decide))
    have htaken : isTaken ctx name = false := by simp [isTaken, hctx, hawait]
    have hcheck : Reads (checkVariable ctx name) rest () rest := by
      unfold checkVariable
      rw [hvariable, htaken]
      exact .bind (.pure () rest) (.pure () rest)
    unfold wordTerm
    rw [hkeyword]
    exact hcheck.bind (.pure _ rest)

/-- A string may be written in any way that it is read from. -/
theorem isPrimary_string_of_next {text : List Char} {value : String} (hne : text ≠ [])
    (hnext : ∀ rest, Tree.next (text ++ rest) = some (.string value, rest)) : IsPrimary text (.string value) where
  ne_nil := hne
  starts _ := .string (hnext _)
  reads := by
    intro ctx rest depth _ _ _
    exact (StartsTerm.string (hnext rest)).reads_aheadAsyncFunction.bind (.next (hnext rest) fun _ => .pure _ rest)

theorem isPrimary_string (s : String) : IsPrimary (quote s).toList (.string s) :=
  isPrimary_string_of_next (by simp [quote, quoteChars]) (Tree.next_quote s)

theorem isPrimary_boolean (value : Bool) : IsPrimary (if value then "true" else "false").toList (.boolean value) := by
  cases value
  case false => exact isPrimary_word "false" (by decide) (by decide) fun _ => .pure _ _
  case true => exact isPrimary_word "true" (by decide) (by decide) fun _ => .pure _ _

theorem isPrimary_null : IsPrimary "null".toList .null :=
  isPrimary_word "null" (by decide) (by decide) fun _ => .pure _ _

/-- The text of a magnitude that is not infinite. -/
def IsFinite (text : String) : Prop :=
  ∃ m e, (m = 0 ∨ Binary64.IsNormal m e) ∧ text = (Binary64.finite m e).text

theorem IsFinite.next {text : String} (h : IsFinite text) {rest : List Char} (hrest : Tree.EndsValue rest) :
    Tree.next (text.toList ++ rest) = some (.number text, rest) := by
  obtain ⟨m, e, hfinite, rfl⟩ := h
  exact Tree.next_text hfinite hrest.word hrest.dot

theorem ne_nil_of_next_number {text : List Char} {value : String}
    (hnext : ∀ rest, Tree.EndsValue rest → Tree.next (text ++ rest) = some (.number value, rest)) : text ≠ [] := by
  rintro rfl
  cases hnext [] Tree.endsValue_nil

/-- A number may be written in any way that it is read from. It is a term, but no member can be read off it. -/
theorem isOperand_number_of_next {text : List Char} {value : String}
    (hnext : ∀ rest, Tree.EndsValue rest → Tree.next (text ++ rest) = some (.number value, rest)) :
    IsOperand text (.number value) where
  starts hrest := .number (hnext _ hrest)
  reads := by
    intro ctx rest depth _ hrest hdepth
    have hpos := List.length_pos_iff.2 (ne_nil_of_next_number hnext)
    obtain ⟨depth, rfl⟩ := Nat.exists_eq_add_of_le' (show 1 ≤ depth by omega)
    have hprimary : Reads (primary (grammar (depth + 1)) ctx) (text ++ rest) (.number value) rest :=
      (StartsTerm.number (hnext rest hrest)).reads_aheadAsyncFunction.bind (.next (hnext rest hrest) fun _ => .pure _ rest)
    exact hprimary.bind (reads_chain_of_ends hrest _)

theorem IsFinite.isOperand {text : String} (h : IsFinite text) : IsOperand text.toList (.number text) :=
  isOperand_number_of_next fun _ hrest => h.next hrest

/-! ## Parentheses and members -/

/-- What opens no parameters may stand in parentheses. -/
theorem IsValue.paren (h : IsValue text t) {gap : List Char} (hgap : IsGap .code gap)
    (hguess : ∀ rest, guessInside (lexeme (text ++ (gap ++ ')' :: rest))) = .never) :
    IsPrimary ('(' :: (text ++ (gap ++ [')']))) (.paren t) := by
  have happend (rest : List Char) :
      '(' :: (text ++ (gap ++ [')'])) ++ rest = '(' :: (text ++ (gap ++ ')' :: rest)) := by simp
  have hclose (rest : List Char) : Tree.next (gap ++ ')' :: rest) = some (.punct ")", rest) :=
    (Tree.next_gap hgap _).trans (Tree.next_rightParen rest)
  have hstarts (rest : List Char) : StartsTerm ('(' :: (text ++ (gap ++ ')' :: rest))) :=
    .paren (Tree.next_leftParen _) (hguess rest)
  refine ⟨by simp, fun {rest} _ => happend rest ▸ hstarts rest, fun {ctx rest depth} hctx _ hdepth => ?_⟩
  simp only [List.length_cons, List.length_append, List.length_nil] at hdepth
  have hinner := h.expression ctx.bracketed hctx (hgap.endsValue (Tree.endsValue_cons (by decide) rest)) (hclose rest)
    (by decide) (show 8 * text.length + 5 ≤ depth by omega)
  rw [happend]
  exact (hstarts rest).reads_aheadAsyncFunction.bind
    (.next (Tree.next_leftParen _) fun _ => hinner.bind ((reads_expect (hclose rest)).bind (.pure _ rest)))

/-- A number in parentheses. -/
theorem IsFinite.paren {text : String} (h : IsFinite text) :
    IsPrimary ('(' :: (text.toList ++ [')'])) (.paren (.number text)) := by
  refine h.isOperand.isValue.paren .nil fun rest => ?_
  obtain ⟨_, hlexeme⟩ := lexeme_of_next (h.next (Tree.endsValue_cons (c := ')') (by decide) rest))
  rw [List.nil_append, hlexeme]
  rfl

theorem IsObject.memberBehind (h : IsObject text t) {gap gap' : List Char} (hgap : IsGap .code gap)
    (hgap' : IsGap .code gap') {name : String} (hname : isIdentifierName name = true) :
    IsObject (text ++ (gap ++ '.' :: (gap' ++ name.toList))) (.member t name) := by
  have happend (rest : List Char) : text ++ (gap ++ '.' :: (gap' ++ name.toList)) ++ rest =
      text ++ (gap ++ '.' :: (gap' ++ (name.toList ++ rest))) := by simp
  have hlength : text.length + 1 ≤ (text ++ (gap ++ '.' :: (gap' ++ name.toList))).length := by simp; omega
  have hfollows (rest : List Char) : Follows (gap ++ '.' :: (gap' ++ (name.toList ++ rest))) :=
    hgap.follows (follows_dot hgap' hname rest)
  refine ⟨fun {rest} _ => happend rest ▸ h.starts (hfollows rest), fun {ctx rest depth} hctx hrest hdepth => ?_⟩
  obtain ⟨left, hleft, hread⟩ := h.reads hctx (hfollows rest) (show 8 * text.length ≤ depth by omega)
  obtain ⟨left, rfl⟩ := Nat.exists_eq_add_of_le' (show 1 ≤ left by omega)
  refine ⟨left, by omega, fun u after hchain => ?_⟩
  have hdot := (Tree.next_gap hgap _).trans (hgap'.next_dot hname rest)
  have hword := (Tree.next_gap hgap' _).trans (Tree.next_name hname hrest.word)
  have hmember : Reads (memberOf t) (gap' ++ (name.toList ++ rest)) (.member t name) rest :=
    .bind (.next hword fun _ => .pure _ rest) (.pure _ rest)
  rw [happend]
  exact hread u after (.peek hdot fun onNewLine => (reads_skip _ _ onNewLine _).bind (hmember.bind hchain))

theorem IsObject.member (h : IsObject text t) {name : String} (hname : isIdentifierName name = true) :
    IsObject (text ++ '.' :: name.toList) (.member t name) :=
  h.memberBehind .nil .nil hname

theorem IsObject.indexBehind (h : IsObject text t) {gap gap' key : List Char} {k : Term} (hgap : IsGap .code gap)
    (hkey : IsValue key k) (hgap' : IsGap .code gap') :
    IsObject (text ++ (gap ++ '[' :: (key ++ (gap' ++ [']'])))) (.index t k) := by
  have happend (rest : List Char) : text ++ (gap ++ '[' :: (key ++ (gap' ++ [']']))) ++ rest =
      text ++ (gap ++ '[' :: (key ++ (gap' ++ ']' :: rest))) := by simp
  have hlength : text.length + key.length + 2 ≤ (text ++ (gap ++ '[' :: (key ++ (gap' ++ [']'])))).length := by
    simp
    omega
  have hfollows (rest : List Char) : Follows (gap ++ '[' :: (key ++ (gap' ++ ']' :: rest))) :=
    hgap.follows (follows_bracket _)
  refine ⟨fun {rest} _ => happend rest ▸ h.starts (hfollows rest), fun {ctx rest depth} hctx hrest hdepth => ?_⟩
  obtain ⟨left, hleft, hread⟩ := h.reads hctx (hfollows rest) (show 8 * text.length ≤ depth by omega)
  obtain ⟨left, rfl⟩ := Nat.exists_eq_add_of_le' (show 1 ≤ left by omega)
  refine ⟨left, by omega, fun u after hchain => ?_⟩
  have hopen := (Tree.next_gap hgap _).trans (Tree.next_leftBracket (key ++ (gap' ++ ']' :: rest)))
  have hclose := (Tree.next_gap hgap' _).trans (Tree.next_rightBracket rest)
  have hinner := hkey.expression ctx.bracketed hctx (hgap'.endsValue (Tree.endsValue_cons (by decide) rest)) hclose
    (by decide) (show 8 * key.length + 5 ≤ left + 1 by omega)
  rw [happend]
  have hindex : Reads (do
      let key ← (grammar (left + 1)).expression ctx.bracketed
      expect "]"
      (grammar (left + 1)).chain ctx ⟨true, false⟩ (.index t key)) (key ++ (gap' ++ ']' :: rest)) u after :=
    hinner.bind ((reads_expect hclose).bind hchain)
  exact hread u after (.peek hopen fun onNewLine => (reads_skip _ _ onNewLine _).bind hindex)

theorem IsObject.index (h : IsObject text t) {key : List Char} {k : Term} (hkey : IsValue key k) :
    IsObject (text ++ '[' :: (key ++ [']'])) (.index t k) :=
  h.indexBehind .nil hkey .nil

/-! ## Templates -/

/-- Behind a piece of a template, the text is read as substitutions with the pieces behind them. -/
structure IsTail (text : List Char) (tail : List (Term × String)) : Prop where
  chunk : ∀ {head rest}, IsStable head → (templateChunk? (head ++ (text ++ '`' :: rest))).isSome = true
  reads : ∀ {ctx head rest depth}, ctx.yields = false → IsStable head → 8 * (head.length + text.length) + 1 ≤ depth →
    Reads ((grammar depth).template ctx false) (head ++ (text ++ '`' :: rest)) (String.ofList head, tail) rest

/-- A template is read from its first piece on, which every escape of denotes something. -/
theorem reads_template {g : Grammar} {ctx : Context} {cs head mid rest : List Char} {opens : Bool}
    {found : String × List (Term × String)} (hhead : lineFeeds head = head)
    (hchunk : templateChunk? cs = some (⟨head, true, opens⟩, mid))
    (h : Reads (if opens = true then do
        let inner ← g.expression ctx.bracketed
        expect rightBrace
        let (after, tail) ← g.template ctx false
        return (String.ofList head, (inner, after) :: tail)
      else return (String.ofList head, [])) mid found rest) :
    Reads (Script.template g ctx false) cs found rest := by
  refine .get fun scan hscan => ?_
  rw [hscan, hchunk]
  have hskip : Reads (modify fun scan : Scan => { scan with rest := mid }) cs () mid := fun _ => takes_modify.2 rfl
  refine hskip.bind ?_
  simp only [Bool.false_or, if_true, hhead]
  exact h

theorem isTail_nil : IsTail [] [] where
  chunk hhead := by rw [List.nil_append, hhead.close]; rfl
  reads := by
    intro ctx head rest depth _ hhead hdepth
    obtain ⟨depth, rfl⟩ := Nat.exists_eq_add_of_le' (show 1 ≤ depth by omega)
    exact reads_template hhead.lines (hhead.close rest) (.pure _ rest)

theorem IsTail.consBefore {inner gap after : List Char} {tail : List (Term × String)} (hinner : IsValue inner t)
    (hgap : IsGap .code gap) (hafter : IsStable after) (h : IsTail text tail) :
    IsTail ('$' :: '{' :: (inner ++ (gap ++ '}' :: (after ++ text)))) ((t, String.ofList after) :: tail) := by
  have happend (rest : List Char) : '$' :: '{' :: (inner ++ (gap ++ '}' :: (after ++ text))) ++ '`' :: rest =
      '$' :: '{' :: (inner ++ (gap ++ '}' :: (after ++ (text ++ '`' :: rest)))) := by simp
  refine ⟨fun {head rest} hhead => ?_, fun {ctx head rest depth} hctx hhead hdepth => ?_⟩
  · rw [happend, hhead.opens]
    rfl
  · simp only [List.length_cons, List.length_append] at hdepth
    obtain ⟨depth, rfl⟩ := Nat.exists_eq_add_of_le' (show 1 ≤ depth by omega)
    rw [happend]
    have hbrace := (Tree.next_gap hgap _).trans (Tree.next_rightBrace (after ++ (text ++ '`' :: rest)))
    have hread := hinner.expression ctx.bracketed hctx (hgap.endsValue (Tree.endsValue_cons (by decide) _)) hbrace
      (by decide) (show 8 * inner.length + 5 ≤ depth by omega)
    have htail : Reads ((grammar depth).template ctx false) (after ++ (text ++ '`' :: rest)) (String.ofList after, tail) rest :=
      h.reads hctx hafter (by omega)
    exact reads_template hhead.lines (hhead.opens _)
      (hread.bind ((reads_expect hbrace).bind (htail.bind (.pure _ rest))))

theorem IsTail.cons {inner after : List Char} {tail : List (Term × String)} (hinner : IsValue inner t)
    (hafter : IsStable after) (h : IsTail text tail) :
    IsTail ('$' :: '{' :: (inner ++ '}' :: (after ++ text))) ((t, String.ofList after) :: tail) :=
  consBefore hinner .nil hafter h

theorem isPrimary_template {head : List Char} {tail : List (Term × String)} (hhead : IsStable head)
    (htail : IsTail text tail) : IsPrimary ('`' :: (head ++ (text ++ ['`']))) (.template (String.ofList head) tail) := by
  have happend (rest : List Char) : '`' :: (head ++ (text ++ ['`'])) ++ rest = '`' :: (head ++ (text ++ '`' :: rest)) := by
    simp
  have hnext (rest : List Char) :=
    Tree.next_backquote (show (templateChunk? (head ++ (text ++ '`' :: rest))).isSome = true from htail.chunk hhead)
  refine ⟨by simp, fun {rest} _ => happend rest ▸ .template (hnext rest), fun {ctx rest depth} hctx _ hdepth => ?_⟩
  simp only [List.length_cons, List.length_append, List.length_nil] at hdepth
  have hread : Reads ((grammar depth).template ctx false) (head ++ (text ++ '`' :: rest)) (String.ofList head, tail) rest :=
    htail.reads hctx hhead (by omega)
  rw [happend]
  exact (StartsTerm.template (hnext rest)).reads_aheadAsyncFunction.bind
    (.next (hnext rest) fun _ => hread.bind (.pure _ rest))

end Term

/-! ## Blank texts -/

/-- A text of blanks has no token. -/
theorem next_blank {cs : List Char} (h : ∀ c ∈ cs, isBlank c = true) : Tree.next cs = some (.done, []) := by
  simpa using Tree.next_gap (isGap_of_isBlank h) []

theorem StartsTerm.not_blank {cs : List Char} (h : StartsTerm cs) : cs.all isBlank = false := by
  by_contra hblank
  have hnext := next_blank (List.all_eq_true.1 (by simpa using hblank))
  cases h with
  | number h | string h | template h | paren h | word h =>
    rw [hnext] at h
    cases h

end TemplateCompiler.Script
