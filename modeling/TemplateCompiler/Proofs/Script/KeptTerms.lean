import TemplateCompiler.Binding.Read
import TemplateCompiler.Proofs.Script.Pieces
import TemplateCompiler.Proofs.Script.Takes
/-!
# Terms that are kept

A binding may only be a term that is kept as it is written. Such a term is made of names, members, literals,
parentheses and templates, and each of these is as it should be, with its numbers in the text that it is read from:
`keeps_grammar` follows it through the rules of the grammar, of which only a few hand out a term that is kept.
-/

namespace TemplateCompiler.Script

open TemplateCompiler.Text

namespace Term

mutual

/-- Whether the term is kept as it is written. -/
def isKept : Term → Bool
  | .member object _ => object.isKept
  | .index object key => object.isKept && key.isKept
  | .paren inner => inner.isKept
  | .template _ tail => isKeptTail tail
  | .this => false
  | .call => false
  | .other _ => false
  | _ => true

/-- Whether the terms in the substitutions of a template are kept as they are written. -/
def isKeptTail : List (Term × String) → Bool
  | [] => true
  | (inner, _) :: tail => inner.isKept && isKeptTail tail

end

mutual

/-- The names, numbers and pieces of templates in a term are as they should be. -/
def IsProper : Term → Prop
  | .name word => isIdentifierName word = true
  | .number text => IsNumeral text
  | .member object property => object.IsProper ∧ isIdentifierName property = true
  | .index object key => object.IsProper ∧ key.IsProper
  | .paren inner => inner.IsProper
  | .template head tail => IsPiece head.toList ∧ IsProperTail tail
  | _ => True

/-- The terms in the substitutions of a template, and the pieces behind them, are as they should be. -/
def IsProperTail : List (Term × String) → Prop
  | [] => True
  | (inner, after) :: tail => inner.IsProper ∧ IsPiece after.toList ∧ IsProperTail tail

end

mutual

/-- The names in a term may name something where they stand, and the pieces of its templates are read as they are. -/
def IsReadable : Term → Prop
  | .name word => isIdentifierName word = true ∧ isVariable word = true ∧ word ≠ "await"
  | .member object property => object.IsReadable ∧ isIdentifierName property = true
  | .index object key => object.IsReadable ∧ key.IsReadable
  | .paren inner => inner.IsReadable
  | .template head tail => IsStable head.toList ∧ IsReadableTail tail
  | _ => True

/-- The terms in the substitutions of a template, and the pieces behind them, are readable. -/
def IsReadableTail : List (Term × String) → Prop
  | [] => True
  | (inner, after) :: tail => inner.IsReadable ∧ IsStable after.toList ∧ IsReadableTail tail

end

mutual

/-- The texts of the numbers in a term, from the left. -/
def numbers : Term → List String
  | .number text => [text]
  | .member object _ => object.numbers
  | .index object key => object.numbers ++ key.numbers
  | .paren inner => inner.numbers
  | .template _ tail => numbersInTail tail
  | _ => []

/-- The texts of the numbers in the substitutions of a template. -/
def numbersInTail : List (Term × String) → List String
  | [] => []
  | (inner, _) :: tail => inner.numbers ++ numbersInTail tail

end

/-- A term is readable, and `read` holds its numbers. -/
structure IsReadFrom (read : List Char) (t : Term) : Prop where
  readable : t.IsReadable
  numbers : HoldsNumbers read t.numbers

theorem IsReadFrom.behind {read : List Char} {t : Term} (h : t.IsReadFrom read) (before : List Char) :
    t.IsReadFrom (before ++ read) :=
  ⟨h.readable, h.numbers.behind before⟩

theorem IsReadFrom.before {read : List Char} {t : Term} (h : t.IsReadFrom read) (behind : List Char) :
    t.IsReadFrom (read ++ behind) :=
  ⟨h.readable, h.numbers.before behind⟩

mutual

/-- A readable term whose numbers are written as numerals is as it should be. -/
theorem IsReadable.isProper : ∀ {t : Term}, t.IsReadable → (∀ text ∈ t.numbers, IsNumeral text) → t.IsProper
  | .name _, h, _ => h.1
  | .number _, _, hnumbers => hnumbers _ List.mem_cons_self
  | .member _ _, h, hnumbers => ⟨IsReadable.isProper h.1 hnumbers, h.2⟩
  | .index _ _, h, hnumbers =>
    ⟨IsReadable.isProper h.1 fun text ht => hnumbers text (List.mem_append_left _ ht),
      IsReadable.isProper h.2 fun text ht => hnumbers text (List.mem_append_right _ ht)⟩
  | .paren inner, h, hnumbers => IsReadable.isProper (t := inner) h hnumbers
  | .template _ _, h, hnumbers => ⟨h.1.isPiece, IsReadableTail.isProper h.2 hnumbers⟩
  | .string _, _, _ | .boolean _, _, _ | .null, _, _ | .this, _, _ | .call, _, _ | .other _, _, _ => trivial

theorem IsReadableTail.isProper : ∀ {tail : List (Term × String)}, IsReadableTail tail →
    (∀ text ∈ numbersInTail tail, IsNumeral text) → IsProperTail tail
  | [], _, _ => trivial
  | (_, _) :: _, h, hnumbers =>
    ⟨IsReadable.isProper h.1 fun text ht => hnumbers text (List.mem_append_left _ ht), h.2.1.isPiece,
      IsReadableTail.isProper h.2.2 fun text ht => hnumbers text (List.mem_append_right _ ht)⟩

end

end Term

/-- A reader hands out no term that is kept. -/
abbrev Drops (p : Reader Term) : Prop :=
  Gives p fun t => t.isKept = false

/-- A term that a reader hands out forgets no flaw if it is kept, and is read from what has been taken if `P` holds
besides. `before` has been taken before the reader. -/
def KeepsIf (P : Prop) (before : List Char) (p : Reader Term) : Prop :=
  ∀ scan t scan', Takes p scan t scan' → t.isKept = true → scan'.flawed = false →
    scan.flawed = false ∧ ∃ read, scan.rest = read ++ scan'.rest ∧ (P → t.IsReadFrom (before ++ read))

/-- A term that a reader hands out is read from what it takes if it is kept and nothing is at fault. -/
abbrev Keeps (p : Reader Term) : Prop :=
  KeepsIf True [] p

/-- A reader that goes on from a term adds to it, or hands out no term that is kept. -/
def KeepsOn (p : Term → Reader Term) : Prop :=
  ∀ t scan t' scan', Takes (p t) scan t' scan' → t'.isKept = true → scan'.flawed = false →
    scan.flawed = false ∧ t.isKept = true ∧
      ∃ read, scan.rest = read ++ scan'.rest ∧ ∀ before, t.IsReadFrom before → t'.IsReadFrom (before ++ read)

/-- The substitutions of a template are read from what is taken if they are kept and nothing is at fault. -/
def KeepsTemplate (p : Reader (String × List (Term × String))) : Prop :=
  ∀ scan found scan', Takes p scan found scan' → Term.isKeptTail found.2 = true → scan'.flawed = false →
    scan.flawed = false ∧ ∃ read, scan.rest = read ++ scan'.rest ∧ IsStable found.1.toList ∧
      Term.IsReadableTail found.2 ∧ HoldsNumbers read (Term.numbersInTail found.2)

section Steps

variable {α : Type} {P : Prop} {before : List Char}

theorem KeepsIf.of_drops {p : Reader Term} (h : Drops p) : KeepsIf P before p := by
  intro scan t scan' ht hkept
  rw [h _ _ _ ht] at hkept
  cases hkept

theorem KeepsIf.pure {t : Term} (h : P → t.isKept = true → t.IsReadFrom before) : KeepsIf P before (pure t) := by
  intro scan t' scan' ht hkept hflawed
  obtain ⟨rfl, rfl⟩ := takes_pure.1 ht
  exact ⟨hflawed, [], rfl, fun hP => (h hP hkept).before []⟩

theorem KeepsIf.ite {p p' : Reader Term} (c : Prop) [Decidable c] (hp : KeepsIf P before p) (hp' : KeepsIf P before p') :
    KeepsIf P before (if c then p else p') := by
  split
  · exact hp
  · exact hp'

/-- Where a flaw has been noted nothing is without a fault. -/
theorem KeepsIf.flaw {f : Unit → Reader Term} (hf : ∀ u, KeepsIf P before (f u)) : KeepsIf P before (flaw >>= f) := by
  intro scan t scan' ht hkept hflawed
  obtain ⟨u, mid, hflaw, ht⟩ := takes_bind.1 ht
  have hmid := (hf u _ _ _ ht hkept hflawed).1
  rw [flawed_of_takes_flaw hflaw] at hmid
  cases hmid

theorem KeepsIf.after {p : Reader α} {f : α → Reader Term} (hp : Careful p) (hf : ∀ a, Keeps (f a)) : Keeps (p >>= f) := by
  intro scan t scan' ht hkept hflawed
  obtain ⟨a, mid, ha, ht⟩ := takes_bind.1 ht
  obtain ⟨hmid, read, hread, hproper⟩ := hf a _ _ _ ht hkept hflawed
  obtain ⟨hscan, skipped, hskipped⟩ := hp _ _ _ ha hmid
  refine ⟨hscan, skipped ++ read, ?_, fun _ => (hproper trivial).behind skipped⟩
  rw [← hskipped, hread, List.append_assoc]

theorem Keeps.keepsIf {p : Reader Term} (h : Keeps p) : KeepsIf P before p := by
  intro scan t scan' ht hkept hflawed
  obtain ⟨hscan, read, hread, hproper⟩ := h _ _ _ ht hkept hflawed
  exact ⟨hscan, read, hread, fun _ => (hproper trivial).behind before⟩

theorem KeepsIf.bind {p : Reader Term} {f : Term → Reader Term} (hp : Keeps p) (hf : KeepsOn f) : Keeps (p >>= f) := by
  intro scan t scan' ht hkept hflawed
  obtain ⟨a, mid, ha, ht⟩ := takes_bind.1 ht
  obtain ⟨hmid, hkept', read', hread', hon⟩ := hf a _ _ _ ht hkept hflawed
  obtain ⟨hscan, read, hread, hproper⟩ := hp _ _ _ ha hkept' hmid
  refine ⟨hscan, read ++ read', ?_, fun _ => hon _ (hproper trivial)⟩
  rw [hread, hread', List.append_assoc]

/-- A reader that takes the next token first. The token is as it should be unless something is at fault. -/
theorem keeps_take {f : Lexeme → Reader Term}
    (h : ∀ next before, KeepsIf (next.token.IsReadFrom before) before (f next)) :
    Keeps (do
      let next ← peek
      skip next
      f next) := by
  intro scan t scan' ht hkept hflawed
  obtain ⟨next, mid, hnext, ht⟩ := takes_bind.1 ht
  obtain ⟨rfl, rfl⟩ := takes_peek.1 hnext
  obtain ⟨u, mid', hskip, ht⟩ := takes_bind.1 ht
  have hmid' := (h _ [] _ _ _ ht hkept hflawed).1
  obtain ⟨hscan, before, hbefore, htoken⟩ := takes_skip_lexeme hskip hmid'
  obtain ⟨-, read, hread, hproper⟩ := h _ before _ _ _ ht hkept hflawed
  refine ⟨hscan, before ++ read, ?_, fun _ => hproper htoken⟩
  rw [hbefore, hread, List.append_assoc]

theorem KeepsOn.of_drops {p : Term → Reader Term} (h : ∀ t, Drops (p t)) : KeepsOn p := by
  intro t scan t' scan' ht hkept
  rw [h t _ _ _ ht] at hkept
  cases hkept

theorem KeepsOn.pure : KeepsOn Pure.pure := by
  intro t scan t' scan' ht hkept hflawed
  obtain ⟨rfl, rfl⟩ := takes_pure.1 ht
  exact ⟨hflawed, hkept, [], rfl, fun before h => h.before []⟩

theorem KeepsOn.after {p : Reader α} {f : α → Term → Reader Term} (hp : Careful p) (hf : ∀ a, KeepsOn (f a)) :
    KeepsOn fun t => p >>= fun a => f a t := by
  intro t scan t' scan' ht hkept hflawed
  obtain ⟨a, mid, ha, ht⟩ := takes_bind.1 ht
  obtain ⟨hmid, hkept', read, hread, hon⟩ := hf a _ _ _ _ ht hkept hflawed
  obtain ⟨hscan, skipped, hskipped⟩ := hp _ _ _ ha hmid
  refine ⟨hscan, hkept', skipped ++ read, ?_, fun before h => ?_⟩
  · rw [← hskipped, hread, List.append_assoc]
  · have hmore := hon _ (h.before skipped)
    rwa [List.append_assoc] at hmore

theorem KeepsOn.ite {p p' : Term → Reader Term} (c : Prop) [Decidable c] (hp : KeepsOn p) (hp' : KeepsOn p') :
    KeepsOn fun t => if c then p t else p' t := by
  intro t scan t' scan' ht
  split at ht
  · exact hp _ _ _ _ ht
  · exact hp' _ _ _ _ ht

end Steps

/-! ## Rules that hand out no kept term -/

section Drops

variable (g : Grammar) (ctx : Context)

theorem drops_other {use : Use} : Drops (pure (.other use)) :=
  .pure rfl

theorem drops_signed : Drops (signed g ctx) :=
  .after _ fun _ => .after _ fun _ => .ite _ (.after _ fun _ => drops_other) drops_other

theorem drops_yieldTerm : Drops (yieldTerm g ctx) := by
  have hrest : Drops (do
      unless (← peek).onNewLine do
        let delegates ← accept "*"
        if delegates || !(← peek).token.endsYield then
          let _ ← g.assignment { ctx with yields := true }
      return .other .value) :=
    .after _ fun _ => .ite _ drops_other
      (.after _ fun _ => .after _ fun _ => .ite _ (.after _ fun _ => drops_other) drops_other)
  exact .after _ fun _ => .ite _ hrest (.after _ fun _ => hrest)

theorem drops_arrowBody (isAsync : Bool) : Drops (arrowBody g ctx isAsync) := by
  have hrest (u : Unit) : Drops (do
      expect "=>"
      let inner := { ctx with awaits := isAsync, yields := false }
      if ← accept leftBrace then g.statements { inner with inOperator := true, returns := true }
      else
        let _ ← g.assignment inner
      return .other .value) :=
    .after _ fun _ => .after _ fun _ => .ite _ (.after _ fun _ => drops_other) (.after _ fun _ => drops_other)
  exact .after _ fun _ => .ite _ (.after _ hrest) (hrest ())

theorem drops_alternatives : Drops (alternatives g ctx) :=
  .after _ fun _ => .after _ fun _ => .after _ fun _ => drops_other

theorem drops_asyncArrow : Drops (asyncArrow g ctx) :=
  .after _ fun _ => .after _ fun _ => .after _ fun _ => .after _ fun _ => drops_arrowBody g ctx true

theorem drops_arrowFunction : Drops (arrowFunction g ctx) :=
  .after _ fun _ => .after _ fun _ => .after _ fun _ => drops_arrowBody g ctx _

theorem drops_loadRest : Drops (loadRest g ctx) := by
  have hrest : Drops (do
      expect ")"
      return .other .load) :=
    .after _ fun _ => drops_other
  exact .after _ fun _ => .after _ fun _ => .after _ fun _ =>
    .ite _ (.after _ fun _ => .ite _ hrest (.after _ fun _ => .after _ fun _ => hrest)) hrest

theorem drops_importRest : Drops (importRest g ctx) := by
  have hrest : Drops (loadRest g ctx) := drops_loadRest g ctx
  exact .after _ fun _ => .ite _
    (.after _ fun _ => .ite _ drops_other (.after _ fun _ => .ite _ hrest (.after _ fun _ => hrest))) hrest

theorem drops_newRest : Drops (newRest g ctx) := by
  have hrest (callee : Term) : Drops (do
      if callee.isLoad then flaw
      return .other .value) :=
    .ite _ (.after _ fun _ => drops_other) drops_other
  exact .after _ fun _ => .ite _ (.after _ fun _ => drops_other)
    (.after _ fun callee => .after _ fun _ => .ite _ (.after _ fun _ => hrest callee) (hrest callee))

theorem drops_asyncFunction : Drops (asyncFunction g ctx) :=
  .after _ fun _ => .after _ fun _ => .after _ fun _ => drops_other

theorem drops_decoratedClass : Drops (decoratedClass g ctx) :=
  .after _ fun _ => .after _ fun _ => .after _ fun _ => .after _ fun _ => drops_other

theorem drops_regexRest (cs : List Char) : Drops (regexRest cs) :=
  .after _ fun _ => .ite _ drops_other (.after _ fun _ => drops_other)

theorem isKept_literalTerm (cover : Option Cover) : (literalTerm cover).isKept = false := by
  cases cover <;> rfl

end Drops

/-- An arrow function is no kept term, and where there is none nothing is taken and no flaw is noted. -/
theorem takes_arrowFunction? {g : Grammar} {ctx : Context} {scan scan' : Scan} {found : Option Term}
    (h : Takes (arrowFunction? g ctx) scan found scan') :
    (∀ t, found = some t → t.isKept = false) ∧ (found = none → scan'.rest = scan.rest ∧ scan'.flawed = scan.flawed) := by
  obtain ⟨_, mid, hget, hread⟩ := takes_bind.1 h
  obtain ⟨rfl, rfl⟩ := takes_get.1 hget
  split at hread
  · obtain ⟨rfl, rfl⟩ := takes_pure.1 hread
    exact ⟨fun t ht => (by cases ht), fun _ => ⟨rfl, rfl⟩⟩
  · obtain ⟨t, mid', ht, hread⟩ := takes_bind.1 hread
    obtain ⟨rfl, rfl⟩ := takes_pure.1 hread
    refine ⟨fun t' ht' => ?_, fun hnone => ?_⟩
    · obtain rfl := Option.some.inj ht'
      exact drops_arrowFunction g ctx _ _ _ ht
    · cases hnone
  · obtain ⟨start, mid₁, hplace, hread⟩ := takes_bind.1 hread
    obtain ⟨_, _, hget', hpure⟩ := takes_bind.1 hplace
    obtain ⟨rfl, rfl⟩ := takes_get.1 hget'
    obtain ⟨rfl, rfl⟩ := takes_pure.1 hpure
    obtain ⟨_, _, hget'', hread⟩ := takes_bind.1 hread
    obtain ⟨rfl, rfl⟩ := takes_get.1 hget''
    rcases takes_ite.1 hread with ⟨-, hread⟩ | ⟨-, hread⟩
    · obtain ⟨rfl, rfl⟩ := takes_pure.1 hread
      exact ⟨fun t ht => (by cases ht), fun _ => ⟨rfl, rfl⟩⟩
    · obtain ⟨found', mid₃, hattempt, hread⟩ := takes_bind.1 hread
      obtain ⟨hsome, hnone⟩ := takes_attempt hattempt
      have hend : found = found' ∧ scan'.rest = mid₃.rest ∧ scan'.flawed = mid₃.flawed := by
        rcases takes_ite.1 hread with ⟨-, hread⟩ | ⟨-, hread⟩
        · obtain ⟨u, mid₄, hmodify, hread⟩ := takes_bind.1 hread
          obtain ⟨rfl, rfl⟩ := takes_pure.1 hread
          obtain rfl := takes_modify.1 hmodify
          exact ⟨rfl, rfl, rfl⟩
        · obtain ⟨rfl, rfl⟩ := takes_pure.1 hread
          exact ⟨rfl, rfl, rfl⟩
      obtain ⟨rfl, hrest, hflawed⟩ := hend
      exact ⟨fun t ht => drops_arrowFunction g ctx _ _ _ (hsome t ht),
        fun h => ⟨hrest.trans (hnone h).1, hflawed.trans (hnone h).2⟩⟩

/-! ## Rules that may hand out a kept term -/

/-- The rules that a term goes through keep it as it should be, where `await` is no name. -/
structure Grammar.Keeps (g : Grammar) : Prop where
  expression : ∀ ctx, ctx.awaits = true → Script.Keeps (g.expression ctx)
  assignment : ∀ ctx, ctx.awaits = true → Script.Keeps (g.assignment ctx)
  unary : ∀ ctx, ctx.awaits = true → Script.Keeps (g.unary ctx)
  chained : ∀ ctx, ctx.awaits = true → Script.Keeps (g.chained ctx)
  chain : ∀ ctx, ctx.awaits = true → KeepsOn (g.chain ctx ⟨true, false⟩)
  drops_chain : ∀ ctx t, Drops (g.chain ctx ⟨true, true⟩ t)
  template : ∀ ctx, ctx.awaits = true → KeepsTemplate (g.template ctx false)

namespace Grammar.Keeps

variable {g : Grammar} (hg : g.Keeps) (ctx : Context) (hctx : ctx.awaits = true)
include hg hctx

theorem keeps_bracketed : Script.Keeps (g.expression ctx.bracketed) :=
  hg.expression ctx.bracketed hctx

omit hg hctx in
theorem keeps_keywordTerm {name : String} {term : Reader Term} (h : keywordTerm? g ctx name = some term) :
    Script.Keeps term := by
  have hconstant {t : Term} (hreadable : t.IsReadable) (hnumbers : t.numbers = []) : Script.Keeps (pure t) :=
    .pure fun _ _ => ⟨hreadable, hnumbers ▸ .nil []⟩
  unfold keywordTerm? at h
  split at h
  case h_10 => cases h
  all_goals obtain rfl := Option.some.inj h
  · exact .of_drops (.pure rfl)
  · exact hconstant trivial rfl
  · exact hconstant trivial rfl
  · exact hconstant trivial rfl
  · exact .of_drops (.after _ fun _ => drops_other)
  · exact .of_drops (.after _ fun _ => drops_other)
  · exact .of_drops (drops_newRest g ctx)
  · exact .of_drops (drops_importRest g ctx)
  · exact .of_drops (.after _ fun _ => .after _ fun _ => .after _ fun _ =>
      .ite _ drops_other (.after _ fun _ => drops_other))

omit hg in
theorem keepsIf_wordTerm (name : String) (escaped : Bool) (before : List Char) :
    KeepsIf (isIdentifierName name = true) before (wordTerm g ctx name escaped) := by
  unfold wordTerm
  split
  · rename_i term hterm
    have hkeeps : KeepsIf (isIdentifierName name = true) before term := (keeps_keywordTerm ctx hterm).keepsIf
    exact .ite _ (.flaw fun _ => hkeeps) hkeeps
  · intro scan t scan' h hkept hflawed
    obtain ⟨u, mid, hcheck, h⟩ := takes_bind.1 h
    obtain ⟨rfl, rfl⟩ := takes_pure.1 h
    obtain ⟨rfl, hvariable, htaken⟩ := takes_checkVariable hcheck hflawed
    refine ⟨hflawed, [], rfl, fun hname => ⟨⟨hname, hvariable, ?_⟩, .nil _⟩⟩
    rintro rfl
    simp [isTaken, hctx] at htaken

/-- What follows a piece of a template: the substitutions behind it, if it does not end the template. -/
theorem keeps_substitutions (chunk : Chunk) {scan scan' : Scan} {found : String × List (Term × String)}
    (h : Takes (do
      let quasi := String.ofList (lineFeeds chunk.raw)
      if chunk.opens then
        let inner ← g.expression ctx.bracketed
        expect rightBrace
        let (after, tail) ← g.template ctx false
        return (quasi, (inner, after) :: tail)
      else return (quasi, [])) scan found scan')
    (hkept : Term.isKeptTail found.2 = true) (hflawed : scan'.flawed = false) :
    scan.flawed = false ∧ ∃ read, scan.rest = read ++ scan'.rest ∧ found.1 = String.ofList (lineFeeds chunk.raw) ∧
      Term.IsReadableTail found.2 ∧ HoldsNumbers read (Term.numbersInTail found.2) := by
  dsimp only at h
  split at h
  · obtain ⟨inner, mid₁, hinner, h⟩ := takes_bind.1 h
    obtain ⟨u, mid₂, hbrace, h⟩ := takes_bind.1 h
    obtain ⟨⟨after, tail⟩, mid₃, htail, h⟩ := takes_bind.1 h
    obtain ⟨rfl, rfl⟩ := takes_pure.1 h
    obtain ⟨hkeptInner, hkeptTail⟩ := Bool.and_eq_true_iff.1 hkept
    obtain ⟨hmid₂, readTail, hreadTail, hafter, hreadable, hnumbers⟩ := hg.template ctx hctx _ _ _ htail hkeptTail hflawed
    obtain ⟨hmid₁, brace, hreadBrace⟩ := careful_expect _ _ _ _ hbrace hmid₂
    obtain ⟨hscan, read, hread, hfrom⟩ := hg.keeps_bracketed ctx hctx _ _ _ hinner hkeptInner hmid₁
    have hfrom := hfrom trivial
    refine ⟨hscan, read ++ (brace ++ readTail), ?_, rfl, ⟨hfrom.readable, hafter, hreadable⟩, ?_⟩
    · rw [hread, ← hreadBrace, hreadTail, List.append_assoc, List.append_assoc]
    · exact hfrom.numbers.append (hnumbers.behind brace)
  · obtain ⟨rfl, rfl⟩ := takes_pure.1 h
    exact ⟨hflawed, [], rfl, rfl, trivial, .nil []⟩

theorem keeps_template : KeepsTemplate (Script.template g ctx false) := by
  intro scan found scan' h hkept hflawed
  obtain ⟨_, mid, hget, hread⟩ := takes_bind.1 h
  obtain ⟨rfl, rfl⟩ := takes_get.1 hget
  split at hread
  case h_2 => exact absurd hread not_takes_failure
  case h_1 chunk rest hchunk =>
    obtain ⟨before, hbefore⟩ := suffix_templateChunk? hchunk
    dsimp only at hbefore
    obtain ⟨u, mid', hmodify, hread⟩ := takes_bind.1 hread
    obtain rfl := takes_modify.1 hmodify
    rcases takes_ite.1 hread with ⟨hdenotes, hread⟩ | ⟨-, hread⟩
    · obtain ⟨hscan, read, hread, hquasi, hreadable, hnumbers⟩ :=
        hg.keeps_substitutions ctx hctx chunk hread hkept hflawed
      have hread : rest = read ++ scan'.rest := hread
      refine ⟨hscan, before ++ read, ?_, ?_, hreadable, hnumbers.behind before⟩
      · rw [← hbefore, hread, List.append_assoc]
      · rw [hquasi, String.toList_ofList]
        exact isStable_lineFeeds hchunk hdenotes
    · obtain ⟨u, mid', hflaw, hread⟩ := takes_bind.1 hread
      have hmid' := (hg.keeps_substitutions ctx hctx chunk hread hkept hflawed).1
      rw [flawed_of_takes_flaw hflaw] at hmid'
      cases hmid'

theorem keeps_primary : Script.Keeps (primary g ctx) := by
  have hahead : Careful aheadAsyncFunction := .bind careful_peek fun _ => .pure _
  refine .after hahead fun _ => .ite _ (.of_drops (drops_asyncFunction g ctx)) (keeps_take fun next before => ?_)
  split
  case h_1 name escaped heq =>
    rw [heq]
    exact keepsIf_wordTerm ctx hctx name escaped before
  case h_2 text heq =>
    rw [heq]
    exact .pure fun hnumber _ => ⟨trivial, hnumber⟩
  case h_3 => exact .pure fun _ _ => ⟨trivial, .nil _⟩
  case h_4 => exact .of_drops drops_other
  case h_5 =>
    intro scan t scan' h hkept hflawed
    obtain ⟨⟨head, tail⟩, mid, htemplate, h⟩ := takes_bind.1 h
    obtain ⟨rfl, rfl⟩ := takes_pure.1 h
    obtain ⟨hscan, read, hread, hhead, htail, hnumbers⟩ := hg.template ctx hctx _ _ _ htemplate hkept hflawed
    exact ⟨hscan, read, hread, fun _ => ⟨⟨hhead, htail⟩, hnumbers.behind before⟩⟩
  case h_6 =>
    intro scan t scan' h hkept hflawed
    obtain ⟨inner, mid, hinner, h⟩ := takes_bind.1 h
    obtain ⟨u, mid', hclose, h⟩ := takes_bind.1 h
    obtain ⟨rfl, rfl⟩ := takes_pure.1 h
    obtain ⟨hmid, paren, hparen⟩ := careful_expect _ _ _ _ hclose hflawed
    obtain ⟨hscan, read, hread, hfrom⟩ := hg.keeps_bracketed ctx hctx _ _ _ hinner hkept hmid
    have hfrom := ((hfrom trivial).before paren).behind before
    refine ⟨hscan, read ++ paren, ?_, fun _ => ⟨hfrom.readable, hfrom.numbers⟩⟩
    rw [hread, ← hparen, List.append_assoc]
  case h_7 => exact .of_drops (.after _ fun cover => .pure (isKept_literalTerm cover))
  case h_8 => exact .of_drops (.after _ fun cover => .pure (isKept_literalTerm cover))
  case h_9 => exact .of_drops (drops_regexRest _)
  case h_10 => exact .of_drops (drops_regexRest _)
  case h_11 => exact .of_drops (drops_decoratedClass g ctx)
  case h_12 => exact .of_drops .failure

omit hg hctx in
theorem keepsOn_memberOf : KeepsOn memberOf := by
  intro t scan t' scan' h hkept hflawed
  obtain ⟨token, mid, htoken, h⟩ := takes_bind.1 h
  simp only [take, takes_bind, takes_pure] at htoken
  obtain ⟨next, _, hpeek, u, mid', hskip, rfl, rfl⟩ := htoken
  obtain ⟨rfl, rfl⟩ := takes_peek.1 hpeek
  split at h
  · rename_i name escaped heq
    obtain ⟨rfl, rfl⟩ := takes_pure.1 h
    obtain ⟨hscan, read, hread, hname⟩ := takes_skip_lexeme hskip hflawed
    rw [heq] at hname
    refine ⟨hscan, hkept, read, hread, fun before h => ?_⟩
    have hfrom := h.before read
    exact ⟨⟨hfrom.readable, hname⟩, hfrom.numbers⟩
  · obtain ⟨rfl, rfl⟩ := takes_pure.1 h
    cases hkept
  · exact absurd h not_takes_failure

omit hctx in
/-- What stands behind `?.`. -/
theorem drops_optionalMember (t : Term) : Drops (do
    match (← peek).token with
    | .punct "(" => g.chain ctx ⟨true, true⟩ t
    | .punct "[" => g.chain ctx ⟨true, true⟩ t
    | .backquote => g.chain ctx ⟨true, true⟩ t
    | _ => g.chain ctx ⟨true, true⟩ (← memberOf t)) := by
  refine .after _ fun next => ?_
  split
  case h_4 => exact .after _ fun _ => hg.drops_chain ctx _
  all_goals exact hg.drops_chain ctx t

omit hctx in
/-- A chain that has accessed a member of what may be missing is no kept term. -/
theorem drops_chain_optional (t : Term) : Drops (Script.chain g ctx ⟨true, true⟩ t) := by
  refine .after _ fun next => ?_
  have hchain (t : Term) : Drops (g.chain ctx ⟨true, true⟩ t) := hg.drops_chain ctx t
  split
  · exact .after _ fun _ => .after _ fun _ => hchain _
  · exact .after _ fun _ => .after _ fun _ => .after _ fun _ => hchain _
  · exact .after _ fun _ => .ite _ (.after _ fun _ => .after _ fun _ => hchain _) (.after _ fun _ => hchain _)
  · rw [if_pos rfl]
    exact .after _ fun _ => .after _ fun _ => hchain _
  · have hmember := hg.drops_optionalMember ctx t
    exact .after _ fun _ => .ite _ hmember (.after _ fun _ => hmember)
  · exact .pure rfl

theorem keepsOn_chain : KeepsOn (Script.chain g ctx ⟨true, false⟩) := by
  intro t scan t' scan' h hkept hflawed
  obtain ⟨next, mid, hpeek, h⟩ := takes_bind.1 h
  obtain ⟨rfl, rfl⟩ := takes_peek.1 hpeek
  have hdrops {p : Reader Term} (hp : Drops p) {scan : Scan} (ht : Takes p scan t' scan') : False := by
    rw [hp _ _ _ ht] at hkept
    cases hkept
  split at h
  · obtain ⟨u, mid, hskip, h⟩ := takes_bind.1 h
    obtain ⟨member, mid', hmember, h⟩ := takes_bind.1 h
    obtain ⟨hmid', hkept', read', hread', hon'⟩ := hg.chain ctx hctx _ _ _ _ h hkept hflawed
    obtain ⟨hmid, hkept, read, hread, hon⟩ := keepsOn_memberOf _ _ _ _ hmember hkept' hmid'
    obtain ⟨hscan, dot, hdot, -⟩ := takes_skip_lexeme hskip hmid
    refine ⟨hscan, hkept, dot ++ read ++ read', ?_, fun before ht => ?_⟩
    · rw [hdot, hread, hread', List.append_assoc, List.append_assoc]
    · have hfrom := hon' _ (hon _ (ht.before dot))
      simpa only [List.append_assoc] using hfrom
  · obtain ⟨u, mid, hskip, h⟩ := takes_bind.1 h
    obtain ⟨key, mid', hkey, h⟩ := takes_bind.1 h
    obtain ⟨u, mid'', hclose, h⟩ := takes_bind.1 h
    obtain ⟨hmid'', hkept', read', hread', hon⟩ := hg.chain ctx hctx _ _ _ _ h hkept hflawed
    obtain ⟨hkept, hkeptKey⟩ := Bool.and_eq_true_iff.1 hkept'
    obtain ⟨hmid', close, hclose⟩ := careful_expect _ _ _ _ hclose hmid''
    obtain ⟨hmid, read, hread, hfromKey⟩ := hg.keeps_bracketed ctx hctx _ _ _ hkey hkeptKey hmid'
    obtain ⟨hscan, bracket, hbracket, -⟩ := takes_skip_lexeme hskip hmid
    refine ⟨hscan, hkept, bracket ++ read ++ close ++ read', ?_, fun before ht => ?_⟩
    · rw [hbracket, hread, ← hclose, hread', List.append_assoc, List.append_assoc, List.append_assoc]
    · have hfromKey := (hfromKey trivial).behind bracket
      have hindex : Term.IsReadFrom (before ++ (bracket ++ read)) (.index t key) :=
        ⟨⟨ht.readable, hfromKey.readable⟩, ht.numbers.append hfromKey.numbers⟩
      have hfrom := hon _ (hindex.before close)
      simpa only [List.append_assoc] using hfrom
  · -- A template behind its tag is a call.
    obtain ⟨u, mid, -, h⟩ := takes_bind.1 h
    rcases takes_ite.1 h with ⟨hoptional, -⟩ | ⟨-, h⟩
    · cases hoptional
    · obtain ⟨u, mid', -, h⟩ := takes_bind.1 h
      cases (hg.chain ctx hctx _ _ _ _ h hkept hflawed).2.1
  · rcases takes_ite.1 h with ⟨-, h⟩ | ⟨hcalls, -⟩
    · obtain ⟨u, mid, -, h⟩ := takes_bind.1 h
      obtain ⟨u, mid', -, h⟩ := takes_bind.1 h
      cases (hg.chain ctx hctx _ _ _ _ h hkept hflawed).2.1
    · exact absurd rfl hcalls
  · obtain ⟨u, mid, -, h⟩ := takes_bind.1 h
    rcases takes_ite.1 h with ⟨-, h⟩ | ⟨hcalls, -⟩
    · exact (hdrops (hg.drops_optionalMember ctx t) h).elim
    · exact absurd rfl hcalls
  · exact KeepsOn.pure _ _ _ _ h hkept hflawed

theorem keeps_chained : Script.Keeps (Script.chained g ctx) :=
  .bind (hg.keeps_primary ctx hctx) (hg.chain ctx hctx)

theorem keeps_counted : Script.Keeps (counted g ctx) := by
  have hrest : KeepsOn fun t => do
      let next ← peek
      if (next.token = .punct "++" || next.token = .punct "--") && !next.onNewLine then
        skip next
        require t.isPlace
        return .other .value
      return t :=
    .after careful_peek fun _ => .ite _ (.of_drops fun _ => .after _ fun _ => .after _ fun _ => drops_other) .pure
  exact .bind (hg.chained ctx hctx) hrest

theorem keeps_wordUnary (next : Lexeme) (name : String) (escaped : Bool) :
    Script.Keeps (wordUnary g ctx next name escaped) := by
  have hsigned (ctx : Context) : Drops (signed g ctx) := drops_signed g ctx
  have hcounted := hg.keeps_counted ctx hctx
  exact .ite _ (.of_drops (.after _ fun _ => .ite _ (.after _ fun _ => hsigned _) (hsigned _)))
    (.ite _ (.of_drops (.after _ fun _ => .ite _ (.after _ fun _ => hsigned _) (hsigned _))) hcounted)

theorem keeps_unary : Script.Keeps (Script.unary g ctx) := by
  refine .after careful_peek fun next => ?_
  split
  · exact .ite _ (.of_drops (.after _ fun _ => drops_signed g ctx))
      (.ite _ (.of_drops (.after _ fun _ => .after _ fun _ => .after _ fun _ => drops_other)) (hg.keeps_counted ctx hctx))
  · exact hg.keeps_wordUnary ctx hctx _ _ _
  · exact hg.keeps_counted ctx hctx

theorem keeps_operand (close : Bool) : Script.Keeps (operand g ctx close) := by
  refine .after careful_peek fun next => .ite _ (.of_drops ?_) (hg.keeps_unary ctx hctx)
  exact .after _ fun _ => .after _ fun _ => .after _ fun _ => drops_other

theorem keeps_binary : Script.Keeps (binary g ctx) := by
  have hrest : KeepsOn fun t => do
      let next ← peek
      if (Script.operator? ctx next.token).isSome || next.startsRemark then
        g.operators ctx ⟨false, false⟩
        return .other .value
      return t :=
    .after careful_peek fun _ => .ite _ (.of_drops fun _ => .after _ fun _ => drops_other) .pure
  exact .bind (hg.keeps_operand ctx hctx false) hrest

omit hg hctx in
theorem keepsOn_assignmentRest : KeepsOn (assignmentRest g ctx) := by
  refine .after careful_peek fun next => ?_
  intro t scan t' scan' h
  beta_reduce at h
  split at h
  · exact KeepsOn.of_drops (fun _ => drops_arrowBody g ctx false) _ _ _ _ h
  · exact KeepsOn.of_drops (fun _ => .after _ fun _ => drops_alternatives g ctx) _ _ _ _ h
  · rename_i op _ _ _
    split at h
    · have hdrops (t : Term) : Drops (do
          assignTo t
          skip next
          let _ ← g.assignment ctx
          return .other (if op = "=" then .defaulted else .value)) :=
        .after _ fun _ => .after _ fun _ => .after _ fun _ => drops_other
      exact KeepsOn.of_drops hdrops _ _ _ _ h
    · exact KeepsOn.pure _ _ _ _ h
  · exact KeepsOn.pure _ _ _ _ h

theorem keeps_assignment : Script.Keeps (Script.assignment g ctx) := by
  have hyield : Careful (aheadYield ctx) := .bind careful_peek fun _ => .pure _
  refine .after hyield fun _ => .ite _ (.of_drops (drops_yieldTerm g ctx)) ?_
  intro scan t scan' h hkept hflawed
  obtain ⟨found, mid, hfound, h⟩ := takes_bind.1 h
  obtain ⟨hdrops, hnone⟩ := takes_arrowFunction? hfound
  cases found with
  | some arrow =>
    obtain ⟨rfl, rfl⟩ := takes_pure.1 h
    rw [hdrops _ rfl] at hkept
    cases hkept
  | none =>
    have hrest : Script.Keeps (do
        if startsAsyncArrow (← get).rest then return ← asyncArrow g ctx
        assignmentRest g ctx (← binary g ctx)) :=
      .after careful_get fun _ => .ite _ (.of_drops (drops_asyncArrow g ctx))
        (.bind (hg.keeps_binary ctx hctx) (keepsOn_assignmentRest ctx))
    obtain ⟨hmid, read, hread, hfrom⟩ := hrest _ _ _ h hkept hflawed
    obtain ⟨hsame, hsameFlaw⟩ := hnone rfl
    exact ⟨hsameFlaw.symm.trans hmid, read, hsame.symm.trans hread, hfrom⟩

theorem keeps_expression : Script.Keeps (Script.expression g ctx) := by
  have hrest : KeepsOn fun t => do
      if ← accept "," then
        g.moreExpressions ctx
        return .other .value
      return t :=
    .after (careful_accept ",") fun _ => .ite _ (.of_drops fun _ => .after _ fun _ => drops_other) .pure
  exact .bind (hg.assignment ctx hctx) hrest

end Grammar.Keeps

/-- The rules keep what they hand out as it should be, at any depth. -/
theorem keeps_grammar (depth : Nat) : (grammar depth).Keeps := by
  induction depth with
  | zero =>
    refine ⟨fun _ _ => .of_drops .failure, fun _ _ => .of_drops .failure, fun _ _ => .of_drops .failure,
      fun _ _ => .of_drops .failure, ?_, fun _ _ => .failure, ?_⟩
    · intro ctx _ t scan t' scan' h
      exact absurd h not_takes_failure
    · intro ctx _ scan found scan' h
      exact absurd h not_takes_failure
  | succ depth ih =>
    exact {
      expression := ih.keeps_expression
      assignment := ih.keeps_assignment
      unary := ih.keeps_unary
      chained := ih.keeps_chained
      chain := ih.keepsOn_chain
      drops_chain := ih.drops_chain_optional
      template := ih.keeps_template }

/-- An expression that is read, and kept as it is written, is readable, and its numbers stand in the text. -/
theorem isReadFrom_readExpression {code : List Char} {t : Term} (h : readExpression code = some t)
    (hkept : t.isKept = true) : t.IsReadFrom code := by
  unfold readExpression at h
  split at h
  · rename_i t' scan hread
    split at h
    · cases h
    · rename_i hflawed
      obtain rfl := Option.some.inj h
      simp only [Bool.or_eq_true, not_or, Bool.not_eq_true] at hflawed
      obtain ⟨-, read, hcode, hfrom⟩ :=
        (keeps_grammar _).expression Context.module rfl _ _ _ hread hkept hflawed.1.1
      dsimp only at hcode
      rw [hcode]
      exact (hfrom trivial).before scan.rest
  · cases h

/-- An expression that is read, and kept as it is written, is as it should be. -/
theorem isProper_readExpression {code : List Char} {t : Term} (h : readExpression code = some t)
    (hkept : t.isKept = true) : t.IsProper := by
  have hfrom := isReadFrom_readExpression h hkept
  refine hfrom.readable.isProper fun text ht => ?_
  obtain ⟨literal, hliteral⟩ := hfrom.numbers.exists_isKeptAs text ht
  exact hliteral.isNumeral

end TemplateCompiler.Script
