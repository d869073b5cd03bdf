import TemplateCompiler.Binding.Group
/-!
# The grammar of balanced braces

A group, byte by byte: `IsGroup` derives what stands between a brace and the brace that closes it, with strings,
template strings and inner groups in it. The scan for the closing brace keeps a count and a stack of counts instead.
`Nesting.Stands` says which open constructs these numbers stand for, and `Demands` what the bytes that follow must be
to close them all. A step of the scan takes one byte off what is demanded (`Stands.step_takes`), so that a scan of
bytes stops exactly where all that was open is closed (`closeGroup?_read`).
-/

namespace TemplateCompiler.Binding

open TemplateCompiler.Text

/-! ## The grammar -/

/-- The byte of a character of ASCII. -/
def byte (c : Char) : UInt8 := c.toUInt8

/-- A byte that starts a string, and ends it. -/
def IsQuote (b : UInt8) : Prop := b = byte '"' ∨ b = byte '\''

/-- A byte that neither starts nor ends anything. -/
def IsPlain (b : UInt8) : Prop :=
  b ≠ byte '{' ∧ b ≠ byte '}' ∧ b ≠ byte '"' ∧ b ≠ byte '\'' ∧ b ≠ byte '`' ∧ b ≠ byte '\\'

/-- The inside of a string that the byte `q` ends. A backslash stands with the byte behind it. -/
inductive IsStringText (q : UInt8) : List UInt8 → Prop where
  | nil : IsStringText q []
  | escape (b : UInt8) {rest : List UInt8} (h : IsStringText q rest) : IsStringText q (byte '\\' :: b :: rest)
  | plain {b : UInt8} {rest : List UInt8} (hb : b ≠ q ∧ b ≠ byte '\\') (h : IsStringText q rest) :
    IsStringText q (b :: rest)

mutual

/-- A brace, items, and the brace that closes it. -/
inductive IsGroup : List UInt8 → Prop where
  | braces {items : List UInt8} (h : AreItems items) : IsGroup (byte '{' :: (items ++ [byte '}']))

/-- Any number of items. -/
inductive AreItems : List UInt8 → Prop where
  | nil : AreItems []
  | cons {item items : List UInt8} (h : IsItem item) (rest : AreItems items) : AreItems (item ++ items)

/-- A piece of what stands between braces. -/
inductive IsItem : List UInt8 → Prop where
  | escape (b : UInt8) : IsItem [byte '\\', b]
  | string {q : UInt8} {text : List UInt8} (hq : IsQuote q) (h : IsStringText q text) : IsItem (q :: (text ++ [q]))
  | template {text : List UInt8} (h : IsTemplateText text) : IsItem (byte '`' :: (text ++ [byte '`']))
  | group {group : List UInt8} (h : IsGroup group) : IsItem group
  | plain {b : UInt8} (h : IsPlain b) : IsItem [b]

/-- The inside of a template string: bytes behind a backslash, substitutions, and other bytes. -/
inductive IsTemplateText : List UInt8 → Prop where
  | nil : IsTemplateText []
  | escape (b : UInt8) {rest : List UInt8} (h : IsTemplateText rest) : IsTemplateText (byte '\\' :: b :: rest)
  | substitution {items rest : List UInt8} (hitems : AreItems items) (h : IsTemplateText rest) :
    IsTemplateText (byte '$' :: byte '{' :: (items ++ byte '}' :: rest))
  | plain {b : UInt8} {rest : List UInt8} (hb : b ≠ byte '`' ∧ b ≠ byte '\\')
    (hdollar : ¬ (b = byte '$' ∧ rest.head? = some (byte '{'))) (h : IsTemplateText rest) : IsTemplateText (b :: rest)

end

/-! ## What is open -/

/-- A construct that is open in a group. -/
inductive Opening where
  /-- A group, or a substitution of the template string around it. -/
  | brace
  | template
deriving DecidableEq

/-- The number of open braces. -/
def braces : List Opening → Nat
  | [] => 0
  | .brace :: stack => braces stack + 1
  | .template :: stack => braces stack

/-- For each open template string, the number of braces open around it. -/
def depths : List Opening → List Nat
  | [] => []
  | .brace :: stack => depths stack
  | .template :: stack => braces stack :: depths stack

/-- The bytes close all that is open, innermost first, and nothing follows. -/
def Closes : List Opening → List UInt8 → Prop
  | [], bytes => bytes = []
  | .brace :: stack, bytes =>
    ∃ items more, AreItems items ∧ Closes stack more ∧ bytes = items ++ byte '}' :: more
  | .template :: stack, bytes =>
    ∃ text more, IsTemplateText text ∧ Closes stack more ∧ bytes = text ++ byte '`' :: more

/-- The bytes close a string that `q` ends, and then all that is open around it. -/
def ClosesString (q : UInt8) (stack : List Opening) (bytes : List UInt8) : Prop :=
  ∃ text more, IsStringText q text ∧ Closes stack more ∧ bytes = text ++ q :: more

/-- A construct around a byte that is closed by the bytes behind one that stands for itself. -/
def Behind (P : List UInt8 → Prop) (bytes : List UInt8) : Prop :=
  ∃ b more, bytes = b :: more ∧ P more

variable {stack : List Opening} {b q : UInt8} {more : List UInt8}

theorem isGroup_iff {bytes : List UInt8} :
    IsGroup bytes ↔ ∃ more, bytes = byte '{' :: more ∧ Closes [.brace] more := by
  constructor
  · rintro ⟨h⟩
    exact ⟨_, rfl, _, [], h, rfl, rfl⟩
  · rintro ⟨more, rfl, items, more, h, rfl, rfl⟩
    exact .braces h

/-! ## What the next byte may be -/

theorem closes_brace_cons :
    Closes (.brace :: stack) (b :: more) ↔
      (b = byte '}' ∧ Closes stack more) ∨
      (b = byte '\\' ∧ Behind (Closes (.brace :: stack)) more) ∨
      (IsQuote b ∧ ClosesString b (.brace :: stack) more) ∨
      (b = byte '`' ∧ Closes (.template :: .brace :: stack) more) ∨
      (b = byte '{' ∧ Closes (.brace :: .brace :: stack) more) ∨
      (IsPlain b ∧ Closes (.brace :: stack) more) := by
  constructor
  · rintro ⟨items, after, hitems, hafter, heq⟩
    cases hitems with
    | nil =>
      obtain ⟨rfl, rfl⟩ := List.cons.inj heq
      exact .inl ⟨rfl, hafter⟩
    | @cons item items hitem hrest =>
      have hclosed : Closes (.brace :: stack) (items ++ byte '}' :: after) := ⟨items, after, hrest, hafter, rfl⟩
      right
      cases hitem with
      | escape c =>
        obtain ⟨rfl, rfl⟩ := List.cons.inj heq
        exact .inl ⟨rfl, c, _, rfl, hclosed⟩
      | @string q text hq htext =>
        obtain ⟨rfl, rfl⟩ := List.cons.inj heq
        exact .inr (.inl ⟨hq, text, _, htext, hclosed, by simp⟩)
      | @template text htext =>
        obtain ⟨rfl, rfl⟩ := List.cons.inj heq
        exact .inr (.inr (.inl ⟨rfl, text, _, htext, hclosed, by simp⟩))
      | group hgroup =>
        obtain @⟨inner, hinner⟩ := hgroup
        obtain ⟨rfl, rfl⟩ := List.cons.inj heq
        exact .inr (.inr (.inr (.inl ⟨rfl, inner, _, hinner, hclosed, by simp⟩)))
      | plain hplain =>
        obtain ⟨rfl, rfl⟩ := List.cons.inj heq
        exact .inr (.inr (.inr (.inr ⟨hplain, hclosed⟩)))
  · rintro (⟨rfl, h⟩ | ⟨rfl, c, _, rfl, items, after, hitems, hafter, rfl⟩ |
      ⟨hq, text, _, htext, ⟨items, after, hitems, hafter, rfl⟩, rfl⟩ |
      ⟨rfl, text, _, htext, ⟨items, after, hitems, hafter, rfl⟩, rfl⟩ |
      ⟨rfl, inner, _, hinner, ⟨items, after, hitems, hafter, rfl⟩, rfl⟩ | ⟨hplain, items, after, hitems, hafter, rfl⟩)
    · exact ⟨[], more, .nil, h, rfl⟩
    · exact ⟨_, after, .cons (.escape c) hitems, hafter, by simp⟩
    · exact ⟨_, after, .cons (.string hq htext) hitems, hafter, by simp⟩
    · exact ⟨_, after, .cons (.template htext) hitems, hafter, by simp⟩
    · exact ⟨_, after, .cons (.group (.braces hinner)) hitems, hafter, by simp⟩
    · exact ⟨_, after, .cons (.plain hplain) hitems, hafter, by simp⟩

theorem closes_template_cons :
    Closes (.template :: stack) (b :: more) ↔
      (b = byte '`' ∧ Closes stack more) ∨
      (b = byte '\\' ∧ Behind (Closes (.template :: stack)) more) ∨
      (b = byte '$' ∧ ∃ after, more = byte '{' :: after ∧ Closes (.brace :: .template :: stack) after) ∨
      (b ≠ byte '`' ∧ b ≠ byte '\\' ∧ ¬ (b = byte '$' ∧ more.head? = some (byte '{')) ∧
        Closes (.template :: stack) more) := by
  constructor
  · rintro ⟨text, after, htext, hafter, heq⟩
    cases htext with
    | nil =>
      obtain ⟨rfl, rfl⟩ := List.cons.inj heq
      exact .inl ⟨rfl, hafter⟩
    | escape c h =>
      obtain ⟨rfl, rfl⟩ := List.cons.inj heq
      exact .inr (.inl ⟨rfl, c, _, rfl, _, after, h, hafter, rfl⟩)
    | substitution hitems h =>
      obtain ⟨rfl, rfl⟩ := List.cons.inj heq
      exact .inr (.inr (.inl ⟨rfl, _, rfl, _, _, hitems, ⟨_, after, h, hafter, rfl⟩, by simp⟩))
    | @plain c rest hc hdollar h =>
      obtain ⟨rfl, rfl⟩ := List.cons.inj heq
      refine .inr (.inr (.inr ⟨hc.1, hc.2, ?_, _, after, h, hafter, rfl⟩))
      rintro ⟨hb, hhead⟩
      cases rest with
      | nil => exact absurd (Option.some.inj hhead) (by decide)
      | cons d rest => exact hdollar ⟨hb, hhead⟩
  · rintro (⟨rfl, h⟩ | ⟨rfl, c, _, rfl, text, after, htext, hafter, rfl⟩ |
      ⟨rfl, _, rfl, items, _, hitems, ⟨text, after, htext, hafter, rfl⟩, rfl⟩ |
      ⟨htick, hslash, hdollar, text, after, htext, hafter, rfl⟩)
    · exact ⟨[], more, .nil, h, rfl⟩
    · exact ⟨_, after, .escape c htext, hafter, rfl⟩
    · exact ⟨_, after, .substitution hitems htext, hafter, by simp⟩
    · refine ⟨_, after, .plain ⟨htick, hslash⟩ ?_ htext, hafter, rfl⟩
      rintro ⟨hb, hhead⟩
      refine hdollar ⟨hb, ?_⟩
      cases text with
      | nil => cases hhead
      | cons d text => exact hhead

theorem closesString_cons (hq : q ≠ byte '\\') :
    ClosesString q stack (b :: more) ↔
      (b = q ∧ Closes stack more) ∨
      (b = byte '\\' ∧ Behind (ClosesString q stack) more) ∨
      (b ≠ q ∧ b ≠ byte '\\' ∧ ClosesString q stack more) := by
  constructor
  · rintro ⟨text, after, htext, hafter, heq⟩
    cases htext with
    | nil =>
      obtain ⟨rfl, rfl⟩ := List.cons.inj heq
      exact .inl ⟨rfl, hafter⟩
    | escape c h =>
      obtain ⟨rfl, rfl⟩ := List.cons.inj heq
      exact .inr (.inl ⟨rfl, c, _, rfl, _, after, h, hafter, rfl⟩)
    | plain hc h =>
      obtain ⟨rfl, rfl⟩ := List.cons.inj heq
      exact .inr (.inr ⟨hc.1, hc.2, _, after, h, hafter, rfl⟩)
  · rintro (⟨rfl, h⟩ | ⟨rfl, c, _, rfl, text, after, htext, hafter, rfl⟩ |
      ⟨hne, hslash, text, after, htext, hafter, rfl⟩)
    · exact ⟨[], more, .nil, h, rfl⟩
    · exact ⟨_, after, .escape c htext, hafter, rfl⟩
    · exact ⟨_, after, .plain ⟨hne, hslash⟩ htext, hafter, rfl⟩

/-! ## A step of the scan -/

/-- The character that a byte is read as. All that matters of it is which character of ASCII it is, if any. -/
abbrev read (b : UInt8) : Char := Char.ofUInt8 b

theorem read_eq_iff {c : Char} (hc : c.toNat < 256) : read b = c ↔ b = byte c := by
  have hread : (read b).toNat = b.toNat := rfl
  have hbyte : (byte c).toNat = c.toNat := by
    show c.val.toUInt8.toNat = c.val.toNat
    rw [UInt32.toNat_toUInt8]
    exact Nat.mod_eq_of_lt hc
  constructor
  · rintro rfl
    exact UInt8.toNat_inj.1 (by rw [hbyte, hread])
  · rintro rfl
    exact Char.ext (UInt32.toNat_inj.1 (hread.trans hbyte))

/-- The innermost open construct decides what an unescaped brace or quote does. -/
theorem head?_depths_ne (stack : List Opening) : (depths stack).head? ≠ some (braces stack + 1) := by
  have hle : ∀ stack : List Opening, ∀ d ∈ depths stack, d ≤ braces stack := by
    intro stack
    induction stack with
    | nil => simp [depths]
    | cons o stack ih =>
      cases o with
      | brace => exact fun d hd => Nat.le_succ_of_le (ih d hd)
      | template => exact List.forall_mem_cons.2 ⟨Nat.le_refl _, ih⟩
  intro h
  have := hle stack _ (List.mem_of_head? h)
  omega

theorem braces_pos (h : stack.getLast? = some .brace) : 0 < braces stack := by
  induction stack with
  | nil => cases h
  | cons o stack ih =>
    cases o with
    | brace => exact Nat.succ_pos _
    | template =>
      cases stack with
      | nil => cases h
      | cons o stack => exact ih (by simpa using h)

namespace Nesting

/-- The numbers of the scan stand for the open constructs, of which the outermost is a group. -/
structure Stands (n : Nesting) (stack : List Opening) : Prop where
  depth : n.depth = braces stack
  templates : n.templates = depths stack
  outermost : stack.getLast? = some .brace
  quote : ∀ c ∈ n.quote, c = '"' ∨ c = '\''
  dollar : n.dollar = true → n.escaped = false ∧ n.quote = none ∧ stack.head? = some .template

/-- What must follow the scan where no backslash stands before it. -/
def Resumes (n : Nesting) (stack : List Opening) (bytes : List UInt8) : Prop :=
  match n.quote with
  | some c => ClosesString (byte c) stack bytes
  | none =>
    if n.dollar ∧ bytes.head? = some (byte '{') then Closes (.brace :: stack) bytes.tail else Closes stack bytes

/-- What must follow the scan. -/
def Demands (n : Nesting) (stack : List Opening) (bytes : List UInt8) : Prop :=
  if n.escaped then Behind (n.Resumes stack) bytes else n.Resumes stack bytes

/-- What a step does to what must follow: the byte is taken off, and the last brace ends it all. -/
def Takes (n : Nesting) (stack : List Opening) (b : UInt8) : Outcome → Prop
  | .inside n' => ∃ stack', n'.Stands stack' ∧ ∀ more, n.Demands stack (b :: more) ↔ n'.Demands stack' more
  | .closed => ∀ more, n.Demands stack (b :: more) ↔ more = []
  | .unbalanced => False

variable {n : Nesting}

theorem Stands.inTemplate_eq (h : n.Stands stack) : n.inTemplate = (stack.head? == some .template) := by
  unfold inTemplate
  rw [h.depth, h.templates]
  cases stack with
  | nil => cases h.outermost
  | cons o stack =>
    cases o with
    | brace => exact beq_false_of_ne (head?_depths_ne stack)
    | template => simp [depths, braces]

theorem resumes_plain (hquote : n.quote = none) (hdollar : n.dollar = false) (stack : List Opening) :
    n.Resumes stack = Closes stack := by
  funext bytes
  simp [Resumes, hquote, hdollar]

theorem resumes_string {c : Char} (hquote : n.quote = some c) (stack : List Opening) :
    n.Resumes stack = ClosesString (byte c) stack := by
  funext bytes
  simp [Resumes, hquote]

theorem demands_unescaped (hesc : n.escaped = false) (stack : List Opening) : n.Demands stack = n.Resumes stack := by
  funext bytes
  simp [Demands, hesc]

theorem behind_cons {P : List UInt8 → Prop} : Behind P (b :: more) ↔ P more := by
  constructor
  · rintro ⟨c, after, heq, h⟩
    obtain ⟨rfl, rfl⟩ := List.cons.inj heq
    exact h
  · exact fun h => ⟨b, more, rfl, h⟩

theorem takes_escaped (h : n.Stands stack) (hesc : n.escaped = true) :
    n.Takes stack b (.inside { n with escaped := false, dollar := false }) := by
  have hdollar : n.dollar = false := by
    cases hd : n.dollar with
    | false => rfl
    | true => simp [(h.dollar hd).1] at hesc
  refine ⟨stack, ⟨h.depth, h.templates, h.outermost, h.quote, by simp⟩, fun more => ?_⟩
  simp [Demands, Resumes, hesc, behind_cons, hdollar]

theorem takes_backslash (h : n.Stands stack) (hesc : n.escaped = false) :
    n.Takes stack (byte '\\') (.inside { n with escaped := true, dollar := false }) := by
  refine ⟨stack, ⟨h.depth, h.templates, h.outermost, h.quote, by simp⟩, fun more => ?_⟩
  have hafter : ∀ m : Nesting, m.escaped = true → m.Demands stack more = Behind (m.Resumes stack) more := by
    intro m hm
    simp [Demands, hm]
  rw [demands_unescaped hesc, hafter _ rfl]
  cases hquote : n.quote with
  | some c =>
    have hc : byte c ≠ byte '\\' := by rcases h.quote c hquote with rfl | rfl <;> decide
    rw [resumes_string hquote, resumes_string rfl, closesString_cons hc]
    simp [hc.symm]
  | none =>
    simp only [resumes_plain, Resumes, hquote]
    cases stack with
    | nil => cases h.outermost
    | cons o stack =>
      cases o with
      | brace => simp +decide [closes_brace_cons, IsQuote, IsPlain]
      | template => simp +decide [closes_template_cons]

theorem takes_string (h : n.Stands stack) (hesc : n.escaped = false) (hb : b ≠ byte '\\') {c : Char}
    (hquote : n.quote = some c) :
    n.Takes stack b (.inside { n with quote := if read b = c then none else some c }) := by
  have hquotes := h.quote c hquote
  have hc : byte c ≠ byte '\\' := by rcases hquotes with rfl | rfl <;> decide
  have hread : read b = c ↔ b = byte c := read_eq_iff (by rcases hquotes with rfl | rfl <;> decide)
  have hdollar : n.dollar = false := by
    cases hd : n.dollar with
    | false => rfl
    | true => simp [(h.dollar hd).2.1] at hquote
  have htakes (more : List UInt8) : n.Demands stack (b :: more) ↔
      (b = byte c ∧ Closes stack more) ∨ (b ≠ byte c ∧ ClosesString (byte c) stack more) := by
    rw [demands_unescaped hesc, resumes_string hquote, closesString_cons hc]
    simp [hb]
  by_cases heq : b = byte c
  · rw [if_pos (hread.2 heq)]
    refine ⟨stack, ⟨h.depth, h.templates, h.outermost, by simp, by simp [hdollar]⟩, fun more => ?_⟩
    rw [htakes]
    simp [demands_unescaped, resumes_plain, hesc, hdollar, heq]
  · rw [if_neg (fun hr => heq (hread.1 hr))]
    refine ⟨stack, ⟨h.depth, h.templates, h.outermost, by simpa using hquotes, by simp [hdollar]⟩, fun more => ?_⟩
    rw [htakes]
    simp [demands_unescaped, Resumes, hesc, heq]

theorem takes_template (h : n.Stands (.template :: stack)) (hesc : n.escaped = false) (hb : b ≠ byte '\\')
    (hquote : n.quote = none) :
    n.Takes (.template :: stack) b
      (if b = byte '`' then .inside { n with templates := n.templates.tail, dollar := false }
       else if b = byte '{' ∧ n.dollar = true then .inside { n with depth := n.depth + 1, dollar := false }
       else .inside { n with dollar := b = byte '$' }) := by
  by_cases htick : b = byte '`'
  · have hlast : stack.getLast? = some .brace := by
      cases stack with
      | nil => cases h.outermost
      | cons o stack => simpa using h.outermost
    rw [if_pos htick]
    refine ⟨stack, ⟨h.depth, by simp [h.templates, depths], hlast, h.quote, by simp⟩, fun more => ?_⟩
    subst htick
    simp +decide [Demands, Resumes, hesc, hquote, closes_template_cons]
  rw [if_neg htick]
  by_cases hopen : b = byte '{' ∧ n.dollar = true
  · rw [if_pos hopen]
    refine ⟨.brace :: .template :: stack, ⟨by simp [h.depth, braces], by simp [h.templates, depths], ?_, h.quote,
      by simp⟩, fun more => ?_⟩
    · simp [h.outermost]
    · simp [Demands, Resumes, hesc, hquote, hopen]
  rw [if_neg hopen]
  refine ⟨.template :: stack, ⟨h.depth, h.templates, h.outermost, h.quote, fun _ => ⟨hesc, hquote, rfl⟩⟩,
    fun more => ?_⟩
  have hgoes : n.Demands (.template :: stack) (b :: more) ↔ Closes (.template :: stack) (b :: more) := by
    simp only [demands_unescaped, Resumes, hesc, hquote, List.head?_cons, Option.some.injEq]
    rw [if_neg (fun h => hopen h.symm)]
  rw [hgoes, closes_template_cons]
  cases more with
  | nil => simp [Demands, Resumes, hesc, hquote, htick, hb]
  | cons d more =>
    by_cases hsubst : b = byte '$' ∧ d = byte '{'
    · obtain ⟨rfl, rfl⟩ := hsubst
      simp +decide [Demands, Resumes, hesc, hquote]
    · have hnot : ¬ (b = byte '$' ∧ ∃ after, d :: more = byte '{' :: after ∧
          Closes (.brace :: .template :: stack) after) := by
        rintro ⟨hdollar, after, heq, -⟩
        exact hsubst ⟨hdollar, (List.cons.inj heq).1⟩
      simp only [demands_unescaped, Resumes, hesc, hquote, List.head?_cons, Option.some.injEq, decide_eq_true_eq]
      rw [if_neg hsubst]
      simp only [htick, hb, hnot, hsubst, ne_eq, not_false_eq_true, true_and, false_and, false_or]

theorem Stands.dollar_brace (h : n.Stands (.brace :: stack)) : n.dollar = false := by
  cases hd : n.dollar with
  | false => rfl
  | true => cases (h.dollar hd).2.2

/-- Within braces, a byte must be one that the grammar goes on with. -/
theorem demands_brace (h : n.Stands (.brace :: stack)) (hesc : n.escaped = false) (hquote : n.quote = none)
    (more : List UInt8) : n.Demands (.brace :: stack) (b :: more) ↔ Closes (.brace :: stack) (b :: more) := by
  simp [Demands, Resumes, hesc, hquote, h.dollar_brace]

/-- A closing brace closes the innermost group. -/
theorem takes_brace_close (h : n.Stands (.brace :: stack)) (hesc : n.escaped = false) (hquote : n.quote = none) :
    n.Takes (.brace :: stack) (byte '}')
      (match n.depth with
        | 0 => .unbalanced
        | 1 => .closed
        | depth + 2 => .inside { n with depth := depth + 1 }) := by
  have hcloses (more : List UInt8) : n.Demands (.brace :: stack) (byte '}' :: more) ↔ Closes stack more := by
    rw [demands_brace h hesc hquote, closes_brace_cons]
    simp +decide [IsQuote, IsPlain]
  cases stack with
  | nil =>
    rw [h.depth]
    exact hcloses
  | cons o stack =>
    have hlast : (o :: stack).getLast? = some .brace := by simpa using h.outermost
    obtain ⟨k, hk⟩ : ∃ k, braces (o :: stack) = k + 1 := ⟨_, (Nat.succ_pred_eq_of_pos (braces_pos hlast)).symm⟩
    have hdepth : n.depth = k + 2 := by rw [h.depth, braces, hk]
    rw [hdepth]
    refine ⟨o :: stack, ⟨hk.symm, h.templates, hlast, h.quote, by simp [h.dollar_brace]⟩, fun more => ?_⟩
    rw [hcloses]
    simp [demands_unescaped, resumes_plain, hesc, hquote, h.dollar_brace]

theorem takes_brace (h : n.Stands (.brace :: stack)) (hesc : n.escaped = false) (hb : b ≠ byte '\\')
    (hquote : n.quote = none) :
    n.Takes (.brace :: stack) b
      (if b = byte '"' ∨ b = byte '\'' then .inside { n with quote := some (read b) }
       else if b = byte '`' then .inside { n with templates := n.depth :: n.templates }
       else if b = byte '{' then .inside { n with depth := n.depth + 1 }
       else if b = byte '}' then
         match n.depth with
         | 0 => .unbalanced
         | 1 => .closed
         | depth + 2 => .inside { n with depth := depth + 1 }
       else .inside n) := by
  have hdollar := h.dollar_brace
  by_cases hq : b = byte '"' ∨ b = byte '\''
  · rw [if_pos hq]
    have hread : read b = '"' ∨ read b = '\'' := by rcases hq with rfl | rfl <;> decide
    have hbyte : byte (read b) = b := by rcases hq with rfl | rfl <;> decide
    refine ⟨.brace :: stack, ⟨h.depth, h.templates, h.outermost, by simpa using hread, by simp [hdollar]⟩,
      fun more => ?_⟩
    rw [demands_brace h hesc hquote, closes_brace_cons]
    simp only [demands_unescaped, Resumes, hesc, hbyte]
    rcases hq with rfl | rfl <;> simp +decide [IsQuote, IsPlain]
  rw [if_neg hq]
  by_cases htick : b = byte '`'
  · rw [if_pos htick]
    refine ⟨.template :: .brace :: stack, ⟨h.depth, by simp [h.templates, h.depth, depths], by simp [h.outermost],
      h.quote, by simp [hdollar]⟩, fun more => ?_⟩
    rw [demands_brace h hesc hquote, closes_brace_cons, htick]
    simp +decide [demands_unescaped, resumes_plain, hesc, hquote, hdollar, IsQuote, IsPlain]
  rw [if_neg htick]
  by_cases hopen : b = byte '{'
  · rw [if_pos hopen]
    refine ⟨.brace :: .brace :: stack, ⟨by simp [h.depth, braces], by simp [h.templates, depths], by simp [h.outermost],
      h.quote, by simp [hdollar]⟩, fun more => ?_⟩
    rw [demands_brace h hesc hquote, closes_brace_cons, hopen]
    simp +decide [demands_unescaped, resumes_plain, hesc, hquote, hdollar, IsQuote, IsPlain]
  rw [if_neg hopen]
  by_cases hclose : b = byte '}'
  · rw [if_pos hclose, hclose]
    exact takes_brace_close h hesc hquote
  rw [if_neg hclose]
  refine ⟨.brace :: stack, h, fun more => ?_⟩
  rw [demands_brace h hesc hquote, closes_brace_cons, demands_unescaped hesc, resumes_plain hquote hdollar]
  have hplain : IsPlain b := ⟨hopen, hclose, fun h => hq (.inl h), fun h => hq (.inr h), htick, hb⟩
  simp [hclose, hb, htick, hopen, hplain, IsQuote, hq]

/-- A step of the scan takes its byte off what must follow. -/
theorem Stands.step_takes (h : n.Stands stack) (b : UInt8) : n.Takes stack b (n.step (read b)) := by
  have hslash : read b = '\\' ↔ b = byte '\\' := read_eq_iff (by decide)
  have hdouble : read b = '"' ↔ b = byte '"' := read_eq_iff (by decide)
  have hsingle : read b = '\'' ↔ b = byte '\'' := read_eq_iff (by decide)
  have htick : read b = '`' ↔ b = byte '`' := read_eq_iff (by decide)
  have hopen : read b = '{' ↔ b = byte '{' := read_eq_iff (by decide)
  have hclose : read b = '}' ↔ b = byte '}' := read_eq_iff (by decide)
  have hdollar : read b = '$' ↔ b = byte '$' := read_eq_iff (by decide)
  unfold step
  by_cases hesc : n.escaped = true
  · rw [if_pos hesc]
    exact takes_escaped h hesc
  rw [if_neg hesc]
  rw [Bool.not_eq_true] at hesc
  by_cases hb : b = byte '\\'
  · rw [if_pos (hslash.2 hb), hb]
    exact takes_backslash h hesc
  rw [if_neg (fun heq => hb (hslash.1 heq))]
  cases hquote : n.quote with
  | some c => exact takes_string h hesc hb hquote
  | none =>
    simp only [hdouble, hsingle, htick, hopen, hclose, hdollar, h.inTemplate_eq, Bool.and_eq_true, Bool.or_eq_true,
      decide_eq_true_eq]
    cases stack with
    | nil => cases h.outermost
    | cons o stack =>
      cases o with
      | brace =>
        rw [if_neg (by simp), ← hquote]
        exact takes_brace h hesc hb hquote
      | template =>
        rw [if_pos (by simp), ← hquote]
        exact takes_template h hesc hb hquote

theorem not_closes_nil (h : stack.getLast? = some .brace) : ¬ Closes stack [] := by
  cases stack with
  | nil => cases h
  | cons o stack => cases o <;> simp [Closes]

/-- Something must follow as long as a group is open. -/
theorem Stands.not_demands_nil (h : n.Stands stack) : ¬ n.Demands stack [] := by
  unfold Demands Resumes
  split
  · simp [Behind]
  · split
    · simp [ClosesString]
    · simpa using not_closes_nil h.outermost

end Nesting

/-! ## A whole scan -/

/-- A scan of bytes stops behind the first of them that close all that is open. -/
theorem closeGroup?_read {n : Nesting} (h : n.Stands stack) (bytes : List UInt8) (group rest : List Char) :
    closeGroup? n (bytes.map read) = some (group, rest) ↔
      ∃ front back, bytes = front ++ back ∧ n.Demands stack front ∧ group = front.map read ∧ rest = back.map read := by
  induction bytes generalizing n stack group with
  | nil =>
    simp only [List.map_nil, closeGroup?, reduceCtorEq, false_iff]
    rintro ⟨front, back, hnil, hdemands, -⟩
    rw [(List.append_eq_nil_iff.1 hnil.symm).1] at hdemands
    exact h.not_demands_nil hdemands
  | cons b bytes ih =>
    have htakes := h.step_takes b
    have hfront {front back : List UInt8} (heq : b :: bytes = front ++ back) (hdemands : n.Demands stack front) :
        ∃ more, front = b :: more ∧ bytes = more ++ back := by
      cases front with
      | nil => exact absurd hdemands h.not_demands_nil
      | cons c more =>
        obtain ⟨rfl, rfl⟩ := List.cons.inj heq
        exact ⟨more, rfl, rfl⟩
    rw [List.map_cons, closeGroup?]
    cases hstep : n.step (read b) with
    | inside n' =>
      rw [hstep] at htakes
      obtain ⟨stack', h', hiff⟩ := htakes
      simp only [Option.map_eq_some_iff, Prod.mk.injEq]
      constructor
      · rintro ⟨⟨_, _⟩, hclose, rfl, rfl⟩
        obtain ⟨front, back, rfl, hdemands, rfl, rfl⟩ := (ih h' _).1 hclose
        exact ⟨b :: front, back, rfl, (hiff front).2 hdemands, rfl, rfl⟩
      · rintro ⟨front, back, heq, hdemands, rfl, rfl⟩
        obtain ⟨more, rfl, rfl⟩ := hfront heq hdemands
        exact ⟨_, (ih h' _).2 ⟨more, back, rfl, (hiff more).1 hdemands, rfl, rfl⟩, rfl, rfl⟩
    | closed =>
      rw [hstep] at htakes
      simp only [Option.some.injEq, Prod.mk.injEq]
      constructor
      · rintro ⟨rfl, rfl⟩
        exact ⟨[b], bytes, rfl, (htakes []).2 rfl, rfl, rfl⟩
      · rintro ⟨front, back, heq, hdemands, rfl, rfl⟩
        obtain ⟨more, rfl, rfl⟩ := hfront heq hdemands
        obtain rfl := (htakes more).1 hdemands
        exact ⟨rfl, rfl⟩
    | unbalanced =>
      rw [hstep] at htakes
      exact htakes.elim

end TemplateCompiler.Binding
