import TemplateCompiler.Proofs.Script.Numerals
/-!
# Reading what is written

`IsValue` and `IsOperand` say that a text is read as a tree wherever what follows ends it. They are shown of the forms
that a render function is made of, one form at a time, so that what is written in those forms is read back as it was
made.
-/

namespace TemplateCompiler.Script.Tree

open TemplateCompiler.Text

/-! ## Tokens -/

@[simp] theorem take_space (token : Token) (cs : List Char) : take token (' ' :: cs) = take token cs := rfl

theorem take_of_next {token : Token} {cs rest : List Char} (h : next cs = some (token, rest)) :
    take token cs = some rest := by
  simp [take, h]

theorem take_of_ne {found token : Token} {cs rest : List Char} (h : next cs = some (found, rest)) (hne : found ≠ token) :
    take token cs = none := by
  simp [take, h, hne]

theorem next_of_take {token : Token} {cs rest : List Char} (h : take token cs = some rest) :
    next cs = some (token, rest) := by
  unfold take at h
  split at h
  · rename_i found more hnext
    split at h
    · rename_i heq
      rw [hnext, heq, Option.some.inj h]
    · cases h
  · cases h

/-- The tokens behind which no value starts. -/
def closers : List Token :=
  [.punct ")", .punct "]", .punct rightBrace]

/-- The tokens that stand behind a value. -/
def separators : List Token :=
  [.done, .punct ",", .punct ";", .punct ":"] ++ closers

/-- The tokens that go on with an operand. -/
def links : List Token :=
  [.punct ".", .punct "[", .punct "("]

/-- What follows does not go on with an operand. -/
structure EndsOperand (rest : List Char) : Prop where
  word : EndsWord rest
  dot : rest.head? ≠ some '.'
  token : ∃ token more, next rest = some (token, more) ∧ token ∉ links

/-- What follows does not go on with a value. -/
structure EndsValue (rest : List Char) : Prop where
  word : EndsWord rest
  dot : rest.head? ≠ some '.'
  token : ∃ token more, next rest = some (token, more) ∧ token ∈ separators

theorem EndsValue.endsOperand {rest : List Char} (h : EndsValue rest) : EndsOperand rest := by
  obtain ⟨token, more, hnext, htoken⟩ := h.token
  have hlinks : ∀ token ∈ separators, token ∉ links := by decide
  exact ⟨h.word, h.dot, token, more, hnext, hlinks token htoken⟩

theorem endsWord_cons {c : Char} (h : isIdentifierPart c = false ∧ c ≠ '\\') (rest : List Char) :
    EndsWord (c :: rest) := by
  intro d hd
  obtain rfl := Option.some.inj hd
  exact h

theorem endsValue_nil : EndsValue [] :=
  ⟨by simp [EndsWord], by simp, .done, [], rfl, by decide⟩

theorem EndsValue.of_next {c : Char} {rest more : List Char} {token : Token}
    (hword : isIdentifierPart c = false ∧ c ≠ '\\') (hdot : c ≠ '.') (h : next (c :: rest) = some (token, more))
    (htoken : token ∈ separators) : EndsValue (c :: rest) :=
  ⟨endsWord_cons hword rest, by simpa using hdot, token, more, h, htoken⟩

/-- What starts with a separator ends a value. -/
theorem endsValue_cons {c : Char} (h : c ∈ [',', ';', ':', ')', ']', '}']) (rest : List Char) : EndsValue (c :: rest) := by
  simp only [List.mem_cons, List.not_mem_nil, or_false] at h
  rcases h with rfl | rfl | rfl | rfl | rfl | rfl
  case inl => exact .of_next (by decide) (by decide) (next_comma rest) (by decide)
  case inr.inl => exact .of_next (by decide) (by decide) (next_semicolon rest) (by decide)
  case inr.inr.inl => exact .of_next (by decide) (by decide) (next_colon rest) (by decide)
  case inr.inr.inr.inl => exact .of_next (by decide) (by decide) (next_rightParen rest) (by decide)
  case inr.inr.inr.inr.inl => exact .of_next (by decide) (by decide) (next_rightBracket rest) (by decide)
  case inr.inr.inr.inr.inr => exact .of_next (by decide) (by decide) (next_rightBrace rest) (by decide)

theorem EndsValue.blank {rest : List Char} (h : EndsValue rest) : EndsValue (' ' :: rest) := by
  obtain ⟨token, more, hnext, htoken⟩ := h.token
  exact .of_next (by decide) (by decide) hnext htoken

/-- What starts with a blank and an operator ends an operand. -/
theorem endsOperand_operator {token : Token} {cs more : List Char} (h : next cs = some (token, more))
    (htoken : token ∉ links) : EndsOperand (' ' :: cs) :=
  ⟨endsWord_cons (by decide) cs, by simp, token, more, h, htoken⟩

/-! ## Where reading stops -/

theorem chainAt_of_ends {rest : List Char} (h : EndsOperand rest) (depth : Nat) (t : Tree) :
    chainAt (depth + 1) t rest = some (t, rest) := by
  obtain ⟨token, more, hnext, htoken⟩ := h.token
  unfold chainAt
  rw [hnext]
  split
  all_goals first | rfl | simp_all [links]

theorem operatorsAt_of_next {token : Token} {rest more : List Char} (h : next rest = some (token, more))
    (hoperator : operator? token = none) (depth least : Nat) (left : Tree) :
    operatorsAt (depth + 1) least left rest = some (left, rest) := by
  simp [operatorsAt, h, hoperator]

theorem operatorsAt_of_ends {rest : List Char} (h : EndsValue rest) (depth least : Nat) (left : Tree) :
    operatorsAt (depth + 1) least left rest = some (left, rest) := by
  obtain ⟨token, more, hnext, htoken⟩ := h.token
  have hoperator : ∀ token ∈ separators, operator? token = none := by decide
  exact operatorsAt_of_next hnext (hoperator token htoken) depth least left

/-- No value starts with a token that closes. -/
theorem primaryAt_of_closer {token : Token} {cs more : List Char} (h : next cs = some (token, more))
    (htoken : token ∈ closers) (depth : Nat) : primaryAt depth cs = none := by
  cases depth with
  | zero => rfl
  | succ depth =>
    unfold primaryAt
    rw [h]
    simp only [closers, List.mem_cons, List.not_mem_nil, or_false] at htoken
    rcases htoken with rfl | rfl | rfl <;> rfl

theorem unaryAt_of_closer {token : Token} {cs more : List Char} (h : next cs = some (token, more))
    (htoken : token ∈ closers) (depth : Nat) : unaryAt depth cs = none := by
  have hne : token ≠ .punct "!" := (by decide : ∀ token ∈ closers, token ≠ .punct "!") token htoken
  cases depth with
  | zero => rfl
  | succ depth => simp [unaryAt, take_of_ne h hne, primaryAt_of_closer h htoken]

theorem assignmentAt_of_closer {token : Token} {cs more : List Char} (h : next cs = some (token, more))
    (htoken : token ∈ closers) (depth : Nat) : assignmentAt depth cs = none := by
  have hne : token ≠ .punct "(" := (by decide : ∀ token ∈ closers, token ≠ .punct "(") token htoken
  have hbinary (depth : Nat) : binaryAt depth 0 cs = none := by
    cases depth with
    | zero => rfl
    | succ depth => simp [binaryAt, unaryAt_of_closer h htoken]
  cases depth with
  | zero => rfl
  | succ depth => simp [assignmentAt, arrowBody?, take_of_ne h hne, hbinary]

/-- A value does not start with a token that closes. -/
theorem take_of_assignmentAt {depth : Nat} {cs : List Char} {found : Tree × List Char}
    (h : assignmentAt depth cs = some found) {token : Token} (htoken : token ∈ closers) : take token cs = none := by
  by_contra hne
  obtain ⟨rest, hrest⟩ := Option.ne_none_iff_exists'.1 hne
  rw [assignmentAt_of_closer (next_of_take hrest) htoken] at h
  cases h

/-- What starts with an operand starts with no arrow function. -/
theorem arrowBody?_of_unaryAt {depth : Nat} {cs : List Char} {found : Tree × List Char}
    (h : unaryAt depth cs = some found) : arrowBody? cs = none := by
  by_contra hne
  obtain ⟨body, hbody⟩ := Option.ne_none_iff_exists'.1 hne
  unfold arrowBody? at hbody
  obtain ⟨cs₁, hopen, hbody⟩ := Option.bind_eq_some_iff.1 hbody
  obtain ⟨cs₂, hclose, -⟩ := Option.bind_eq_some_iff.1 hbody
  -- An operand may start with a parenthesis as well, but then a value stands behind it, and none starts with `)`.
  have hexpression (depth : Nat) : expressionAt depth cs₁ = none := by
    cases depth with
    | zero => rfl
    | succ depth => simp [expressionAt, assignmentAt_of_closer (next_of_take hclose) (by decide)]
  have hprimary (depth : Nat) : primaryAt depth cs = none := by
    cases depth with
    | zero => rfl
    | succ depth =>
      unfold primaryAt
      rw [next_of_take hopen]
      simp [hexpression]
  cases depth with
  | zero => cases h
  | succ depth =>
    rw [unaryAt, take_of_ne (next_of_take hopen) (by simp)] at h
    simp [hprimary] at h

/-! ## Texts that are read -/

/-- The text is read as a value without members and calls, whatever it is followed by but the rest of a word. -/
structure IsPrimary (text : List Char) (t : Tree) : Prop where
  ne_nil : text ≠ []
  reads : ∀ rest depth, EndsWord rest → 8 * text.length ≤ depth + 1 → primaryAt (depth + 1) (text ++ rest) = some (t, rest)

/-- The text is read as an operand, and as the object of the members and the callee of the calls that follow it. -/
def IsObject (text : List Char) (t : Tree) : Prop :=
  ∀ rest depth, EndsWord rest → 8 * text.length ≤ depth →
    ∃ left, depth ≤ left + 8 * text.length ∧ unaryAt (depth + 1) (text ++ rest) = chainAt (left + 1) t rest

/-- The text is read as an operand wherever what follows ends it. -/
def IsOperand (text : List Char) (t : Tree) : Prop :=
  ∀ rest depth, EndsOperand rest → 8 * text.length ≤ depth → unaryAt (depth + 1) (text ++ rest) = some (t, rest)

/-- The text is read as a value wherever what follows ends it. -/
def IsValue (text : List Char) (t : Tree) : Prop :=
  ∀ rest depth, EndsValue rest → 8 * text.length + 4 ≤ depth → assignmentAt depth (text ++ rest) = some (t, rest)

theorem unaryAt_of_primaryAt {depth : Nat} {cs rest : List Char} {t : Tree} (h : primaryAt depth cs = some (t, rest)) :
    unaryAt (depth + 1) cs = chainAt depth t rest := by
  have hnot : take (.punct "!") cs = none := by
    by_contra hne
    obtain ⟨more, hmore⟩ := Option.ne_none_iff_exists'.1 hne
    cases depth with
    | zero => cases h
    | succ depth =>
      unfold primaryAt at h
      rw [next_of_take hmore] at h
      cases h
  simp [unaryAt, hnot, h]

theorem IsPrimary.isObject {text : List Char} {t : Tree} (h : IsPrimary text t) : IsObject text t := by
  intro rest depth hrest hdepth
  have hpos := List.length_pos_iff.2 h.ne_nil
  obtain ⟨left, rfl⟩ := Nat.exists_eq_add_of_le' (show 1 ≤ depth by omega)
  exact ⟨left, by omega, unaryAt_of_primaryAt (h.reads rest left hrest hdepth)⟩

theorem IsObject.isOperand {text : List Char} {t : Tree} (h : IsObject text t) : IsOperand text t := by
  intro rest depth hrest hdepth
  obtain ⟨left, -, hread⟩ := h rest depth hrest.word hdepth
  rw [hread, chainAt_of_ends hrest]

theorem assignmentAt_of_binaryAt {depth : Nat} {cs rest : List Char} {t : Tree} (harrow : arrowBody? cs = none)
    (h : binaryAt depth 0 cs = some (t, rest)) (hrest : EndsValue rest) :
    assignmentAt (depth + 1) cs = some (t, rest) := by
  obtain ⟨token, more, hnext, htoken⟩ := hrest.token
  have hplain : token ≠ .punct "?" ∧ token ≠ .punct "=" :=
    (by decide : ∀ token ∈ separators, token ≠ .punct "?" ∧ token ≠ .punct "=") token htoken
  unfold assignmentAt
  simp only [harrow, h, Option.bind_eq_bind, Option.bind_some, hnext]
  split
  · simp_all
  · simp_all
  · rfl

/-- An operand with operators behind it is a value. -/
theorem IsOperand.operators {text tail : List Char} {t u : Tree} (h : IsOperand text t)
    (hends : ∀ rest, EndsValue rest → EndsOperand (tail ++ rest))
    (htail : ∀ rest depth, EndsValue rest → 8 * tail.length + 1 ≤ depth →
      operatorsAt depth 0 t (tail ++ rest) = some (u, rest)) : IsValue (text ++ tail) u := by
  intro rest depth hrest hdepth
  rw [List.length_append] at hdepth
  -- Three rules lie between a value and its first operand, each of them one step less deep.
  obtain ⟨depth, rfl⟩ := Nat.exists_eq_add_of_le' (show 3 ≤ depth by omega)
  have hread : unaryAt (depth + 1) (text ++ (tail ++ rest)) = some (t, tail ++ rest) :=
    h (tail ++ rest) depth (hends rest hrest) (by omega)
  have hbinary : binaryAt (depth + 2) 0 (text ++ (tail ++ rest)) = some (u, rest) := by
    simp [binaryAt, hread, htail rest (depth + 1) hrest (by omega)]
  rw [List.append_assoc]
  exact assignmentAt_of_binaryAt (arrowBody?_of_unaryAt hread) hbinary hrest

theorem IsOperand.isValue {text : List Char} {t : Tree} (h : IsOperand text t) : IsValue text t := by
  have hvalue : IsValue (text ++ []) t := h.operators (fun _ hrest => hrest.endsOperand) fun rest depth hrest hdepth => by
    obtain ⟨depth, rfl⟩ := Nat.exists_eq_add_of_le' (show 1 ≤ depth by omega)
    exact operatorsAt_of_ends hrest depth 0 t
  rwa [List.append_nil] at hvalue

theorem IsValue.expressionAt {text rest : List Char} {t : Tree} (h : IsValue text t) (depth : Nat) (hrest : EndsValue rest)
    (hcomma : take (.punct ",") rest = none) (hdepth : 8 * text.length + 5 ≤ depth) :
    expressionAt depth (text ++ rest) = some (t, rest) := by
  obtain ⟨depth, rfl⟩ := Nat.exists_eq_add_of_le' (show 1 ≤ depth by omega)
  simp [Tree.expressionAt, h rest depth hrest (by omega), hcomma]

/-- A text that is read as a value is read as a whole. -/
theorem IsValue.read {text : List Char} {t : Tree} (h : IsValue text t) : Tree.read text = some t := by
  have hread := h.expressionAt (8 * text.length + 8) endsValue_nil rfl (by omega)
  rw [List.append_nil] at hread
  simp [Tree.read, hread]

/-! ## Names and literals -/

theorem toList_ne_nil {name : String} (h : isIdentifierName name = true) : name.toList ≠ [] := by
  intro hnil
  simp [isIdentifierName, isIdentifierChars, hnil] at h

theorem isPrimary_name {name : String} (h : isIdentifierName name = true) (hallowed : name ∉ moduleReservedWords) :
    IsPrimary name.toList (.name name) := by
  refine ⟨toList_ne_nil h, fun rest depth hrest _ => ?_⟩
  have hword : ∀ word ∈ ["true", "false", "null", "function"], name ≠ word := by
    rintro word hword rfl
    exact hallowed ((by decide : ∀ word ∈ ["true", "false", "null", "function"], word ∈ moduleReservedWords) _ hword)
  simp only [List.mem_cons, List.not_mem_nil, or_false, forall_eq_or_imp, forall_eq] at hword
  unfold primaryAt
  rw [next_name h hrest]
  split
  all_goals simp_all

theorem isPrimary_string (s : String) : IsPrimary (quote s).toList (.string s) := by
  refine ⟨by simp [quote, quoteChars], fun rest depth _ _ => ?_⟩
  unfold primaryAt
  rw [next_quote]

theorem isPrimary_boolean (value : Bool) : IsPrimary (if value then "true" else "false").toList (.boolean value) := by
  refine ⟨by cases value <;> simp, fun rest depth hrest _ => ?_⟩
  unfold primaryAt
  cases value
  case false =>
    rw [next_name (by decide) hrest]
    rfl
  case true =>
    rw [next_name (by decide) hrest]
    rfl

theorem isPrimary_null : IsPrimary "null".toList .null := by
  refine ⟨by simp, fun rest depth hrest _ => ?_⟩
  unfold primaryAt
  rw [next_name (by decide) hrest]
  rfl

/-- A number is an operand that no dot may follow. -/
theorem exists_isOperand_number {cs : List Char} (h : IsDecimal cs) :
    ∃ text, next cs = some (.number text, []) ∧ IsOperand cs (.number text) := by
  obtain ⟨text, hnext⟩ := exists_next h
  refine ⟨text, by simpa using hnext [] endsValue_nil.word (by simp), fun rest depth hrest hdepth => ?_⟩
  obtain ⟨c, more, rfl, -⟩ := h.exists_head
  obtain ⟨depth, rfl⟩ := Nat.exists_eq_add_of_le' (show 1 ≤ depth by simp at hdepth; omega)
  have hprimary : primaryAt (depth + 1) (c :: more ++ rest) = some (.number text, rest) := by
    unfold primaryAt
    rw [hnext rest hrest.word hrest.dot]
  rw [unaryAt_of_primaryAt hprimary, chainAt_of_ends hrest]

/-! ## Parentheses, members and negations -/

theorem IsValue.paren {text : List Char} {t : Tree} (h : IsValue text t) : IsPrimary ('(' :: (text ++ [')'])) t := by
  refine ⟨by simp, fun rest depth _ hdepth => ?_⟩
  have hends : EndsValue (')' :: rest) := endsValue_cons (by decide) rest
  have hcomma : take (.punct ",") (')' :: rest) = none := take_of_ne (next_rightParen rest) (by decide)
  have hread := h.expressionAt depth hends hcomma (by simp at hdepth; omega)
  have happend : '(' :: (text ++ [')']) ++ rest = '(' :: (text ++ ')' :: rest) := by simp
  rw [happend]
  unfold primaryAt
  rw [next_leftParen]
  simp [hread, take_of_next (next_rightParen rest)]

/-- A dot, a bracket and a parenthesis end a word. -/
theorem endsWord_link {c : Char} (h : c ∈ ['.', '[', '(']) (rest : List Char) : EndsWord (c :: rest) := by
  simp only [List.mem_cons, List.not_mem_nil, or_false] at h
  rcases h with rfl | rfl | rfl <;> exact endsWord_cons (by decide) rest

theorem IsObject.member {text : List Char} {t : Tree} (h : IsObject text t) {name : String}
    (hname : isIdentifierName name = true) : IsObject (text ++ '.' :: name.toList) (.member t name) := by
  intro rest depth hrest hdepth
  have hlength : (text ++ '.' :: name.toList).length = text.length + name.toList.length + 1 := by simp; omega
  obtain ⟨left, hleft, hread⟩ := h ('.' :: (name.toList ++ rest)) depth (endsWord_link (by decide) _) (by omega)
  have hchain : chainAt (left + 1) t ('.' :: (name.toList ++ rest)) = chainAt left (.member t name) rest := by
    rw [chainAt, next_dot hname]
    simp [next_name hname hrest]
  obtain ⟨left, rfl⟩ := Nat.exists_eq_add_of_le' (show 1 ≤ left by omega)
  refine ⟨left, by omega, ?_⟩
  rw [List.append_assoc, List.cons_append, hread, hchain]

theorem IsObject.index {text key : List Char} {t k : Tree} (h : IsObject text t) (hkey : IsValue key k) :
    IsObject (text ++ '[' :: (key ++ [']'])) (.index t k) := by
  intro rest depth hrest hdepth
  have hlength : (text ++ '[' :: (key ++ [']'])).length = text.length + key.length + 2 := by simp; omega
  obtain ⟨left, hleft, hread⟩ := h ('[' :: (key ++ ']' :: rest)) depth (endsWord_link (by decide) _) (by omega)
  have hinner := hkey.expressionAt left (endsValue_cons (by decide) rest)
    (take_of_ne (next_rightBracket rest) (by decide)) (by omega)
  have hchain : chainAt (left + 1) t ('[' :: (key ++ ']' :: rest)) = chainAt left (.index t k) rest := by
    rw [chainAt, next_leftBracket]
    simp [hinner, take_of_next (next_rightBracket rest)]
  obtain ⟨left, rfl⟩ := Nat.exists_eq_add_of_le' (show 1 ≤ left by omega)
  refine ⟨left, by omega, ?_⟩
  have happend : text ++ '[' :: (key ++ [']']) ++ rest = text ++ '[' :: (key ++ ']' :: rest) := by simp
  rw [happend, hread, hchain]

/-- What does not start with an equals sign may be negated. -/
theorem IsOperand.not {c : Char} {text : List Char} {t : Tree} (h : IsOperand (c :: text) t) (hc : c ≠ '=') :
    IsOperand ('!' :: c :: text) (.not t) := by
  intro rest depth hrest hdepth
  obtain ⟨depth, rfl⟩ := Nat.exists_eq_add_of_le' (show 1 ≤ depth by simp at hdepth; omega)
  have hread := h rest depth hrest (by simp at hdepth ⊢; omega)
  have htake : take (.punct "!") ('!' :: c :: text ++ rest) = some (c :: text ++ rest) := take_of_next (next_not hc _)
  rw [unaryAt, htake]
  simp only [hread, Option.bind_eq_bind, Option.bind_some]
  rfl

/-! ## Blanks

A blank in front of what is read makes no difference.
-/

@[simp] theorem arrowBody?_space (cs : List Char) : arrowBody? (' ' :: cs) = arrowBody? cs := rfl

@[simp] theorem primaryAt_space (depth : Nat) (cs : List Char) : primaryAt depth (' ' :: cs) = primaryAt depth cs := by
  cases depth <;> simp [primaryAt]

@[simp] theorem unaryAt_space (depth : Nat) (cs : List Char) : unaryAt depth (' ' :: cs) = unaryAt depth cs := by
  cases depth <;> simp [unaryAt]

@[simp] theorem binaryAt_space (depth least : Nat) (cs : List Char) :
    binaryAt depth least (' ' :: cs) = binaryAt depth least cs := by
  cases depth <;> simp [binaryAt]

@[simp] theorem assignmentAt_space (depth : Nat) (cs : List Char) :
    assignmentAt depth (' ' :: cs) = assignmentAt depth cs := by
  cases depth <;> simp [assignmentAt]

@[simp] theorem expressionAt_space (depth : Nat) (cs : List Char) :
    expressionAt depth (' ' :: cs) = expressionAt depth cs := by
  cases depth <;> simp [expressionAt]

@[simp] theorem itemsAt_space (depth : Nat) (close : String) (cs : List Char) :
    itemsAt depth close (' ' :: cs) = itemsAt depth close cs := by
  cases depth <;> simp [itemsAt]

@[simp] theorem entriesAt_space (depth : Nat) (cs : List Char) : entriesAt depth (' ' :: cs) = entriesAt depth cs := by
  cases depth <;> simp [entriesAt]

@[simp] theorem parametersAt_space (depth : Nat) (cs : List Char) :
    parametersAt depth (' ' :: cs) = parametersAt depth cs := by
  cases depth <;> simp [parametersAt]

/-! ## Templates -/

/-- Behind a piece of a template, the text is read as substitutions with the pieces behind them. -/
def IsTail (text : List Char) (tail : List (Tree × String)) : Prop :=
  ∀ head rest depth, IsPiece head → 8 * (head.length + text.length) + 1 ≤ depth →
    templateAt depth (head ++ (text ++ '`' :: rest)) = some ((String.ofList head, tail), rest)

theorem isTail_nil : IsTail [] [] := by
  intro head rest depth hhead hdepth
  obtain ⟨depth, rfl⟩ := Nat.exists_eq_add_of_le' (show 1 ≤ depth by omega)
  obtain ⟨denotes, hchunk⟩ := hhead.templateChunk?_close rest
  rw [List.nil_append]
  simp [templateAt, hchunk]

theorem IsTail.cons {inner after text : List Char} {t : Tree} {tail : List (Tree × String)} (hinner : IsValue inner t)
    (hafter : IsPiece after) (h : IsTail text tail) :
    IsTail ('$' :: '{' :: (inner ++ '}' :: (after ++ text))) ((t, String.ofList after) :: tail) := by
  intro head rest depth hhead hdepth
  simp only [List.length_cons, List.length_append] at hdepth
  obtain ⟨depth, rfl⟩ := Nat.exists_eq_add_of_le' (show 1 ≤ depth by omega)
  have happend : '$' :: '{' :: (inner ++ '}' :: (after ++ text)) ++ '`' :: rest =
      '$' :: '{' :: (inner ++ '}' :: (after ++ (text ++ '`' :: rest))) := by simp
  rw [happend]
  obtain ⟨denotes, hchunk⟩ := hhead.templateChunk?_open (inner ++ '}' :: (after ++ (text ++ '`' :: rest)))
  have hread := hinner.expressionAt depth
    (endsValue_cons (by decide) (after ++ (text ++ '`' :: rest))) (take_of_ne (next_rightBrace _) (by decide)) (by omega)
  have htail := h after rest depth hafter (by omega)
  simp [templateAt, hchunk, hread, take_of_next (next_rightBrace _), htail]

theorem isPrimary_template {head text : List Char} {tail : List (Tree × String)} (hhead : IsPiece head)
    (htail : IsTail text tail) : IsPrimary ('`' :: (head ++ (text ++ ['`']))) (.template (String.ofList head) tail) := by
  refine ⟨by simp, fun rest depth _ hdepth => ?_⟩
  simp only [List.length_cons, List.length_append, List.length_nil] at hdepth
  have hread := htail head rest depth hhead (by omega)
  have hchunk : (templateChunk? (head ++ (text ++ '`' :: rest))).isSome = true := by
    obtain ⟨depth, rfl⟩ := Nat.exists_eq_add_of_le' (show 1 ≤ depth by omega)
    rw [templateAt] at hread
    obtain ⟨found, hfound, -⟩ := Option.bind_eq_some_iff.1 hread
    rw [hfound]
    rfl
  have happend : '`' :: (head ++ (text ++ ['`'])) ++ rest = '`' :: (head ++ (text ++ '`' :: rest)) := by simp
  rw [happend]
  unfold primaryAt
  rw [next_backquote hchunk]
  simp [hread]

/-! ## Lists -/

/-- The text is read as items up to what closes them. -/
def IsItems (text : List Char) (ts : List Tree) : Prop :=
  ∀ close c rest depth, (close, c) ∈ [(")", ')'), ("]", ']')] → 8 * text.length + 5 ≤ depth →
    itemsAt depth close (text ++ c :: rest) = some (ts, rest)

/-- A bracket or a parenthesis that closes, as a token and behind a value. -/
theorem next_closer {close : String} {c : Char} (h : (close, c) ∈ [(")", ')'), ("]", ']')]) (rest : List Char) :
    next (c :: rest) = some (.punct close, rest) ∧ Token.punct close ∈ closers ∧ EndsValue (c :: rest) ∧
      take (.punct ",") (c :: rest) = none := by
  simp only [List.mem_cons, Prod.mk.injEq, List.not_mem_nil, or_false] at h
  rcases h with ⟨rfl, rfl⟩ | ⟨rfl, rfl⟩
  · exact ⟨next_rightParen rest, by decide, endsValue_cons (by decide) rest, rfl⟩
  · exact ⟨next_rightBracket rest, by decide, endsValue_cons (by decide) rest, rfl⟩

theorem isItems_nil : IsItems [] [] := by
  intro close c rest depth hc hdepth
  obtain ⟨depth, rfl⟩ := Nat.exists_eq_add_of_le' (show 1 ≤ depth by omega)
  rw [List.nil_append, itemsAt, take_of_next (next_closer hc rest).1]

theorem IsValue.isItems {text : List Char} {t : Tree} (h : IsValue text t) : IsItems text [t] := by
  intro close c rest depth hc hdepth
  obtain ⟨depth, rfl⟩ := Nat.exists_eq_add_of_le' (show 1 ≤ depth by omega)
  obtain ⟨hnext, hcloser, hends, -⟩ := next_closer hc rest
  have hread := h (c :: rest) depth hends (by omega)
  simp [itemsAt, take_of_assignmentAt hread hcloser, hread, take_of_next hnext]

theorem IsItems.cons {text more : List Char} {t : Tree} {ts : List Tree} (h : IsValue text t) (hmore : IsItems more ts) :
    IsItems (text ++ ',' :: ' ' :: more) (t :: ts) := by
  intro close c rest depth hc hdepth
  simp only [List.length_append, List.length_cons] at hdepth
  obtain ⟨depth, rfl⟩ := Nat.exists_eq_add_of_le' (show 1 ≤ depth by omega)
  obtain ⟨-, hcloser, -⟩ := next_closer hc rest
  have hread := h (',' :: ' ' :: (more ++ c :: rest)) depth (endsValue_cons (by decide) _) (by omega)
  have hclose : take (.punct close) (',' :: ' ' :: (more ++ c :: rest)) = none :=
    take_of_ne (next_comma _) ((by decide : ∀ token ∈ closers, Token.punct "," ≠ token) _ hcloser)
  have hitems := hmore close c rest depth hc (by omega)
  have happend : text ++ ',' :: ' ' :: more ++ c :: rest = text ++ ',' :: ' ' :: (more ++ c :: rest) := by simp
  rw [happend]
  simp [itemsAt, take_of_assignmentAt hread hcloser, hread, hclose, take_of_next (next_comma _), hitems]

theorem IsItems.array {text : List Char} {ts : List Tree} (h : IsItems text ts) :
    IsPrimary ('[' :: (text ++ [']'])) (.array ts) := by
  refine ⟨by simp, fun rest depth _ hdepth => ?_⟩
  simp only [List.length_cons, List.length_append, List.length_nil] at hdepth
  have hitems := h "]" ']' rest depth (by decide) (by omega)
  have happend : '[' :: (text ++ [']']) ++ rest = '[' :: (text ++ ']' :: rest) := by simp
  rw [happend]
  unfold primaryAt
  rw [next_leftBracket]
  simp [hitems]

theorem IsObject.call {callee text : List Char} {t : Tree} {ts : List Tree} (h : IsObject callee t)
    (hitems : IsItems text ts) :
    IsObject (callee ++ '(' :: (text ++ [')'])) (.call t ts) := by
  intro rest depth hrest hdepth
  simp only [List.length_append, List.length_cons, List.length_nil] at hdepth ⊢
  obtain ⟨left, hleft, hread⟩ := h ('(' :: (text ++ ')' :: rest)) depth (endsWord_link (by decide) _) (by omega)
  have harguments := hitems ")" ')' rest left (by decide) (by omega)
  have hchain : chainAt (left + 1) t ('(' :: (text ++ ')' :: rest)) = chainAt left (.call t ts) rest := by
    rw [chainAt, next_leftParen]
    simp [harguments]
  obtain ⟨left, rfl⟩ := Nat.exists_eq_add_of_le' (show 1 ≤ left by omega)
  refine ⟨left, by omega, ?_⟩
  have happend : callee ++ '(' :: (text ++ [')']) ++ rest = callee ++ '(' :: (text ++ ')' :: rest) := by simp
  rw [happend, hread, hchain]

/-! ## Objects -/

/-- The text is read as the name of an entry. -/
def IsKey (text : List Char) (key : String) : Prop :=
  ∃ token, keyOf token = some key ∧ ∀ rest, next (text ++ ':' :: rest) = some (token, ':' :: rest)

theorem isKey_name {name : String} (h : isIdentifierName name = true) : IsKey name.toList name :=
  ⟨.word name false, rfl, fun rest => next_name h (endsValue_cons (by decide) rest).word⟩

theorem isKey_quote (key : String) : IsKey (quote key).toList key :=
  ⟨.string key, rfl, fun rest => next_quote key (':' :: rest)⟩

/-- The text is read as entries up to the brace that closes them. -/
def IsEntries (text : List Char) (entries : List (String × Tree)) : Prop :=
  ∀ rest depth, 8 * text.length + 5 ≤ depth → entriesAt depth (text ++ ' ' :: '}' :: rest) = some (entries, rest)

/-- The entry at the front of a text, before what ends its value. -/
theorem IsKey.entriesAt {name text rest : List Char} {key : String} {t : Tree} {depth : Nat} (hkey : IsKey name key)
    (h : IsValue text t) (hrest : EndsValue rest) (hdepth : 8 * text.length + 4 ≤ depth) :
    Tree.entriesAt (depth + 1) (name ++ ':' :: ' ' :: (text ++ rest)) =
      match take (.punct rightBrace) rest with
      | some cs => some ([(key, t)], cs)
      | none => (take (.punct ",") rest).bind fun cs =>
        (Tree.entriesAt depth cs).map fun (more, cs) => ((key, t) :: more, cs) := by
  obtain ⟨token, htoken, hnext⟩ := hkey
  have hbrace : take (.punct rightBrace) (name ++ ':' :: ' ' :: (text ++ rest)) = none := by
    refine take_of_ne (hnext _) ?_
    rintro rfl
    cases htoken
  have hread := h rest depth hrest hdepth
  rw [Tree.entriesAt, hbrace]
  simp only [hnext, htoken, Option.bind_eq_bind, Option.bind_some, take_of_next (next_colon _), assignmentAt_space, hread]
  cases take (.punct rightBrace) rest with
  | some cs => rfl
  | none =>
    cases take (.punct ",") rest with
    | none => rfl
    | some cs =>
      rw [Option.bind_some, Option.bind_some]
      cases Tree.entriesAt depth cs <;> rfl

theorem IsKey.isEntries {name text : List Char} {key : String} {t : Tree} (hkey : IsKey name key) (h : IsValue text t) :
    IsEntries (name ++ ':' :: ' ' :: text) [(key, t)] := by
  intro rest depth hdepth
  simp only [List.length_append, List.length_cons] at hdepth
  obtain ⟨depth, rfl⟩ := Nat.exists_eq_add_of_le' (show 1 ≤ depth by omega)
  have hends : EndsValue (' ' :: '}' :: rest) := (endsValue_cons (by decide) rest).blank
  have happend : name ++ ':' :: ' ' :: text ++ ' ' :: '}' :: rest = name ++ ':' :: ' ' :: (text ++ ' ' :: '}' :: rest) := by
    simp
  rw [happend, hkey.entriesAt h hends (by omega), take_space, take_of_next (next_rightBrace rest)]

theorem IsEntries.cons {name text more : List Char} {key : String} {t : Tree} {entries : List (String × Tree)}
    (hkey : IsKey name key) (h : IsValue text t) (hmore : IsEntries more entries) :
    IsEntries (name ++ ':' :: ' ' :: (text ++ ',' :: ' ' :: more)) ((key, t) :: entries) := by
  intro rest depth hdepth
  simp only [List.length_append, List.length_cons] at hdepth
  obtain ⟨depth, rfl⟩ := Nat.exists_eq_add_of_le' (show 1 ≤ depth by omega)
  have hends : EndsValue (',' :: ' ' :: (more ++ ' ' :: '}' :: rest)) := endsValue_cons (by decide) _
  have happend : name ++ ':' :: ' ' :: (text ++ ',' :: ' ' :: more) ++ ' ' :: '}' :: rest =
      name ++ ':' :: ' ' :: (text ++ ',' :: ' ' :: (more ++ ' ' :: '}' :: rest)) := by simp
  rw [happend, hkey.entriesAt h hends (by omega), take_of_ne (next_comma _) (by decide), take_of_next (next_comma _)]
  simp [hmore rest depth (by omega)]

theorem isPrimary_emptyObject : IsPrimary ['{', '}'] (.object []) := by
  refine ⟨by simp, fun rest depth _ hdepth => ?_⟩
  obtain ⟨depth, rfl⟩ := Nat.exists_eq_add_of_le' (show 1 ≤ depth by simp at hdepth; omega)
  unfold primaryAt
  rw [List.cons_append, next_leftBrace]
  simp [entriesAt, take_of_next (next_rightBrace rest)]

theorem IsEntries.object {text : List Char} {entries : List (String × Tree)} (h : IsEntries text entries) :
    IsPrimary ('{' :: ' ' :: (text ++ [' ', '}'])) (.object entries) := by
  refine ⟨by simp, fun rest depth _ hdepth => ?_⟩
  simp only [List.length_cons, List.length_append, List.length_nil] at hdepth
  have hentries := h rest depth (by omega)
  have happend : '{' :: ' ' :: (text ++ [' ', '}']) ++ rest = '{' :: ' ' :: (text ++ ' ' :: '}' :: rest) := by simp
  rw [happend]
  unfold primaryAt
  rw [next_leftBrace]
  simp [hentries]

/-! ## Functions -/

/-- The text starts with a bracket or with a name. -/
def OpensGroup (text : List Char) : Prop :=
  ∃ c more, text = c :: more ∧ (c = '[' ∨ isIdentifierStart c = true)

theorem OpensGroup.take_leftBrace {text : List Char} (h : OpensGroup text) (rest : List Char) :
    take (.punct leftBrace) (text ++ rest) = none := by
  obtain ⟨c, more, rfl, rfl | hc⟩ := h
  · exact take_of_ne (next_leftBracket (more ++ rest)) (by decide)
  · unfold take
    rw [List.cons_append, next_word hc]
    split
    · rename_i found more' hnext
      split at hnext
      · cases hnext
      · obtain ⟨rfl, -⟩ := Prod.mk.inj (Option.some.inj hnext)
        simp
    · rfl

theorem OpensGroup.onNewLine {text : List Char} (h : OpensGroup text) (rest : List Char) :
    (lexeme (' ' :: (text ++ rest))).onNewLine = false := by
  obtain ⟨c, more, rfl, rfl | hc⟩ := h
  · rfl
  · have hgap : skipGap .code false (' ' :: c :: (more ++ rest)) = some (false, c :: (more ++ rest)) :=
      skipGap_start hc (more ++ rest)
    rw [List.cons_append, lexeme, hgap]

/-- The text is read as parameters up to the parenthesis that closes them. -/
def IsParameters (text : List Char) (words : List String) : Prop :=
  ∀ rest depth, 8 * text.length ≤ depth → parametersAt depth (text ++ ')' :: rest) = some (words, rest)

theorem isParameters_single {name : String} (h : isIdentifierName name = true) (hallowed : name ∉ moduleReservedWords) :
    IsParameters name.toList [name] := by
  intro rest depth hdepth
  have hpos := List.length_pos_iff.2 (toList_ne_nil h)
  obtain ⟨depth, rfl⟩ := Nat.exists_eq_add_of_le' (show 1 ≤ depth by omega)
  unfold parametersAt
  rw [next_name h (endsValue_cons (by decide) rest).word]
  simp [hallowed, take_of_next (next_rightParen rest)]

theorem IsParameters.cons {name : String} {more : List Char} {words : List String} (h : isIdentifierName name = true)
    (hallowed : name ∉ moduleReservedWords) (hmore : IsParameters more words) :
    IsParameters (name.toList ++ ',' :: ' ' :: more) (name :: words) := by
  intro rest depth hdepth
  simp only [List.length_append, List.length_cons] at hdepth
  obtain ⟨depth, rfl⟩ := Nat.exists_eq_add_of_le' (show 1 ≤ depth by omega)
  have happend : name.toList ++ ',' :: ' ' :: more ++ ')' :: rest =
      name.toList ++ ',' :: ' ' :: (more ++ ')' :: rest) := by simp
  have hclose : take (.punct ")") (',' :: ' ' :: (more ++ ')' :: rest)) = none := take_of_ne (next_comma _) (by decide)
  rw [happend]
  unfold parametersAt
  rw [next_name h (endsValue_cons (by decide) _).word]
  simp [hallowed, hclose, take_of_next (next_comma _), hmore rest depth (by omega)]

/-- A function that only returns a value. -/
theorem IsParameters.function {parameters body : List Char} {words : List String} {t : Tree}
    (hparameters : IsParameters parameters words) (hopens : OpensGroup body) (h : IsValue body t) :
    IsPrimary ("function (".toList ++ parameters ++ ") \x7b return ".toList ++ body ++ "; \x7d".toList)
      (.function words t) := by
  refine ⟨by simp, fun rest depth _ hdepth => ?_⟩
  have hreturn (cs : List Char) : take (.word "return" false) ("return".toList ++ ' ' :: cs) = some (' ' :: cs) :=
    take_of_next (next_name (by decide) (endsWord_cons (by decide) _))
  have hfunction (cs : List Char) : next ("function".toList ++ ' ' :: cs) = some (.word "function" false, ' ' :: cs) :=
    next_name (by decide) (endsWord_cons (by decide) _)
  have hends : EndsValue (';' :: ' ' :: '}' :: rest) := endsValue_cons (by decide) _
  have hwords := hparameters (' ' :: '{' :: ' ' :: ("return".toList ++ ' ' :: (body ++ ';' :: ' ' :: '}' :: rest))) depth
    (by simp at hdepth; omega)
  have hbody := h.expressionAt depth hends (take_of_ne (next_semicolon _) (by decide)) (by simp at hdepth; omega)
  have happend : "function (".toList ++ parameters ++ ") \x7b return ".toList ++ body ++ "; \x7d".toList ++ rest =
      "function".toList ++ ' ' :: '(' :: (parameters ++ ')' :: (' ' :: '{' :: ' ' ::
        ("return".toList ++ ' ' :: (body ++ ';' :: ' ' :: '}' :: rest)))) := by simp
  rw [happend]
  unfold primaryAt
  rw [hfunction]
  simp only [take_space, take_of_next (next_leftParen _), Option.bind_eq_bind, Option.bind_some, hwords,
    take_of_next (next_leftBrace _), hreturn, hopens.onNewLine, expressionAt_space, hbody, take_of_next (next_semicolon _),
    take_of_next (next_rightBrace _)]
  rfl

/-- An arrow function with a value that is not taken for a block. -/
theorem IsValue.arrow {body : List Char} {t : Tree} (h : IsValue body t) (hopens : OpensGroup body) :
    IsValue ("() => ".toList ++ body) (.arrow t) := by
  intro rest depth hrest hdepth
  obtain ⟨depth, rfl⟩ := Nat.exists_eq_add_of_le' (show 1 ≤ depth by omega)
  have happend : "() => ".toList ++ body ++ rest = '(' :: ')' :: ' ' :: '=' :: '>' :: ' ' :: (body ++ rest) := by simp
  have harrow : arrowBody? ('(' :: ')' :: ' ' :: '=' :: '>' :: ' ' :: (body ++ rest)) = some (' ' :: (body ++ rest)) := by
    simp [arrowBody?, take_of_next (next_leftParen _), take_of_next (next_rightParen _),
      take_of_next (next_operator _).2.2.2.1, hopens.take_leftBrace rest]
  rw [happend]
  unfold assignmentAt
  simp only [harrow, assignmentAt_space, h rest depth hrest (by simp at hdepth; omega), Option.bind_eq_bind, Option.bind_some]
  rfl

/-! ## Operators -/

/-- An operand is read up to what ends it, operators that bind less included. -/
theorem IsOperand.binaryAt {text rest : List Char} {t : Tree} (h : IsOperand text t) {depth least : Nat}
    (hrest : EndsOperand rest) (hstop : operatorsAt (depth + 1) least t rest = some (t, rest))
    (hdepth : 8 * text.length ≤ depth) : Tree.binaryAt (depth + 2) least (text ++ rest) = some (t, rest) := by
  simp [Tree.binaryAt, h rest depth hrest hdepth, hstop]

/-- What stands before `?` or `=` is read up to there. -/
theorem IsOperand.before {text cs more : List Char} {t : Tree} (h : IsOperand text t) {token : Token}
    (hnext : next (' ' :: cs) = some (token, more)) (hlinks : token ∉ links) (hoperator : operator? token = none)
    {depth : Nat} (hdepth : 8 * text.length ≤ depth) :
    arrowBody? (text ++ ' ' :: cs) = none ∧ Tree.binaryAt (depth + 2) 0 (text ++ ' ' :: cs) = some (t, ' ' :: cs) := by
  have hends : EndsOperand (' ' :: cs) := endsOperand_operator hnext hlinks
  exact ⟨arrowBody?_of_unaryAt (h _ depth hends hdepth),
    h.binaryAt hends (operatorsAt_of_next hnext hoperator depth 0 t) hdepth⟩

theorem IsOperand.conditional {test consequent alternate : List Char} {t u v : Tree} (htest : IsOperand test t)
    (hconsequent : IsValue consequent u) (halternate : IsValue alternate v) :
    IsValue (test ++ " ? ".toList ++ consequent ++ " : ".toList ++ alternate) (.conditional t u v) := by
  intro rest depth hrest hdepth
  have hlength : 8 * (test.length + consequent.length + alternate.length) + 28 ≤ depth := by
    simp at hdepth
    omega
  obtain ⟨depth, rfl⟩ := Nat.exists_eq_add_of_le' (show 3 ≤ depth by omega)
  have happend : test ++ " ? ".toList ++ consequent ++ " : ".toList ++ alternate ++ rest =
      test ++ ' ' :: '?' :: ' ' :: (consequent ++ ' ' :: ':' :: ' ' :: (alternate ++ rest)) := by simp
  generalize htail : consequent ++ ' ' :: ':' :: ' ' :: (alternate ++ rest) = tail at happend
  have hquestion : next (' ' :: '?' :: ' ' :: tail) = some (.punct "?", ' ' :: tail) := (next_operator tail).1
  obtain ⟨harrow, hbinary⟩ := htest.before hquestion (by decide) rfl (show 8 * test.length ≤ depth by omega)
  have hleft : assignmentAt (depth + 2) tail = some (u, ' ' :: ':' :: ' ' :: (alternate ++ rest)) := by
    rw [← htail]
    exact hconsequent _ _ (endsValue_cons (by decide) _).blank (by omega)
  have hright : assignmentAt (depth + 2) (alternate ++ rest) = some (v, rest) := halternate rest _ hrest (by omega)
  rw [happend]
  unfold assignmentAt
  simp only [harrow, hbinary, Option.bind_eq_bind, Option.bind_some, hquestion, assignmentAt_space, hleft, take_space,
    take_of_next (next_colon _), hright]
  rfl

theorem IsOperand.assign {target value : List Char} {t u : Tree} (htarget : IsOperand target t)
    (hplace : t.isPlace = true) (hvalue : IsValue value u) :
    IsValue (target ++ " = ".toList ++ value) (.assign t u) := by
  intro rest depth hrest hdepth
  have hlength : 8 * (target.length + value.length) + 28 ≤ depth := by
    simp at hdepth
    omega
  obtain ⟨depth, rfl⟩ := Nat.exists_eq_add_of_le' (show 3 ≤ depth by omega)
  have happend : target ++ " = ".toList ++ value ++ rest = target ++ ' ' :: '=' :: ' ' :: (value ++ rest) := by simp
  have hequals : next (' ' :: '=' :: ' ' :: (value ++ rest)) = some (.punct "=", ' ' :: (value ++ rest)) :=
    (next_operator _).2.2.1
  obtain ⟨harrow, hbinary⟩ := htarget.before hequals (by decide) rfl (show 8 * target.length ≤ depth by omega)
  have hright : assignmentAt (depth + 2) (value ++ rest) = some (u, rest) := hvalue rest _ hrest (by omega)
  rw [happend]
  unfold assignmentAt
  simp only [harrow, hbinary, Option.bind_eq_bind, Option.bind_some, hequals, assignmentAt_space, hplace, if_true, hright]
  rfl

/-- An operator takes what follows it up to the next operator of its level. -/
theorem operatorsAt_step {cs rest : List Char} {operator : String} {level depth : Nat} {left right : Tree}
    (hnext : next cs = some (.punct operator, rest)) (hlevel : level? operator = some level) {after : List Char}
    (hright : binaryAt depth (level + 1) rest = some (right, after)) :
    operatorsAt (depth + 1) 0 left cs = operatorsAt depth 0 (.binary operator left right) after := by
  simp [operatorsAt, hnext, operator?, hlevel, hright]

/-- An operator that binds less than what is read ends it. -/
theorem operatorsAt_of_less {cs rest : List Char} {operator : String} {level least : Nat}
    (hnext : next cs = some (.punct operator, rest)) (hlevel : level? operator = some level) (h : level < least)
    (depth : Nat) (left : Tree) : operatorsAt (depth + 1) least left cs = some (left, cs) := by
  have hnot : ¬ least ≤ level := by omega
  simp [operatorsAt, hnext, operator?, hlevel, hnot]

theorem IsOperand.or {left right : List Char} {t u : Tree} (hleft : IsOperand left t) (hright : IsOperand right u) :
    IsValue (left ++ " || ".toList ++ right) (.binary "||" t u) := by
  have hnext (cs : List Char) : next (' ' :: '|' :: '|' :: ' ' :: cs) = some (.punct "||", ' ' :: cs) :=
    (next_operator cs).2.2.2.2
  have happend (rest : List Char) : " || ".toList ++ right ++ rest = ' ' :: '|' :: '|' :: ' ' :: (right ++ rest) := by simp
  rw [List.append_assoc]
  refine hleft.operators (fun rest hrest => ?_) fun rest depth hrest hdepth => ?_
  · rw [happend]
    exact endsOperand_operator (hnext _) (by decide)
  · have hlength : 8 * right.length + 33 ≤ depth := by
      simp at hdepth
      omega
    obtain ⟨depth, rfl⟩ := Nat.exists_eq_add_of_le' (show 3 ≤ depth by omega)
    have hbinary : Tree.binaryAt (depth + 2) 2 (' ' :: (right ++ rest)) = some (u, rest) := by
      rw [binaryAt_space]
      exact hright.binaryAt hrest.endsOperand (operatorsAt_of_ends hrest depth 2 u) (by omega)
    rw [happend, operatorsAt_step (hnext _) rfl hbinary, operatorsAt_of_ends hrest]

/-- Operands with plus signs in front of them. -/
def plusText (operands : List (List Char × Tree)) : List Char :=
  operands.flatMap fun operand => " + ".toList ++ operand.1

/-- Operands with plus signs between them are added from the left to the right. -/
theorem IsOperand.sum {first : List Char} {t : Tree} {operands : List (List Char × Tree)} (hfirst : IsOperand first t)
    (h : ∀ operand ∈ operands, IsOperand operand.1 operand.2) :
    IsValue (first ++ plusText operands) (operands.foldl (fun left operand => .binary "+" left operand.2) t) := by
  have hnext (cs : List Char) : next (' ' :: '+' :: ' ' :: cs) = some (.punct "+", ' ' :: cs) := (next_operator cs).2.1
  have happend (operand : List Char × Tree) (more : List (List Char × Tree)) (rest : List Char) :
      plusText (operand :: more) ++ rest = ' ' :: '+' :: ' ' :: (operand.1 ++ (plusText more ++ rest)) := by
    simp [plusText]
  have hends (operands : List (List Char × Tree)) (rest : List Char) (hrest : EndsValue rest) :
      EndsOperand (plusText operands ++ rest) := by
    cases operands with
    | nil => exact hrest.endsOperand
    | cons operand more =>
      rw [happend]
      exact endsOperand_operator (hnext _) (by decide)
  refine hfirst.operators (hends operands) fun rest depth hrest hdepth => ?_
  -- By induction on the operands, with all that stands to the left of them as one tree.
  clear hfirst
  induction operands generalizing t depth with
  | nil =>
    obtain ⟨depth, rfl⟩ := Nat.exists_eq_add_of_le' (show 1 ≤ depth by omega)
    exact operatorsAt_of_ends hrest depth 0 t
  | cons operand more ih =>
    obtain ⟨hoperand, hmore⟩ := List.forall_mem_cons.1 h
    have hlength : 8 * (operand.1.length + (plusText more).length) + 25 ≤ depth := by
      have := congrArg List.length (happend operand more [])
      simp at this
      omega
    obtain ⟨depth, rfl⟩ := Nat.exists_eq_add_of_le' (show 3 ≤ depth by omega)
    -- The next plus sign does not belong to the operand: it binds less than what is read behind a plus sign.
    have hstop : operatorsAt (depth + 1) 10 operand.2 (plusText more ++ rest) =
        some (operand.2, plusText more ++ rest) := by
      cases more with
      | nil => exact operatorsAt_of_ends hrest _ _ _
      | cons operand' more =>
        rw [happend]
        exact operatorsAt_of_less (hnext _) rfl (by decide) _ _
    have hbinary : Tree.binaryAt (depth + 2) 10 (' ' :: (operand.1 ++ (plusText more ++ rest))) =
        some (operand.2, plusText more ++ rest) := by
      rw [binaryAt_space]
      exact hoperand.binaryAt (hends more rest hrest) hstop (by omega)
    rw [happend, operatorsAt_step (hnext _) rfl hbinary]
    exact ih hmore (depth + 2) (by omega)

end TemplateCompiler.Script.Tree
