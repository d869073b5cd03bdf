import Mathlib.Data.List.Chain
import Mathlib.Data.List.Forall2
import Mathlib.Data.List.TakeWhile
import TemplateCompiler.Binding.Part
import TemplateCompiler.Proofs.Binding.GroupEnd
import TemplateCompiler.Proofs.Markup.Cursor
/-!
# Text in parts

A text is cut into runs without a brace and groups around the code of a binding. `IsSplit` says how the parts of a text
are written in it, `FailsAt` where a text has a brace that starts no binding, and `splitText` finds the one or the
other (`splitFrom_eq_ok_iff`, `splitFrom_eq_error_iff`). `cutFrom` takes the same parts out of a text by their offsets,
as slices of its bytes, and no slice starts or ends inside a character (`cutFrom_eq`).
-/

namespace TemplateCompiler.Binding

open TemplateCompiler.Text

/-! ## Groups at the front of a text -/

/-- Code between braces. -/
def braced (code : List Char) : List Char :=
  '{' :: (code ++ ['}'])

@[simp] theorem groupCode_braced (code : List Char) : groupCode (braced code) = code := by
  simp [groupCode, braced]

theorem byteLength_braced (code : List Char) : byteLength (braced code) = byteLength code + 2 := by
  have hopen : '{'.utf8Size = 1 := by decide
  have hclose : '}'.utf8Size = 1 := by decide
  simp only [braced, byteLength_cons, byteLength_append, byteLength_nil, hopen, hclose]
  omega

theorem utf8_brace (cs : List Char) : utf8 ('{' :: cs) = byte '{' :: utf8 cs := by
  rw [utf8_cons, utf8EncodeChar_ascii (by decide)]
  rfl

/-- A group is code between braces. -/
theorem exists_eq_braced {group : List Char} (h : IsGroup (utf8 group)) : ∃ code, group = braced code := by
  obtain ⟨items, hitems⟩ : ∃ items, utf8 group = byte '{' :: (items ++ [byte '}']) := by
    generalize utf8 group = bytes at h
    obtain @⟨items, -⟩ := h
    exact ⟨items, rfl⟩
  have hitems : utf8 group = byte '{' :: items ++ byte '}' :: [] := hitems
  obtain ⟨before, after, rfl, hbefore, hafter⟩ := exists_of_utf8_eq (by decide) hitems
  have hbefore : utf8 before = [] ++ byte '{' :: items := hbefore
  obtain ⟨before', code, rfl, hbefore', -⟩ := exists_of_utf8_eq (by decide) hbefore
  have hnil {cs : List Char} (hcs : utf8 cs = []) : cs = [] := by
    cases cs with
    | nil => rfl
    | cons c cs => simp at hcs
  obtain rfl := hnil hafter
  obtain rfl := hnil hbefore'
  exact ⟨code, rfl⟩

theorem group?_brace (after : List Char) :
    group? ('{' :: after) = (closeGroup? .opened after).map fun p => ('{' :: p.1, p.2) :=
  rfl

/-- The group at the front of a text is the one that the grammar derives there. -/
theorem group?_eq_some_iff {after group rest : List Char} :
    group? ('{' :: after) = some (group, rest) ↔ '{' :: after = group ++ rest ∧ IsGroup (utf8 group) := by
  have hopened := closeGroup?_opened after
  constructor
  · intro h
    rw [group?_brace] at h
    obtain ⟨⟨more, rest⟩, hclose, heq⟩ := Option.map_eq_some_iff.1 h
    obtain ⟨rfl, rfl⟩ := Prod.mk.inj heq
    have hcloses := ((hopened _).1 ⟨more, rest, hclose, rfl⟩).1
    exact ⟨congrArg _ (closeGroup?_append hclose).1, isGroup_iff.2 ⟨utf8 more, utf8_brace more, hcloses⟩⟩
  · rintro ⟨hsplit, hgroup⟩
    obtain ⟨more, hmore, hcloses⟩ := isGroup_iff.1 hgroup
    obtain ⟨code, rfl⟩ := exists_eq_braced hgroup
    rw [braced, List.cons_append] at hsplit
    obtain rfl := (List.cons.inj hsplit).2
    rw [braced, utf8_brace] at hmore
    obtain rfl := (List.cons.inj hmore).2
    have hprefix : utf8 (code ++ ['}']) <+: utf8 (code ++ ['}'] ++ rest) := by
      rw [utf8_append _ rest]
      exact List.prefix_append _ _
    obtain ⟨found, rest', hclose, hfound⟩ := (hopened _).2 ⟨hcloses, hprefix⟩
    have hlength : byteLength found = byteLength (code ++ ['}']) := by rw [← length_utf8, hfound, length_utf8]
    obtain ⟨rfl, rfl⟩ := Markup.append_inj_byteLength (closeGroup?_append hclose).1.symm hlength
    rw [group?_brace, hclose]
    rfl

theorem group?_eq_none_iff {after : List Char} :
    group? ('{' :: after) = none ↔ ∀ front, front <+: utf8 ('{' :: after) → ¬ IsGroup front := by
  have hopened := closeGroup?_opened after
  rw [group?_brace, Option.map_eq_none_iff, utf8_brace]
  constructor
  · intro hnone front hfront hgroup
    obtain ⟨more, rfl, hcloses⟩ := isGroup_iff.1 hgroup
    obtain ⟨found, rest, hclose, -⟩ := (hopened more).2 ⟨hcloses, (List.cons_prefix_cons.1 hfront).2⟩
    rw [hnone] at hclose
    cases hclose
  · intro hnever
    rw [Option.eq_none_iff_forall_ne_some]
    rintro ⟨group, rest⟩ hclose
    obtain ⟨hcloses, hprefix⟩ := (hopened _).1 ⟨group, rest, hclose, rfl⟩
    exact hnever _ ((List.prefix_cons_inj _).2 hprefix) (isGroup_iff.2 ⟨_, rfl, hcloses⟩)

/-! ## One cut -/

theorem takeWhile_run {run : List Char} (h : '{' ∉ run) (after : List Char) :
    (run ++ '{' :: after).takeWhile (· != '{') = run ∧ (run ++ '{' :: after).dropWhile (· != '{') = '{' :: after := by
  have hne : ∀ c ∈ run, (c != '{') = true := fun c hc => by
    rw [bne_iff_ne]
    rintro rfl
    exact h hc
  constructor
  · rw [List.takeWhile_append_of_pos hne]
    simp
  · rw [List.dropWhile_append_of_pos hne]
    simp

theorem splitFrom_plain {cs : List Char} (h : '{' ∉ cs) (offset : Nat) : splitFrom offset cs = .ok (literalParts cs) := by
  have hne : ∀ c ∈ cs, (c != '{') = true := fun c hc => by
    rw [bne_iff_ne]
    rintro rfl
    exact h hc
  have htake : cs.takeWhile (· != '{') = cs := List.takeWhile_eq_self_iff.2 hne
  have hdrop : cs.dropWhile (· != '{') = [] := List.dropWhile_eq_nil_iff.2 hne
  unfold splitFrom
  dsimp only
  split
  · rw [htake]
  · rename_i heq
    rw [hdrop] at heq
    cases heq

/-- What the parts are from a brace on, if `more` are those behind its group. -/
def splitAtBrace (brace : Nat) (run after : List Char)
    (more : Nat → List Char → Except (Nat × TextError) (List TextPart)) : Except (Nat × TextError) (List TextPart) :=
  match group? ('{' :: after) with
  | none => .error (brace, .unterminated)
  | some (group, rest) =>
    match readBinding (groupCode group) with
    | .error error => .error (brace, .binding error)
    | .ok expr => (more (brace + byteLength group) rest).map fun parts => literalParts run ++ .expression expr :: parts

theorem splitFrom_brace {run : List Char} (h : '{' ∉ run) (after : List Char) (offset : Nat) :
    splitFrom offset (run ++ '{' :: after) = splitAtBrace (offset + byteLength run) run after splitFrom := by
  obtain ⟨htake, hdrop⟩ := takeWhile_run h after
  rw [splitFrom, htake]
  split
  · rename_i heq
    rw [hdrop] at heq
    cases heq
  · rename_i c inside heq
    rw [hdrop] at heq
    obtain ⟨rfl, rfl⟩ := List.cons.inj heq
    unfold splitAtBrace
    split
    · rename_i hgroup
      rw [hgroup]
    · rename_i group rest hgroup
      rw [hgroup]
      dsimp only
      cases readBinding (groupCode group) with
      | error error => rfl
      | ok expr =>
        dsimp only
        cases splitFrom (offset + byteLength run + byteLength group) rest <;> rfl

/-- A text has no brace, or a run without one and then a brace. -/
theorem plain_or_brace (cs : List Char) : '{' ∉ cs ∨ ∃ run after, '{' ∉ run ∧ cs = run ++ '{' :: after := by
  by_cases h : '{' ∈ cs
  · obtain ⟨run, after, hsplit, hrun⟩ := List.eq_append_cons_of_mem h
    exact .inr ⟨run, after, hrun, hsplit⟩
  · exact .inl h

/-- Why no binding starts with the brace before `after`: no group does, or its code is refused. -/
inductive IsFault (after : List Char) : TextError → Prop where
  | unterminated (h : ∀ front, front <+: utf8 ('{' :: after) → ¬ IsGroup front) : IsFault after .unterminated
  | refused {code rest : List Char} {error : BindingError} (hsplit : '{' :: after = braced code ++ rest)
    (hgroup : IsGroup (utf8 (braced code))) (hread : readBinding code = .error error) : IsFault after (.binding error)

/-- A binding starts with the brace before `after`: a group around the code of an expression. -/
structure IsBindingAt (after code rest : List Char) (expr : Expr) : Prop where
  split : '{' :: after = braced code ++ rest
  group : IsGroup (utf8 (braced code))
  read : readBinding code = .ok expr

theorem fault_or_binding (after : List Char) :
    (∃ error, IsFault after error) ∨ ∃ code rest expr, IsBindingAt after code rest expr := by
  cases hgroup : group? ('{' :: after) with
  | none => exact .inl ⟨_, .unterminated (group?_eq_none_iff.1 hgroup)⟩
  | some found =>
    obtain ⟨group, rest⟩ := found
    obtain ⟨hsplit, hgroup⟩ := group?_eq_some_iff.1 hgroup
    obtain ⟨code, rfl⟩ := exists_eq_braced hgroup
    cases hread : readBinding code with
    | error error => exact .inl ⟨_, .refused hsplit hgroup hread⟩
    | ok expr => exact .inr ⟨code, rest, expr, hsplit, hgroup, hread⟩

section

variable {after code rest run : List Char} {expr : Expr} {error : TextError}
  {more : Nat → List Char → Except (Nat × TextError) (List TextPart)}

theorem IsFault.splitAtBrace_eq (h : IsFault after error) (brace : Nat) :
    splitAtBrace brace run after more = .error (brace, error) := by
  unfold splitAtBrace
  cases h with
  | unterminated h => rw [group?_eq_none_iff.2 h]
  | refused hsplit hgroup hread => simp [group?_eq_some_iff.2 ⟨hsplit, hgroup⟩, hread]

theorem IsBindingAt.splitAtBrace_eq (h : IsBindingAt after code rest expr) (brace : Nat) :
    splitAtBrace brace run after more =
      (more (brace + byteLength (braced code)) rest).map fun parts => literalParts run ++ .expression expr :: parts := by
  unfold splitAtBrace
  simp [group?_eq_some_iff.2 ⟨h.split, h.group⟩, h.read]

end

/-! ## All cuts -/

/-- The parts of a text, from the first cut to the last. -/
inductive Splits : List TextPart → List Char → Prop where
  | plain {run : List Char} (h : '{' ∉ run) : Splits (literalParts run) run
  | binding {run after code rest : List Char} {expr : Expr} {parts : List TextPart} (hrun : '{' ∉ run)
    (h : IsBindingAt after code rest expr) (hrest : Splits parts rest) :
    Splits (literalParts run ++ .expression expr :: parts) (run ++ '{' :: after)

/-- The text has a brace that starts no binding behind the parts of what stands before it. -/
structure StopsAt (text before after : List Char) (error : TextError) : Prop where
  split : text = before ++ '{' :: after
  parts : ∃ parts, Splits parts before
  fault : IsFault after error

theorem IsBindingAt.length_lt {after code rest : List Char} {expr : Expr} (h : IsBindingAt after code rest expr) :
    rest.length < after.length + 1 := by
  have hlength := congrArg List.length h.split
  simp only [braced, List.length_cons, List.length_append] at hlength
  omega

/-- What `splitFrom` finds is in the text. -/
theorem splitFrom_found (cs : List Char) (offset : Nat) :
    match splitFrom offset cs with
    | .ok parts => Splits parts cs
    | .error (brace, error) => ∃ before after, StopsAt cs before after error ∧ brace = offset + byteLength before := by
  induction hn : cs.length using Nat.strongRecOn generalizing cs offset with
  | ind n ih =>
    rcases plain_or_brace cs with hplain | ⟨run, after, hrun, rfl⟩
    · rw [splitFrom_plain hplain]
      exact .plain hplain
    rw [splitFrom_brace hrun]
    rcases fault_or_binding after with ⟨error, hfault⟩ | ⟨code, rest, expr, hbinding⟩
    · rw [hfault.splitAtBrace_eq]
      exact ⟨run, after, ⟨rfl, ⟨_, .plain hrun⟩, hfault⟩, rfl⟩
    · rw [hbinding.splitAtBrace_eq]
      have hlt : rest.length < n := by
        have := hbinding.length_lt
        rw [← hn, List.length_append, List.length_cons]
        omega
      have hrest := ih _ hlt rest (offset + byteLength run + byteLength (braced code)) rfl
      cases hsplit : splitFrom (offset + byteLength run + byteLength (braced code)) rest with
      | ok parts =>
        rw [hsplit] at hrest
        exact .binding hrun hbinding hrest
      | error found =>
        rw [hsplit] at hrest
        obtain ⟨before, behind, ⟨rfl, ⟨parts, hparts⟩, hfault⟩, hbrace⟩ := hrest
        have hbefore : '{' :: (code ++ '}' :: before) = braced code ++ before := by simp [braced]
        refine ⟨run ++ '{' :: (code ++ '}' :: before), behind, ⟨?_, ?_, hfault⟩, ?_⟩
        · rw [hbinding.split]
          simp [braced]
        · exact ⟨_, .binding hrun ⟨hbefore, hbinding.group, hbinding.read⟩ hparts⟩
        · rw [hbrace, hbefore, byteLength_append, byteLength_append]
          omega

/-- A text that is split is cut as it is, and so is the text before a brace that starts no binding. -/
theorem Splits.splitFrom_eq {parts : List TextPart} {cs : List Char} (h : Splits parts cs) (offset : Nat) :
    splitFrom offset cs = .ok parts ∧ ∀ after error, IsFault after error →
      splitFrom offset (cs ++ '{' :: after) = .error (offset + byteLength cs, error) := by
  induction h generalizing offset with
  | plain hplain =>
    refine ⟨splitFrom_plain hplain offset, fun after error hfault => ?_⟩
    rw [splitFrom_brace hplain, hfault.splitAtBrace_eq]
  | @binding run after code rest expr parts hrun hbinding _ ih =>
    obtain ⟨hok, herror⟩ := ih (offset + byteLength run + byteLength (braced code))
    constructor
    · rw [splitFrom_brace hrun, hbinding.splitAtBrace_eq, hok]
      rfl
    · intro behind error hfault
      have hbehind : IsBindingAt (after ++ '{' :: behind) code (rest ++ '{' :: behind) expr :=
        ⟨by rw [← List.append_assoc, ← hbinding.split]; rfl, hbinding.group, hbinding.read⟩
      rw [List.append_assoc, List.cons_append, splitFrom_brace hrun, hbehind.splitAtBrace_eq, herror behind error hfault,
        hbinding.split]
      simp only [byteLength_append, ← Nat.add_assoc]
      rfl

/-! ## Parts and the pieces they are written as -/

/-- A part of a text is written as the piece: a run without a brace, or a group around the code of the expression. -/
inductive IsWritten : TextPart → List Char → Prop where
  | literal {run : List Char} (hne : run ≠ []) (h : '{' ∉ run) : IsWritten (.literal (String.ofList run)) run
  | expression {code : List Char} {expr : Expr} (hgroup : IsGroup (utf8 (braced code)))
    (hread : readBinding code = .ok expr) : IsWritten (.expression expr) (braced code)

/-- The text is what its parts are written as, one after the other, and no two literal ones stand side by side. -/
def IsSplit (text : List Char) (parts : List TextPart) : Prop :=
  (∃ pieces, List.Forall₂ IsWritten parts pieces ∧ text = pieces.flatten) ∧
    parts.IsChain fun a b => a.isExpression = true ∨ b.isExpression = true

theorem isSplit_run {run rest : List Char} {parts : List TextPart} (hrun : '{' ∉ run) (h : IsSplit rest parts)
    (hhead : ∀ part ∈ parts.head?, part.isExpression = true) : IsSplit (run ++ rest) (literalParts run ++ parts) := by
  obtain ⟨⟨pieces, hwritten, rfl⟩, hchain⟩ := h
  cases run with
  | nil => exact ⟨⟨pieces, hwritten, rfl⟩, hchain⟩
  | cons c run =>
    refine ⟨⟨(c :: run) :: pieces, .cons (.literal (by simp) hrun) hwritten, by simp⟩, ?_⟩
    exact List.isChain_cons.2 ⟨fun part hpart => .inr (hhead part hpart), hchain⟩

theorem IsBindingAt.isSplit {after code rest : List Char} {expr : Expr} {parts : List TextPart}
    (hbinding : IsBindingAt after code rest expr) (h : IsSplit rest parts) :
    IsSplit ('{' :: after) (.expression expr :: parts) := by
  obtain ⟨⟨pieces, hwritten, rfl⟩, hchain⟩ := h
  refine ⟨⟨braced code :: pieces, .cons (.expression hbinding.group hbinding.read) hwritten, ?_⟩, ?_⟩
  · rw [hbinding.split, List.flatten_cons]
  · exact List.isChain_cons.2 ⟨fun part _ => .inl rfl, hchain⟩

theorem Splits.isSplit {parts : List TextPart} {cs : List Char} (h : Splits parts cs) : IsSplit cs parts := by
  induction h with
  | @plain run hplain =>
    have hnil : IsSplit [] [] := ⟨⟨[], .nil, rfl⟩, .nil⟩
    simpa using isSplit_run hplain hnil (by simp)
  | binding hrun hbinding _ ih => exact isSplit_run hrun (hbinding.isSplit ih) (by simp [TextPart.isExpression])

/-- A run in front of a text that is split, where no literal part stands behind it. -/
theorem IsSplit.splits {parts : List TextPart} {rest run : List Char} (h : IsSplit rest parts) (hrun : '{' ∉ run)
    (hhead : run ≠ [] → ∀ part ∈ parts.head?, part.isExpression = true) :
    Splits (literalParts run ++ parts) (run ++ rest) := by
  obtain ⟨⟨pieces, hwritten, rfl⟩, hchain⟩ := h
  induction hwritten generalizing run with
  | nil => simpa using Splits.plain hrun
  | @cons part piece parts pieces hpart hparts ih =>
    obtain ⟨hbehind, hmore⟩ := List.isChain_cons.1 hchain
    cases hpart with
    | literal hne hpiece =>
      -- The run is the part itself, so nothing may stand before it.
      obtain rfl : run = [] := by
        by_contra hrun
        exact absurd (hhead hrun _ rfl) (by simp [TextPart.isExpression])
      have hfirst : literalParts piece = [.literal (String.ofList piece)] := by simp [literalParts, hne]
      have hnext : ∀ part ∈ parts.head?, part.isExpression = true := fun part hpart =>
        (hbehind part hpart).resolve_left (by simp [TextPart.isExpression])
      have hsplits := ih hpiece (fun _ => hnext) hmore
      rw [hfirst] at hsplits
      exact hsplits
    | @expression code expr hgroup hread =>
      have hrest := ih List.not_mem_nil (by simp) hmore
      have hbinding : IsBindingAt (code ++ '}' :: pieces.flatten) code pieces.flatten expr :=
        ⟨by simp [braced], hgroup, hread⟩
      have hsplit : run ++ (braced code :: pieces).flatten = run ++ '{' :: (code ++ '}' :: pieces.flatten) := by
        simp [braced]
      rw [hsplit]
      exact .binding hrun hbinding hrest

theorem splits_iff {parts : List TextPart} {cs : List Char} : Splits parts cs ↔ IsSplit cs parts :=
  ⟨Splits.isSplit, fun h => h.splits List.not_mem_nil (by simp)⟩

/-- The text has a brace at the byte `brace` that starts no binding, and what stands before it is split. -/
def FailsAt (text : List Char) (brace : Nat) (error : TextError) : Prop :=
  ∃ before after, text = before ++ '{' :: after ∧ byteLength before = brace ∧ (∃ parts, IsSplit before parts) ∧
    IsFault after error

theorem splitText_eq_ok_iff {cs : List Char} {parts : List TextPart} : splitText cs = .ok parts ↔ IsSplit cs parts := by
  constructor
  · intro h
    have hfound := splitFrom_found cs 0
    rw [← splitText, h] at hfound
    exact hfound.isSplit
  · intro h
    exact ((splits_iff.2 h).splitFrom_eq 0).1

theorem splitText_eq_error_iff {cs : List Char} {brace : Nat} {error : TextError} :
    splitText cs = .error (brace, error) ↔ FailsAt cs brace error := by
  constructor
  · intro h
    have hfound := splitFrom_found cs 0
    rw [← splitText, h] at hfound
    obtain ⟨before, after, ⟨hsplit, ⟨parts, hparts⟩, hfault⟩, hbrace⟩ := hfound
    exact ⟨before, after, hsplit, by rw [hbrace, Nat.zero_add], ⟨parts, hparts.isSplit⟩, hfault⟩
  · rintro ⟨before, after, rfl, rfl, ⟨parts, hparts⟩, hfault⟩
    have herror := ((splits_iff.2 hparts).splitFrom_eq 0).2 after error hfault
    rwa [Nat.zero_add] at herror

/-! ## Cuts at offsets -/

/-- The parts of the text from the byte `start` on, cut out of it by their offsets in at most `turns` turns. A slice that
does not start and end between characters has no result. -/
def cutFrom (text : List Char) : Nat → Nat → Option (Except (Nat × TextError) (List TextPart))
  | 0, _ => none
  | turns + 1, start => do
    let rest ← dropBytes? start text
    if '{' ∉ rest then return .ok (literalParts rest)
    let brace := start + byteLength (rest.takeWhile (· != '{'))
    match groupEnd? text brace with
    | none => return .error (brace, .unterminated)
    | some stop =>
      let run ← slice? text start brace
      let code ← slice? text (brace + 1) (stop - 1)
      match readBinding code with
      | .error error => return .error (brace, .binding error)
      | .ok expr =>
        let more ← cutFrom text turns stop
        return more.map fun parts => literalParts run ++ .expression expr :: parts

/-- No cut is inside a character, and one turn for each character is enough. -/
theorem cutFrom_eq (before cs : List Char) {turns : Nat} (h : cs.length < turns) :
    cutFrom (before ++ cs) turns (byteLength before) = some (splitFrom (byteLength before) cs) := by
  induction turns generalizing before cs with
  | zero => exact absurd h (Nat.not_lt_zero _)
  | succ turns ih =>
    have hrest : dropBytes? (byteLength before) (before ++ cs) = some cs := by
      simp [dropBytes?, splitBytes?_byteLength]
    rcases plain_or_brace cs with hplain | ⟨run, after, hrun, rfl⟩
    · simp [cutFrom, hrest, hplain, splitFrom_plain]
    have hbrace : '{' ∈ run ++ '{' :: after := by simp
    have hfound : groupEnd? (before ++ (run ++ '{' :: after)) (byteLength before + byteLength run) =
        (group? ('{' :: after)).map fun p => byteLength before + byteLength run + byteLength p.1 := by
      have hend := groupEnd?_append (before ++ run) '{' after
      rwa [List.append_assoc, byteLength_append] at hend
    rw [splitFrom_brace hrun]
    simp only [cutFrom, hrest, Option.bind_eq_bind, Option.bind_some, hbrace, not_true_eq_false, if_false,
      (takeWhile_run hrun after).1, hfound]
    unfold splitAtBrace
    cases hgroup : group? ('{' :: after) with
    | none => rfl
    | some found =>
      obtain ⟨group, rest⟩ := found
      obtain ⟨hsplit, hgroup⟩ := group?_eq_some_iff.1 hgroup
      obtain ⟨code, rfl⟩ := exists_eq_braced hgroup
      have hrun : slice? (before ++ (run ++ '{' :: after)) (byteLength before) (byteLength before + byteLength run) =
          some run := Markup.slice?_append before run _ rfl rfl
      have hcode : slice? (before ++ (run ++ '{' :: after)) (byteLength before + byteLength run + 1)
          (byteLength before + byteLength run + byteLength (braced code) - 1) = some code := by
        have hopen : '{'.utf8Size = 1 := by decide
        have hpieces : before ++ (run ++ '{' :: after) = (before ++ run ++ ['{']) ++ (code ++ ('}' :: rest)) := by
          rw [hsplit]
          simp [braced]
        rw [hpieces, byteLength_braced]
        refine Markup.slice?_append _ code _ ?_ ?_
        · simp only [byteLength_append, byteLength_cons, byteLength_nil, hopen]
        · simp only [byteLength_append, byteLength_cons, byteLength_nil, hopen]
          omega
      simp only [Option.map_some, hrun, hcode, Option.bind_some, groupCode_braced]
      cases hread : readBinding code with
      | error error => rfl
      | ok expr =>
        have hlt : rest.length < turns := by
          have := IsBindingAt.length_lt ⟨hsplit, hgroup, hread⟩
          rw [List.length_append, List.length_cons] at h
          omega
        have hmore := ih (before ++ run ++ braced code) rest hlt
        rw [List.append_assoc, ← hsplit, List.append_assoc, byteLength_append, byteLength_append] at hmore
        simp only [hmore, Option.bind_some]
        cases splitFrom (byteLength before + byteLength run + byteLength (braced code)) rest <;> rfl

/-! ## Values that are one binding -/

theorem bindingCode?_eq_some_iff {value : String} {code : List Char} :
    bindingCode? value = some code ↔ trim value.toList = braced code ∧ IsGroup (utf8 (braced code)) := by
  unfold bindingCode?
  constructor
  · intro h
    split at h
    · rename_i cs htrim
      split at h
      · rename_i group hfound
        obtain ⟨hsplit, hgroup⟩ := group?_eq_some_iff.1 hfound
        obtain ⟨code', rfl⟩ := exists_eq_braced hgroup
        rw [List.append_nil] at hsplit
        obtain rfl := (List.cons.inj hsplit).2
        obtain rfl : code' = code := by simpa using h
        exact ⟨htrim, hgroup⟩
      · cases h
    · cases h
  · rintro ⟨htrim, hgroup⟩
    have hfound : group? ('{' :: (code ++ ['}'])) = some (braced code, []) :=
      group?_eq_some_iff.2 ⟨(List.append_nil _).symm, hgroup⟩
    rw [htrim, braced]
    simp [hfound]

/-- A text that is one group has one part, which is what its code is read as. -/
theorem splitText_braced {code : List Char} (h : IsGroup (utf8 (braced code))) :
    splitText (braced code) =
      match readBinding code with
      | .ok expr => .ok [.expression expr]
      | .error error => .error (0, .binding error) := by
  have hsplit : '{' :: (code ++ ['}']) = braced code ++ [] := (List.append_nil _).symm
  have hcut : splitText (braced code) = splitAtBrace 0 [] (code ++ ['}']) splitFrom :=
    splitFrom_brace List.not_mem_nil (code ++ ['}']) 0
  rw [hcut]
  cases hread : readBinding code with
  | error error => exact (IsFault.refused hsplit h hread).splitAtBrace_eq 0
  | ok expr =>
    rw [IsBindingAt.splitAtBrace_eq ⟨hsplit, h, hread⟩, splitFrom_plain (by simp)]
    rfl

/-- The code of a value that is one binding is a slice of the value, and the value as a text has one part exactly if its
code is read. -/
theorem bindingCode?_spec {value : String} (h : isBinding value = true) :
    ∃ code, bindingCode? value = some code ∧
      slice? (trim value.toList) 1 (byteLength (trim value.toList) - 1) = some code ∧
      (∀ expr, splitText (trim value.toList) = .ok [.expression expr] ↔ readBinding code = .ok expr) ∧
      ((∃ part, splitText (trim value.toList) = .ok [part]) ↔ ∃ expr, readBinding code = .ok expr) := by
  obtain ⟨code, hcode⟩ := Option.isSome_iff_exists.1 h
  obtain ⟨htrim, hgroup⟩ := bindingCode?_eq_some_iff.1 hcode
  have hslice : slice? (braced code) 1 (byteLength (braced code) - 1) = some code := by
    have hopen : '{'.utf8Size = 1 := by decide
    rw [byteLength_braced]
    refine Markup.slice?_append ['{'] code ['}'] ?_ ?_
    · simp only [byteLength_cons, byteLength_nil, hopen]
    · simp only [byteLength_cons, byteLength_nil, hopen]
      omega
  refine ⟨code, hcode, ?_, ?_, ?_⟩
  · rw [htrim, hslice]
  · intro expr
    rw [htrim, splitText_braced hgroup]
    cases readBinding code <;> simp
  · rw [htrim, splitText_braced hgroup]
    cases readBinding code <;> simp

/-- A text is split into the parts that are written in it, or fails at its first brace that starts no binding; no cut is
inside a character. A value that is one binding is cut in the same way as an attribute and as a text. -/
theorem splitText_recognizes (text : String) :
    (∀ parts, splitText text.toList = .ok parts ↔ IsSplit text.toList parts) ∧
    (∀ brace error, splitText text.toList = .error (brace, error) ↔ FailsAt text.toList brace error) ∧
    cutFrom text.toList (text.toList.length + 1) 0 = some (splitText text.toList) ∧
    ∀ value, isBinding value = true → ∃ code, bindingCode? value = some code ∧
      slice? (trim value.toList) 1 (byteLength (trim value.toList) - 1) = some code ∧
      (∀ expr, splitText (trim value.toList) = .ok [.expression expr] ↔ readBinding code = .ok expr) ∧
      ((∃ part, splitText (trim value.toList) = .ok [part]) ↔ ∃ expr, readBinding code = .ok expr) :=
  ⟨fun _ => splitText_eq_ok_iff, fun _ _ => splitText_eq_error_iff, cutFrom_eq [] text.toList (Nat.lt_succ_self _),
    fun _ => bindingCode?_spec⟩

/-- The blanks around a binding are no part of it. -/
theorem splitText_recognizes_binding :
    isBinding " {foo.bar} " = true ∧ ∃ code, bindingCode? " {foo.bar} " = some code ∧
      slice? (trim " {foo.bar} ".toList) 1 (byteLength (trim " {foo.bar} ".toList) - 1) = some code ∧
      (∀ expr, splitText (trim " {foo.bar} ".toList) = .ok [.expression expr] ↔ readBinding code = .ok expr) ∧
      ((∃ part, splitText (trim " {foo.bar} ".toList) = .ok [part]) ↔ ∃ expr, readBinding code = .ok expr) :=
  have hbinding : isBinding " {foo.bar} " = true := by decide
  ⟨hbinding, (splitText_recognizes "Hi").2.2.2 _ hbinding⟩

end TemplateCompiler.Binding
