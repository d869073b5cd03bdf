import TemplateCompiler.Proofs.Binding.ReadBack
import TemplateCompiler.Proofs.Render.Shapes
/-!
# Bodies read back

But for the listeners that are kept, nothing in a body is written with parentheses that group it, and still the body is
read as it was made: what is written without parentheses stands only where it needs none (`Value.KeepsShape`).
`Value.tree` is the tree that a value should be read as, and `compile_readBack` says that it is, of every module whose
iterations bind no reserved words.
-/

namespace TemplateCompiler

open Text Template Render Binding Script
open Script (Tree)

namespace Render

/-- The tree of a text that stands in a value as it is. -/
def leafTree (text : String) : Tree :=
  (Tree.read text.toList).getD (.name text)

/-- The tree of operands that are added from the left to the right. -/
def sumTree : List Tree → Tree
  | [] => leafTree ""
  | t :: ts => ts.foldl (.binary "+") t

namespace Value

mutual

/-- The tree of a value, grouped as the value is. -/
def tree : Value → Tree
  | .string text => .string text
  | .number n => leafTree (toString n)
  | .bool value => .boolean value
  | .undefined => .name "undefined"
  | .raw source => leafTree source
  | .constant name => .name name
  | .array items => .array (treesOf items)
  | .object entries => .object (treesUnder entries)
  | .call callee arguments => .call (.name callee) (treesOf arguments)
  | .function parameters body => .function parameters body.tree
  | .arrow body => .arrow body.tree
  | .conditional test consequent alternate => .conditional test.tree consequent.tree alternate.tree
  | .concat parts => sumTree (treesOf parts)
  | .memo name value => .binary "||" (.name name) (.assign (.member (.name "$ctx") name) value.tree)

/-- The trees of the values of a list. -/
def treesOf : List Value → List Tree
  | [] => []
  | v :: vs => v.tree :: treesOf vs

/-- The trees of the values of an object under their keys. -/
def treesUnder : List (String × Value) → List (String × Tree)
  | [] => []
  | (key, v) :: rest => (key, v.tree) :: treesUnder rest

end

theorem treesOf_eq (vs : List Value) : treesOf vs = vs.map tree := by
  induction vs with
  | nil => rfl
  | cons v vs ih => rw [treesOf, ih, List.map_cons]

/-- Whether a value is written as an operand. -/
def isOperand : Value → Bool
  | .arrow _ => false
  | .conditional .. => false
  | .concat _ => false
  | .memo .. => false
  | _ => true

/-- What stands right in a value needs no parentheses: a conditional is an item of an array or the alternate of another
conditional, strings are joined only in the argument of a text, functions return arrays or calls, and nothing is
written as an empty text. -/
def KeepsShape : Value → Prop
  | .array items => ∀ v ∈ items, v.isConcat = false ∧ v.text ≠ ""
  | .object entries => ∀ entry ∈ entries, entry.2.isSimple = true ∧ entry.2.text ≠ ""
  | .call callee arguments => ∀ v ∈ arguments, v.isConditional = false ∧ v.text ≠ "" ∧
      (v.isConcat = true → callee = Helper.text.localName ∧ arguments = [v])
  | .function _ body => body.isGroup = true
  | .arrow body => body.isGroup = true
  | .conditional test consequent alternate =>
    test.isSimple = true ∧ consequent.isSimple = true ∧ alternate.isConcat = false
  | .concat parts => 2 ≤ parts.length ∧ ∀ v ∈ parts, v.isPiece = true
  | .memo _ value => value.isSimple = true
  | _ => True

end Value

end Render

/-! ## Texts that stand in values -/

section

variable {names : List String} (hnames : ∀ name ∈ names, IsVariableName name)
include hnames

theorem exists_isOperand_of_isSource {source : String} (h : Value.IsSource names source) :
    ∃ t, Tree.IsOperand source.toList t := by
  rcases h with rfl | ⟨locals, expr, negate, hlocals, hproper, rfl⟩
  · have hslotset : Tree.IsPrimary "$slotset".toList (.name "$slotset") := Tree.isPrimary_name (by decide) (by decide)
    exact ⟨_, hslotset.isObject.isOperand⟩
  · have hallowed : ∀ name ∈ locals, name ∉ moduleReservedWords := fun name hname => (hnames name (hlocals hname)).allowed
    cases negate with
    | false => exact ⟨_, by simpa using (Expr.isOperand_toJs hallowed expr hproper).1⟩
    | true => exact ⟨_, Expr.isOperand_not_toJs hallowed hproper⟩

end

theorem isOperand_leaf {text : String} (h : ∃ t, Tree.IsOperand text.toList t) :
    Tree.IsOperand text.toList (leafTree text) := by
  obtain ⟨t, ht⟩ := h
  rw [leafTree, ht.isValue.read]
  exact ht

theorem exists_isOperand_number (n : Nat) : ∃ t, Tree.IsOperand (toString n).toList t := by
  rw [toList_toString]
  obtain ⟨text, -, h⟩ := Tree.exists_isOperand_number (.whole (Tree.isWhole_toDigits n))
  exact ⟨_, h⟩

theorem IsVariableName.isPrimary {name : String} (h : IsVariableName name) : Tree.IsPrimary name.toList (.name name) :=
  Tree.isPrimary_name h.identifier h.allowed

namespace Render.Value

/-- The text of a value is read as its tree: as a value, and also as an operand if the value is written as one. -/
structure Reads (v : Value) : Prop where
  value : Tree.IsValue v.text.toList v.tree
  operand : v.isOperand = true → Tree.IsOperand v.text.toList v.tree

theorem reads_of_isOperand {v : Value} (h : Tree.IsOperand v.text.toList v.tree) : v.Reads :=
  ⟨h.isValue, fun _ => h⟩

theorem isItems_textOfList {vs : List Value} (h : ∀ v ∈ vs, v.Reads) :
    Tree.IsItems (textOfList ", " vs).toList (treesOf vs) := by
  induction vs with
  | nil => exact Tree.isItems_nil
  | cons v vs ih =>
    obtain ⟨hv, hvs⟩ := List.forall_mem_cons.1 h
    cases vs with
    | nil => exact hv.value.isItems
    | cons w vs => simpa [textOfList, treesOf] using Tree.IsItems.cons hv.value (ih hvs)

theorem isKey_keyText (key : String) : Tree.IsKey (keyText key).toList key := by
  unfold keyText
  split
  · rename_i h
    exact Tree.isKey_name h
  · exact Tree.isKey_quote key

theorem isEntries_textOfEntries {entry : String × Value} {entries : List (String × Value)}
    (h : ∀ entry' ∈ entry :: entries, entry'.2.Reads) :
    Tree.IsEntries (textOfEntries (entry :: entries)).toList (treesUnder (entry :: entries)) := by
  induction entries generalizing entry with
  | nil =>
    have hentry := (isKey_keyText entry.1).isEntries (h entry List.mem_cons_self).value
    simpa [textOfEntries, treesUnder] using hentry
  | cons entry' entries ih =>
    obtain ⟨hentry, hentries⟩ := List.forall_mem_cons.1 h
    have hcons := Tree.IsEntries.cons (isKey_keyText entry.1) hentry.value (ih hentries)
    simpa [textOfEntries, treesUnder] using hcons

theorem isParameters_intercalate {names : List String} (hnames : ∀ name ∈ names, IsVariableName name)
    (hne : names ≠ []) : Tree.IsParameters (", ".intercalate names).toList names := by
  induction names with
  | nil => exact absurd rfl hne
  | cons name names ih =>
    obtain ⟨hname, hrest⟩ := List.forall_mem_cons.1 hnames
    cases names with
    | nil => simpa using Tree.isParameters_single hname.identifier hname.allowed
    | cons name' names =>
      have hcons := Tree.IsParameters.cons hname.identifier hname.allowed (ih hrest (List.cons_ne_nil _ _))
      simpa using hcons

/-- Joined strings are written with plus signs between them. -/
theorem toList_textOfList_plus (v : Value) (vs : List Value) : (textOfList " + " (v :: vs)).toList =
    v.text.toList ++ Tree.plusText (vs.map fun w => (w.text.toList, w.tree)) := by
  induction vs generalizing v with
  | nil => simp [textOfList, Tree.plusText]
  | cons w vs ih =>
    rw [textOfList, String.toList_append, ih]
    simp [Tree.plusText]

theorem isOperand_of_isPiece {v : Value} (h : v.isPiece = true) : v.isOperand = true := by
  cases v <;> first | rfl | cases h

theorem isOperand_of_isRaw {v : Value} (h : v.isRaw = true) : v.isOperand = true := by
  cases v <;> first | rfl | cases h

theorem opensGroup_text {names : List String} {v : Value} (hgroup : v.isGroup = true) (h : v.IsBuilt names) :
    Tree.OpensGroup v.text.toList := by
  cases v with
  | array items => exact ⟨'[', (textOfList ", " items).toList ++ [']'], by simp [text], .inl rfl⟩
  | call callee arguments =>
    have hcallee : isIdentifierName callee = true := h.1.identifier
    cases hname : callee.toList with
    | nil => exact absurd hname (Tree.toList_ne_nil hcallee)
    | cons c cs =>
      rw [isIdentifierName, hname, isIdentifierChars, Bool.and_eq_true] at hcallee
      exact ⟨c, cs ++ '(' :: ((textOfList ", " arguments).toList ++ [')']), by simp [text, hname], .inr hcallee.1⟩
  | _ => cases hgroup

/-! ## Values -/

mutual

/-- Every value that is built as it should be is read as its tree. -/
theorem reads_of_allBuilt {names : List String} (hnames : ∀ name ∈ names, IsVariableName name) :
    ∀ v : Value, v.AllBuilt names → v.Reads
  | .string text, _ => reads_of_isOperand (Tree.isPrimary_string text).isObject.isOperand
  | .number n, _ => reads_of_isOperand (isOperand_leaf (exists_isOperand_number n))
  | .bool value, _ => by
    have hoperand := (Tree.isPrimary_boolean value).isObject.isOperand
    refine reads_of_isOperand ?_
    cases value <;> exact hoperand
  | .undefined, _ => by
    have hname : IsVariableName "undefined" := ⟨by decide, by decide⟩
    exact reads_of_isOperand hname.isPrimary.isObject.isOperand
  | .raw source, h =>
    reads_of_isOperand (isOperand_leaf (exists_isOperand_of_isSource hnames (h _ (self_mem_all _))))
  | .constant name, h => reads_of_isOperand (IsVariableName.isPrimary (h _ (self_mem_all _))).isObject.isOperand
  | .array items, h => by
    have harray := (isItems_textOfList (reads_of_mem hnames items (allBuilt_array.1 h).2)).array
    exact reads_of_isOperand (by simpa [text, tree] using harray.isObject.isOperand)
  | .object [], _ => reads_of_isOperand Tree.isPrimary_emptyObject.isObject.isOperand
  | .object (entry :: entries), h => by
    have hobject := (isEntries_textOfEntries (reads_of_mem_under hnames (entry :: entries) (allBuilt_object.1 h).2)).object
    exact reads_of_isOperand (by simpa [text, tree] using hobject.isObject.isOperand)
  | .call callee arguments, h => by
    obtain ⟨⟨hcallee, -⟩, harguments⟩ := allBuilt_call.1 h
    have hcall := hcallee.isPrimary.isObject.call (isItems_textOfList (reads_of_mem hnames arguments harguments))
    exact reads_of_isOperand (by simpa [text, tree] using hcall.isOperand)
  | .function parameters body, h => by
    obtain ⟨⟨hne, hsubset, hgroup⟩, hbody⟩ := allBuilt_function.1 h
    have hparameters := isParameters_intercalate (fun name hname => hnames name (hsubset hname)) hne
    have hfunction := hparameters.function (opensGroup_text hgroup (hbody _ (self_mem_all _)))
      (reads_of_allBuilt hnames body hbody).value
    exact reads_of_isOperand (by simpa [text, tree] using hfunction.isObject.isOperand)
  | .arrow body, h => by
    obtain ⟨hgroup, hbody⟩ := allBuilt_arrow.1 h
    have harrow := (reads_of_allBuilt hnames body hbody).value.arrow (opensGroup_text hgroup (hbody _ (self_mem_all _)))
    exact ⟨by simpa [text, tree] using harrow, fun hoperand => by cases hoperand⟩
  | .conditional test consequent alternate, h => by
    obtain ⟨⟨hraw, -, -⟩, htest, hconsequent, halternate⟩ := allBuilt_conditional.1 h
    have hoperand := (reads_of_allBuilt hnames test htest).operand (isOperand_of_isRaw hraw)
    have hconditional := hoperand.conditional (reads_of_allBuilt hnames consequent hconsequent).value
      (reads_of_allBuilt hnames alternate halternate).value
    exact ⟨by simpa [text, tree] using hconditional, fun hoperand => by cases hoperand⟩
  | .concat parts, h => by
    -- A sum is no operand, and there is no need: it stands alone between the parentheses of a call.
    obtain ⟨⟨hlength, hpieces⟩, hparts⟩ := allBuilt_concat.1 h
    have hreads := reads_of_mem hnames parts hparts
    refine ⟨?_, fun hoperand => by cases hoperand⟩
    cases parts with
    | nil => simp at hlength
    | cons v vs =>
      have hoperand : ∀ w ∈ v :: vs, Tree.IsOperand w.text.toList w.tree := fun w hw =>
        (hreads w hw).operand (isOperand_of_isPiece (hpieces w hw))
      obtain ⟨hfirst, hrest⟩ := List.forall_mem_cons.1 hoperand
      have hoperands : ∀ operand ∈ vs.map fun w => (w.text.toList, w.tree), Tree.IsOperand operand.1 operand.2 :=
        List.forall_mem_map.2 hrest
      have hsum := hfirst.sum hoperands
      rw [text, toList_textOfList_plus, tree, treesOf, treesOf_eq, sumTree]
      simpa [List.foldl_map] using hsum
  | .memo name value, h => by
    obtain ⟨⟨hname, -⟩, hvalue⟩ := allBuilt_memo.1 h
    have hctx : IsVariableName "$ctx" := ⟨by decide, by decide⟩
    -- The assignment binds less than `||`, and has the only parentheses that are written for grouping.
    have hassign := (hctx.isPrimary.isObject.member hname.identifier).isOperand.assign rfl
      (reads_of_allBuilt hnames value hvalue).value
    have hor := hname.isPrimary.isObject.isOperand.or hassign.paren.isObject.isOperand
    exact ⟨by simpa [text, tree] using hor, fun hoperand => by cases hoperand⟩

theorem reads_of_mem {names : List String} (hnames : ∀ name ∈ names, IsVariableName name) :
    ∀ vs : List Value, (∀ v ∈ vs, v.AllBuilt names) → ∀ v ∈ vs, v.Reads
  | [], _ => by simp
  | v :: vs, h => List.forall_mem_cons.2
    ⟨reads_of_allBuilt hnames v (h v List.mem_cons_self),
      reads_of_mem hnames vs fun w hw => h w (List.mem_cons_of_mem v hw)⟩

theorem reads_of_mem_under {names : List String} (hnames : ∀ name ∈ names, IsVariableName name) :
    ∀ entries : List (String × Value), (∀ entry ∈ entries, entry.2.AllBuilt names) → ∀ entry ∈ entries, entry.2.Reads
  | [], _ => by simp
  | (key, v) :: entries, h => List.forall_mem_cons.2
    ⟨reads_of_allBuilt hnames v (h (key, v) List.mem_cons_self),
      reads_of_mem_under hnames entries fun entry hentry => h entry (List.mem_cons_of_mem _ hentry)⟩

end

/-! ## Shapes -/

theorem text_ne_empty {names : List String} {v : Value} (h : v.IsBuilt names) : v.text ≠ "" := by
  rw [Ne, ← String.toList_inj]
  cases v with
  | string s => simp [text, quote, quoteChars]
  | number n =>
    rw [text, toList_toString]
    exact Nat.toDigits_ne_nil
  | bool value => cases value <;> simp [text]
  | raw source =>
    rcases h with rfl | ⟨locals, expr, negate, -, hproper, rfl⟩
    · simp [text]
    · obtain ⟨c, cs, htext, -⟩ := Expr.exists_head_toJs locals hproper
      simp [text, htext]
  | constant name =>
    rw [text]
    exact Tree.toList_ne_nil h.identifier
  | object entries => cases entries <;> simp [text]
  | concat parts =>
    obtain ⟨hlength, -⟩ := h
    -- There is a plus sign at least.
    match parts, hlength with
    | v :: w :: parts, _ => simp [text, textOfList]
  | _ => simp [text]

theorem keepsShape_of_allBuilt {names : List String} {v : Value} (h : v.AllBuilt names) : v.KeepsShape := by
  have htext {w : Value} (hw : w.AllBuilt names) : w.text ≠ "" := text_ne_empty (hw w w.self_mem_all)
  cases v with
  | array items =>
    obtain ⟨hbuilt, hitems⟩ := allBuilt_array.1 h
    exact fun w hw => ⟨hbuilt w hw, htext (hitems w hw)⟩
  | object entries =>
    obtain ⟨hbuilt, hentries⟩ := allBuilt_object.1 h
    exact fun entry hentry => ⟨hbuilt entry hentry, htext (hentries entry hentry)⟩
  | call callee arguments =>
    obtain ⟨⟨-, hbuilt⟩, harguments⟩ := allBuilt_call.1 h
    intro w hw
    rcases hbuilt with hsimple | ⟨rfl, parts, rfl⟩
    · obtain ⟨hconditional, hconcat⟩ := Bool.and_eq_true_iff.1 (hsimple w hw)
      exact ⟨by simpa using hconditional, htext (harguments w hw), fun hjoined => by simp [hjoined] at hconcat⟩
    · obtain rfl := List.mem_singleton.1 hw
      exact ⟨rfl, htext (harguments _ hw), fun _ => ⟨rfl, rfl⟩⟩
  | function parameters body => exact (allBuilt_function.1 h).1.2.2
  | arrow body => exact (allBuilt_arrow.1 h).1
  | conditional test consequent alternate =>
    obtain ⟨⟨hraw, hsimple, hconcat⟩, -⟩ := allBuilt_conditional.1 h
    refine ⟨?_, hsimple, hconcat⟩
    cases test <;> first | rfl | cases hraw
  | concat parts => exact (allBuilt_concat.1 h).1
  | memo name value => exact (allBuilt_memo.1 h).1.2
  | _ => trivial

theorem AllBuilt.mono {names : List String} {v w : Value} (h : v.AllBuilt names) (hw : w ∈ v.all) : w.AllBuilt names :=
  fun x hx => h x (all_subset v w hw hx)

mutual

/-- There is nothing in a literal that could be built in another way. -/
theorem allBuilt_of_isLiteral (names : List String) :
    ∀ v : Value, v.isLiteral = true → v.isSimple = true ∧ v.AllBuilt names
  | .string text, _ => ⟨rfl, allBuilt_string text⟩
  | .number n, _ => ⟨rfl, allBuilt_number n⟩
  | .bool value, _ => ⟨rfl, allBuilt_bool value⟩
  | .array items, h => isFine_array (allBuilt_of_areLiteral names items (by simpa [isLiteral] using h))
  | .object entries, h => isFine_object (allBuilt_of_haveLiterals names entries (by simpa [isLiteral] using h))
  | .undefined, h | .raw _, h | .constant _, h | .call .., h | .function .., h | .arrow _, h | .conditional .., h
  | .concat _, h | .memo .., h => by cases h

theorem allBuilt_of_areLiteral (names : List String) : ∀ vs : List Value, areLiteral vs = true →
    ∀ v ∈ vs, IsFine names v
  | [], _ => by simp
  | v :: vs, h => by
    obtain ⟨hv, hvs⟩ := Bool.and_eq_true_iff.1 h
    exact List.forall_mem_cons.2 ⟨allBuilt_of_isLiteral names v hv, allBuilt_of_areLiteral names vs hvs⟩

theorem allBuilt_of_haveLiterals (names : List String) :
    ∀ entries : List (String × Value), haveLiterals entries = true →
    ∀ entry ∈ entries, IsFine names entry.2
  | [], _ => by simp
  | (key, v) :: entries, h => by
    obtain ⟨hv, hentries⟩ := Bool.and_eq_true_iff.1 h
    exact List.forall_mem_cons.2 ⟨allBuilt_of_isLiteral names v hv, allBuilt_of_haveLiterals names entries hentries⟩

end

end Render.Value

/-! ## Bodies -/

namespace CompilesTo

variable {config : Config} {source : String} {t : Template} {m : RenderModule}

theorem isIdentifierName_boundNames (h : CompilesTo config source t m) :
    ∀ name ∈ t.boundNames, isIdentifierName name = true := by
  intro name hname
  obtain ⟨loop, hloop, hname⟩ := List.mem_flatMap.1 hname
  obtain ⟨n, hn, hiteration⟩ := List.mem_filterMap.1 hloop
  obtain ⟨document, -, heq⟩ := exists_ofDocument h.parsed
  rw [heq] at hn
  have hproper := areProper_ofDocument config document n hn
  cases n with
  | iteration id p loop' children =>
    obtain rfl := Option.some.inj hiteration
    exact hproper.names name hname
  | _ => cases hiteration

/-- The text of the body is read as the body, and every text that stands in it as a value of its own. -/
theorem read_body (h : CompilesTo config source t m) (hallowed : ∀ name ∈ t.boundNames, name ∉ moduleReservedWords) :
    (∀ text, .raw text ∈ m.body.all → (Tree.read text.toList).isSome = true) ∧
      Tree.read m.body.text.toList = some m.body.tree := by
  have hnames : ∀ name ∈ t.boundNames, IsVariableName name := fun name hname =>
    ⟨h.isIdentifierName_boundNames name hname, hallowed name hname⟩
  have hbuilt := h.isBuilt_body.2
  refine ⟨fun text htext => ?_, (Value.reads_of_allBuilt hnames m.body hbuilt).value.read⟩
  obtain ⟨tree, htree⟩ := exists_isOperand_of_isSource hnames (hbuilt _ htext)
  rw [htree.isValue.read]
  rfl

/-- What is declared beside the body keeps its shape as well, and is read back in any case. -/
theorem read_hoist (h : CompilesTo config source t m) {hoist : Hoist} (hm : hoist ∈ m.hoists.entries)
    (hkind : hoist.kind = .object) : ∃ v : Value, hoist.content = v.text ∧ (∀ w ∈ v.all, w.KeepsShape) ∧
      Tree.read v.text.toList = some v.tree := by
  have hcontent := h.fits.noted.contents hoist hm
  rw [hkind] at hcontent
  obtain ⟨v, hliteral, htext⟩ := hcontent
  have hbuilt := (Value.allBuilt_of_isLiteral [] v hliteral).2
  exact ⟨v, htext, fun w hw => Value.keepsShape_of_allBuilt (hbuilt.mono hw),
    (Value.reads_of_allBuilt (by simp) v hbuilt).value.read⟩

end CompilesTo

/-- Wherever compiling gives code, nothing in the module needs parentheses: the body is an array or a call, and all
values in it and in the declarations keep their shapes. So the text of a declaration is read as it was made, and so is
the text of the body unless an iteration binds a reserved word. -/
theorem compile_readBack {config : Config} {source code : String} {output : Output}
    (h : compile config source = .ok output) (hcode : output.code = some code) :
    ∃ t m, CompilesTo config source t m ∧ code = m.text ∧
      m.body.isGroup = true ∧ (∀ v ∈ m.body.all, v.KeepsShape) ∧
      (∀ hoist ∈ m.hoists.entries, hoist.kind = .object → ∃ v : Value, hoist.content = v.text ∧
        (∀ w ∈ v.all, w.KeepsShape) ∧ Tree.read v.text.toList = some v.tree) ∧
      ((∀ name ∈ t.boundNames, name ∉ moduleReservedWords) →
        (∀ text, .raw text ∈ m.body.all → (Tree.read text.toList).isSome = true) ∧
          Tree.read m.body.text.toList = some m.body.tree) := by
  obtain ⟨t, m, hm, rfl⟩ := compile_code_iff.1 ⟨output, h, hcode⟩
  obtain ⟨hgroup, hbuilt⟩ := hm.isBuilt_body
  exact ⟨t, m, hm, rfl, hgroup, fun v hv => Value.keepsShape_of_allBuilt (hbuilt.mono hv),
    fun hoist hhoist hkind => hm.read_hoist hhoist hkind, hm.read_body⟩

/-- A body with a conditional, a kept listener, joined strings and a function. -/
theorem compile_readBack_listed :
    ∃ (output : Output) (m : RenderModule),
      compile {} ("<template><p lwc:if={a} onclick={go}>Hi {name}!</p><i lwc:else></i>" ++
        "<li for:each={items} for:item=\"x\" key={x.id}></li></template>") = .ok output ∧
      output.code = some m.text ∧
      m.body.text = "api_flatten([$cmp.a ? [api_element(\"p\", " ++
        "{ key: 0, on: { click: _m0 || ($ctx._m0 = api_bind($cmp.go)) } }, " ++
        "[api_text(\"Hi \" + api_dynamic_text($cmp.name) + \"!\")], 136)] : " ++
        "[api_static_fragment($fragment1(), 1, 64)], api_iterator($cmp.items, function (x) \x7b return " ++
        "[api_element(\"li\", { key: api_key(2, x.id) }, [], 0)]; \x7d)])" ∧
      (∀ v ∈ m.body.all, v.KeepsShape) ∧ Tree.read m.body.text.toList = some m.body.tree := by
  have hbody : (compiled? {} ("<template><p lwc:if={a} onclick={go}>Hi {name}!</p><i lwc:else></i>" ++
      "<li for:each={items} for:item=\"x\" key={x.id}></li></template>")).map
        (fun result => (result.1.boundNames, result.2.body.text)) =
      some (["x"], "api_flatten([$cmp.a ? [api_element(\"p\", " ++
        "{ key: 0, on: { click: _m0 || ($ctx._m0 = api_bind($cmp.go)) } }, " ++
        "[api_text(\"Hi \" + api_dynamic_text($cmp.name) + \"!\")], 136)] : " ++
        "[api_static_fragment($fragment1(), 1, 64)], api_iterator($cmp.items, function (x) \x7b return " ++
        "[api_element(\"li\", { key: api_key(2, x.id) }, [], 0)]; \x7d)])") := by
    decide +kernel
  obtain ⟨t, m, hm, hbody⟩ := exists_compilesTo hbody
  obtain ⟨hnames, htext⟩ := Prod.mk.inj hbody
  obtain ⟨output, houtput, hcode⟩ := hm.code
  obtain ⟨t', m', hm', -, -, hshapes, -, hread⟩ := compile_readBack houtput hcode
  obtain rfl := Except.ok.inj (hm.parsed.symm.trans hm'.parsed)
  obtain rfl := Except.ok.inj (hm.rendered.symm.trans hm'.rendered)
  refine ⟨output, m, houtput, hcode, htext, hshapes, (hread ?_).2⟩
  rw [hnames]
  decide

end TemplateCompiler
