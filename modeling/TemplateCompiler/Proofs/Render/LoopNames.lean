import TemplateCompiler.Proofs.Render.Preamble
import TemplateCompiler.Script.Name
/-!
# Names that iterations bind

The function of an iteration takes the names that the iteration binds, as the template says them. In the body of the
function they hide other names, those of the module among them: only a template that stays clear of such names, of
reserved words and of saying a name twice gets functions that mean what they should.
-/

namespace TemplateCompiler

open Template Render
open Markup (startsWith)

/-- The words that are no names in a module, whose code is strict. -/
def moduleReservedWords : List String :=
  Script.reservedWords ++ ["await", "implements", "interface", "let", "package", "private", "protected", "public",
    "static", "yield"]

/-- The names that the body of a function uses in its own right: the parameters of the render function, helpers,
declarations and imports. -/
def Render.Value.usedNames (body : Value) : List String :=
  ["$api", "$cmp", "$slotset", "$ctx"] ++ body.mentions.helpers.map Helper.localName ++ body.mentions.names

/-- The parameters of a function are names that differ, are allowed, and hide nothing that the body uses. -/
structure Render.Value.IsHygienic (parameters : List String) (body : Value) : Prop where
  distinct : parameters.Nodup
  allowed : ∀ name ∈ parameters, name ∉ moduleReservedWords
  hidesNothing : ∀ name ∈ parameters, name ∉ body.usedNames

/-- Whether a name is like those that are made up. -/
def looksMadeUp (name : String) : Bool :=
  startsWith name "$" || startsWith name "_" || startsWith name "api_" || startsWith name "stc"

/-- The names of an iteration are clear of each other, of reserved words and of names that are made up. -/
structure Template.Iteration.IsClear (loop : Iteration) : Prop where
  distinct : loop.index ≠ some loop.item
  allowed : ∀ name ∈ loop.names, name ∉ moduleReservedWords
  own : ∀ name ∈ loop.names, looksMadeUp name = false

/-- The iteration that a node is. -/
def Template.Node.iteration? : Node → Option Iteration
  | .iteration _ _ loop _ => some loop
  | _ => none

/-- The iterations of a template. -/
def Template.iterations (t : Template) : List Iteration :=
  (allNodes t.nodes).filterMap Node.iteration?

/-! ## Names that are made up -/

theorem looksMadeUp_localName (helper : Helper) : looksMadeUp helper.localName = true := by
  cases helper <;> decide

theorem looksMadeUp_nameAt (kind : HoistKind) (n : Nat) : looksMadeUp (kind.nameAt n) = true := by
  cases kind <;> simp [looksMadeUp, startsWith, HoistKind.nameAt, String.toList_append, List.isPrefixOf]

theorem looksMadeUp_of_underscore {name : String} (h : name.toList.head? = some '_') : looksMadeUp name = true := by
  have hstart : startsWith name "_" = true := by
    unfold startsWith
    cases hname : name.toList with
    | nil => simp [hname] at h
    | cons c cs =>
      rw [hname] at h
      obtain rfl := Option.some.inj h
      simp [List.isPrefixOf]
  simp [looksMadeUp, hstart]

namespace CompilesTo

variable {config : Config} {source : String} {t : Template} {m : RenderModule}

theorem looksMadeUp_of_mentioned (h : CompilesTo config source t m) {name : String}
    (hname : name ∈ m.body.mentions.names) : looksMadeUp name = true := by
  by_cases himport : name ∈ m.importNames
  · obtain ⟨c, hc, hhead⟩ := h.fits.haveLetters_importNames name himport
    rw [List.mem_singleton.1 hc] at hhead
    exact looksMadeUp_of_underscore hhead
  · have hdeclared : name ∈ m.hoists.names := by
      rw [h.isExact.declarations, List.mem_eraseDups, List.mem_filter]
      exact ⟨hname, by simpa using himport⟩
    obtain ⟨hoist, hhoist, rfl⟩ := List.mem_map.1 hdeclared
    obtain ⟨n, -, heq⟩ := h.fits.noted.sound.numbered hoist hhoist
    rw [heq]
    exact looksMadeUp_nameAt _ _

/-- All names that something in the body uses are made up. -/
theorem looksMadeUp_of_used (h : CompilesTo config source t m) {body : Value} (hbody : body ∈ m.body.all)
    {name : String} (hname : name ∈ body.usedNames) : looksMadeUp name = true := by
  simp only [Value.usedNames, List.mem_append] at hname
  rcases hname with (hname | hname) | hname
  · revert hname
    revert name
    decide
  · obtain ⟨helper, -, rfl⟩ := List.mem_map.1 hname
    exact looksMadeUp_localName helper
  · refine h.looksMadeUp_of_mentioned ?_
    rw [Value.mentions_eq] at hname ⊢
    obtain ⟨w, hw, hreference⟩ := List.mem_filterMap.1 hname
    exact List.mem_filterMap.2 ⟨w, Value.all_subset _ _ hbody hw, hreference⟩

end CompilesTo

/-! ## Functions -/

namespace Render

variable {sources : Sources} {table : HoistTable} {locals : List String}

/-- An iteration that is shown is rendered by a call with its function. -/
theorem render_iteration {id : Nat} {p : Text.Position} {loop : Iteration} {children : List Node} {v : Value}
    (h : NodeRenders sources table locals (.iteration id p loop children) v)
    (hfragment : sources.isFragment (.iteration id p loop children) = false) :
    ∃ body, v = .call Helper.iterator.localName [exprValue locals loop.iterable, .function loop.names body] := by
  simp only [NodeRenders] at h
  rcases h.cases with ⟨facts, hf, -⟩ | ⟨facts, -, -, values, -, rfl⟩
  · rw [hfragment] at hf
    cases hf
  · exact ⟨_, rfl⟩

end Render

theorem mark_iteration? (mode : RenderMode) (n : Node) : (n.mark mode).iteration? = n.iteration? := by
  cases n <;> rfl

namespace CompilesTo

variable {config : Config} {source : String} {t : Template} {m : RenderModule}

theorem exists_iteration (h : CompilesTo config source t m) {parameters : List String} {body : Value}
    (hm : .function parameters body ∈ m.body.all) : ∃ loop ∈ t.iterations, parameters = loop.names := by
  obtain ⟨n, hn, locals, v, hrender, hv⟩ := h.rendersOneOf_body hm rfl
  rcases hv with rfl | ⟨iterable, rfl⟩
  · obtain ⟨helper, arguments, heq, -⟩ := call_of_render hrender rfl
    cases heq
  · obtain ⟨id, p, loop, children, body', rfl, heq⟩ := function_of_render hrender
    obtain ⟨n₀, hn₀, hmark, -⟩ := h.facts (shownNodes_subset_allNodes _ _ hn)
    refine ⟨loop, List.mem_filterMap.2 ⟨n₀, hn₀, ?_⟩, (Value.function.inj heq).1⟩
    rw [← mark_iteration? t.config.renderMode, ← hmark]
    rfl

theorem exists_function (h : CompilesTo config source t m) {loop : Iteration} (hloop : loop ∈ t.iterations) :
    ∃ body, .function loop.names body ∈ m.body.all := by
  obtain ⟨n₀, hn₀, hloop⟩ := List.mem_filterMap.1 hloop
  have hn : n₀.mark t.config.renderMode ∈ allNodes t.mark.nodes := by
    rw [show allNodes t.mark.nodes = _ from allNodes_markNodes _ _]
    exact List.mem_map_of_mem hn₀
  rw [← mark_iteration? t.config.renderMode] at hloop
  generalize n₀.mark t.config.renderMode = n at hn hloop
  have hfree : ¬ InFragment t.sources.isFragment (allNodes t.mark.nodes) n := by
    refine h.not_inFragment fun n₁ heq => ?_
    rw [heq, mark_iteration?] at hloop
    cases n₁ with
    | iteration id p loop children => rfl
    | _ => cases hloop
  obtain ⟨hfragment, locals, w, hw, hrender⟩ := h.renderedIn_body hn hfree
  cases n with
  | iteration id p loop children =>
    obtain rfl := Option.some.inj hloop
    obtain ⟨body, rfl⟩ := render_iteration hrender hfragment
    exact ⟨body, Value.all_subset _ _ hw (by simp [Value.all, Value.allOf])⟩
  | _ => cases hloop

theorem isHygienic (h : CompilesTo config source t m) {loop : Iteration} (hclear : loop.IsClear) {body : Value}
    (hm : .function loop.names body ∈ m.body.all) : Value.IsHygienic loop.names body := by
  have hbody : body ∈ m.body.all := Value.all_subset _ _ hm (List.mem_cons_of_mem _ body.self_mem_all)
  constructor
  case distinct =>
    cases hindex : loop.index with
    | none => simp [Iteration.names, hindex]
    | some index =>
      have hne : loop.item ≠ index := fun heq => hclear.distinct (by rw [hindex, heq])
      simpa [Iteration.names, hindex] using hne
  case allowed => exact hclear.allowed
  case hidesNothing =>
    intro name hname hused
    have hlooks := h.looksMadeUp_of_used hbody hused
    rw [hclear.own name hname] at hlooks
    cases hlooks

end CompilesTo

/-- Wherever compiling gives code, the functions of the module are those of the iterations of the template, with the
names that they bind, and the function of an iteration with clear names is hygienic. -/
theorem compile_functions {config : Config} {source code : String} {output : Output}
    (h : compile config source = .ok output) (hcode : output.code = some code) :
    ∃ t m, CompilesTo config source t m ∧ code = m.text ∧
      (∀ parameters body, .function parameters body ∈ m.body.all → ∃ loop ∈ t.iterations,
        parameters = loop.names ∧ (loop.IsClear → Value.IsHygienic parameters body)) ∧
      ∀ loop ∈ t.iterations, ∃ body, .function loop.names body ∈ m.body.all := by
  obtain ⟨t, m, hm, rfl⟩ := compile_code_iff.1 ⟨output, h, hcode⟩
  refine ⟨t, m, hm, rfl, fun parameters body hfunction => ?_, fun loop hloop => hm.exists_function hloop⟩
  obtain ⟨loop, hloop, rfl⟩ := hm.exists_iteration hfunction
  exact ⟨loop, hloop, rfl, fun hclear => hm.isHygienic hclear hfunction⟩

/-! ## Functions of single templates -/

/-- The parameters and the body of a function. -/
def Render.Value.function? : Value → Option (List String × Value)
  | .function parameters body => some (parameters, body)
  | _ => none

/-- The functions of a module, with the texts of their bodies. -/
def Render.RenderModule.functions (m : RenderModule) : List (List String × String) :=
  (m.body.all.filterMap Value.function?).map fun function => (function.1, function.2.text)

theorem Render.RenderModule.exists_of_mem_functions {m : RenderModule} {parameters : List String} {text : String}
    (h : (parameters, text) ∈ m.functions) : ∃ body, .function parameters body ∈ m.body.all ∧ body.text = text := by
  obtain ⟨⟨parameters, body⟩, hf, heq⟩ := List.mem_map.1 h
  cases heq
  obtain ⟨v, hv, hfunction⟩ := List.mem_filterMap.1 hf
  cases v with
  | function parameters' body' =>
    cases hfunction
    exact ⟨body, hv, rfl⟩
  | _ => cases hfunction

/-- The function of an iteration with a clear name. -/
theorem compile_functions_clear :
    ∃ (output : Output) (m : RenderModule),
      compile {} "<template><p for:each={items} for:item=\"item\" key={item.id}></p></template>" = .ok output ∧
      output.code = some m.text ∧ ∃ body, .function ["item"] body ∈ m.body.all ∧ Value.IsHygienic ["item"] body := by
  have hfunctions : (compiled? {} "<template><p for:each={items} for:item=\"item\" key={item.id}></p></template>").map
      (fun result => result.2.functions) =
        some [(["item"], "[api_element(\"p\", { key: api_key(0, item.id) }, [], 0)]")] := by
    decide +kernel
  obtain ⟨t, m, hm, hfunctions⟩ := exists_compilesTo hfunctions
  obtain ⟨output, houtput, hcode⟩ := hm.code
  obtain ⟨t', m', hm', -, hclear, -⟩ := compile_functions houtput hcode
  obtain rfl := Except.ok.inj (hm.parsed.symm.trans hm'.parsed)
  obtain rfl := Except.ok.inj (hm.rendered.symm.trans hm'.rendered)
  obtain ⟨body, hbody, -⟩ := RenderModule.exists_of_mem_functions (hfunctions ▸ List.mem_cons_self)
  obtain ⟨loop, -, hnames, hclear⟩ := hclear _ _ hbody
  have hindex : loop.index = none := by
    have hrest := (List.cons.inj hnames).2
    cases hi : loop.index with
    | none => rfl
    | some index => simp [hi] at hrest
  refine ⟨output, m, houtput, hcode, body, hbody, hclear ⟨by simp [hindex], ?_, ?_⟩⟩
  · rw [← hnames]
    decide
  · rw [← hnames]
    decide

/-- Functions that are not hygienic: one takes a word that is no name, one takes a name twice, and one takes the name
that its body reads the title off. -/
theorem compile_functions_not_hygienic :
    (∃ output t m, compile {} "<template><p for:each={items} for:item=\"class\" key={k}></p></template>" = .ok output ∧
      CompilesTo {} "<template><p for:each={items} for:item=\"class\" key={k}></p></template>" t m ∧
      output.code = some m.text ∧
      ∃ body, .function ["class"] body ∈ m.body.all ∧ ¬ Value.IsHygienic ["class"] body) ∧
    (∃ output t m,
      compile {} "<template><p for:each={items} for:item=\"x\" for:index=\"x\" key={x.id}></p></template>" = .ok output ∧
      CompilesTo {} "<template><p for:each={items} for:item=\"x\" for:index=\"x\" key={x.id}></p></template>" t m ∧
      output.code = some m.text ∧
      ∃ body, .function ["x", "x"] body ∈ m.body.all ∧ ¬ Value.IsHygienic ["x", "x"] body) ∧
    ∃ output t m,
      compile {} "<template><p for:each={items} for:item=\"$cmp\" key={$cmp.id}>{title}</p></template>" = .ok output ∧
      CompilesTo {} "<template><p for:each={items} for:item=\"$cmp\" key={$cmp.id}>{title}</p></template>" t m ∧
      output.code = some m.text ∧
      ∃ body, .function ["$cmp"] body ∈ m.body.all ∧ ¬ Value.IsHygienic ["$cmp"] body ∧
        body.text = "[api_element(\"p\", { key: api_key(0, $cmp.id) }, " ++
          "[api_text(api_dynamic_text($cmp.title))], 128)]" := by
  refine ⟨?word, ?twice, ?captured⟩
  case word =>
    have hfunctions : (compiled? {} "<template><p for:each={items} for:item=\"class\" key={k}></p></template>").map
        (fun result => result.2.functions) =
          some [(["class"], "[api_element(\"p\", { key: api_key(0, $cmp.k) }, [], 0)]")] := by
      decide +kernel
    obtain ⟨t, m, hm, hfunctions⟩ := exists_compilesTo hfunctions
    obtain ⟨output, houtput, hcode⟩ := hm.code
    obtain ⟨body, hbody, -⟩ := RenderModule.exists_of_mem_functions (hfunctions ▸ List.mem_cons_self)
    exact ⟨output, t, m, houtput, hm, hcode, body, hbody, fun h => h.allowed "class" (by simp) (by decide)⟩
  case twice =>
    have hfunctions : (compiled? {}
        "<template><p for:each={items} for:item=\"x\" for:index=\"x\" key={x.id}></p></template>").map
        (fun result => result.2.functions) =
          some [(["x", "x"], "[api_element(\"p\", { key: api_key(0, x.id) }, [], 0)]")] := by
      decide +kernel
    obtain ⟨t, m, hm, hfunctions⟩ := exists_compilesTo hfunctions
    obtain ⟨output, houtput, hcode⟩ := hm.code
    obtain ⟨body, hbody, -⟩ := RenderModule.exists_of_mem_functions (hfunctions ▸ List.mem_cons_self)
    exact ⟨output, t, m, houtput, hm, hcode, body, hbody, fun h => by simpa using h.distinct⟩
  case captured =>
    have hfunctions : (compiled? {}
        "<template><p for:each={items} for:item=\"$cmp\" key={$cmp.id}>{title}</p></template>").map
        (fun result => result.2.functions) =
          some [(["$cmp"], "[api_element(\"p\", { key: api_key(0, $cmp.id) }, " ++
            "[api_text(api_dynamic_text($cmp.title))], 128)]")] := by
      decide +kernel
    obtain ⟨t, m, hm, hfunctions⟩ := exists_compilesTo hfunctions
    obtain ⟨output, houtput, hcode⟩ := hm.code
    obtain ⟨body, hbody, htext⟩ := RenderModule.exists_of_mem_functions (hfunctions ▸ List.mem_cons_self)
    refine ⟨output, t, m, houtput, hm, hcode, body, hbody, fun h => ?_, htext⟩
    exact h.hidesNothing "$cmp" (by simp) (by simp [Value.usedNames])

end TemplateCompiler
