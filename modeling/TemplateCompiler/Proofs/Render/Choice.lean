import TemplateCompiler.Proofs.Render.EveryNode
import TemplateCompiler.Proofs.Render.Preamble
import TemplateCompiler.Proofs.Template.Branches
/-!
# Choices of conditionals

What a conditional of a module comes to once it is known which of its tests hold: the list of the first branch whose
test does, as the document orders them. `compile_decides` says so of every `lwc:if` with the branches behind it, and of every
element with a condition of its own; a branch that no conditional takes is reported.
-/

namespace TemplateCompiler

open Text Binding Template Render
open Markup (SiblingsWithin LeavesOpen Branch laterBranches)

/-! ## Values once the tests are decided -/

namespace Render

/-- Which sources hold. An exclamation mark in front of a source negates it. -/
structure Truth where
  holds : String → Bool
  negation : ∀ source, holds ("!" ++ source) = !holds source

/-- Whether a source holds if `base` says so of the sources without an exclamation mark in front. -/
def holdsOver (base : String → Bool) : List Char → Bool
  | '!' :: source => !holdsOver base source
  | source => base (String.ofList source)

/-- Any choice for the sources without an exclamation mark in front decides all sources. -/
def Truth.over (base : String → Bool) : Truth where
  holds source := holdsOver base source.toList
  negation source := by
    rw [String.toList_append]
    rfl

/-- What is left of a value when its conditionals are decided. -/
def Value.selected (truth : Truth) : Value → Value
  | .conditional (.raw test) consequent alternate =>
    if truth.holds test then consequent.selected truth else alternate.selected truth
  | v => v

theorem selected_arrayOf (truth : Truth) (nodes : List Node) (values : List Value) :
    (arrayOf nodes values).selected truth = arrayOf nodes values := by
  unfold arrayOf
  split <;> rfl

/-- The list that is shown: the first one whose test holds, or that has no test. -/
def firstShown (truth : Truth) (locals : List String) : List (Option Expr × Value) → Value
  | [] => .array []
  | (none, list) :: _ => list
  | (some test, list) :: more =>
    if truth.holds (test.toJs locals) then list else firstShown truth locals more

end Render

/-! ## Lists for elements -/

namespace Template

variable (t : Template) (m : RenderModule) (locals : List String)

/-- A module has the list for the nodes, which stand inside iterations that bind `locals`. -/
def ListsNodes (nodes : List Node) (list : Value) : Prop :=
  ∃ values, NodesRender t.sources m.hoists locals (fun _ => true) (markNodes t.config.renderMode nodes) values ∧
    list = arrayOf (markNodes t.config.renderMode nodes) values

/-- A module has the list for an element that is a branch. -/
def Lists (b : Branch) (list : Value) : Prop :=
  ∃ nodes, ElementBecomesIn t.config t.draft b.element b.children nodes ∧ t.ListsNodes m locals nodes list

variable {t m locals}

/-- The value of a chain comes to the list of the first branch whose test holds. -/
theorem BranchesBecome.selected {branches : List Branch} {chain : Chain}
    (h : BranchesBecome t.config t.draft branches chain) {v : Value}
    (hv : ChainRenders t.sources m.hoists locals (chain.mark t.config.renderMode) v) :
    ∃ lists, List.Forall₂ (t.Lists m locals) branches lists ∧
      ∀ truth, v.selected truth = firstShown truth locals ((branches.map Branch.test?).zip lists) := by
  induction h generalizing v with
  | done =>
    simp only [Chain.mark, ChainRenders] at hv
    subst hv
    exact ⟨[], .nil, fun truth => rfl⟩
  | otherwise hcontent =>
    simp only [Chain.mark, ChainRenders] at hv
    obtain ⟨values, hvalues, rfl⟩ := hv
    exact ⟨[_], .cons ⟨_, hcontent, values, hvalues, rfl⟩ .nil, fun truth => selected_arrayOf truth _ values⟩
  | branch hcontent _ ih =>
    simp only [Chain.mark, ChainRenders] at hv
    obtain ⟨values, alternate, hvalues, halternate, rfl⟩ := hv
    obtain ⟨lists, hlists, hselected⟩ := ih halternate
    refine ⟨_ :: lists, .cons ⟨_, hcontent, values, hvalues, rfl⟩ hlists, fun truth => ?_⟩
    simp [Value.selected, firstShown, selected_arrayOf, hselected]

/-- Of three lists the second one is shown if only its test holds. -/
example (x y z : Value) : firstShown (.over (· == "$cmp.b")) []
    [(some (.identifier "a"), x), (some (.identifier "b"), y), (none, z)] = y := by
  rfl

theorem selected_alone {test : Expr} {negate : Bool} {nodes : List Node} {v : Value}
    (hv : ChainRenders t.sources m.hoists locals
      ((Chain.branch test negate nodes .done).mark t.config.renderMode) v) :
    ∃ list, t.ListsNodes m locals nodes list ∧
      ∀ truth, v.selected truth = if truth.holds (test.toJs locals) = negate then .array [] else list := by
  simp only [Chain.mark, ChainRenders] at hv
  obtain ⟨values, alternate, hvalues, rfl, rfl⟩ := hv
  refine ⟨_, ⟨values, hvalues, rfl⟩, fun truth => ?_⟩
  cases negate <;> cases hholds : truth.holds (test.toJs locals) <;>
    simp [Value.selected, selected_arrayOf, truth.negation, hholds]

end Template

/-- A conditional of the template is rendered by a value in the body of the module. -/
theorem CompilesTo.rendered_conditional {config : Config} {source : String} {t : Template} {m : RenderModule}
    (h : CompilesTo config source t m) {id : Nat} {p : Position} {chain : Chain}
    (hn : .conditional id p chain ∈ allNodes t.nodes) :
    ∃ v ∈ m.body.all, ∃ locals, ChainRenders t.sources m.hoists locals (chain.mark t.config.renderMode) v := by
  have hmarked : (Node.conditional id p chain).mark t.config.renderMode ∈ allNodes t.mark.nodes := by
    rw [show allNodes t.mark.nodes = _ from allNodes_markNodes _ _]
    exact List.mem_map_of_mem hn
  have hfree : ¬ InFragment t.sources.isFragment (allNodes t.mark.nodes)
      ((Node.conditional id p chain).mark t.config.renderMode) := by
    refine h.not_inFragment fun n heq => ?_
    cases n with
    | conditional id p chain => rfl
    | _ => simp [Node.mark] at heq
  obtain ⟨hfragment, locals, v, hv, hrender⟩ := h.renderedIn_body hmarked hfree
  refine ⟨v, hv, locals, ?_⟩
  simp only [Node.mark, NodeRenders] at hrender
  rcases hrender.cases with ⟨facts, hf, -⟩ | ⟨facts, -, -, hchain⟩
  · rw [Node.mark] at hfragment
    rw [hfragment] at hf
    cases hf
  · exact hchain

/-! ## Conditionals of a document -/

/-- A module decides the conditionals of a document, where `children` are those of the root element. -/
structure Template.Decides (t : Template) (m : RenderModule) (children : List Markup.Node) : Prop where
  /-- Of an `lwc:if` and the branches behind it, the first one is shown whose test holds. -/
  chains : ∀ {keepBlanks : Bool} {docs : List Markup.Node}, SiblingsWithin false children keepBlanks docs →
    ∀ {front rest content : List Markup.Node} {e : Markup.Element} {test : Expr},
      docs = front ++ .element e content :: rest → e.condition? = some (.first test) →
      let branches := ⟨some test, e, content⟩ :: laterBranches t.config keepBlanks rest
      ∃ id p chain, .conditional id p chain ∈ allNodes t.nodes ∧ BranchesBecome t.config t.draft branches chain ∧
        ∃ v ∈ m.body.all, ∃ locals, ChainRenders t.sources m.hoists locals (chain.mark t.config.renderMode) v ∧
          ∃ lists, List.Forall₂ (t.Lists m locals) branches lists ∧
            ∀ truth, v.selected truth = firstShown truth locals ((branches.map Branch.test?).zip lists)
  /-- An element with `if:true` is shown if its test holds, and one with `if:false` if it does not. -/
  alone : ∀ {keepBlanks : Bool} {docs : List Markup.Node}, SiblingsWithin false children keepBlanks docs →
    ∀ {content : List Markup.Node} {e : Markup.Element} {test : Expr} {negate : Bool},
      .element e content ∈ docs → e.condition? = some (.alone test negate) →
      ∃ id p body, .conditional id p (.branch test negate body .done) ∈ allNodes t.nodes ∧
        BareBecomesIn t.config t.draft e content body ∧
        ∃ v ∈ m.body.all, ∃ locals,
          ChainRenders t.sources m.hoists locals ((Chain.branch test negate body .done).mark t.config.renderMode) v ∧
          ∃ list, t.ListsNodes m locals body list ∧
            ∀ truth, v.selected truth = if truth.holds (test.toJs locals) = negate then .array [] else list

/-- Every branch that stands where no conditional is open is reported. -/
def Template.ReportsStray (t : Template) (children : List Markup.Node) : Prop :=
  ∀ {keepBlanks : Bool} {docs : List Markup.Node}, SiblingsWithin false children keepBlanks docs →
    ∀ {front rest content : List Markup.Node} {e : Markup.Element} {isElse : Bool},
      docs = front ++ .element e content :: rest → e.IsBranch isElse → ¬ LeavesOpen t.config keepBlanks front →
      ∃ d ∈ t.diagnostics, d = (Problem.branchWithoutIf isElse).diagnostic e.position ∧
        d.code = .invalidDirectiveUsage

theorem Template.reportsStray {config : Config} {document children : List Markup.Node} {e : Markup.Element}
    (hroot : root document = .ok (e, children)) : (ofDocument config document).ReportsStray children := by
  intro keepBlanks docs hwithin front rest content e isElse hdocs hbranch hopen
  subst hdocs
  obtain ⟨place, low, high, nodes, hblanks, hbecome, -⟩ := (ofDocument_becomes config hroot).within hwithin rfl
  exact ⟨_, hbecome.reports_stray hbranch (by rwa [hblanks]), rfl, rfl⟩

theorem CompilesTo.decides {config : Config} {source : String} {document children : List Markup.Node}
    {e : Markup.Element} {m : RenderModule} (h : CompilesTo config source (ofDocument config document) m)
    (hroot : root document = .ok (e, children)) : (ofDocument config document).Decides m children := by
  have hclean : (ofDocument config document).draft.IsClean := h.noErrors
  constructor
  case chains =>
    intro keepBlanks docs hwithin front rest content e test hdocs hcondition
    subst hdocs
    obtain ⟨place, low, high, nodes, hblanks, hbecome, hsub⟩ := (ofDocument_becomes config hroot).within hwithin rfl
    obtain ⟨id, p, chain, hmem, hbranches⟩ := hbecome.exists_conditional hcondition
    rw [hblanks] at hbranches
    have hn := hsub hclean hmem
    obtain ⟨v, hv, locals, hrender⟩ := h.rendered_conditional hn
    exact ⟨id, p, chain, hn, hbranches, v, hv, locals, hrender, hbranches.selected hrender⟩
  case alone =>
    intro keepBlanks docs hwithin content e test negate hmem hcondition
    obtain ⟨front, rest, rfl⟩ := List.append_of_mem hmem
    obtain ⟨place, low, high, nodes, -, hbecome, hsub⟩ := (ofDocument_becomes config hroot).within hwithin rfl
    obtain ⟨id, p, body, hmem, hbare⟩ := hbecome.exists_alone hclean hcondition
    have hn := hsub hclean hmem
    obtain ⟨v, hv, locals, hrender⟩ := h.rendered_conditional hn
    exact ⟨id, p, body, hn, hbare, v, hv, locals, hrender, selected_alone hrender⟩

/-- In a document with a root element, a branch is reported wherever no conditional is open, and if nothing has an error
there is a module that decides the conditionals. -/
theorem compile_decides (config : Config) {source : String} {document children : List Markup.Node} {e : Markup.Element}
    (hread : Markup.parse source.toList = .ok document) (hroot : root document = .ok (e, children)) :
    (ofDocument config document).ReportsStray children ∧
      ((ofDocument config document).hasErrors = false →
        ∃ m, CompilesTo config source (ofDocument config document) m ∧
          (ofDocument config document).Decides m children) := by
  refine ⟨reportsStray hroot, fun hclean => ?_⟩
  obtain ⟨m, hm, -⟩ := renderModule_ok config document source
  have hcompiles : CompilesTo config source (ofDocument config document) m := by
    refine ⟨?_, hclean, hm⟩
    rw [Template.parse, hread]
    rfl
  exact ⟨m, hcompiles, hcompiles.decides hroot⟩

/-- A conditional with a blank between two of its branches, and an element with a condition of its own. -/
theorem compile_decides_branches :
    ∃ (document children : List Markup.Node) (e : Markup.Element) (m : RenderModule),
      (Markup.parse ("<template><p lwc:if={a}>A</p> <b lwc:elseif={b}>B</b><i lwc:else>C</i>" ++
        "<u if:false={c}></u></template>").toList) = .ok document ∧
      root document = .ok (e, children) ∧ (ofDocument {} document).ReportsStray children ∧
      (ofDocument {} document).Decides m children ∧
      m.body.text = "api_flatten([$cmp.a ? [api_static_fragment($fragment1(), 0, 64)] : " ++
        "$cmp.b ? [api_static_fragment($fragment2(), 1, 64)] : [api_static_fragment($fragment3(), 2, 64)], " ++
        "!$cmp.c ? [api_static_fragment($fragment4(), 3, 64)] : []])" := by
  have htext : (compiled? {} ("<template><p lwc:if={a}>A</p> <b lwc:elseif={b}>B</b><i lwc:else>C</i>" ++
      "<u if:false={c}></u></template>")).map (fun result => result.2.body.text) =
      some ("api_flatten([$cmp.a ? [api_static_fragment($fragment1(), 0, 64)] : " ++
        "$cmp.b ? [api_static_fragment($fragment2(), 1, 64)] : [api_static_fragment($fragment3(), 2, 64)], " ++
        "!$cmp.c ? [api_static_fragment($fragment4(), 3, 64)] : []])") := by
    decide +kernel
  obtain ⟨t, m, hm, htext⟩ := exists_compilesTo htext
  obtain ⟨document, hread, rfl⟩ := exists_ofDocument hm.parsed
  obtain ⟨e, children, hroot⟩ := exists_root_of_isClean hm.noErrors
  obtain ⟨hstray, hdecides⟩ := compile_decides {} hread hroot
  obtain ⟨m', hm', hdecides⟩ := hdecides hm.noErrors
  obtain rfl := Except.ok.inj (hm.rendered.symm.trans hm'.rendered)
  exact ⟨document, children, e, m, hread, hroot, hstray, hdecides, htext⟩

end TemplateCompiler
