import TemplateCompiler.Proofs.Markup.RenamedSource
import TemplateCompiler.Proofs.Render.Modules
import TemplateCompiler.Proofs.Render.Unplaced
import TemplateCompiler.Proofs.Template.Authored
import TemplateCompiler.Proofs.Template.Iterated
import TemplateCompiler.Proofs.Template.Renamed
/-!
# Templates that differ in a directive

Where an `if:true` is replaced by `lwc:if` in a document, on elements that are not iterated themselves, a template that has
no errors still has none, its module is the same, and the only diagnostics that are gone are the warnings of `if:true`
(`compile_of_renamed`). Where it is replaced in a source that compiles, the document is such a one (`compile_renamed`).
-/

namespace TemplateCompiler

/-! ## Root elements -/

namespace Markup

theorem Counted.filter {α β : Type} {R : Nat → α → β → Prop} {p : α → Bool} {q : β → Bool}
    {k : Nat} {as : List α} {bs : List β} (h : Counted R k as bs) (hsame : ∀ k a b, R k a b → q b = p a)
    (hnone : ∀ k a b, R k a b → p a = false → k = 0) : Counted R k (as.filter p) (bs.filter q) := by
  induction h with
  | nil => exact .nil
  | @cons j k a b as bs head tail ih =>
    rw [List.filter_cons, List.filter_cons, hsame _ _ _ head]
    by_cases ha : p a = true
    · rw [if_pos ha, if_pos ha]
      exact .cons head ih
    · rw [if_neg ha, if_neg ha, hnone _ _ _ head (by simpa using ha), Nat.zero_add]
      exact ih

end Markup

namespace Template

open Markup (Counted NodesRenamed)

theorem isSignificant_renamed {allowed : Markup.Element → Prop} {k : Nat} {n n' : Markup.Node}
    (h : n.Renamed allowed k n') : isSignificant n' = isSignificant n := by
  cases h <;> rfl

theorem eq_zero_of_not_significant {allowed : Markup.Element → Prop} {k : Nat} {n n' : Markup.Node}
    (h : n.Renamed allowed k n') (hn : isSignificant n = false) :
    k = 0 := by
  cases h <;> first | rfl | cases hn

/-- The root elements of the two documents are alike. -/
theorem root_renamed {allowed : Markup.Element → Prop} {k : Nat} {document document' : List Markup.Node}
    (h : NodesRenamed allowed k document document') {e : Markup.Element} {children : List Markup.Node}
    (hroot : root document = .ok (e, children)) :
    ∃ i j e' children', root document' = .ok (e', children') ∧ e.Renamed allowed i e' ∧
      NodesRenamed allowed j children children' ∧ k = i + j := by
  have hfilter := h.filter (fun _ _ _ => isSignificant_renamed) fun _ _ _ => eq_zero_of_not_significant
  unfold root at hroot ⊢
  generalize document'.filter isSignificant = significant at hfilter ⊢
  split at hroot
  case h_2 n hn =>
    rw [hn] at hfilter
    cases hfilter with
    | @cons k l _ n' _ _ head tail =>
      cases tail
      cases head with
      | @element i j e₀ e' children₀ children' tag content =>
        dsimp only at hroot ⊢
        rw [tag.tag]
        split at hroot
        case isTrue htag =>
          cases hroot
          exact ⟨i, j, e', children', by rw [if_pos htag], tag, content, rfl⟩
        case isFalse => cases hroot
      | text => cases hroot
      | comment => cases hroot
  all_goals cases hroot

/-- Where nothing is wrong with the attributes of the root element, none of them is renamed. -/
theorem rootAttributes_renamed {j : Nat} {as as' : List Markup.Attribute}
    (h : Counted Markup.Attribute.Renamed j as as') (config : Config) (hclean : (rootAttributes config as).2 = []) :
    j = 0 ∧ rootAttributes config as' = rootAttributes config as := by
  induction h generalizing config with
  | nil => exact ⟨rfl, rfl⟩
  | @cons i j a a' as as' head tail ih =>
    rw [rootAttributes] at hclean ⊢
    cases hroot : rootAttribute config a with
    | error problem =>
      rw [hroot] at hclean
      cases hclean
    | ok config' =>
      rw [hroot] at hclean
      obtain ⟨rfl, hrest⟩ := ih config' hclean
      cases head with
      | kept _ position =>
        have hroot' : rootAttribute config { a with position } = .ok config' := hroot
        rw [rootAttributes, hroot', hroot]
        exact ⟨rfl, hrest⟩
      | renamed name =>
        unfold rootAttribute at hroot
        rw [name] at hroot
        cases hroot

/-- The template of a document where some attributes are renamed has the same nodes, and only their warnings are
missing. -/
theorem ofDocument_renamed (config : Config) {k : Nat} {document document' : List Markup.Node}
    (h : NodesRenamed Markup.Element.IsOnce k document document') (hclean : (ofDocument config document).draft.IsClean) :
    (ofDocument config document).SameNodes (ofDocument config document') ∧
      Diagnostic.Dropped k (ofDocument config document).diagnostics (ofDocument config document').diagnostics := by
  obtain ⟨e, children, hroot⟩ := exists_root_of_isClean hclean
  obtain ⟨i, j, e', children', hroot', he, hchildren, rfl⟩ := root_renamed h hroot
  have hnone := hclean.eq_nil (fun d hd => rootAttributes_isError _ hd) (diagnostics_of_root hroot)
  obtain ⟨rfl, hattributes⟩ := rootAttributes_renamed he.attributes config hnone
  have hbuilt := follows_buildSiblings (rootAttributes config e.attributes).1 children hchildren
    (rootPlace (rootAttributes config e.attributes).1) (@Or.inl (none = none) (none = none) rfl)
  unfold Template.ofDocument at hclean ⊢
  rw [hroot] at hclean ⊢
  rw [hroot']
  dsimp only at hclean ⊢
  rw [hattributes]
  rw [hnone] at hclean ⊢
  obtain ⟨hdraft, hview⟩ := hbuilt.agree (⟨rfl, rfl, .nil⟩ : Draft.Renamed 0 {} {}) hclean
  refine ⟨⟨rfl, hdraft.slots, congrArg Prod.snd hview, fun id => ?_⟩, hdraft.diagnostics⟩
  exact congrArg Option.isNone (iteration?_of_frames hdraft.frames id)

/-! ## Tokens -/

theorem rootAttributes_token (config : Config) (attributes : List Markup.Attribute) :
    (rootAttributes config attributes).1.scopedStyles = config.scopedStyles ∧
      (rootAttributes config attributes).1.componentName = config.componentName := by
  induction attributes generalizing config with
  | nil => exact ⟨rfl, rfl⟩
  | cons a rest ih =>
    rw [rootAttributes]
    split
    · rename_i config' hroot
      have hsame : config'.scopedStyles = config.scopedStyles ∧ config'.componentName = config.componentName := by
        unfold rootAttribute at hroot
        split at hroot
        · split at hroot <;> cases hroot
          exact ⟨rfl, rfl⟩
        · split at hroot <;> cases hroot
          exact ⟨rfl, rfl⟩
        · cases hroot
      rw [← hsame.1, ← hsame.2]
      exact ih config'
    · exact ih config

theorem ofDocument_token (config : Config) (document : List Markup.Node) :
    (ofDocument config document).config.scopedStyles = config.scopedStyles ∧
      (ofDocument config document).config.componentName = config.componentName := by
  unfold ofDocument
  split
  · exact ⟨rfl, rfl⟩
  · exact rootAttributes_token config _

end Template

open Template

/-- The token of scoped styles does not depend on the source. -/
def Config.HasOwnToken (config : Config) : Prop :=
  config.scopedStyles = true → config.componentName.isSome = true

theorem Config.HasOwnToken.token?_eq {config : Config} (h : config.HasOwnToken) (document : List Markup.Node)
    (source source' : String) : (ofDocument config document).token? source' = (ofDocument config document).token? source := by
  obtain ⟨hscoped, hname⟩ := ofDocument_token config document
  unfold Template.token?
  rw [hscoped, hname]
  split
  · rename_i hstyles
    obtain ⟨name, hname⟩ := Option.isSome_iff_exists.1 (h hstyles)
    simp only [stylesheetToken, hname, Option.getD_some]
  · rfl

/-! ## Compiling -/

theorem Template.toModule_token {t : Template} {analysis : Analysis} {imports : Scoping.ImportTable}
    {token : Option String} {m : Render.RenderModule} (h : t.toModule analysis imports token = .ok m)
    (token' : Option String) : t.toModule analysis imports token' = .ok { m with stylesheetToken := token' } := by
  unfold toModule at h ⊢
  cases hrun : (Render.bodyValue ⟨analysis, t.table, imports⟩ t.nodes).run {} with
  | error error =>
    rw [hrun] at h
    cases h
  | ok result =>
    rw [hrun] at h
    cases h
    rfl

theorem CompilesTo.output_eq {config : Config} {source : String} {t : Template} {m : Render.RenderModule}
    (h : CompilesTo config source t m) :
    compile config source = .ok
      { code := some m.text
        diagnostics := t.diagnostics
        slots := t.slots
        stylesheets := t.config.stylesheets
        imports := t.imports.entries
        ids := t.ids.ids
        stylesheetToken := t.token? source } := by
  unfold compile
  rw [h.parsed]
  unfold Template.compile
  simp only [h.noErrors, h.rendered]
  rfl

/-- The outputs are the same but for the token of the second, which its module has, and `k` warnings of `if:true` that
are missing from the second. -/
structure Output.Renamed (k : Nat) (output output' : Output) : Prop where
  code : ∃ m : Render.RenderModule, output.code = some m.text ∧ m.stylesheetToken = output.stylesheetToken ∧
    output'.code = some ({ m with stylesheetToken := output'.stylesheetToken } : Render.RenderModule).text
  rest : { output' with code := output.code, diagnostics := output.diagnostics, stylesheetToken := output.stylesheetToken } =
    output
  diagnostics : Diagnostic.Dropped k output.diagnostics output'.diagnostics

/-- Where a document compiles to code, one where `if:true` is replaced by `lwc:if` compiles to the same code. -/
theorem compile_of_renamed {config : Config} {source source' code : String} {output : Output}
    (houtput : compile config source = .ok output) (hcode : output.code = some code)
    {document document' : List Markup.Node} (hread : Markup.parse source.toList = .ok document)
    (hread' : Markup.parse source'.toList = .ok document') {k : Nat}
    (hrenamed : Markup.NodesRenamed Markup.Element.IsOnce k document document') :
    ∃ output', compile config source' = .ok output' ∧ output.Renamed k output' ∧
      (config.HasOwnToken → output'.code = output.code) := by
  obtain ⟨t, m, hm, rfl⟩ := compile_code_iff.1 ⟨output, houtput, hcode⟩
  obtain ⟨document₀, hdocument, rfl⟩ := exists_ofDocument hm.parsed
  obtain rfl := Except.ok.inj (hread.symm.trans hdocument)
  obtain ⟨hsame, hdropped⟩ := ofDocument_renamed config hrenamed hm.noErrors
  have hrendered := hsame.toModule_eq ((ofDocument config document').token? source')
  rw [toModule_token hm.rendered] at hrendered
  have hm' : CompilesTo config source' (ofDocument config document')
      { m with stylesheetToken := (ofDocument config document').token? source' } := by
    refine ⟨?_, hdropped.hasErrors_eq_false hm.noErrors, hrendered⟩
    rw [Template.parse, hread']
    rfl
  obtain rfl := Except.ok.inj (houtput.symm.trans hm.output_eq)
  have hself := Except.ok.inj (hm.rendered.symm.trans (toModule_token hm.rendered _))
  refine ⟨_, hm'.output_eq, ⟨⟨m, rfl, congrArg Render.RenderModule.stylesheetToken hself, rfl⟩, ?_, hdropped⟩,
    fun hown => ?_⟩
  · simp only [hsame.slots, hsame.config, hsame.imports, hsame.ids]
  · have htoken : (ofDocument config document').token? source' = (ofDocument config document).token? source := by
      rw [← hown.token?_eq document source source', Template.token?, hsame.config, Template.token?]
    simp only [htoken, ← hself]

/-! ## Tests of elements -/

/-- The attribute is a test that stands alone, or the first one of a chain. -/
def Markup.Attribute.IsTest (a : Markup.Attribute) : Prop :=
  a.name = "if:true" ∨ a.name = "lwc:if"

namespace Template

open Markup (condition_step condition_setCondition)

theorem quoted_of_requiredBinding {a : Markup.Attribute} {test : Binding.Expr} (h : requiredBinding a = .ok test) :
    a.quoted = false := by
  unfold requiredBinding at h
  split at h
  · split at h
    · cases h
    · rename_i hquoted
      simpa using hquoted
  · cases h

namespace Reading

variable {a : Markup.Attribute} {attributes : List Markup.Attribute}

/-- A test is a binding that is made the condition. -/
theorem step_test (h : a.IsTest) (r : Reading) : ∃ (r' : Reading) (f : Binding.Expr → Condition),
    r'.condition = r.condition ∧
      r.step a = r'.withValue a (requiredBinding a) fun r test => r.setCondition a (f test) := by
  rcases h with hname | hname
  · exact ⟨r.report (.deprecated "if:true") a.position, _, rfl, step_alone r hname⟩
  · exact ⟨_, _, rfl, step_first r hname⟩

/-- A test that is read without an error is not quoted, and it is the first condition. -/
theorem clean_test (h : a.IsTest) {r : Reading} (hclean : Diagnostic.hasErrors (r.step a).diagnostics = false) :
    a.quoted = false ∧ r.condition = none ∧ (r.step a).condition.isSome = true := by
  obtain ⟨r', f, hcondition, hstep⟩ := step_test h r
  rw [hstep] at hclean ⊢
  cases hvalue : requiredBinding a with
  | error problem =>
    rw [hvalue, withValue_error, hasErrors_report _ (requiredBinding_isError hvalue)] at hclean
    cases hclean
  | ok test =>
    rw [hvalue, withValue_ok] at hclean
    rw [withValue_ok, condition_setCondition]
    refine ⟨quoted_of_requiredBinding hvalue, ?_, by cases r'.condition <;> rfl⟩
    cases hfirst : r.condition with
    | none => rfl
    | some condition =>
      rw [hasErrors_setCondition_of_isSome (by rw [hcondition, hfirst]; rfl)] at hclean
      cases hclean

/-- The tests among some attributes that are read without an error are not quoted, and there are no two of them. -/
theorem clean_tests {r : Reading} (hclean : Diagnostic.hasErrors (attributes.foldl step r).diagnostics = false) :
    (∀ a ∈ attributes, a.IsTest → a.quoted = false ∧ r.condition = none) ∧
      attributes.Pairwise fun a b => ¬ (a.IsTest ∧ b.IsTest) := by
  induction attributes generalizing r with
  | nil => exact ⟨nofun, .nil⟩
  | cons a attributes ih =>
    have hhere := Diagnostic.hasErrors_of_isPrefix (diagnostics_foldl attributes _) hclean
    obtain ⟨hlater, hpairwise⟩ := ih hclean
    refine ⟨List.forall_mem_cons.2 ⟨fun ha => ?_, fun b hb htest => ?_⟩, .cons ?_ hpairwise⟩
    · obtain ⟨hquoted, hfirst, -⟩ := clean_test ha hhere
      exact ⟨hquoted, hfirst⟩
    · obtain ⟨hquoted, hnone⟩ := hlater b hb htest
      rw [condition_step, Option.or_eq_none_iff] at hnone
      exact ⟨hquoted, hnone.1⟩
    · rintro b hb ⟨ha, htest⟩
      obtain ⟨-, -, hsome⟩ := clean_test ha hhere
      rw [(hlater b hb htest).2] at hsome
      cases hsome

end Reading

end Template

namespace Markup

mutual

theorem Node.map_snd_standings : ∀ (n : Node) (inIteration : Bool), (n.standings inIteration).map Prod.snd = n.elements
  | .element e children, inIteration => by
    rw [Node.standings, Node.elements, List.map_cons, map_snd_standingsOf children]
  | .text .., _ => rfl
  | .comment .., _ => rfl

theorem map_snd_standingsOf : ∀ (nodes : List Node) (inIteration : Bool),
    (standingsOf inIteration nodes).map Prod.snd = elementsOf nodes
  | [], _ => rfl
  | n :: ns, inIteration => by
    rw [standingsOf, elementsOf, List.map_append, n.map_snd_standings, map_snd_standingsOf ns]

end

theorem elementsOf_filter_isSignificant (document : List Node) :
    elementsOf (document.filter Template.isSignificant) = elementsOf document := by
  rw [← map_element_seatsOf _ [], seatsOf_filter_isSignificant, map_element_seatsOf]

end Markup

namespace Template

/-- No attribute that is allowed on the root element is a test. -/
theorem not_isTest_of_rootAttributes {config : Config} {attributes : List Markup.Attribute}
    (h : (rootAttributes config attributes).2 = []) : ∀ a ∈ attributes, ¬ a.IsTest := by
  induction attributes generalizing config with
  | nil => nofun
  | cons a attributes ih =>
    rw [rootAttributes] at h
    cases hroot : rootAttribute config a with
    | error problem =>
      rw [hroot] at h
      cases h
    | ok config' =>
      rw [hroot] at h
      refine List.forall_mem_cons.2 ⟨?_, ih h⟩
      rintro (hname | hname) <;>
      · unfold rootAttribute at hroot
        rw [hname] at hroot
        cases hroot

/-- Without errors, the tests of each element are not quoted, and none has two. -/
theorem ofDocument_tests {config : Config} {document : List Markup.Node}
    (h : (ofDocument config document).hasErrors = false) {e : Markup.Element} (he : e ∈ Markup.elementsOf document) :
    (∀ a ∈ e.attributes, a.IsTest → a.quoted = false) ∧
      e.attributes.Pairwise fun a b => ¬ (a.IsTest ∧ b.IsTest) := by
  have hclean : (ofDocument config document).draft.IsClean := h
  obtain ⟨top, children, hroot⟩ := exists_root_of_isClean hclean
  rw [← Markup.elementsOf_filter_isSignificant, (filter_of_root hroot).1, Markup.elementsOf, Markup.Node.elements,
    Markup.elementsOf, List.append_nil] at he
  rcases List.mem_cons.1 he with rfl | he
  · have hnone := not_isTest_of_rootAttributes
      (hclean.eq_nil (fun d hd => rootAttributes_isError _ hd) (diagnostics_of_root hroot))
    exact ⟨fun a ha htest => absurd htest (hnone a ha),
      List.pairwise_of_forall_mem_list fun a ha b hb htests => hnone a ha htests.1⟩
  · rw [← Markup.map_snd_standingsOf children false] at he
    obtain ⟨standing, hstanding, rfl⟩ := List.mem_map.1 he
    have hread := ((ofDocument_becomes config hroot).built standing hstanding).1
    have hreading : Diagnostic.hasErrors (Reading.ofAttributes standing.2.attributes).diagnostics = false := by
      refine Diagnostic.hasErrors_of_isPrefix (Directives.diagnostics_read standing.1 _) ?_
      exact List.any_eq_false.2 fun d hd => by simpa using hclean.not_error (hread hd)
    obtain ⟨htests, hpairwise⟩ := Reading.clean_tests hreading
    exact ⟨fun a ha htest => (htests a ha htest).1, hpairwise⟩

end Template

/-! ## Replacing a test -/

/-- The source with `lwc:if` written in place of the name of the attribute `t`. -/
def Markup.TagAttribute.replacedIn (t : Markup.TagAttribute) (source : String) : String :=
  String.ofList (t.replacing.text source.toList)

/-- The name is that of a test. -/
def Markup.IsTestName (name : String) : Prop :=
  name = "if:true" ∨ name = "lwc:if"

section Replacing

open Markup (IsTestName RawAttribute readings startTags)

variable {config : Config} {source : String} {template : Template} {m : Render.RenderModule} {tag : Markup.Tag}
  {t : Markup.TagAttribute} (hm : CompilesTo config source template m)
  (hquotes : ∀ x ∈ readings source.toList, x.isNameQuote = false) (htag : tag ∈ startTags source.toList)
include hm hquotes htag

/-- In a source that compiles, the tests of each start tag are shown without quotes, and there are no two of them. -/
theorem CompilesTo.tests :
    (∀ u ∈ tag.attributes, IsTestName u.name →
      ((tag.raws source.toList).find? (·.name == u.name)).any RawAttribute.quoted = false) ∧
      tag.attributes.Pairwise fun u v => ¬ (IsTestName u.name ∧ IsTestName v.name) := by
  obtain ⟨document, hread, rfl⟩ := exists_ofDocument hm.parsed
  obtain ⟨e, he, svg, start, hattributes⟩ := Markup.exists_element_of_startTag hread hquotes htag
  obtain ⟨hquoted, hpairwise⟩ := ofDocument_tests hm.noErrors he
  have htest {u : Markup.TagAttribute} (h : IsTestName u.name) :
      (Markup.attributeIn source.toList svg start (tag.raws source.toList) u).IsTest := by
    rcases h with h | h
    · exact .inl (by simp only [Markup.attributeIn, h, Markup.spelling_directive.1, ite_self])
    · exact .inr (by simp only [Markup.attributeIn, h, Markup.spelling_directive.2, ite_self])
  rw [hattributes] at hquoted hpairwise
  refine ⟨fun u hu h => hquoted _ (List.mem_map_of_mem hu) (htest h), ?_⟩
  exact (List.pairwise_map.1 hpairwise).imp fun happart htests => happart ⟨htest htests.1, htest htests.2⟩

variable (ht : t ∈ tag.attributes) (hname : t.name = "if:true")
include ht hname

/-- In a source that compiles, an `if:true` can be named `lwc:if`. -/
theorem CompilesTo.renames : Markup.Renames source.toList tag t "lwc:if" := by
  obtain ⟨document, hread, -⟩ := exists_ofDocument hm.parsed
  refine ⟨(Markup.parse_eq_ok_iff.1 hread).1, htag, ht, by decide, by decide, fun u hu hother => ?_, ?_, by simp [Text.isBlank]⟩
  · have : Std.Symm fun u v : Markup.TagAttribute => ¬ (IsTestName u.name ∧ IsTestName v.name) :=
      ⟨fun u v h htests => h htests.symm⟩
    have hne : t ≠ u := by
      rintro rfl
      simp [hname] at hother
    exact (hm.tests hquotes htag).2.forall ht hu hne ⟨.inl hname, .inr hother⟩
  · rw [hname]
    simp [Text.isBlank]

/-- Where the source with `lwc:if` in place of an `if:true` compiles, `lwc:if` is shown without quotes. -/
theorem CompilesTo.shown_of_replaced {template' : Template} {m' : Render.RenderModule}
    (hm' : CompilesTo config (t.replacedIn source) template' m') :
    (tag.shownAs source.toList t "lwc:if").any RawAttribute.quoted = false := by
  have hrenames := hm.renames hquotes htag ht hname
  obtain ⟨htokens, hquotes'⟩ := hrenames.tokenize_text
  have htoken := Markup.mem_startTags.1 htag
  have htag' : t.replacing.onTag tag ∈ startTags (t.replacedIn source).toList := by
    rw [Markup.TagAttribute.replacedIn, String.toList_ofList, Markup.mem_startTags, htokens]
    exact ⟨List.mem_map_of_mem (f := t.replacing.onToken) htoken.1, htoken.2⟩
  have hnone := (hm'.tests (by rw [Markup.TagAttribute.replacedIn, String.toList_ofList]; exact hquotes' hquotes) htag').1
    (t.replacing.onAttribute t) (List.mem_map_of_mem ht)
  have hnew : (t.replacing.onAttribute t).name = "lwc:if" := if_pos rfl
  rw [hnew, Markup.TagAttribute.replacedIn, String.toList_ofList, hrenames.find?_renamed, Option.any_map] at hnone
  exact hnone (.inr rfl)

/-- Where `lwc:if` is shown without quotes in place of an `if:true`, the source with it compiles to the same code. -/
theorem CompilesTo.exists_replaced (honce : ∀ u ∈ tag.attributes, u.name ≠ "for:each")
    (hshown : (tag.shownAs source.toList t "lwc:if").any RawAttribute.quoted = false) {output : Output}
    (houtput : compile config source = .ok output) :
    ∃ output', compile config (t.replacedIn source) = .ok output' ∧ output.Renamed 1 output' ∧
      (config.HasOwnToken → output'.code = output.code) := by
  obtain ⟨document, hread, -⟩ := exists_ofDocument hm.parsed
  have hquoted := (hm.tests hquotes htag).1 t ht (.inl hname)
  have hreplaceable : Markup.Replaceable source.toList tag t :=
    ⟨hm.renames hquotes htag ht hname, hname, honce, hshown.trans hquoted.symm⟩
  obtain ⟨document', hread', hrenamed⟩ := Markup.parse_renamed hread hquotes hreplaceable
  obtain ⟨output₀, houtput₀, hcode⟩ := hm.code
  obtain rfl := Except.ok.inj (houtput.symm.trans houtput₀)
  refine compile_of_renamed houtput hcode hread ?_ hrenamed
  rw [Markup.TagAttribute.replacedIn, String.toList_ofList]
  exact hread'

end Replacing

/-- Where `lwc:if` is written in place of an `if:true` in a source that compiles to code, the new source compiles to the same
code, and only the one warning of `if:true` is gone. The element must not be iterated itself, and its tag must be found
again: no quote stands in the name of a tag or of a document type, and the raw text of the tag does not show an `lwc:if` in
quotes. -/
theorem compile_renamed {config : Config} {source code : String} {output : Output}
    (houtput : compile config source = .ok output) (hcode : output.code = some code)
    (hquotes : ∀ x ∈ Markup.readings source.toList, x.isNameQuote = false) {tag : Markup.Tag}
    (htag : tag ∈ Markup.startTags source.toList) {t : Markup.TagAttribute} (ht : t ∈ tag.attributes)
    (hname : t.name = "if:true") (honce : ∀ u ∈ tag.attributes, u.name ≠ "for:each")
    (hshown : (tag.shownAs source.toList t "lwc:if").any Markup.RawAttribute.quoted = false) :
    ∃ output', compile config (t.replacedIn source) = .ok output' ∧ output.Renamed 1 output' ∧
      (config.HasOwnToken → output'.code = output.code) := by
  obtain ⟨template, m, hm, -⟩ := compile_code_iff.1 ⟨output, houtput, hcode⟩
  exact hm.exists_replaced hquotes htag ht hname honce hshown houtput

/-- A test of a component in an iteration, with content for a slot, a comment and a fragment beside it. -/
theorem compile_renamed_list :
    let config : Config :=
      { stylesheets := ["./a.css"], scopedStyles := true, componentName := some "list", preserveComments := true,
        runtimeModule := "runtime" }
    let source := "<template><li for:each={xs} for:item='x' key={x.id}><x-y if:true={x.ok} z={x.z}><b slot='s'>{x.t}</b>" ++
      "</x-y><!--n--><i>no</i></li><slot></slot></template>"
    let source' := "<template><li for:each={xs} for:item='x' key={x.id}><x-y lwc:if={x.ok} z={x.z}><b slot='s'>{x.t}</b>" ++
      "</x-y><!--n--><i>no</i></li><slot></slot></template>"
    ∃ output output', compile config source = .ok output ∧ output.code.isSome = true ∧
      compile config source' = .ok output' ∧ output.Renamed 1 output' ∧ output'.code = output.code := by
  intro config source source'
  have hcompiles : (compiled? config source).map (fun _ => true) = some true := by decide +kernel
  have hquotes : ∀ x ∈ Markup.readings source.toList, x.isNameQuote = false := by decide +kernel
  have htest : ∃ tag ∈ Markup.startTags source.toList, ∃ t ∈ tag.attributes, t.name = "if:true" ∧
      (∀ u ∈ tag.attributes, u.name ≠ "for:each") ∧
      (tag.shownAs source.toList t "lwc:if").any Markup.RawAttribute.quoted = false ∧
      t.replacedIn source = source' := by decide +kernel
  obtain ⟨template, m, hm, -⟩ := exists_compilesTo hcompiles
  obtain ⟨output, houtput, hcode⟩ := hm.code
  obtain ⟨tag, htag, t, ht, hname, honce, hshown, hreplaced⟩ := htest
  obtain ⟨output', houtput', hrenamed, hsame⟩ := compile_renamed houtput hcode hquotes htag ht hname honce hshown
  rw [hreplaced] at houtput'
  exact ⟨output, output', houtput, by rw [hcode]; rfl, houtput', hrenamed, hsame fun _ => rfl⟩

/-- Where no quote stands in the name of a tag or of a document type, what the raw text of the tag shows decides. -/
theorem exists_replaced_iff {config : Config} {source : String} {template : Template} {m : Render.RenderModule}
    (hm : CompilesTo config source template m) (hquotes : ∀ x ∈ Markup.readings source.toList, x.isNameQuote = false)
    {tag : Markup.Tag} (htag : tag ∈ Markup.startTags source.toList) {t : Markup.TagAttribute} (ht : t ∈ tag.attributes)
    (hname : t.name = "if:true") (honce : ∀ u ∈ tag.attributes, u.name ≠ "for:each") :
    (∃ template' m', CompilesTo config (t.replacedIn source) template' m') ↔
      (tag.shownAs source.toList t "lwc:if").any Markup.RawAttribute.quoted = false := by
  constructor
  case mp =>
    rintro ⟨template', m', hm'⟩
    exact hm.shown_of_replaced hquotes htag ht hname hm'
  case mpr =>
    intro hshown
    obtain ⟨output, houtput, -⟩ := hm.code
    obtain ⟨output', houtput', hrenamed, -⟩ := hm.exists_replaced hquotes htag ht hname honce hshown houtput
    obtain ⟨m', -, -, hcode'⟩ := hrenamed.code
    obtain ⟨template', m', hm', -⟩ := compile_code_iff.1 ⟨output', houtput', hcode'⟩
    exact ⟨template', m', hm'⟩

/-! ## Sources that do not keep their code -/

/-- If the source compiles to code, it compiles to the same code with `lwc:if` in place of any `if:true`. -/
def KeepsCode (config : Config) (source : String) : Prop :=
  ∀ output, compile config source = .ok output → output.code.isSome = true →
    ∀ tag ∈ Markup.startTags source.toList, ∀ t ∈ tag.attributes, t.name = "if:true" →
      ∃ output', compile config (t.replacedIn source) = .ok output' ∧ output'.code = output.code

/-- Whether the source compiles to code, and with `lwc:if` in place of an `if:true` to other code or none. -/
def losesCode (config : Config) (source : String) : Bool :=
  (compiled? config source).any fun compiled => (Markup.startTags source.toList).any fun tag => tag.attributes.any fun t =>
    t.name == "if:true" && (compiled? config (t.replacedIn source)).all fun compiled' => compiled'.2.text != compiled.2.text

theorem not_keepsCode {config : Config} {source : String} (h : losesCode config source = true) :
    ¬ KeepsCode config source := by
  unfold losesCode at h
  cases hcompiled : compiled? config source with
  | none =>
    rw [hcompiled] at h
    cases h
  | some compiled =>
    rw [hcompiled, Option.any_some, List.any_eq_true] at h
    obtain ⟨tag, htag, h⟩ := h
    obtain ⟨t, ht, hloses⟩ := List.any_eq_true.1 h
    obtain ⟨hname, hloses⟩ := Bool.and_eq_true_iff.1 hloses
    obtain ⟨output, houtput, hcode⟩ := (compiled?_eq_some hcompiled).code
    intro hkeeps
    obtain ⟨output', houtput', hsame⟩ := hkeeps output houtput (by rw [hcode]; rfl) tag htag t ht (beq_iff_eq.1 hname)
    obtain ⟨template', m', hm', htext⟩ := compile_code_iff.1 ⟨output', houtput', hsame.trans hcode⟩
    rw [hm'.compiled?_eq, Option.all_some, htext] at hloses
    simp at hloses

/-- The code is another one on an element that is iterated, where the test that stands alone is made for each item and the
other one once, and where the token of scoped styles is derived from the source. Behind a quote in the name of a tag, and
where the raw text of the tag shows an `lwc:if` in quotes, there is no code. -/
theorem compile_not_renamed :
    ¬ KeepsCode {} "<template><p for:each={xs} for:item='x' key={x.id} if:true={x.ok}></p></template>" ∧
    ¬ KeepsCode { scopedStyles := true } "<template><p if:true={x}></p></template>" ∧
    ¬ KeepsCode {} "<template><p'><blockquote title=\"'>\" if:true={é}></blockquote></p'></template>" ∧
    ¬ KeepsCode {} "<template><p a=\u00a0 b=\" lwc:if=\" if:true={x} c=\"\"></p></template>" :=
  ⟨not_keepsCode (by decide +kernel), not_keepsCode (by decide +kernel), not_keepsCode (by decide +kernel),
    not_keepsCode (by decide +kernel)⟩

end TemplateCompiler
