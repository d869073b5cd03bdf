import TemplateCompiler.Proofs.Render.Agreement
import TemplateCompiler.Proofs.Render.EveryNode
import TemplateCompiler.Proofs.Template.WithFragments
/-!
# Fragments make no difference

A source is compiled to the same with and without fragments, the code aside (`outputs_withFragments`), and the bodies
of both modules describe the same tree exactly if the start tags in all fragments show their quotes
(`bodies_agree_iff`).
-/

namespace TemplateCompiler

open Template Render Markup

/-- All of an output but the code. -/
def Output.withoutCode (output : Output) : Output :=
  { output with code := none }

/-! ## Outputs -/

theorem renderModule_withFragments (config : Config) (document : List Markup.Node) (source : String)
    (fragments : Bool) : ∃ m, ((ofDocument config document).withFragments fragments).renderModule source = .ok m := by
  rw [← ofDocument_withFragments]
  obtain ⟨m, hm, -⟩ := renderModule_ok (config.withFragments fragments) document source
  exact ⟨m, hm⟩

/-- The output for a template, its code aside, does not depend on fragments. -/
theorem withoutCode_withFragments (config : Config) (document : List Markup.Node) (source : String) :
    (((ofDocument config document).withFragments true).compile source).map Output.withoutCode =
      (((ofDocument config document).withFragments false).compile source).map Output.withoutCode := by
  obtain ⟨m, hm⟩ := renderModule_withFragments config document source true
  obtain ⟨m', hm'⟩ := renderModule_withFragments config document source false
  have herrors : ((ofDocument config document).withFragments true).hasErrors =
      ((ofDocument config document).withFragments false).hasErrors := rfl
  unfold Template.compile
  rw [hm, hm', herrors]
  by_cases h : ((ofDocument config document).withFragments false).hasErrors = true
  · rw [if_pos h, if_pos h]
    rfl
  · rw [if_neg h, if_neg h]
    rfl

theorem map_mapError {α β ε ε' : Type} (x : Except ε α) (f : ε → ε') (g : α → β) :
    (x.mapError f).map g = (x.map g).mapError f := by
  cases x <;> rfl

/-- A source gives the same output with and without fragments, the code aside. -/
theorem outputs_withFragments (config : Config) (source : String) :
    (compile (config.withFragments true) source).map Output.withoutCode =
      (compile (config.withFragments false) source).map Output.withoutCode := by
  unfold compile
  rw [parse_withFragments, parse_withFragments]
  unfold Template.parse
  cases hparse : Markup.parse source.toList with
  | error e => cases e <;> rfl
  | ok document =>
    have h := congrArg (Except.mapError CompileError.internal) (withoutCode_withFragments config document source)
    rwa [← map_mapError, ← map_mapError] at h

/-! ## Bodies -/

namespace Template

variable (config : Config) (document : List Markup.Node)

theorem twins_withFragments : ((ofDocument config document).withFragments true).sources.Twins
    ((ofDocument config document).withFragments false).sources where
  imports := rfl
  underscore tag name h := (Scoping.ImportTable.sound_ofList _).underscore name (local?_mem_locals h)
  noFragments id facts h := by
    change ((ofDocument config document).withFragments false).analysis.get? id = some facts at h
    rw [analysis_withoutFragments] at h
    obtain ⟨facts', -, rfl⟩ := Option.map_eq_some_iff.1 h
    rfl
  facts id facts h := by
    change ((ofDocument config document).withFragments false).analysis.get? id = _
    rw [analysis_withoutFragments, show ((ofDocument config document).withFragments true).analysis.get? id = _ from h]
    rfl

end Template

/-- The nodes that are fragments are elements that never change. -/
theorem fragmentsSound (config : Config) {document : List Markup.Node} (h : Markup.AllObey soundRules document) :
    ((ofDocument config document).withFragments true).sources.FragmentsSound
      (ofDocument config document).config.renderMode (allNodes (ofDocument config document).mark.nodes) := by
  intro n hn hfragment
  rw [show allNodes (ofDocument config document).mark.nodes = (allNodes (ofDocument config document).nodes).map
    (Node.mark (ofDocument config document).config.renderMode) from allNodes_markNodes _ _] at hn
  obtain ⟨m, hm, rfl⟩ := List.mem_map.1 hn
  obtain ⟨lift, key, hget⟩ := analyze_get? ((ofDocument config document).withFragments true).config
    (numbersOf_nodup config document) hm
  have hget : ((ofDocument config document).withFragments true).sources.analysis.get?
      (m.mark (ofDocument config document).config.renderMode).id =
        some (m.facts (ofDocument config document).config.renderMode lift key) := by
    rw [mark_id]
    exact hget
  have hcan : m.canBeFragment (ofDocument config document).config.renderMode = true := by
    rw [Sources.isFragment, hget] at hfragment
    exact (Bool.and_eq_true_iff.1 hfragment).2
  rw [mark_of_isStatic _ m (isStatic_of_canBeFragment hcan).1]
  refine ⟨hcan, fun n hn => ?_⟩
  exact haveOrigins_ofDocument config h n (all_subset_allNodes _ m hm hn)

/-- The fragments of a template show the quotes of their start tags. -/
def Template.FragmentsShow (t : Template) : Prop :=
  t.sources.FragmentsShow (shownNodes t.sources.isFragment t.mark.nodes)

/-- The bodies of a template with and without fragments describe the same tree exactly if the fragments show their
quotes. -/
theorem bodies_agree_iff {config : Config} {source : String} (hquotes : NoQuotedTags source.toList)
    {t t' : Template} {m m' : RenderModule} (h : CompilesTo (config.withFragments true) source t m)
    (h' : CompilesTo (config.withFragments false) source t' m') :
    (m.body.inlined m.hoists).Agrees (m'.body.inlined m'.hoists) ↔ t.FragmentsShow := by
  obtain ⟨document, hdocument, rfl⟩ := exists_ofDocument h.parsed
  obtain ⟨document', hdocument', rfl⟩ := exists_ofDocument h'.parsed
  obtain rfl := Except.ok.inj (hdocument.symm.trans hdocument')
  have hsound := fragmentsSound config (parse_sound hdocument hquotes)
  have htwins := twins_withFragments config document
  obtain ⟨values, hvalues, hbody⟩ := h.fits.body
  obtain ⟨values', hvalues', hbody'⟩ := h'.fits.body
  have hs := h.fits.noted.sound
  have hs' := h'.fits.noted.sound
  rw [ofDocument_withFragments] at *
  rw [hbody, hbody', inlined_arrayOf hs, inlined_arrayOf hs', Template.FragmentsShow,
    Sources.fragmentsShow_shownNodes]
  -- The two templates differ in their configurations alone, so that their nodes are marked in the same way.
  refine (agrees_arrayOf _).trans ((agrees_nodes hs hs' htwins [] _ _ values values' hvalues hvalues' hsound).trans ?_)
  simp

/-- A source is compiled to the same with and without fragments: the outputs differ in the code at most, there are
modules in both cases or in none, and the bodies of the modules describe the same tree. -/
structure FragmentsAgree (config : Config) (source : String) : Prop where
  outputs : (compile (config.withFragments true) source).map Output.withoutCode =
    (compile (config.withFragments false) source).map Output.withoutCode
  modules : (∃ t m, CompilesTo (config.withFragments true) source t m) ↔
    ∃ t m, CompilesTo (config.withFragments false) source t m
  bodies : ∀ t m t' m', CompilesTo (config.withFragments true) source t m →
    CompilesTo (config.withFragments false) source t' m' →
    (m.body.inlined m.hoists).Agrees (m'.body.inlined m'.hoists)

theorem CompilesTo.withFragments {config : Config} {source : String} {fragments : Bool} {t : Template}
    {m : RenderModule} (h : CompilesTo (config.withFragments fragments) source t m) (fragments' : Bool) :
    ∃ t' m', CompilesTo (config.withFragments fragments') source t' m' := by
  obtain ⟨document, hdocument, rfl⟩ := exists_ofDocument h.parsed
  obtain ⟨m', hm'⟩ := renderModule_withFragments config document source fragments'
  refine ⟨(ofDocument config document).withFragments fragments', m', ?_, ?_, hm'⟩
  · rw [parse_withFragments, Template.parse, hdocument]
    rfl
  · have herrors := h.noErrors
    rw [ofDocument_withFragments] at herrors
    exact herrors

/-- A source whose tags have no quotes in their names is compiled to the same with and without fragments exactly if its
fragments show the quotes of their start tags. -/
theorem compile_fragmentsAgree_iff {config : Config} {source : String} (hquotes : NoQuotedTags source.toList) :
    FragmentsAgree config source ↔
      ∀ t m, CompilesTo (config.withFragments true) source t m → t.FragmentsShow := by
  constructor
  · intro hagree t m h
    obtain ⟨t', m', h'⟩ := h.withFragments false
    exact (bodies_agree_iff hquotes h h').1 (hagree.bodies t m t' m' h h')
  · intro hshow
    refine ⟨outputs_withFragments config source, ⟨?_, ?_⟩, fun t m t' m' h h' => ?_⟩
    · exact fun ⟨_, _, h⟩ => h.withFragments false
    · exact fun ⟨_, _, h⟩ => h.withFragments true
    · exact (bodies_agree_iff hquotes h h').2 (hshow t m h)

instance (t : Template) : Decidable t.FragmentsShow :=
  inferInstanceAs (Decidable (∀ n ∈ shownNodes t.sources.isFragment t.mark.nodes,
    t.sources.isFragment n = true → n.ShowsQuotes))

/-- A fragment with classes, a style, an attribute without a value, an element without an end tag and a comment. -/
theorem compile_fragmentsAgree_form :
    NoQuotedTags "<template><p class='a  b' style='top: 0' id>c &lt; d<br><!-- e --></p>{f}</template>".toList ∧
    FragmentsAgree { preserveComments := true } "<template><p class='a  b' style='top: 0' id>c &lt; d<br><!-- e --></p>{f}</template>" := by
  have hquotes : NoQuotedTags
      "<template><p class='a  b' style='top: 0' id>c &lt; d<br><!-- e --></p>{f}</template>".toList := by
    decide +kernel
  refine ⟨hquotes, (compile_fragmentsAgree_iff hquotes).2 fun t m h => ?_⟩
  have hshow : (compiled? (Config.withFragments { preserveComments := true } true)
      "<template><p class='a  b' style='top: 0' id>c &lt; d<br><!-- e --></p>{f}</template>").map
      (fun result => decide result.1.FragmentsShow) = some true := by
    decide +kernel
  obtain ⟨t', m', h', hshow⟩ := exists_compilesTo hshow
  obtain rfl := Except.ok.inj (h.parsed.symm.trans h'.parsed)
  exact of_decide_eq_true hshow

/-- A class that ends in a brace and a slash, behind which an attribute has a no-break space in its name. -/
theorem compile_not_fragmentsAgree :
    NoQuotedTags "<template><p class=\"{a}/\" x\u00a0class></p></template>".toList ∧
    ¬ FragmentsAgree {} "<template><p class=\"{a}/\" x\u00a0class></p></template>" := by
  have hquotes : NoQuotedTags "<template><p class=\"{a}/\" x\u00a0class></p></template>".toList := by decide +kernel
  refine ⟨hquotes, fun hagree => ?_⟩
  have hshow : (compiled? (Config.withFragments {} true)
      "<template><p class=\"{a}/\" x\u00a0class></p></template>").map
      (fun result => decide result.1.FragmentsShow) = some false := by
    decide +kernel
  obtain ⟨t, m, h, hshow⟩ := exists_compilesTo hshow
  obtain ⟨t', m', h'⟩ := h.withFragments false
  exact of_decide_eq_false hshow ((bodies_agree_iff hquotes h h').1 (hagree.bodies t m t' m' h h'))

end TemplateCompiler
