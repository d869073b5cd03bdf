import TemplateCompiler.Proofs.Render.Constructs
/-!
# Every node of a template

The constructs of a body are those of the nodes of the template, each with the key and the hints of its node, one for
each node that is not below a fragment, and one inside the other as the nodes are. The nodes below a fragment stand in
its markup instead.
-/

namespace TemplateCompiler

open Template Render

/-! ## Regular templates -/

namespace Template

theorem isRegular_mark (mode : RenderMode) {n : Node} (h : n.IsRegular) : (n.mark mode).IsRegular := by
  cases n with
  | element id p role data children =>
    intro hvoid
    rw [h hvoid]
    rfl
  | conditional id p chain =>
    obtain ⟨test, negate, children, next, rfl⟩ := h
    exact ⟨_, _, _, _, rfl⟩
  | _ => trivial

theorem areRegular_mark {t : Template} (h : AreRegular (allNodes t.nodes)) : AreRegular (allNodes t.mark.nodes) := by
  rw [show allNodes t.mark.nodes = (allNodes t.nodes).map (Node.mark t.config.renderMode) from
    allNodes_markNodes _ _]
  intro n hn
  obtain ⟨n₀, hn₀, rfl⟩ := List.mem_map.1 hn
  exact isRegular_mark _ (h n₀ hn₀)

theorem numbersOf_mark (t : Template) : numbersOf t.mark.nodes = numbersOf t.nodes := by
  have hid : Node.id ∘ Node.mark t.config.renderMode = Node.id := funext (mark_id _)
  rw [numbersOf, show allNodes t.mark.nodes = (allNodes t.nodes).map (Node.mark t.config.renderMode) from
    allNodes_markNodes _ _, List.map_map, hid, numbersOf]

/-- The outline of a template: its nodes, down to the fragments. -/
def outline (t : Template) : List (Outline Placed) :=
  outlines t.sources.isFragment [] (fun _ => true) t.mark.nodes

end Template

/-- An output without errors has the code of a module. -/
theorem compilesTo_of_noErrors {config : Config} {source : String} {output : Output}
    (h : compile config source = .ok output) (hclean : output.hasErrors = false) :
    ∃ t m, CompilesTo config source t m ∧ output.code = some m.text := by
  have hcode : output.code.isSome = true := by
    unfold compile at h
    split at h
    · rename_i t ht
      obtain ⟨document, -, rfl⟩ := exists_ofDocument ht
      obtain ⟨output', houtput, hcode⟩ := Template.compile_ok config document source
      rw [houtput] at h
      obtain rfl := Except.ok.inj h
      exact hcode.2 hclean
    · obtain rfl := Except.ok.inj h
      simp [Output.hasErrors, Diagnostic.hasErrors, Diagnostic.isError, Problem.diagnostic, Problem.code,
        DiagnosticCode.severity] at hclean
    · cases h
  obtain ⟨code, hcode⟩ := Option.isSome_iff_exists.1 hcode
  obtain ⟨t, m, hm, rfl⟩ := compile_code_iff.1 ⟨output, h, hcode⟩
  exact ⟨t, m, hm, hcode⟩

theorem CompilesTo.hasErrors {config : Config} {source : String} {t : Template} {m : RenderModule} {output : Output}
    (h : CompilesTo config source t m) (houtput : compile config source = .ok output) : output.hasErrors = false :=
  (hasErrors_of_parse h.parsed houtput).trans h.noErrors

/-! ## Nothing is lost -/

/-- A module shows every node of a template. -/
structure Template.IsShownBy (t : Template) (m : RenderModule) : Prop where
  /-- The body is the outline of the template, with the construct of its node at each place. -/
  constructs : (m.body.constructs? m.hoists).map (Outline.mapAll some) =
    some (Outline.mapAll (constructAt? t.sources) t.outline)
  /-- The places of the outline stand for all nodes: a fragment for those in it, any other place for its node. -/
  complete : (nodesOf t.sources.isFragment (Outline.itemsOf t.outline)).Perm (allNodes t.mark.nodes)
  /-- No node is there twice. -/
  distinct : (numbersOf t.mark.nodes).Nodup
  /-- The markup of a fragment goes through the nodes in it, in document order. -/
  fragments : ∀ p ∈ Outline.itemsOf t.outline, t.sources.isFragment p.node = true →
    ∃ html, markup p.node = .ok html ∧ tourMarkup (tour p.node) = .ok html ∧ entered (tour p.node) = p.node.all

namespace CompilesTo

variable {config : Config} {source : String} {t : Template} {m : RenderModule}

theorem areRegular (h : CompilesTo config source t m) : AreRegular (allNodes t.mark.nodes) := by
  obtain ⟨document, hdocument, rfl⟩ := exists_ofDocument h.parsed
  exact areRegular_mark (areRegular_ofDocument config (Markup.parse_voidsEmpty hdocument))

theorem markup_of_isFragment (h : CompilesTo config source t m) {n : Node} (hn : n ∈ allNodes t.mark.nodes)
    (hfragment : t.sources.isFragment n = true) : ∃ html, markup n = .ok html := by
  obtain ⟨document, -, rfl⟩ := exists_ofDocument h.parsed
  have hknows := sources_know config document n hn
  cases hget : (ofDocument config document).sources.analysis.get? n.id with
  | none => simp [Sources.isFragment, hget] at hfragment
  | some facts => exact hknows.written facts hget (by simpa [Sources.isFragment, hget] using hfragment)

theorem isShownBy (h : CompilesTo config source t m) : t.IsShownBy m := by
  constructor
  case constructs =>
    obtain ⟨values, hvalues, hbody⟩ := h.fits.body
    obtain ⟨read, hread, hmap⟩ := constructsOf?_of_renders h.fits.noted.sound [] _ t.mark.nodes values hvalues
      h.areRegular
    rw [hbody, constructs?_arrayOf, hread, Option.map_some, hmap]
    rfl
  case complete =>
    have hperm := nodesOf_outlines t.sources.isFragment [] (fun _ => true) t.mark.nodes
    rwa [List.filter_true] at hperm
  case distinct =>
    obtain ⟨document, -, rfl⟩ := exists_ofDocument h.parsed
    rw [numbersOf_mark]
    exact numbersOf_nodup config document
  case fragments =>
    intro p hp hfragment
    have hperm := nodesOf_outlines t.sources.isFragment [] (fun _ => true) t.mark.nodes
    rw [List.filter_true] at hperm
    have hall : p.node.all ⊆ allNodes t.mark.nodes := by
      intro n hn
      refine hperm.subset (List.mem_flatMap.2 ⟨p, hp, ?_⟩)
      rwa [Placed.nodes, if_pos hfragment]
    obtain ⟨html, hmarkup⟩ := h.markup_of_isFragment (hall p.node.self_mem_all) hfragment
    exact ⟨html, hmarkup, tourMarkup_tour p.node html hmarkup (h.areRegular.mono hall), entered_tour p.node⟩

end CompilesTo

/-- Wherever compiling gives no error, the module shows every node of the template once. -/
theorem compile_isShownBy {config : Config} {source : String} {output : Output}
    (h : compile config source = .ok output) (hclean : output.hasErrors = false) :
    ∃ t m, CompilesTo config source t m ∧ output.code = some m.text ∧ t.IsShownBy m := by
  obtain ⟨t, m, hm, hcode⟩ := compilesTo_of_noErrors h hclean
  exact ⟨t, m, hm, hcode, hm.isShownBy⟩

/-- The constructs of a module, one after the other. -/
def Render.RenderModule.constructs? (m : RenderModule) : Option (List Construct) :=
  (m.body.constructs? m.hoists).map Outline.itemsOf

/-- A component with content for two slots, and two fragments. -/
theorem compile_isShownBy_slots :
    ∃ (output : Output) (t : Template) (m : RenderModule),
      compile {} "<template><c-a><p slot=\"x\">{a}</p><i>b</i><p slot=\"x\">{c}</p></c-a><b><br>d</b></template>" =
        .ok output ∧ output.hasErrors = false ∧ output.code = some m.text ∧ t.IsShownBy m ∧
      m.constructs? = some
        [.component "c-a" "_cA" 0 144 ["x", ""], .element "p" 1 129, .text [.expression "$cmp.a"],
          .element "p" 3 129, .text [.expression "$cmp.c"], .fragment "<i>b</i>" 2 64,
          .fragment "<b><br>d</b>" 4 64] := by
  have hconstructs : (compiled? {}
      "<template><c-a><p slot=\"x\">{a}</p><i>b</i><p slot=\"x\">{c}</p></c-a><b><br>d</b></template>").map
      (fun result => result.2.constructs?) = some (some
        [.component "c-a" "_cA" 0 144 ["x", ""], .element "p" 1 129, .text [.expression "$cmp.a"],
          .element "p" 3 129, .text [.expression "$cmp.c"], .fragment "<i>b</i>" 2 64,
          .fragment "<b><br>d</b>" 4 64]) := by
    decide +kernel
  obtain ⟨t, m, hm, hconstructs⟩ := exists_compilesTo hconstructs
  obtain ⟨output, houtput, hcode⟩ := hm.code
  have hclean : output.hasErrors = false := hm.hasErrors houtput
  obtain ⟨t', m', hm', -, hshown⟩ := compile_isShownBy houtput hclean
  obtain rfl := Except.ok.inj (hm.parsed.symm.trans hm'.parsed)
  obtain rfl := Except.ok.inj (hm.rendered.symm.trans hm'.rendered)
  exact ⟨output, t, m, houtput, hclean, hcode, hshown, hconstructs⟩

end TemplateCompiler
