import TemplateCompiler.Compile
import TemplateCompiler.Proofs.Template.Facts
import TemplateCompiler.Proofs.Template.Origin
/-!
# Templates with and without fragments

Whether static elements are rendered as fragments makes no difference to what a source is built into
(`parse_withFragments`). It makes one to what is known of the nodes: which of them are fragments, and nothing else
(`analysis_withoutFragments`).
-/

namespace TemplateCompiler

/-- The configuration under which static elements are rendered as fragments, or are not. -/
def Config.withFragments (config : Config) (fragments : Bool) : Config :=
  { config with optimizeStatic := fragments }

namespace Template

open TemplateCompiler.Text TemplateCompiler.Binding

/-- The template with its configuration changed. -/
def withFragments (t : Template) (fragments : Bool) : Template :=
  { t with config := t.config.withFragments fragments }

/-! ## Building -/

variable (config : Config) (fragments : Bool)

mutual

theorem buildChildren_withFragments : ∀ (node : Markup.Node) (place : Place),
    buildChildren (config.withFragments fragments) place node = buildChildren config place node
  | .element e children, place => by
    rw [buildChildren, buildChildren, buildSiblings_withFragments children place none]
  | .text _ _, place => by rw [buildChildren, buildChildren]
  | .comment _ _, place => by rw [buildChildren, buildChildren]

theorem buildSiblings_withFragments : ∀ (nodes : List Markup.Node) (place : Place) (chain? : Option Nat),
    buildSiblings (config.withFragments fragments) place chain? nodes = buildSiblings config place chain? nodes
  | [], place, chain? => by rw [buildSiblings, buildSiblings]
  | .text text position :: rest, place, chain? => by
    rw [buildSiblings, buildSiblings]
    simp only [buildSiblings_withFragments rest place]
  | .comment text position :: rest, place, chain? => by
    rw [buildSiblings, buildSiblings]
    simp only [buildSiblings_withFragments rest place]
    rfl
  | .element e children :: rest, place, chain? => by
    rw [buildSiblings, buildSiblings]
    simp only [buildSiblings_withFragments rest place, buildChildren_withFragments (.element e children)]

end

theorem rootAttribute_withFragments (a : Markup.Attribute) :
    rootAttribute (config.withFragments fragments) a = (rootAttribute config a).map (·.withFragments fragments) := by
  unfold rootAttribute
  split
  · split <;> rfl
  · split <;> rfl
  · rfl

theorem rootAttributes_withFragments (attributes : List Markup.Attribute) (config : Config) :
    rootAttributes (config.withFragments fragments) attributes =
      ((rootAttributes config attributes).1.withFragments fragments, (rootAttributes config attributes).2) := by
  induction attributes generalizing config with
  | nil => rfl
  | cons a rest ih =>
    rw [rootAttributes, rootAttributes, rootAttribute_withFragments]
    cases rootAttribute config a with
    | ok config' => exact ih config'
    | error problem =>
      simp only [Except.map, ih config]

/-- The template of a document is the same with and without fragments, its configuration aside. -/
theorem ofDocument_withFragments (document : List Markup.Node) :
    ofDocument (config.withFragments fragments) document = (ofDocument config document).withFragments fragments := by
  unfold ofDocument
  cases root document with
  | error position => rfl
  | ok result =>
    obtain ⟨e, children⟩ := result
    simp only [rootAttributes_withFragments, buildSiblings_withFragments]
    rfl

theorem parse_withFragments (source : String) :
    Template.parse (config.withFragments fragments) source =
      (Template.parse config source).map (·.withFragments fragments) := by
  unfold Template.parse
  cases Markup.parse source.toList with
  | error e => rfl
  | ok document => exact congrArg Except.ok (ofDocument_withFragments config fragments document)

/-! ## Facts -/

theorem lookup_unlifted (id : Nat) (facts : List (Nat × Facts)) :
    (unlifted facts).lookup id = (facts.lookup id).map Facts.unlifted := by
  induction facts with
  | nil => rfl
  | cons entry rest ih =>
    rw [unlifted, List.map_cons, List.lookup_cons, List.lookup_cons, ← unlifted, ih]
    cases id == entry.1 <;> rfl

/-- The analysis with no node rendered as a fragment. -/
def Analysis.unlifted (analysis : Analysis) : Analysis :=
  { analysis with facts := Template.unlifted analysis.facts }

theorem unlifted_lift (analysis : Analysis) (id : Nat) : (analysis.lift id).unlifted = analysis.unlifted := by
  simp only [Analysis.unlifted, Analysis.lift, unlifted, List.map_map, Analysis.mk.injEq, and_true]
  refine List.map_congr_left fun entry _ => ?_
  simp only [Function.comp_apply]
  split <;> rfl

mutual

theorem unlifted_markFragments : ∀ (n : Node) (analysis : Analysis),
    (n.markFragments analysis).unlifted = analysis.unlifted
  | .element id p role data children, analysis => by
    cases role with
    | native =>
      rw [Node.markFragments]
      split
      · exact unlifted_lift analysis id
      · exact unlifted_markFragmentsIn children analysis
    | component => exact unlifted_markFragmentsIn children analysis
    | dynamic constructor => exact unlifted_markFragmentsIn children analysis
  | .slot _ _ _ _ children, analysis => unlifted_markFragmentsIn children analysis
  | .text .., _ => rfl
  | .comment .., _ => rfl
  | .conditional _ _ chain, analysis => unlifted_markFragments_chain chain analysis
  | .iteration _ _ _ children, analysis => unlifted_markFragmentsIn children analysis

theorem unlifted_markFragments_chain : ∀ (c : Chain) (analysis : Analysis),
    (c.markFragments analysis).unlifted = analysis.unlifted
  | .done, _ => rfl
  | .otherwise children, analysis => unlifted_markFragmentsIn children analysis
  | .branch _ _ children next, analysis =>
    (unlifted_markFragments_chain next _).trans (unlifted_markFragmentsIn children analysis)

theorem unlifted_markFragmentsIn : ∀ (nodes : List Node) (analysis : Analysis),
    (markFragmentsIn analysis nodes).unlifted = analysis.unlifted
  | [], _ => rfl
  | n :: ns, analysis => (unlifted_markFragmentsIn ns _).trans (unlifted_markFragments n analysis)

end

/-- Without fragments, what is known of the nodes is the same, but that none of them is a fragment. -/
theorem analyze_withoutFragments (config : Config) (nodes : List Node) :
    analyze (config.withFragments false) nodes = (analyze (config.withFragments true) nodes).unlifted := by
  have hvisited := factsOf_unlifted config.renderMode false nodes 0
  calc analyze (config.withFragments false) nodes
    _ = ⟨(factsOf config.renderMode false 0 nodes).1, (factsOf config.renderMode false 0 nodes).2⟩ := by
        rw [← visitNodes_eq]
        rfl
    _ = Analysis.unlifted ⟨(factsOf config.renderMode false 0 nodes).1, (factsOf config.renderMode false 0 nodes).2⟩ :=
        congrArg (fun result => Analysis.mk result.1 result.2) hvisited
    _ = (analyze (config.withFragments true) nodes).unlifted := by
        rw [← visitNodes_eq]
        exact (unlifted_markFragmentsIn nodes _).symm

theorem analysis_withoutFragments (t : Template) (id : Nat) :
    (t.withFragments false).analysis.get? id = ((t.withFragments true).analysis.get? id).map Facts.unlifted := by
  rw [show (t.withFragments false).analysis = _ from analyze_withoutFragments t.config t.nodes]
  exact lookup_unlifted id _

/-! ## Static nodes -/

theorem mark_of_isPlain {mode : RenderMode} {data : ElementData} (h : data.isPlain mode = true) :
    data.mark mode = data := by
  simp only [ElementData.isPlain, Bool.and_eq_true, List.isEmpty_iff, Bool.not_eq_true', List.any_eq_false,
    Bool.not_eq_true] at h
  obtain ⟨hproperties, hattributes⟩ := h
  have hmap : data.attributes.map (·.mark mode) = data.attributes := by
    refine (List.map_congr_left fun a ha => ?_).trans (List.map_id data.attributes)
    simp [Attribute.mark, hattributes a ha]
  have hnone : data.properties.map (·.markProperty mode) = data.properties := by rw [hproperties, List.map_nil]
  rw [ElementData.mark, hmap, hnone]

mutual

/-- Nothing in a node that never changes is scoped. -/
theorem mark_of_isStatic (mode : RenderMode) : ∀ n : Node, n.isStatic mode = true → n.mark mode = n
  | .element id p role data children, h => by
    cases role with
    | component => cases h
    | dynamic constructor => cases h
    | native =>
      rw [Node.isStatic, Bool.and_eq_true, Bool.and_eq_true] at h
      rw [Node.mark, mark_of_isPlain h.1.2, markNodes_of_areStatic mode children h.2]
  | .slot .., h => by cases h
  | .text .., h => rfl
  | .comment .., h => rfl
  | .conditional .., h => by cases h
  | .iteration .., h => by cases h

theorem markNodes_of_areStatic (mode : RenderMode) : ∀ nodes : List Node, areStatic mode nodes = true →
    markNodes mode nodes = nodes
  | [], h => rfl
  | n :: ns, h => by
    rw [areStatic, Bool.and_eq_true] at h
    rw [markNodes, mark_of_isStatic mode n h.1, markNodes_of_areStatic mode ns h.2]

end

end Template

end TemplateCompiler
