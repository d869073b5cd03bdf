import TemplateCompiler.Proofs.Template.Origin
/-!
# Regular templates

The nodes of a template are as they should be: no void element has children, and every conditional starts with a
branch.
-/

namespace TemplateCompiler.Template

open TemplateCompiler.Text

/-- A void element has no children, and a conditional starts with a branch. -/
def Node.IsRegular : Node → Prop
  | .element _ _ _ data children => Markup.isVoidElement data.tag = true → children = []
  | .conditional _ _ chain => ∃ test negate children next, chain = .branch test negate children next
  | _ => True

/-- Each of some nodes is as it should be. -/
def AreRegular (nodes : List Node) : Prop :=
  ∀ n ∈ nodes, n.IsRegular

theorem AreRegular.mono {nodes nodes' : List Node} (h : AreRegular nodes') (hsub : nodes ⊆ nodes') :
    AreRegular nodes :=
  fun n hn => h n (hsub hn)

theorem areRegular_cons {n : Node} {nodes : List Node} : AreRegular (n :: nodes) ↔ n.IsRegular ∧ AreRegular nodes :=
  List.forall_mem_cons

theorem areRegular_append {nodes nodes' : List Node} :
    AreRegular (nodes ++ nodes') ↔ AreRegular nodes ∧ AreRegular nodes' :=
  List.forall_mem_append

theorem ElementData.IsOf.tag {data : ElementData} {e : Markup.Element} (h : data.IsOf e) : data.tag = e.tag := by
  obtain ⟨_, _, attributes, -, rfl⟩ := h
  exact ElementData.tag_addAll _ _ _

theorem Node.HasOrigin.isRegular {n : Node} (h : n.HasOrigin Markup.voidsEmpty) : n.IsRegular := by
  cases n with
  | element id p role data children =>
    obtain ⟨e, content, hvoid, hof, hempty⟩ := h
    intro hv
    exact hempty (hvoid (hof.tag ▸ hv))
  | conditional id p chain => exact h
  | _ => trivial

/-- The nodes of a template are as they should be. -/
theorem areRegular_ofDocument (config : Config) {document : List Markup.Node}
    (h : Markup.AllObey Markup.voidsEmpty document) : AreRegular (allNodes (ofDocument config document).nodes) :=
  fun n hn => (haveOrigins_ofDocument config h n hn).isRegular

end TemplateCompiler.Template
