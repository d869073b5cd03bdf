import TemplateCompiler.Scoping.Resolve
import TemplateCompiler.Render.Fragment
import TemplateCompiler.Proofs.Template.Passes
/-!
# What an analysis knows

An analysis has one entry for each node of a template, in document order, and marking the scoped attributes changes
neither the numbers of the nodes nor what they are. A node that never changes has a markup.
-/

namespace TemplateCompiler.Template

open Binding (TextPart)

/-! ## Entries -/

mutual
theorem mem_allFacts (mode : RenderMode) (lift : Bool) (key : Nat) (m : Node) :
    ∀ n : Node, m ∈ n.all → ∃ lift' key', (m.id, m.facts mode lift' key') ∈ (n.allFacts mode lift key).1
  | .element id p role data children => by
    intro hm
    rcases List.mem_cons.1 hm with rfl | hm
    · exact ⟨lift, key, by simp [Node.allFacts, Node.id]⟩
    · obtain ⟨lift', key', h⟩ := mem_factsOf mode _ _ m children hm
      exact ⟨lift', key', List.mem_cons_of_mem _ h⟩
  | .slot id p name attributes children => by
    intro hm
    rcases List.mem_cons.1 hm with rfl | hm
    · exact ⟨lift, key, by simp [Node.allFacts, Node.id]⟩
    · obtain ⟨lift', key', h⟩ := mem_factsOf mode _ _ m children hm
      exact ⟨lift', key', List.mem_cons_of_mem _ h⟩
  | .text id p parts => by
    intro hm
    rw [List.mem_singleton.1 hm]
    exact ⟨lift, key, by simp [Node.allFacts, Node.id]⟩
  | .comment id p text => by
    intro hm
    rw [List.mem_singleton.1 hm]
    exact ⟨lift, key, by simp [Node.allFacts, Node.id]⟩
  | .conditional id p chain => by
    intro hm
    rcases List.mem_cons.1 hm with rfl | hm
    · exact ⟨lift, key, by simp [Node.allFacts, Node.id]⟩
    · obtain ⟨lift', key', h⟩ := mem_chainFacts mode _ _ m chain hm
      exact ⟨lift', key', List.mem_cons_of_mem _ h⟩
  | .iteration id p loop children => by
    intro hm
    rcases List.mem_cons.1 hm with rfl | hm
    · exact ⟨lift, key, by simp [Node.allFacts, Node.id]⟩
    · obtain ⟨lift', key', h⟩ := mem_factsOf mode _ _ m children hm
      exact ⟨lift', key', List.mem_cons_of_mem _ h⟩

theorem mem_chainFacts (mode : RenderMode) (lift : Bool) (key : Nat) (m : Node) :
    ∀ c : Chain, m ∈ c.all → ∃ lift' key', (m.id, m.facts mode lift' key') ∈ (c.allFacts mode lift key).1
  | .done => by
    intro hm
    cases hm
  | .otherwise children => mem_factsOf mode lift key m children
  | .branch test negate children next => by
    intro hm
    rcases List.mem_append.1 hm with hm | hm
    · obtain ⟨lift', key', h⟩ := mem_factsOf mode lift key m children hm
      exact ⟨lift', key', List.mem_append_left _ h⟩
    · obtain ⟨lift', key', h⟩ := mem_chainFacts mode lift _ m next hm
      exact ⟨lift', key', List.mem_append_right _ h⟩

theorem mem_factsOf (mode : RenderMode) (lift : Bool) (key : Nat) (m : Node) :
    ∀ nodes : List Node, m ∈ allNodes nodes →
      ∃ lift' key', (m.id, m.facts mode lift' key') ∈ (factsOf mode lift key nodes).1
  | [] => by
    intro hm
    cases hm
  | n :: ns => by
    intro hm
    rcases List.mem_append.1 hm with hm | hm
    · obtain ⟨lift', key', h⟩ := mem_allFacts mode lift key m n hm
      exact ⟨lift', key', List.mem_append_left _ h⟩
    · obtain ⟨lift', key', h⟩ := mem_factsOf mode lift _ m ns hm
      exact ⟨lift', key', List.mem_append_right _ h⟩
end

theorem lookup_of_mem {β : Type} {id : Nat} {b : β} {entries : List (Nat × β)}
    (hd : (entries.map Prod.fst).Nodup) (hm : (id, b) ∈ entries) : entries.lookup id = some b := by
  induction entries with
  | nil => cases hm
  | cons entry rest ih =>
    obtain ⟨hnew, hrest⟩ := List.nodup_cons.1 hd
    rcases List.mem_cons.1 hm with rfl | hm
    · simp
    · have hne : (id == entry.1) = false := by
        refine beq_false_of_ne ?_
        rintro rfl
        exact hnew (List.mem_map.2 ⟨_, hm, rfl⟩)
      rw [List.lookup_cons, hne]
      exact ih hrest hm

theorem get?_analyze (config : Config) {nodes : List Node} (hd : (numbersOf nodes).Nodup) {id : Nat} {facts : Facts}
    (hentry : (id, facts) ∈ (factsOf config.renderMode config.optimizeStatic 0 nodes).1) :
    (analyze config nodes).get? id = some facts := by
  rw [analyze_eq config hd]
  refine lookup_of_mem ?_ hentry
  rw [map_fst_factsOf]
  exact hd

/-- Each node of a template with distinct numbers has an entry of its own. -/
theorem analyze_get? (config : Config) {nodes : List Node} (hd : (numbersOf nodes).Nodup) {n : Node}
    (hn : n ∈ allNodes nodes) :
    ∃ lift key, (analyze config nodes).get? n.id = some (n.facts config.renderMode lift key) := by
  obtain ⟨lift, key, h⟩ := mem_factsOf config.renderMode config.optimizeStatic 0 n nodes hn
  exact ⟨lift, key, get?_analyze config hd h⟩

/-! ## Marking -/

theorem mark_id (mode : RenderMode) (n : Node) : (n.mark mode).id = n.id := by
  cases n <;> rfl

theorem mark_isKeyed (mode : RenderMode) (n : Node) : (n.mark mode).isKeyed = n.isKeyed := by
  cases n <;> rfl

theorem mark_importedTag? (mode : RenderMode) (n : Node) : (n.mark mode).importedTag? = n.importedTag? := by
  cases n with
  | element id p role data children => cases role <;> rfl
  | _ => rfl

mutual
theorem mark_all (mode : RenderMode) : ∀ n : Node, (n.mark mode).all = n.all.map (Node.mark mode)
  | .element .. => by simp [Node.mark, Node.all, allNodes_markNodes]
  | .slot .. => by simp [Node.mark, Node.all, allNodes_markNodes]
  | .text .. => rfl
  | .comment .. => rfl
  | .conditional .. => by simp [Node.mark, Node.all, mark_chainAll]
  | .iteration .. => by simp [Node.mark, Node.all, allNodes_markNodes]

theorem mark_chainAll (mode : RenderMode) : ∀ c : Chain, (c.mark mode).all = c.all.map (Node.mark mode)
  | .done => rfl
  | .otherwise _ => by simp [Chain.mark, Chain.all, allNodes_markNodes]
  | .branch .. => by simp [Chain.mark, Chain.all, allNodes_markNodes, mark_chainAll]

theorem allNodes_markNodes (mode : RenderMode) :
    ∀ nodes : List Node, allNodes (markNodes mode nodes) = (allNodes nodes).map (Node.mark mode)
  | [] => rfl
  | n :: ns => by simp [markNodes, allNodes, mark_all, allNodes_markNodes]
end

/-! ## Markup of what never changes -/

open Render

theorem attributeMarkup_mark (mode : RenderMode) (a : Attribute) :
    attributeMarkup (a.mark mode) = attributeMarkup a := by
  unfold Attribute.mark
  split <;> rfl

theorem startTag_mark (mode : RenderMode) (data : ElementData) : startTag (data.mark mode) = startTag data := by
  have h : attributeMarkup ∘ Attribute.mark mode = attributeMarkup := funext (attributeMarkup_mark mode)
  simp [startTag, ElementData.mark, List.mapM_map, h]

mutual
theorem markup_mark (mode : RenderMode) : ∀ n : Node, markup (n.mark mode) = markup n
  | .element id p role data children => by
    have htag : (data.mark mode).tag = data.tag := rfl
    cases role <;> simp [Node.mark, markup, startTag_mark, htag, markupOfList_markNodes]
  | .slot .. => by simp [Node.mark, markup]
  | .text .. => rfl
  | .comment .. => rfl
  | .conditional .. => by simp [Node.mark, markup]
  | .iteration .. => by simp [Node.mark, markup]

theorem markupOfList_markNodes (mode : RenderMode) :
    ∀ nodes : List Node, markupOfList (markNodes mode nodes) = markupOfList nodes
  | [] => rfl
  | n :: ns => by simp [markNodes, markupOfList, markup_mark, markupOfList_markNodes]
end

theorem mapM_ok {α β ε : Type} {f : α → Except ε β} (xs : List α) (h : ∀ x ∈ xs, ∃ y, f x = .ok y) :
    ∃ ys, xs.mapM f = .ok ys := by
  induction xs with
  | nil => exact ⟨[], rfl⟩
  | cons x xs ih =>
    obtain ⟨y, hy⟩ := h x (by simp)
    obtain ⟨ys, hys⟩ := ih fun x hx => h x (by simp [hx])
    exact ⟨y :: ys, by simp [List.mapM_cons, hy, hys]; rfl⟩

theorem attributeMarkup_ok {a : Attribute} (h : a.value.isExpression = false) :
    ∃ text, attributeMarkup a = .ok text := by
  unfold attributeMarkup
  cases hv : a.value with
  | literal text => exact ⟨_, rfl⟩
  | boolean value => cases value <;> exact ⟨_, rfl⟩
  | expression expr => simp [hv, AttributeValue.isExpression] at h

theorem startTag_ok {data : ElementData} (h : data.isBound = false) : ∃ text, startTag data = .ok text := by
  have ha : data.attributes.any (·.value.isExpression) = false := by
    simp [ElementData.isBound] at h
    simpa using h.1.1.1.1.1
  obtain ⟨texts, ht⟩ := mapM_ok (f := attributeMarkup) data.attributes fun a hm =>
    attributeMarkup_ok (by simpa using List.any_eq_false.1 ha a hm)
  exact ⟨_, by simp [startTag, ht]; rfl⟩

theorem partMarkup_ok {part : TextPart} (h : part.isExpression = false) : ∃ text, partMarkup part = .ok text := by
  cases part with
  | literal text => exact ⟨_, rfl⟩
  | expression expr => cases h

mutual
/-- A node that never changes has a markup. -/
theorem markup_ok (mode : RenderMode) : ∀ n : Node, n.isStatic mode = true → ∃ html, markup n = .ok html
  | .element id p role data children => by
    intro h
    cases role with
    | native =>
      simp only [Node.isStatic, Bool.and_eq_true, Bool.not_eq_true'] at h
      obtain ⟨start, hstart⟩ := startTag_ok h.1.1
      obtain ⟨content, hcontent⟩ := markupOfList_ok mode children h.2
      unfold markup
      simp only [hstart, hcontent]
      by_cases hv : Markup.isVoidElement data.tag
      · exact ⟨start, by simp [hv]⟩
      · exact ⟨_, by simp [hv]; rfl⟩
    | component => simp [Node.isStatic] at h
    | dynamic constructor => simp [Node.isStatic] at h
  | .slot .. => by simp [Node.isStatic]
  | .text id p parts => by
    intro h
    have hp : parts.any TextPart.isExpression = false := by simpa [Node.isStatic] using h
    obtain ⟨texts, ht⟩ := mapM_ok (f := partMarkup) parts fun part hm =>
      partMarkup_ok (by simpa using List.any_eq_false.1 hp part hm)
    exact ⟨_, by simp [markup, ht]; rfl⟩
  | .comment _ _ text => fun _ => ⟨"<!--" ++ text ++ "-->", by simp [markup]⟩
  | .conditional .. => by simp [Node.isStatic]
  | .iteration .. => by simp [Node.isStatic]

theorem markupOfList_ok (mode : RenderMode) :
    ∀ nodes : List Node, areStatic mode nodes = true → ∃ html, markupOfList nodes = .ok html
  | [] => fun _ => ⟨"", rfl⟩
  | n :: ns => by
    intro h
    simp only [areStatic, Bool.and_eq_true] at h
    obtain ⟨first, hfirst⟩ := markup_ok mode n h.1
    obtain ⟨rest, hrest⟩ := markupOfList_ok mode ns h.2
    exact ⟨first ++ rest, by simp [markupOfList, hfirst, hrest]; rfl⟩
end

theorem isStatic_of_canBeFragment {mode : RenderMode} {n : Node} (h : n.canBeFragment mode = true) :
    n.isStatic mode = true ∧ n.isKeyed = true := by
  unfold Node.canBeFragment at h
  split at h
  · exact ⟨by simp_all, rfl⟩
  · cases h

end TemplateCompiler.Template
