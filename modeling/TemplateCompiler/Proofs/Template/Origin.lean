import TemplateCompiler.Proofs.Markup.Rules
import TemplateCompiler.Template.Build
/-!
# Where the nodes of a template come from

Building a template makes each node of a node of the document: an element of an element, a text of a text, a comment of
a comment. So what the nodes of a document obey says something of the nodes of the template (`HasOrigin`).
`Building.Yields` says of a step what its results are like, and `haveOrigins_ofDocument` says it of a whole template.
-/

namespace TemplateCompiler.Template

open TemplateCompiler.Text TemplateCompiler.Binding

/-! ## What attributes add to an element -/

namespace ElementData

/-- What one attribute makes of an element. Its tag, its namespace and its key stay, and what it gets is not scoped. -/
inductive Adds (data : ElementData) : ElementData → Prop where
  | nothing : Adds data data
  | classes (classes : ClassBinding) : Adds data { data with classes := some classes }
  | style (style : StyleBinding) : Adds data { data with style := some style }
  | listener (listener : Listener) : Adds data { data with listeners := data.listeners ++ [listener] }
  | asAttribute (name : String) (value : AttributeValue) (position : Position) :
      Adds data { data with attributes := data.attributes ++ [⟨name, value, position, none⟩] }
  | asProperty (name : String) (value : AttributeValue) (position : Position) :
      Adds data { data with properties := data.properties ++ [⟨name, value, position, none⟩] }

theorem adds_set (data : ElementData) (custom : Bool) (name : String) (value : AttributeValue) (position : Position) :
    data.Adds (data.set custom name value position) := by
  unfold set
  split
  · unfold setClasses
    split
    · split
      · exact .nothing
      · exact .classes _
    · exact .classes _
    · exact .nothing
  · split
    · unfold setStyle
      split
      · split
        · exact .nothing
        · exact .style _
      · exact .style _
      · exact .nothing
    · split
      · exact .asProperty _ _ _
      · split
        · exact .asProperty _ _ _
        · exact .asAttribute _ _ _

/-- What an attribute adds to an element: a listener, or what its name says. -/
theorem add_cases {data data' : ElementData} {custom : Bool} {a : Markup.Attribute}
    (h : data.add custom a = .ok data') :
    (∃ listener, data' = { data with listeners := data.listeners ++ [listener] }) ∨
      ∃ value, attributeValue a = .ok value ∧ data' = data.set custom a.name value a.position := by
  unfold add at h
  cases hvalue : attributeValue a with
  | error problem =>
    rw [hvalue] at h
    cases h
  | ok value =>
    rw [hvalue] at h
    by_cases his : a.name = "is"
    · simp [his, throw, throwThe, MonadExceptOf.throw, bind, Except.bind] at h
    · simp only [his, if_false, bind, Except.bind, Except.pure, pure] at h
      split at h
      · split at h
        · obtain rfl := Except.ok.inj h
          exact .inl ⟨_, rfl⟩
        · cases h
      · exact .inr ⟨value, rfl, (Except.ok.inj h).symm⟩

/-- What holds of an element to begin with, and stays whatever an attribute adds, holds of the element in the end. -/
theorem addAll_of_adds {P : ElementData → Prop} {data : ElementData} (custom : Bool)
    (attributes : List Markup.Attribute) (h : P data)
    (hadds : ∀ data data' : ElementData, data.Adds data' → P data → P data') : P (data.addAll custom attributes).1 := by
  induction attributes generalizing data with
  | nil => exact h
  | cons a attributes ih =>
    rw [addAll]
    cases hadd : data.add custom a with
    | error problem => exact ih h
    | ok data' =>
      refine ih (hadds data data' ?_ h)
      rcases add_cases hadd with ⟨listener, rfl⟩ | ⟨value, -, rfl⟩
      · exact .listener listener
      · exact data.adds_set custom a.name value a.position

variable (data : ElementData) (custom : Bool) (attributes : List Markup.Attribute)

theorem tag_addAll : (data.addAll custom attributes).1.tag = data.tag :=
  addAll_of_adds (P := fun later => later.tag = data.tag) custom attributes rfl fun _ _ hadds h => by
    cases hadds <;> exact h

theorem key_addAll : (data.addAll custom attributes).1.key = data.key :=
  addAll_of_adds (P := fun later => later.key = data.key) custom attributes rfl fun _ _ hadds h => by
    cases hadds <;> exact h

theorem namespace_addAll : (data.addAll custom attributes).1.namespace = data.namespace :=
  addAll_of_adds (P := fun later => later.namespace = data.namespace) custom attributes rfl fun _ _ hadds h => by
    cases hadds <;> exact h

end ElementData

/-! ## Origins -/

/-- The data of an element is what attributes of the element `e` say, those that are no directives. -/
def ElementData.IsOf (data : ElementData) (e : Markup.Element) : Prop :=
  ∃ «namespace» key attributes, attributes.Sublist e.attributes ∧
    data = (addAll ⟨e.tag, «namespace», [], [], none, none, [], key⟩ (Markup.isCustomName e.tag) attributes).1

/-- A node is made of a node of a document that obeys the rules. A conditional starts with a branch. -/
def Node.HasOrigin (rules : Markup.Rules) : Node → Prop
  | .element _ _ _ data children => ∃ e content, rules.element e content ∧ data.IsOf e ∧ (content = [] → children = [])
  | .text _ _ parts => ∃ source keepBlanks visible, (∀ c ∈ source.toList, rules.character c) ∧
      Text.shown keepBlanks source = some visible ∧ splitText visible.toList = .ok parts
  | .comment _ _ content => rules.comment content
  | .conditional _ _ chain => ∃ test negate children next, chain = .branch test negate children next
  | .slot .. => True
  | .iteration .. => True

/-- Each of some nodes is made of a node that obeys the rules. -/
def HaveOrigins (rules : Markup.Rules) (nodes : List Node) : Prop :=
  ∀ n ∈ nodes, n.HasOrigin rules

section Lists

variable {rules : Markup.Rules}

theorem haveOrigins_nil : HaveOrigins rules [] := by
  simp [HaveOrigins]

theorem haveOrigins_cons {n : Node} {nodes : List Node} :
    HaveOrigins rules (n :: nodes) ↔ n.HasOrigin rules ∧ HaveOrigins rules nodes :=
  List.forall_mem_cons

theorem haveOrigins_append {nodes nodes' : List Node} :
    HaveOrigins rules (nodes ++ nodes') ↔ HaveOrigins rules nodes ∧ HaveOrigins rules nodes' :=
  List.forall_mem_append

end Lists

theorem allNodes_append (nodes nodes' : List Node) : allNodes (nodes ++ nodes') = allNodes nodes ++ allNodes nodes' := by
  induction nodes with
  | nil => rfl
  | cons n ns ih => rw [List.cons_append, allNodes, allNodes, ih, List.append_assoc]

theorem all_subset_cons {n m : Node} {below : List Node} (hall : n.all = n :: below) (hm : m ∈ n.all)
    (hbelow : m ∈ below → m.all ⊆ below) : m.all ⊆ n.all := by
  rw [hall] at hm
  rcases List.mem_cons.1 hm with rfl | hm
  · exact List.Subset.refl _
  · rw [hall]
    exact List.subset_cons_of_subset _ (hbelow hm)

mutual

/-- The nodes below a node below another one are below that one, too. -/
theorem all_subset_all : ∀ n : Node, ∀ m ∈ n.all, m.all ⊆ n.all
  | .element id p role data children, m, hm => all_subset_cons rfl hm (all_subset_allNodes children m)
  | .slot id p name attributes children, m, hm => all_subset_cons rfl hm (all_subset_allNodes children m)
  | .text id p parts, m, hm => by
    rw [List.mem_singleton.1 hm]
    exact List.Subset.refl _
  | .comment id p content, m, hm => by
    rw [List.mem_singleton.1 hm]
    exact List.Subset.refl _
  | .conditional id p chain, m, hm => all_subset_cons rfl hm (all_subset_chainAll chain m)
  | .iteration id p loop children, m, hm => all_subset_cons rfl hm (all_subset_allNodes children m)

theorem all_subset_chainAll : ∀ c : Chain, ∀ m ∈ c.all, m.all ⊆ c.all
  | .done, m, hm => by cases hm
  | .otherwise children, m, hm => all_subset_allNodes children m hm
  | .branch test negate children next, m, hm => by
    rcases List.mem_append.1 hm with hm | hm
    · exact List.subset_append_of_subset_left _ (all_subset_allNodes children m hm)
    · exact List.subset_append_of_subset_right _ (all_subset_chainAll next m hm)

theorem all_subset_allNodes : ∀ nodes : List Node, ∀ m ∈ allNodes nodes, m.all ⊆ allNodes nodes
  | [], m, hm => by cases hm
  | n :: ns, m, hm => by
    rcases List.mem_append.1 hm with hm | hm
    · exact List.subset_append_of_subset_left _ (all_subset_all n m hm)
    · exact List.subset_append_of_subset_right _ (all_subset_allNodes ns m hm)

end

namespace Building

variable {α β : Type}

/-- The results of a step are as `post` says. -/
def Yields (m : Building α) (post : α → Prop) : Prop :=
  ∀ draft, post (m.run draft).1

theorem Yields.pure {a : α} {post : α → Prop} (h : post a) : Yields (pure a) post :=
  fun _ => h

theorem Yields.any (m : Building α) : Yields m fun _ => True :=
  fun _ => trivial

theorem Yields.bind {m : Building α} {mid : α → Prop} {k : α → Building β} {post : β → Prop} (hm : Yields m mid)
    (hk : ∀ a, mid a → Yields (k a) post) : Yields (m >>= k) post :=
  fun draft => hk _ (hm draft) _

/-- A step whose result does not matter. -/
theorem Yields.after (m : Building α) {k : α → Building β} {post : β → Prop} (hk : ∀ a, Yields (k a) post) :
    Yields (m >>= k) post :=
  .bind (.any m) fun a _ => hk a

theorem Yields.ite {m m' : Building α} {post : α → Prop} (c : Bool) (hm : Yields m post) (hm' : Yields m' post) :
    Yields (if c then m else m') post := by
  split
  · exact hm
  · exact hm'

end Building

open Building

/-! ## Directives -/

namespace Reading

theorem rest_withValue {α : Type} (r : Reading) (a : Markup.Attribute) (value : Except Problem α)
    {f : Reading → α → Reading} (hf : ∀ r v, (f r v).rest = r.rest) : (r.withValue a value f).rest = r.rest := by
  cases value with
  | ok v => exact hf r v
  | error problem => rfl

theorem rest_setCondition (r : Reading) (a : Markup.Attribute) (condition : Condition) :
    (r.setCondition a condition).rest = r.rest := by
  unfold setCondition
  split <;> rfl

/-- An attribute is a directive, or it is kept. -/
theorem rest_step (r : Reading) (a : Markup.Attribute) :
    (r.step a).rest = r.rest ∨ (r.step a).rest = r.rest ++ [a] := by
  unfold step
  split
  case h_5 =>
    refine .inl ((rest_setCondition _ _ _).trans ?_)
    split <;> rfl
  case h_13 =>
    split
    · exact .inl rfl
    · exact .inr rfl
  all_goals
    first
    | exact .inl rfl
    | exact .inl (rest_withValue _ _ _ fun _ _ => rfl)
    | exact .inl (rest_withValue _ _ _ fun r _ => rest_setCondition r _ _)

theorem rest_foldl (attributes : List Markup.Attribute) (r : Reading) :
    (attributes.foldl step r).rest.Sublist (r.rest ++ attributes) := by
  induction attributes generalizing r with
  | nil => simp
  | cons a attributes ih =>
    refine (ih (r.step a)).trans ?_
    rcases rest_step r a with h | h
    · rw [h]
      exact List.Sublist.append (.refl _) (List.sublist_cons_self a attributes)
    · rw [h, List.append_assoc]
      exact List.Sublist.refl (r.rest ++ a :: attributes)

end Reading

/-- The attributes that are no directives are some of the attributes. -/
theorem Directives.read_sublist (inIteration : Bool) (attributes : List Markup.Attribute) :
    (Directives.read inIteration attributes).2.1.Sublist attributes := by
  have hrest : (Reading.ofAttributes attributes).rest.Sublist attributes :=
    Reading.rest_foldl attributes {}
  unfold Directives.read
  dsimp only
  split
  · exact hrest
  · split <;> exact hrest

/-! ## The parts of a template -/

variable {rules : Markup.Rules}

theorem yields_buildText (place : Place) {text : String} (position : Position)
    (htext : ∀ c ∈ text.toList, rules.character c) :
    Yields (buildText place text position) fun n? => ∀ n ∈ n?, HaveOrigins rules n.all := by
  unfold buildText
  split
  · exact .pure (by simp)
  · rename_i visible hshown
    split
    · exact .after _ fun _ => .pure (by simp)
    · rename_i parts hparts
      refine .after _ fun id => .pure fun n hn => ?_
      obtain rfl := Option.some.inj hn
      exact haveOrigins_cons.2 ⟨⟨text, _, visible, htext, hshown, hparts⟩, haveOrigins_nil⟩

theorem yields_buildComment (config : Config) (place : Place) {text : String} (position : Position)
    (htext : rules.comment text) :
    Yields (buildComment config place text position) fun n? => ∀ n ∈ n?, HaveOrigins rules n.all := by
  unfold buildComment
  split
  · refine .after _ fun id => .pure fun n hn => ?_
    obtain rfl := Option.some.inj hn
    exact haveOrigins_cons.2 ⟨htext, haveOrigins_nil⟩
  · exact .pure (by simp)

/-- The element `e`, whose directives may be left out, is one that obeys the rules, and `body` builds its content. -/
def Stems (rules : Markup.Rules) (e : Markup.Element) (body : Place → Building (List Node)) : Prop :=
  ∃ whole content, rules.element whole content ∧ e.tag = whole.tag ∧ e.attributes.Sublist whole.attributes ∧
    (content = [] → ∀ place, Yields (body place) (· = []))

section Element

variable {body : Place → Building (List Node)} (hbody : ∀ place, Yields (body place) fun nodes => HaveOrigins rules (allNodes nodes))
include hbody

theorem yields_buildElement (place : Place) (id : Nat) (e : Markup.Element) (directives : Directives)
    (hstems : Stems rules e body) :
    Yields (buildElement place id e directives body) fun n => HaveOrigins rules n.all := by
  unfold buildElement
  obtain ⟨whole, content, hrule, htag, hsublist, hempty⟩ := hstems
  have hchildren : Yields (body (place.belowElement id e.tag)) fun nodes =>
      HaveOrigins rules (allNodes nodes) ∧ (content = [] → nodes = []) :=
    fun draft => ⟨hbody _ draft, fun h => hempty h _ draft⟩
  refine .after _ fun _ => .after _ fun _ => .bind hchildren fun children hc => ?_
  refine .pure (haveOrigins_cons.2 ⟨⟨whole, content, hrule, ?_, hc.2⟩, hc.1⟩)
  exact ⟨_, _, e.attributes, hsublist, by rw [htag]⟩

theorem yields_buildSlot (place : Place) (id : Nat) (e : Markup.Element) (directives : Directives) :
    Yields (buildSlot place id e directives body) fun n => HaveOrigins rules n.all := by
  have hrest (slot : String × List Attribute × List Diagnostic) : Yields (do
      note slot.2.2
      declareSlot slot.1 e.position
      let children ← body (place.below id)
      return .slot id e.position slot.1 slot.2.1 children : Building Node) fun n => HaveOrigins rules n.all := by
    refine .after _ fun _ => .after _ fun _ => .bind (hbody _) fun children hchildren => ?_
    exact .pure (haveOrigins_cons.2 ⟨trivial, hchildren⟩)
  -- What is reported on the way depends on the directives, the node does not.
  have hdirective (slot : String × List Attribute × List Diagnostic) :=
    Yields.ite (directives.key.isSome || directives.dynamic.isSome)
      (.after (report [.slotDirective] e.position) fun _ => hrest slot) (hrest slot)
  unfold buildSlot
  refine .after _ fun iteration? => ?_
  cases iteration? with
  | none => exact hdirective (slotAttributes "" [] e.attributes)
  | some iteration => exact .after _ fun _ => hdirective (slotAttributes "" [] e.attributes)

theorem yields_buildTag (place : Place) (e : Markup.Element) (directives : Directives)
    (hstems : Stems rules e body) :
    Yields (buildTag place e directives body) fun n => HaveOrigins rules n.all := by
  unfold buildTag
  refine .after _ fun id => ?_
  split
  · exact yields_buildSlot hbody place id e directives
  · exact yields_buildElement hbody place id e directives hstems

theorem yields_buildNested (place : Place) (e : Markup.Element) (directives : Directives) (directed : Bool) :
    Yields (buildNested place e directives directed body) fun nodes => HaveOrigins rules (allNodes nodes) := by
  unfold buildNested
  exact .after _ fun _ => .after _ fun _ => hbody place

theorem yields_buildIteration (place : Place) (position : Position) (loop : Option Iteration) :
    Yields (buildIteration place position loop body) fun nodes => HaveOrigins rules (allNodes nodes) := by
  unfold buildIteration
  cases loop with
  | none => exact hbody place
  | some loop =>
    refine .after _ fun id => .bind (hbody _) fun children hchildren => ?_
    exact .pure (haveOrigins_append.2 ⟨haveOrigins_cons.2 ⟨trivial, hchildren⟩, haveOrigins_nil⟩)

theorem yields_buildAlone (place : Place) (position : Position) (condition : Option Condition) :
    Yields (buildAlone place position condition body) fun nodes => HaveOrigins rules (allNodes nodes) := by
  unfold buildAlone
  split
  · refine .after _ fun id => .bind (hbody _) fun children hchildren => ?_
    refine .pure (haveOrigins_append.2 ⟨haveOrigins_cons.2 ⟨⟨_, _, _, _, rfl⟩, ?_⟩, haveOrigins_nil⟩)
    exact haveOrigins_append.2 ⟨hchildren, haveOrigins_nil⟩
  · exact hbody place

theorem yields_buildContent (place : Place) (e : Markup.Element) (directives : Directives)
    (hstems : Stems rules e body) :
    Yields (buildContent place e directives body) fun nodes => HaveOrigins rules (allNodes nodes) := by
  refine yields_buildIteration (fun place => ?_) place _ _
  refine yields_buildAlone (fun place => ?_) place _ _
  split
  · exact yields_buildNested hbody place e directives _
  · refine .bind (yields_buildTag hbody place e directives hstems) fun n hn => ?_
    exact .pure (haveOrigins_append.2 ⟨hn, haveOrigins_nil⟩)

end Element

/-- The branches that siblings add to a conditional, and the nodes behind them, are made of nodes that obey the rules. -/
def SiblingsHaveOrigins (rules : Markup.Rules) (siblings : Chain × List Node) : Prop :=
  HaveOrigins rules siblings.1.all ∧ HaveOrigins rules (allNodes siblings.2)

mutual

theorem yields_buildChildren (config : Config) (place : Place) : ∀ node : Markup.Node, node.Obeys rules →
    Yields (buildChildren config place node) fun nodes => HaveOrigins rules (allNodes nodes)
  | .element _ children => fun h => by
    unfold buildChildren
    refine .bind (yields_buildSiblings config place none children h.2) fun siblings hsiblings => ?_
    exact .pure hsiblings.2
  | .text _ _ => fun _ => by
    unfold buildChildren
    exact .pure haveOrigins_nil
  | .comment _ _ => fun _ => by
    unfold buildChildren
    exact .pure haveOrigins_nil

theorem yields_buildSiblings (config : Config) (place : Place) (chain? : Option Nat) :
    ∀ nodes : List Markup.Node, Markup.AllObey rules nodes →
      Yields (buildSiblings config place chain? nodes) (SiblingsHaveOrigins rules)
  | [] => fun _ => by
    unfold buildSiblings
    exact .pure ⟨haveOrigins_nil, haveOrigins_nil⟩
  | .text text position :: rest => fun h => by
    unfold buildSiblings
    refine .bind (yields_buildText place position h.1) fun n? hn => ?_
    cases n? with
    | none => exact yields_buildSiblings config place chain? rest h.2
    | some n =>
      refine .bind (yields_buildSiblings config place none rest h.2) fun siblings hsiblings => ?_
      exact .pure ⟨haveOrigins_nil, haveOrigins_append.2 ⟨hn n rfl, hsiblings.2⟩⟩
  | .comment text position :: rest => fun h => by
    unfold buildSiblings
    refine .bind (yields_buildComment config place position h.1) fun n? hn => ?_
    cases n? with
    | none => exact yields_buildSiblings config place chain? rest h.2
    | some n =>
      refine .bind (yields_buildSiblings config place none rest h.2) fun siblings hsiblings => ?_
      exact .pure ⟨haveOrigins_nil, haveOrigins_append.2 ⟨hn n rfl, hsiblings.2⟩⟩
  | .element e children :: rest => fun h => by
    unfold buildSiblings
    have hempty : children = [] → ∀ place, Yields (buildChildren config place (.element e children)) (· = []) := by
      rintro rfl place
      unfold buildChildren buildSiblings
      exact .pure rfl
    have hstems (place' : Place) : Stems rules { e with attributes := (Directives.read place'.inIteration e.attributes).2.1 }
        fun place => buildChildren config place (.element e children) :=
      ⟨e, children, h.1.1, rfl, Directives.read_sublist _ _, hempty⟩
    have hcontent := fun place' directives => yields_buildContent
      (fun place => yields_buildChildren config place (.element e children) h.1) place' _ directives (hstems place)
    have hrest := fun chain? => yields_buildSiblings config place chain? rest h.2
    dsimp only
    refine .after _ fun _ => ?_
    split
    · refine .after _ fun id => .bind (hcontent _ _) fun body hbody => ?_
      refine .bind (hrest _) fun siblings hsiblings => ?_
      refine .pure ⟨haveOrigins_nil, haveOrigins_append.2 ⟨?_, hsiblings.2⟩⟩
      exact haveOrigins_cons.2 ⟨⟨_, _, _, _, rfl⟩, haveOrigins_append.2 ⟨hbody, hsiblings.1⟩⟩
    · refine .bind (hcontent _ _) fun body hbody => .bind (hrest _) fun siblings hsiblings => ?_
      exact .pure ⟨haveOrigins_append.2 ⟨hbody, hsiblings.1⟩, hsiblings.2⟩
    · refine .bind (hcontent _ _) fun body hbody => .bind (hrest _) fun siblings hsiblings => ?_
      exact .pure ⟨hbody, hsiblings.2⟩
    · exact .after _ fun _ => .after _ fun _ => hrest none
    · exact .after _ fun _ => .after _ fun _ => hrest none
    · refine .bind (hcontent _ _) fun nodes hnodes => .bind (hrest _) fun siblings hsiblings => ?_
      exact .pure ⟨haveOrigins_nil, by rw [allNodes_append]; exact haveOrigins_append.2 ⟨hnodes, hsiblings.2⟩⟩

end

theorem mem_of_root {document : List Markup.Node} {e : Markup.Element} {children : List Markup.Node}
    (h : root document = .ok (e, children)) : .element e children ∈ document := by
  unfold root at h
  split at h
  · cases h
  · rename_i n hfilter
    have hn : n ∈ document := (List.mem_filter.1 (hfilter ▸ List.mem_cons_self)).1
    split at h
    · split at h
      · cases h
        exact hn
      · cases h
    · cases h
  · cases h

/-- The nodes of a template are made of nodes that obey the rules, if the document obeys them. -/
theorem haveOrigins_ofDocument (config : Config) {document : List Markup.Node} (h : Markup.AllObey rules document) :
    HaveOrigins rules (allNodes (ofDocument config document).nodes) := by
  unfold ofDocument
  split
  · exact haveOrigins_nil
  · rename_i e children hroot
    have hchildren : Markup.AllObey rules children := (Markup.allObey_iff.1 h _ (mem_of_root hroot)).2
    exact (yields_buildSiblings (rootAttributes config e.attributes).1
      { svg := (rootAttributes config e.attributes).1.namespace = .svgHint } none children hchildren
      { diagnostics := (rootAttributes config e.attributes).2 }).2

end TemplateCompiler.Template
