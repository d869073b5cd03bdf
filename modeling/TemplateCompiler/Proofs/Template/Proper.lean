import TemplateCompiler.Proofs.Binding.Proper
import TemplateCompiler.Proofs.Template.Origin
import TemplateCompiler.Proofs.Text.Blank
/-!
# Nodes as they are read

The expressions of the nodes of a template are those of bindings, the names that an iteration binds are identifier
names, and no text is without parts (`areProper_ofDocument`).
-/

namespace TemplateCompiler.Template

open TemplateCompiler.Text TemplateCompiler.Binding

/-! ## Nodes -/

/-- The expression of a value is as it should be. -/
def AttributeValue.IsProper (value : AttributeValue) : Prop :=
  ∀ expr, value = .expression expr → expr.IsProper

/-- The expressions of an element are as they should be. -/
structure ElementData.IsProper (data : ElementData) : Prop where
  attributes : ∀ a ∈ data.attributes, a.value.IsProper
  properties : ∀ a ∈ data.properties, a.value.IsProper
  classes : ∀ expr, data.classes = some (.dynamic expr) → expr.IsProper
  style : ∀ expr, data.style = some (.dynamic expr) → expr.IsProper
  listeners : ∀ l ∈ data.listeners, l.handler.IsProper
  key : ∀ expr ∈ data.key, expr.IsProper

/-- What an iteration runs over is as it should be, and it binds identifier names. -/
structure Iteration.IsProper (loop : Iteration) : Prop where
  iterable : loop.iterable.IsProper
  names : ∀ name ∈ loop.names, isIdentifierName name = true

/-- The tests of a chain are as they should be. -/
def Chain.HasProperTests : Chain → Prop
  | .branch test _ _ next => test.IsProper ∧ next.HasProperTests
  | _ => True

/-- The expressions of a node are as they should be, and a text has parts. -/
def Node.IsProper : Node → Prop
  | .element _ _ role data _ => (∀ expr, role = .dynamic expr → expr.IsProper) ∧ data.IsProper
  | .slot _ _ _ attributes _ => ∀ a ∈ attributes, a.value.IsProper
  | .text _ _ parts => parts ≠ [] ∧ ∀ expr, .expression expr ∈ parts → expr.IsProper
  | .comment .. => True
  | .conditional _ _ chain => chain.HasProperTests
  | .iteration _ _ loop _ => loop.IsProper

/-- The nodes are as they should be. -/
def AreProper (nodes : List Node) : Prop :=
  ∀ n ∈ nodes, n.IsProper

theorem areProper_nil : AreProper [] :=
  List.forall_mem_nil _

theorem areProper_cons {n : Node} {nodes : List Node} : AreProper (n :: nodes) ↔ n.IsProper ∧ AreProper nodes :=
  List.forall_mem_cons

theorem areProper_append {nodes nodes' : List Node} :
    AreProper (nodes ++ nodes') ↔ AreProper nodes ∧ AreProper nodes' :=
  List.forall_mem_append

/-! ## Attributes -/

theorem isProper_readAttribute {a : Markup.Attribute} {code : List Char} {expr : Expr}
    (h : readAttribute a code = .ok expr) : expr.IsProper := by
  unfold readAttribute at h
  split at h
  · rename_i found hfound
    cases h
    exact isProper_readBinding hfound
  · cases h

theorem isProper_requiredBinding {a : Markup.Attribute} {expr : Expr} (h : requiredBinding a = .ok expr) :
    expr.IsProper := by
  unfold requiredBinding at h
  split at h
  · split at h
    · cases h
    · exact isProper_readAttribute h
  · cases h

theorem isProper_attributeValue {a : Markup.Attribute} {value : AttributeValue} (h : attributeValue a = .ok value) :
    value.IsProper := by
  rintro expr rfl
  unfold attributeValue at h
  split at h
  · split at h
    · cases h
    · rename_i code _ _
      cases hread : readAttribute a code with
      | error problem => rw [hread] at h; cases h
      | ok found =>
        rw [hread] at h
        cases h
        exact isProper_readAttribute hread
  · split at h <;> cases h

namespace ElementData

theorem isProper_setClasses {data : ElementData} (h : data.IsProper) {value : AttributeValue} (hvalue : value.IsProper) :
    (data.setClasses value).IsProper := by
  unfold setClasses
  split
  · split
    · exact h
    · exact { h with classes := fun expr hexpr => by cases hexpr }
  · rename_i expr
    refine { h with classes := fun expr' hexpr => ?_ }
    cases hexpr
    exact hvalue expr rfl
  · exact h

theorem isProper_setStyle {data : ElementData} (h : data.IsProper) {value : AttributeValue} (hvalue : value.IsProper) :
    (data.setStyle value).IsProper := by
  unfold setStyle
  split
  · split
    · exact h
    · exact { h with style := fun expr hexpr => by cases hexpr }
  · rename_i expr
    refine { h with style := fun expr' hexpr => ?_ }
    cases hexpr
    exact hvalue expr rfl
  · exact h

theorem isProper_propertyValue (name : String) {value : AttributeValue} (hvalue : value.IsProper) :
    (propertyValue name value).IsProper := by
  unfold propertyValue
  split
  · split <;> (intro expr hexpr; cases hexpr)
  · exact hvalue

theorem isProper_set {data : ElementData} (h : data.IsProper) (custom : Bool) (name : String) {value : AttributeValue}
    (hvalue : value.IsProper) (position : Position) : (data.set custom name value position).IsProper := by
  have hlast {attributes : List Attribute} (hattributes : ∀ a ∈ attributes, a.value.IsProper) {a : Attribute}
      (ha : a.value.IsProper) : ∀ b ∈ attributes ++ [a], b.value.IsProper :=
    List.forall_mem_append.2 ⟨hattributes, List.forall_mem_singleton.2 ha⟩
  unfold set
  split_ifs
  · exact isProper_setClasses h hvalue
  · exact isProper_setStyle h hvalue
  · exact { h with properties := hlast h.properties (isProper_propertyValue name hvalue) }
  · exact { h with properties := hlast h.properties hvalue }
  · exact { h with attributes := hlast h.attributes hvalue }

theorem isProper_add {data data' : ElementData} {custom : Bool} {a : Markup.Attribute} (h : data.IsProper)
    (hadd : data.add custom a = .ok data') : data'.IsProper := by
  unfold add at hadd
  obtain ⟨value, hvalue, hadd⟩ := bind_eq_ok hadd
  have hproper := isProper_attributeValue hvalue
  by_cases his : a.name = "is"
  · rw [if_pos his] at hadd
    cases hadd
  rw [if_neg his] at hadd
  split at hadd
  · split at hadd
    · rename_i handler
      cases hadd
      refine { h with listeners := List.forall_mem_append.2 ⟨h.listeners, List.forall_mem_singleton.2 ?_⟩ }
      exact hproper handler rfl
    · cases hadd
  · cases hadd
    exact isProper_set h custom a.name hproper a.position

theorem isProper_addAll (custom : Bool) (attributes : List Markup.Attribute) {data : ElementData} (h : data.IsProper) :
    (data.addAll custom attributes).1.IsProper := by
  induction attributes generalizing data with
  | nil => exact h
  | cons a attributes ih =>
    rw [addAll]
    cases hadd : data.add custom a with
    | error problem => exact ih h
    | ok data' => exact ih (isProper_add h hadd)

end ElementData

theorem isProper_slotAttributes (attributes : List Markup.Attribute) {name : String} {found : List Attribute}
    (h : ∀ a ∈ found, a.value.IsProper) : ∀ a ∈ (slotAttributes name found attributes).2.1, a.value.IsProper := by
  induction attributes generalizing name found with
  | nil => exact h
  | cons a attributes ih =>
    unfold slotAttributes
    dsimp only
    split_ifs
    · exact ih h
    · exact ih h
    · cases hvalue : attributeValue a with
      | error problem => exact ih h
      | ok value =>
        exact ih (List.forall_mem_append.2 ⟨h, List.forall_mem_singleton.2 (isProper_attributeValue hvalue)⟩)

/-! ## Directives -/

/-- The test of a condition is as it should be. -/
def Condition.IsProper : Condition → Prop
  | .alone test _ => test.IsProper
  | .first test => test.IsProper
  | .next test => test.IsProper
  | .last => True

/-- The expressions and names of directives are as they should be. -/
structure Directives.IsProper (directives : Directives) : Prop where
  condition : ∀ condition ∈ directives.condition, condition.IsProper
  iteration : ∀ loop ∈ directives.iteration, loop.IsProper
  key : ∀ expr ∈ directives.key, expr.IsProper
  dynamic : ∀ expr ∈ directives.dynamic, expr.IsProper

namespace Reading

/-- The expressions and names that have been read are as they should be. -/
structure IsProper (r : Reading) : Prop where
  condition : ∀ condition ∈ r.condition, condition.IsProper
  each : ∀ found ∈ r.each, found.1.IsProper
  item : ∀ found ∈ r.item, isIdentifierName found.1 = true
  index : ∀ found ∈ r.index, isIdentifierName found.1 = true
  dynamic : ∀ expr ∈ r.dynamic, expr.IsProper

theorem IsProper.report {r : Reading} (h : r.IsProper) (problem : Problem) (position : Position) :
    (r.report problem position).IsProper :=
  ⟨h.condition, h.each, h.item, h.index, h.dynamic⟩

theorem IsProper.withValue {α : Type} {r : Reading} (h : r.IsProper) (a : Markup.Attribute) {value : Except Problem α}
    {f : Reading → α → Reading} (hf : ∀ v, value = .ok v → (f r v).IsProper) : (r.withValue a value f).IsProper := by
  cases value with
  | ok v => exact hf v rfl
  | error problem => exact h.report problem a.position

theorem IsProper.setCondition {r : Reading} (h : r.IsProper) (a : Markup.Attribute) {condition : Condition}
    (hcondition : condition.IsProper) : (r.setCondition a condition).IsProper := by
  unfold Reading.setCondition
  split
  · exact h.report _ _
  · exact ⟨fun c hc => Option.some.inj hc ▸ hcondition, h.each, h.item, h.index, h.dynamic⟩

theorem isIdentifierName_variableName {a : Markup.Attribute} {name : String} (h : variableName a = .ok name) :
    isIdentifierName name = true := by
  unfold variableName at h
  dsimp only at h
  split at h
  · rename_i hname
    cases h
    exact (Bool.and_eq_true_iff.1 hname).2
  · cases h

theorem IsProper.step {r : Reading} (h : r.IsProper) (a : Markup.Attribute) : (r.step a).IsProper := by
  have hcondition {r : Reading} (h : r.IsProper) {condition : Expr → Condition}
      (hc : ∀ test, test.IsProper → (condition test).IsProper) :
      (r.withValue a (requiredBinding a) fun r test => r.setCondition a (condition test)).IsProper :=
    h.withValue a fun test htest => h.setCondition a (hc test (isProper_requiredBinding htest))
  unfold Reading.step
  split
  · exact hcondition (h.report _ _) fun _ => id
  · exact hcondition (h.report _ _) fun _ => id
  · exact hcondition h fun _ => id
  · exact hcondition h fun _ => id
  · split
    · exact (h.report _ _).setCondition a trivial
    · exact h.setCondition a trivial
  · refine h.withValue a fun expr hexpr => { h with each := fun found hfound => ?_ }
    obtain rfl := Option.some.inj hfound
    exact isProper_requiredBinding hexpr
  · refine h.withValue a fun name hname => { h with item := fun found hfound => ?_ }
    obtain rfl := Option.some.inj hfound
    exact isIdentifierName_variableName hname
  · refine h.withValue a fun name hname => { h with index := fun found hfound => ?_ }
    obtain rfl := Option.some.inj hfound
    exact isIdentifierName_variableName hname
  · exact ⟨h.condition, h.each, h.item, h.index, h.dynamic⟩
  · refine h.withValue a fun expr hexpr => { h with dynamic := fun found hfound => ?_ }
    obtain rfl := Option.some.inj hfound
    exact isProper_requiredBinding hexpr
  · exact h.report _ _
  · exact h.report _ _
  · split
    · exact h.report _ _
    · exact ⟨h.condition, h.each, h.item, h.index, h.dynamic⟩

theorem isProper_foldl (attributes : List Markup.Attribute) {r : Reading} (h : r.IsProper) :
    (attributes.foldl Reading.step r).IsProper := by
  induction attributes generalizing r with
  | nil => exact h
  | cons a attributes ih => exact ih (h.step a)

end Reading

theorem isProper_readKey {repeated : Bool} {a : Markup.Attribute} {expr : Expr}
    (h : Reading.readKey repeated a = .ok expr) : expr.IsProper := by
  unfold Reading.readKey at h
  split at h
  · cases h
  · split at h
    · split at h
      · cases h
      · exact isProper_readAttribute h
    · cases h

theorem isProper_iteration? {r : Reading} (h : r.IsProper) : ∀ loop ∈ r.iteration?, loop.IsProper := by
  intro loop hloop
  unfold Reading.iteration? at hloop
  split at hloop
  · rename_i iterable p item q heach hitem
    obtain rfl := Option.some.inj hloop
    refine ⟨h.each _ heach, fun name hname => ?_⟩
    rcases List.mem_cons.1 hname with rfl | hname
    · exact h.item _ hitem
    · obtain ⟨found, hfound, rfl⟩ := Option.map_eq_some_iff.1 (Option.mem_toList.1 hname)
      exact h.index _ hfound
  · cases hloop

/-- The directives of an element are as they should be. -/
theorem isProper_read (inIteration : Bool) (attributes : List Markup.Attribute) :
    (Directives.read inIteration attributes).1.IsProper := by
  have hread : (Reading.ofAttributes attributes).IsProper :=
    Reading.isProper_foldl attributes ⟨by simp, by simp, by simp, by simp, by simp⟩
  have hnone (key : Option Expr) (hkey : ∀ expr ∈ key, expr.IsProper) : Directives.IsProper
      ⟨(Reading.ofAttributes attributes).condition, (Reading.ofAttributes attributes).iteration?, key,
        (Reading.ofAttributes attributes).dynamic⟩ :=
    ⟨hread.condition, isProper_iteration? hread, hkey, hread.dynamic⟩
  unfold Directives.read
  dsimp only
  split
  · exact hnone none (by simp)
  · split
    · rename_i expr hexpr
      refine hnone (some expr) fun found hfound => ?_
      obtain rfl := Option.some.inj hfound
      exact isProper_readKey hexpr
    · exact hnone none (by simp)

/-! ## The parts of a template -/

open Building

theorem splitFrom_proper {offset : Nat} {cs : List Char} {parts : List TextPart} (h : splitFrom offset cs = .ok parts) :
    (cs ≠ [] → parts ≠ []) ∧ ∀ expr, .expression expr ∈ parts → expr.IsProper := by
  have hliteral (run : List Char) (expr : Expr) : .expression expr ∉ literalParts run := by
    unfold literalParts
    split <;> simp
  fun_induction splitFrom offset cs generalizing parts with
  | case1 =>
    rename_i cs run hnone
    cases h
    have hrun : run = cs := by
      have happend : run ++ cs.dropWhile (· != '{') = cs := List.takeWhile_append_dropWhile
      rwa [hnone, List.append_nil] at happend
    refine ⟨fun hne => ?_, fun expr hexpr => absurd hexpr (hliteral run expr)⟩
    rw [literalParts, hrun, if_neg (by simpa using hne)]
    exact List.cons_ne_nil _ _
  | case2 => cases h
  | case3 => cases h
  | case4 => cases h
  | case5 =>
    rename_i run _ _ _ _ _ _ _ expr hexpr parts hparts ih
    cases h
    refine ⟨fun _ => by simp, fun found hfound => ?_⟩
    rcases List.mem_append.1 hfound with hfound | hfound
    · exact absurd hfound (hliteral run found)
    · rcases List.mem_cons.1 hfound with heq | hfound
      · cases heq
        exact isProper_readBinding hexpr
      · exact (ih hparts).2 found hfound

theorem yields_proper_buildText (place : Place) (text : String) (position : Position) :
    Yields (buildText place text position) fun n? => ∀ n ∈ n?, AreProper n.all := by
  unfold buildText
  split
  · exact .pure (by simp)
  · rename_i visible hshown
    split
    · exact .after _ fun _ => .pure (by simp)
    · rename_i parts hparts
      refine .after _ fun id => .pure fun n hn => ?_
      obtain rfl := Option.some.inj hn
      obtain ⟨hne, hproper⟩ := splitFrom_proper hparts
      exact areProper_cons.2 ⟨⟨hne (shown_ne_nil hshown), hproper⟩, areProper_nil⟩

theorem yields_proper_buildComment (config : Config) (place : Place) (text : String) (position : Position) :
    Yields (buildComment config place text position) fun n? => ∀ n ∈ n?, AreProper n.all := by
  unfold buildComment
  split
  · refine .after _ fun id => .pure fun n hn => ?_
    obtain rfl := Option.some.inj hn
    exact areProper_cons.2 ⟨trivial, areProper_nil⟩
  · exact .pure (by simp)

section Element

variable {body : Place → Building (List Node)} (hbody : ∀ place, Yields (body place) fun nodes => AreProper (allNodes nodes))
include hbody

theorem yields_proper_buildTag (place : Place) (e : Markup.Element) {directives : Directives}
    (hdirectives : directives.IsProper) : Yields (buildTag place e directives body) fun n => AreProper n.all := by
  have hslot (id : Nat) : Yields (buildSlot place id e directives body) fun n => AreProper n.all := by
    have hrest (slot : String × List Attribute × List Diagnostic) (hslot : ∀ a ∈ slot.2.1, a.value.IsProper) :
        Yields (do
          note slot.2.2
          declareSlot slot.1 e.position
          let children ← body (place.below id)
          return .slot id e.position slot.1 slot.2.1 children : Building Node) fun n => AreProper n.all := by
      refine .after _ fun _ => .after _ fun _ => .bind (hbody _) fun children hchildren => ?_
      exact .pure (areProper_cons.2 ⟨hslot, hchildren⟩)
    have hattributes : ∀ a ∈ (slotAttributes "" [] e.attributes).2.1, a.value.IsProper :=
      isProper_slotAttributes e.attributes (by simp)
    have hdirective := Yields.ite (directives.key.isSome || directives.dynamic.isSome)
      (.after (report [.slotDirective] e.position) fun _ => hrest _ hattributes) (hrest _ hattributes)
    unfold buildSlot
    refine .after _ fun iteration? => ?_
    cases iteration? with
    | none => exact hdirective
    | some iteration => exact .after _ fun _ => hdirective
  have helement (id : Nat) : Yields (buildElement place id e directives body) fun n => AreProper n.all := by
    unfold buildElement
    refine .after _ fun _ => .after _ fun _ => .bind (hbody _) fun children hchildren => ?_
    refine .pure (areProper_cons.2 ⟨⟨fun expr hrole => ?_, ?_⟩, hchildren⟩)
    · unfold roleOf at hrole
      split_ifs at hrole
      split at hrole
      · rename_i constructor hdynamic
        cases hrole
        exact hdirectives.dynamic _ hdynamic
      · cases hrole
    · refine ElementData.isProper_addAll _ _ ⟨by simp, by simp, by simp, by simp, by simp, hdirectives.key⟩
  unfold buildTag
  refine .after _ fun id => ?_
  split
  · exact hslot id
  · exact helement id

theorem yields_proper_buildIteration (place : Place) (position : Position) {loop : Option Iteration}
    (hloop : ∀ l ∈ loop, l.IsProper) :
    Yields (buildIteration place position loop body) fun nodes => AreProper (allNodes nodes) := by
  unfold buildIteration
  cases loop with
  | none => exact hbody place
  | some loop =>
    refine .after _ fun id => .bind (hbody _) fun children hchildren => ?_
    exact .pure (areProper_append.2 ⟨areProper_cons.2 ⟨hloop loop rfl, hchildren⟩, areProper_nil⟩)

theorem yields_proper_buildAlone (place : Place) (position : Position) {condition : Option Condition}
    (hcondition : ∀ c ∈ condition, c.IsProper) :
    Yields (buildAlone place position condition body) fun nodes => AreProper (allNodes nodes) := by
  unfold buildAlone
  split
  · refine .after _ fun id => .bind (hbody _) fun children hchildren => ?_
    refine .pure (areProper_append.2 ⟨areProper_cons.2 ⟨⟨hcondition _ rfl, trivial⟩, ?_⟩, areProper_nil⟩)
    exact areProper_append.2 ⟨hchildren, areProper_nil⟩
  · exact hbody place

theorem yields_proper_buildContent (place : Place) (e : Markup.Element) {directives : Directives}
    (hdirectives : directives.IsProper) :
    Yields (buildContent place e directives body) fun nodes => AreProper (allNodes nodes) := by
  refine yields_proper_buildIteration (fun place => ?_) place _ hdirectives.iteration
  refine yields_proper_buildAlone (fun place => ?_) place _ hdirectives.condition
  split
  · unfold buildNested
    exact .after _ fun _ => .after _ fun _ => hbody place
  · refine .bind (yields_proper_buildTag hbody place e hdirectives) fun n hn => ?_
    exact .pure (areProper_append.2 ⟨hn, areProper_nil⟩)

end Element

/-- The branches that siblings add to a conditional, and the nodes behind them, are as they should be. -/
def SiblingsAreProper (siblings : Chain × List Node) : Prop :=
  siblings.1.HasProperTests ∧ AreProper siblings.1.all ∧ AreProper (allNodes siblings.2)

mutual

theorem yields_proper_buildChildren (config : Config) (place : Place) : ∀ node : Markup.Node,
    Yields (buildChildren config place node) fun nodes => AreProper (allNodes nodes)
  | .element _ children => by
    unfold buildChildren
    refine .bind (yields_proper_buildSiblings config place none children) fun siblings hsiblings => ?_
    exact .pure hsiblings.2.2
  | .text _ _ => by
    unfold buildChildren
    exact .pure areProper_nil
  | .comment _ _ => by
    unfold buildChildren
    exact .pure areProper_nil

theorem yields_proper_buildSiblings (config : Config) (place : Place) (chain? : Option Nat) :
    ∀ nodes : List Markup.Node, Yields (buildSiblings config place chain? nodes) SiblingsAreProper
  | [] => by
    unfold buildSiblings
    exact .pure ⟨trivial, areProper_nil, areProper_nil⟩
  | .text text position :: rest => by
    unfold buildSiblings
    refine .bind (yields_proper_buildText place text position) fun n? hn => ?_
    cases n? with
    | none => exact yields_proper_buildSiblings config place chain? rest
    | some n =>
      refine .bind (yields_proper_buildSiblings config place none rest) fun siblings hsiblings => ?_
      exact .pure ⟨trivial, areProper_nil, areProper_append.2 ⟨hn n rfl, hsiblings.2.2⟩⟩
  | .comment text position :: rest => by
    unfold buildSiblings
    refine .bind (yields_proper_buildComment config place text position) fun n? hn => ?_
    cases n? with
    | none => exact yields_proper_buildSiblings config place chain? rest
    | some n =>
      refine .bind (yields_proper_buildSiblings config place none rest) fun siblings hsiblings => ?_
      exact .pure ⟨trivial, areProper_nil, areProper_append.2 ⟨hn n rfl, hsiblings.2.2⟩⟩
  | .element e children :: rest => by
    unfold buildSiblings
    have hread := isProper_read place.inIteration e.attributes
    have hcontent := fun place' bare => yields_proper_buildContent
      (fun place => yields_proper_buildChildren config place (.element e children)) place' bare hread
    have hrest := fun chain? => yields_proper_buildSiblings config place chain? rest
    dsimp only
    refine .after _ fun _ => ?_
    split
    · rename_i test hcondition
      refine .after _ fun id => .bind (hcontent _ _) fun body hbody => ?_
      refine .bind (hrest _) fun siblings hsiblings => ?_
      refine .pure ⟨trivial, areProper_nil, areProper_append.2 ⟨?_, hsiblings.2.2⟩⟩
      exact areProper_cons.2 ⟨⟨hread.condition _ hcondition, hsiblings.1⟩, areProper_append.2 ⟨hbody, hsiblings.2.1⟩⟩
    · rename_i test id hcondition
      refine .bind (hcontent _ _) fun body hbody => .bind (hrest _) fun siblings hsiblings => ?_
      exact .pure ⟨⟨hread.condition _ hcondition, hsiblings.1⟩, areProper_append.2 ⟨hbody, hsiblings.2.1⟩, hsiblings.2.2⟩
    · refine .bind (hcontent _ _) fun body hbody => .bind (hrest _) fun siblings hsiblings => ?_
      exact .pure ⟨trivial, hbody, hsiblings.2.2⟩
    · exact .after _ fun _ => .after _ fun _ => hrest none
    · exact .after _ fun _ => .after _ fun _ => hrest none
    · refine .bind (hcontent _ _) fun nodes hnodes => .bind (hrest _) fun siblings hsiblings => ?_
      exact .pure ⟨trivial, areProper_nil, by rw [allNodes_append]; exact areProper_append.2 ⟨hnodes, hsiblings.2.2⟩⟩

end

/-- The nodes of a template are as they should be. -/
theorem areProper_ofDocument (config : Config) (document : List Markup.Node) :
    AreProper (allNodes (ofDocument config document).nodes) := by
  unfold ofDocument
  split
  · exact areProper_nil
  · rename_i e children hroot
    exact (yields_proper_buildSiblings (rootAttributes config e.attributes).1
      { svg := (rootAttributes config e.attributes).1.namespace = .svgHint } none children
      { diagnostics := (rootAttributes config e.attributes).2 }).2.2

/-! ## Marked nodes -/

theorem value_mark (mode : RenderMode) (a : Attribute) : (a.mark mode).value = a.value := by
  unfold Attribute.mark
  split <;> rfl

theorem value_markProperty (mode : RenderMode) (a : Attribute) : (a.markProperty mode).value = a.value := by
  unfold Attribute.markProperty
  split <;> rfl

theorem HasProperTests.mark (mode : RenderMode) : ∀ {c : Chain}, c.HasProperTests → (c.mark mode).HasProperTests
  | .done, _ => trivial
  | .otherwise _, _ => trivial
  | .branch _ _ _ _, h => ⟨h.1, HasProperTests.mark mode h.2⟩

/-- What is marked stays as it should be. -/
theorem Node.IsProper.mark (mode : RenderMode) {n : Node} (h : n.IsProper) : (n.mark mode).IsProper := by
  have hmap {attributes : List Attribute} (hattributes : ∀ a ∈ attributes, a.value.IsProper) {f : Attribute → Attribute}
      (hf : ∀ a, (f a).value = a.value) : ∀ a ∈ attributes.map f, a.value.IsProper :=
    List.forall_mem_map.2 fun a ha => hf a ▸ hattributes a ha
  cases n with
  | element id p role data children =>
    obtain ⟨hrole, hdata⟩ := h
    refine ⟨hrole, { hdata with attributes := ?_, properties := ?_ }⟩
    · exact hmap hdata.attributes (value_mark mode)
    · exact hmap hdata.properties (value_markProperty mode)
  | slot id p name attributes children => exact hmap h (value_mark mode)
  | text id p parts => exact h
  | comment id p text => exact h
  | conditional id p chain => exact HasProperTests.mark mode h
  | iteration id p loop children => exact h

end TemplateCompiler.Template
