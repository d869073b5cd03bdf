import TemplateCompiler.Proofs.Markup.Renamed
import TemplateCompiler.Proofs.Template.Branches
import TemplateCompiler.Proofs.Template.Unplaced
/-!
# Elements that differ in a directive

What is read off the attributes of an element where one of them is `lwc:if` instead of `if:true`. The condition is the
same but for its kind, and only the warning of the old spelling is missing (`Directives.read_renamed`). All that does
not look at directives is the same (`addAll_same`, `slotAttributes_same`).
-/

namespace TemplateCompiler

open Text (Position)

/-! ## Diagnostics -/

/-- The diagnostics are the same, places aside, but that `k` of the first are warnings of `if:true` and are missing
from the second. -/
inductive Diagnostic.Dropped : Nat → List Diagnostic → List Diagnostic → Prop where
  | nil : Dropped 0 [] []
  | kept {k : Nat} {ds ds' : List Diagnostic} (d : Diagnostic) (position : Position) (tail : Dropped k ds ds') :
    Dropped k (d :: ds) ({ d with position } :: ds')
  | dropped {k : Nat} {ds ds' : List Diagnostic} (position : Position) (tail : Dropped k ds ds') :
    Dropped (k + 1) ((Template.Problem.deprecated "if:true").diagnostic position :: ds) ds'

theorem Diagnostic.hasErrors_append {ds es : List Diagnostic} :
    hasErrors (ds ++ es) = false ↔ hasErrors ds = false ∧ hasErrors es = false := by
  simp [hasErrors]

/-- What a list starts with has no error if it has none. -/
theorem Diagnostic.hasErrors_of_isPrefix {ds es : List Diagnostic} (h : ds <+: es) (hes : hasErrors es = false) :
    hasErrors ds = false := by
  obtain ⟨more, rfl⟩ := h
  exact (hasErrors_append.1 hes).1

namespace Diagnostic.Dropped

variable {j k : Nat} {ds ds' es es' : List Diagnostic}

theorem append (h : Dropped j ds ds') (h' : Dropped k es es') : Dropped (j + k) (ds ++ es) (ds' ++ es') := by
  induction h with
  | nil => simpa using h'
  | kept d position _ ih => exact .kept d position ih
  | dropped position _ ih =>
    rw [Nat.add_right_comm]
    exact .dropped position ih

theorem same (problem : Template.Problem) (position position' : Position) :
    Dropped 0 [problem.diagnostic position] [problem.diagnostic position'] :=
  .kept (problem.diagnostic position) position' .nil

theorem sameAll (problems : List Template.Problem) (position position' : Position) :
    Dropped 0 (problems.map (·.diagnostic position)) (problems.map (·.diagnostic position')) := by
  induction problems with
  | nil => exact .nil
  | cons problem problems ih => exact .kept (problem.diagnostic position) position' ih

/-- Nothing becomes an error. -/
theorem hasErrors_eq_false (h : Dropped k ds ds') (hclean : Diagnostic.hasErrors ds = false) :
    Diagnostic.hasErrors ds' = false := by
  induction h with
  | nil => rfl
  | kept d position _ ih =>
    simp only [Diagnostic.hasErrors, List.any_cons, Bool.or_eq_false_iff] at hclean ih ⊢
    exact ⟨hclean.1, ih hclean.2⟩
  | dropped position _ ih =>
    simp only [Diagnostic.hasErrors, List.any_cons, Bool.or_eq_false_iff] at hclean ih
    exact ih hclean.2

end Diagnostic.Dropped

namespace Markup

/-- The attribute at the first position. -/
def Attribute.unplaced (a : Attribute) : Attribute :=
  { a with position := .first }

theorem Attribute.Renamed.unplaced {a a' : Attribute} (h : a.Renamed 0 a') : a'.unplaced = a.unplaced := by
  cases h
  rfl

end Markup

namespace Template

/-! ## Directives -/

/-- The condition of an element is the same, or it is one that starts a chain where it was one that stands alone. -/
def ConditionRenamed (k : Nat) (condition condition' : Option Condition) : Prop :=
  (k = 0 ∧ condition' = condition) ∨
    (k = 1 ∧ ∃ test, condition = some (.alone test false) ∧ condition' = some (.first test))

theorem ConditionRenamed.isSome {k : Nat} {condition condition' : Option Condition}
    (h : ConditionRenamed k condition condition') : condition'.isSome = condition.isSome := by
  obtain ⟨-, rfl⟩ | ⟨-, test, rfl, rfl⟩ := h <;> rfl

namespace Reading

/-- What is known of the directives of an element is the same, places aside, but for its condition and the warnings. -/
structure Renamed (k : Nat) (r r' : Reading) : Prop where
  condition : ConditionRenamed k r.condition r'.condition
  each : r'.each.map Prod.fst = r.each.map Prod.fst
  item : r'.item.map Prod.fst = r.item.map Prod.fst
  index : r'.index.map Prod.fst = r.index.map Prod.fst
  key : r'.key.map Markup.Attribute.unplaced = r.key.map Markup.Attribute.unplaced
  dynamic : r'.dynamic = r.dynamic
  rest : r'.rest.map Markup.Attribute.unplaced = r.rest.map Markup.Attribute.unplaced
  diagnostics : Diagnostic.Dropped k r.diagnostics r'.diagnostics

variable {j k : Nat} {r r' : Reading}

theorem Renamed.report (h : r.Renamed k r') (problem : Problem) (position position' : Position) :
    (r.report problem position).Renamed k (r'.report problem position') :=
  { h with diagnostics := h.diagnostics.append (.same problem position position') }

theorem Renamed.withValue {α : Type} (h : r.Renamed k r') (a : Markup.Attribute) (position : Position)
    (value : Except Problem α) {f f' : Reading → α → Reading} (hf : ∀ v, (f r v).Renamed k (f' r' v)) :
    (r.withValue a value f).Renamed k (r'.withValue { a with position } value f') := by
  cases value with
  | ok v => exact hf v
  | error problem => exact h.report problem _ _

theorem Renamed.setCondition (h : r.Renamed k r') (a : Markup.Attribute) (position : Position)
    (condition : Condition) :
    (r.setCondition a condition).Renamed k (r'.setCondition { a with position } condition) := by
  unfold Reading.setCondition
  rw [h.condition.isSome]
  by_cases hsome : r.condition.isSome = true
  · rw [if_pos hsome, if_pos hsome]
    exact h.report _ _ _
  · rw [if_neg hsome, if_neg hsome]
    obtain ⟨rfl, -⟩ | ⟨-, test, hcondition, -⟩ := h.condition
    · exact { h with condition := .inl ⟨rfl, rfl⟩ }
    · exact absurd (by rw [hcondition]; rfl) hsome

/-- An attribute that is the same in both has the same effect. -/
theorem Renamed.step_kept (h : r.Renamed k r') (a : Markup.Attribute) (position : Position) :
    (r.step a).Renamed k (r'.step { a with position }) := by
  obtain ⟨name, value, hasValue, quoted, written⟩ := a
  unfold Reading.step
  dsimp only
  split
  case h_1 =>
    refine (h.report _ _ _).withValue _ position _ fun v => ?_
    exact (h.report _ _ _).setCondition _ position _
  case h_2 =>
    refine (h.report _ _ _).withValue _ position _ fun v => ?_
    exact (h.report _ _ _).setCondition _ position _
  case h_3 =>
    refine h.withValue _ position _ fun v => ?_
    exact h.setCondition _ position _
  case h_4 =>
    refine h.withValue _ position _ fun v => ?_
    exact h.setCondition _ position _
  case h_5 =>
    cases hasValue with
    | false => exact h.setCondition _ position _
    | true => exact (h.report _ _ _).setCondition _ position _
  case h_6 => exact h.withValue _ position _ fun v => { h with each := rfl }
  case h_7 => exact h.withValue _ position _ fun v => { h with item := rfl }
  case h_8 => exact h.withValue _ position _ fun v => { h with index := rfl }
  case h_9 => exact { h with key := rfl }
  case h_10 => exact h.withValue _ position _ fun v => { h with dynamic := rfl }
  case h_11 => exact h.report _ _ _
  case h_12 => exact h.report _ _ _
  case h_13 =>
    split
    · exact h.report _ _ _
    · exact { h with rest := by simp [h.rest, Markup.Attribute.unplaced] }

theorem requiredBinding_isError {a : Markup.Attribute} {problem : Problem} (h : requiredBinding a = .error problem) :
    problem.code.severity = .error := by
  unfold requiredBinding readAttribute at h
  split at h
  · split at h
    · cases h
      rfl
    · split at h <;> cases h
      rfl
  · cases h
    rfl

/-- The name of an attribute makes no difference to the binding that it is, nor whether it is written with a value. -/
theorem requiredBinding_renamed {a : Markup.Attribute} {test : Binding.Expr} (h : requiredBinding a = .ok test)
    (name : String) (hasValue : Bool) (position : Position) :
    requiredBinding { a with name, hasValue, position } = .ok test := by
  unfold requiredBinding readAttribute at h ⊢
  dsimp only
  split at h
  · split at h
    · cases h
    · split at h <;> cases h
      simp_all
  · cases h

theorem step_alone (r : Reading) {a : Markup.Attribute} (hname : a.name = "if:true") :
    r.step a = (r.report (.deprecated "if:true") a.position).withValue a (requiredBinding a) fun r test =>
      r.setCondition a (.alone test false) := by
  obtain ⟨name, value, hasValue, quoted, position⟩ := a
  obtain rfl : name = "if:true" := hname
  rfl

theorem step_first (r : Reading) {a : Markup.Attribute} (hname : a.name = "lwc:if") :
    r.step a = r.withValue a (requiredBinding a) fun r test => r.setCondition a (.first test) := by
  obtain ⟨name, value, hasValue, quoted, position⟩ := a
  obtain rfl : name = "lwc:if" := hname
  rfl

theorem withValue_ok {α : Type} (r : Reading) (a : Markup.Attribute) (value : α) (f : Reading → α → Reading) :
    r.withValue a (.ok value) f = f r value := rfl

theorem withValue_error {α : Type} (r : Reading) (a : Markup.Attribute) (problem : Problem)
    (f : Reading → α → Reading) : r.withValue a (.error problem) f = r.report problem a.position := rfl

theorem setCondition_of_none {r : Reading} (h : r.condition = none) (a : Markup.Attribute) (condition : Condition) :
    r.setCondition a condition = { r with condition := some condition } := by
  rw [setCondition, h]
  rfl

/-- An error that is reported stays one. -/
theorem hasErrors_report (r : Reading) {problem : Problem} (h : problem.code.severity = .error) (position : Position) :
    Diagnostic.hasErrors (r.report problem position).diagnostics = true := by
  simp [Reading.report, Diagnostic.hasErrors, Diagnostic.isError, Problem.diagnostic, h]

/-- An element has one condition. -/
theorem hasErrors_setCondition_of_isSome {r : Reading} (h : r.condition.isSome = true) (a : Markup.Attribute)
    (condition : Condition) : Diagnostic.hasErrors (r.setCondition a condition).diagnostics = true := by
  rw [setCondition, if_pos h]
  exact hasErrors_report r rfl a.position

/-- Without an error, a renamed attribute makes the one condition of the element. -/
theorem Renamed.step_renamed (h : r.Renamed k r') {a : Markup.Attribute} (hname : a.name = "if:true")
    (hasValue : Bool) (position : Position) (hclean : Diagnostic.hasErrors (r.step a).diagnostics = false) :
    k = 0 ∧ (r.step a).Renamed 1 (r'.step { a with name := "lwc:if", hasValue, position }) := by
  rw [step_alone r hname] at hclean ⊢
  rw [step_first r' rfl]
  cases hvalue : requiredBinding a with
  | error problem =>
    rw [hvalue, withValue_error, hasErrors_report _ (requiredBinding_isError hvalue)] at hclean
    cases hclean
  | ok test =>
    rw [hvalue, withValue_ok] at hclean
    rw [requiredBinding_renamed hvalue, withValue_ok, withValue_ok]
    rcases hcondition : r.condition with _ | condition
    case none =>
      have hnone : r'.condition = none := by simpa [hcondition] using h.condition.isSome
      obtain ⟨rfl, -⟩ | ⟨-, other, hsome, -⟩ := h.condition
      · refine ⟨rfl, ?_⟩
        rw [setCondition_of_none (r := r.report _ _) hcondition, setCondition_of_none hnone]
        refine { h with condition := .inr ⟨rfl, test, rfl, rfl⟩, diagnostics := ?_ }
        have hdropped := h.diagnostics.append (.dropped a.position .nil)
        rwa [List.append_nil] at hdropped
      · rw [hcondition] at hsome
        cases hsome
    case some =>
      rw [hasErrors_setCondition_of_isSome (r := r.report _ _) (congrArg Option.isSome hcondition)] at hclean
      cases hclean

theorem diagnostics_setCondition (r : Reading) (a : Markup.Attribute) (condition : Condition) :
    r.diagnostics <+: (r.setCondition a condition).diagnostics := by
  unfold Reading.setCondition
  split
  · exact List.prefix_append _ _
  · exact List.prefix_refl _

theorem diagnostics_withValue {α : Type} (r : Reading) (a : Markup.Attribute) (value : Except Problem α)
    {f : Reading → α → Reading} (hf : ∀ v, r.diagnostics <+: (f r v).diagnostics) :
    r.diagnostics <+: (r.withValue a value f).diagnostics := by
  cases value with
  | ok v => exact hf v
  | error problem => exact List.prefix_append _ _

/-- Diagnostics stay. -/
theorem diagnostics_step (r : Reading) (a : Markup.Attribute) : r.diagnostics <+: (r.step a).diagnostics := by
  unfold Reading.step
  split
  case h_1 =>
    refine (List.prefix_append _ _).trans (diagnostics_withValue (r.report _ _) a _ fun v => ?_)
    exact diagnostics_setCondition _ a _
  case h_2 =>
    refine (List.prefix_append _ _).trans (diagnostics_withValue (r.report _ _) a _ fun v => ?_)
    exact diagnostics_setCondition _ a _
  case h_3 => exact diagnostics_withValue r a _ fun v => diagnostics_setCondition r a _
  case h_4 => exact diagnostics_withValue r a _ fun v => diagnostics_setCondition r a _
  case h_5 =>
    refine List.IsPrefix.trans ?_ (diagnostics_setCondition _ a _)
    split
    · exact List.prefix_append _ _
    · exact List.prefix_refl _
  case h_13 =>
    split
    · exact List.prefix_append _ _
    · exact List.prefix_refl _
  all_goals
    first
    | exact diagnostics_withValue r a _ fun v => List.prefix_refl _
    | exact List.prefix_append _ _
    | exact List.prefix_refl _

theorem diagnostics_foldl (attributes : List Markup.Attribute) (r : Reading) :
    r.diagnostics <+: (attributes.foldl step r).diagnostics := by
  induction attributes generalizing r with
  | nil => exact List.prefix_refl _
  | cons a attributes ih => exact (diagnostics_step r a).trans (ih _)

/-- Attributes of which some are renamed have the same effect but for the condition, of which there is one. -/
theorem Renamed.foldl {attributes attributes' : List Markup.Attribute} (h : r.Renamed k r')
    (hattributes : Markup.Counted Markup.Attribute.Renamed j attributes attributes')
    (hclean : Diagnostic.hasErrors (attributes.foldl step r).diagnostics = false) :
    (attributes.foldl step r).Renamed (k + j) (attributes'.foldl step r') := by
  induction hattributes generalizing k r r' with
  | nil => exact h
  | @cons i j a a' as as' head tail ih =>
    rw [List.foldl_cons] at hclean ⊢
    have hhere := Diagnostic.hasErrors_of_isPrefix (diagnostics_foldl as _) hclean
    rw [← Nat.add_assoc]
    cases head with
    | kept _ position => exact ih (h.step_kept a position) hclean
    | renamed name hasValue position =>
      obtain ⟨rfl, hstep⟩ := h.step_renamed name hasValue position hhere
      exact ih hstep hclean

theorem iteration?_eq (r : Reading) :
    r.iteration? = (r.each.map Prod.fst).bind fun iterable =>
      (r.item.map Prod.fst).map fun item => ⟨iterable, item, r.index.map Prod.fst⟩ := by
  unfold iteration?
  cases r.each <;> cases r.item <;> rfl

theorem Renamed.iteration (h : r.Renamed k r') : r'.iteration? = r.iteration? := by
  rw [iteration?_eq, iteration?_eq, h.each, h.item, h.index]

/-- What is wrong with the iteration of an element is the same. -/
theorem Renamed.iterationDiagnostics (h : r.Renamed k r') :
    Diagnostic.Dropped 0 r.iterationDiagnostics r'.iterationDiagnostics := by
  have heach := h.each
  have hitem := h.item
  have hindex := h.index
  unfold Reading.iterationDiagnostics
  rw [h.iteration]
  refine @Diagnostic.Dropped.append 0 0 _ _ _ _ ?_ ?_
  · cases hr : r.each <;> cases hr' : r'.each <;> cases hi : r.item <;> cases hi' : r'.item <;>
      simp_all <;> first | exact .nil | exact .same _ _ _
  · cases r.iteration? with
    | some loop => exact .nil
    | none => cases hr : r.index <;> cases hr' : r'.index <;> simp_all <;> first | exact .nil | exact .same _ _ _

theorem each_step (r : Reading) {a : Markup.Attribute} (hname : a.name ≠ "for:each") : (r.step a).each = r.each := by
  have hcondition (r : Reading) (condition : Condition) : (r.setCondition a condition).each = r.each := by
    unfold Reading.setCondition
    split <;> rfl
  unfold Reading.step
  split
  case h_1 | h_2 | h_3 | h_4 =>
    exact Markup.keeps_withValue (p := Reading.each) (fun _ _ _ => rfl) _ _ _ fun _ _ => hcondition _ _
  case h_5 =>
    rw [hcondition]
    split <;> rfl
  case h_6 => contradiction
  case h_7 | h_8 | h_10 => exact Markup.keeps_withValue (p := Reading.each) (fun _ _ _ => rfl) _ _ _ fun _ _ => rfl
  case h_13 => split <;> rfl
  all_goals rfl

theorem each_foldl {attributes : List Markup.Attribute} (h : ∀ a ∈ attributes, a.name ≠ "for:each") (r : Reading) :
    (attributes.foldl step r).each = r.each := by
  induction attributes generalizing r with
  | nil => rfl
  | cons a attributes ih =>
    rw [List.foldl_cons, ih (fun b hb => h b (List.mem_cons_of_mem a hb)), each_step r (h a List.mem_cons_self)]

theorem readKey_unplaced (repeated : Bool) (a : Markup.Attribute) :
    readKey repeated a.unplaced = readKey repeated a := rfl

end Reading

/-- The directives are the same but for the condition. Where that differs, there is no iteration. -/
structure Directives.Renamed (k : Nat) (ds ds' : Directives) : Prop where
  condition : ConditionRenamed k ds.condition ds'.condition
  iteration : ds'.iteration = ds.iteration
  key : ds'.key = ds.key
  dynamic : ds'.dynamic = ds.dynamic
  once : k ≠ 0 → ds.iteration = none

/-- What is read off the attributes of an element in two ways. -/
structure ReadRenamed (k : Nat) (read read' : Directives × List Markup.Attribute × List Diagnostic) : Prop where
  directives : read.1.Renamed k read'.1
  rest : read'.2.1.map Markup.Attribute.unplaced = read.2.1.map Markup.Attribute.unplaced
  diagnostics : Diagnostic.Dropped k read.2.2 read'.2.2

theorem Directives.diagnostics_read (inIteration : Bool) (attributes : List Markup.Attribute) :
    (Reading.ofAttributes attributes).diagnostics <+: (Directives.read inIteration attributes).2.2 := by
  unfold Directives.read
  dsimp only
  split
  · exact List.prefix_append _ _
  · split
    · exact List.prefix_append _ _
    · exact (List.prefix_append _ _).trans (List.prefix_append _ _)

/-- What is read off the attributes of an element where some are renamed. -/
theorem Directives.read_renamed {k : Nat} {e e' : Markup.Element} (h : e.Renamed Markup.Element.IsOnce k e')
    (inIteration : Bool)
    (hclean : Diagnostic.hasErrors (Directives.read inIteration e.attributes).2.2 = false) :
    ReadRenamed k (Directives.read inIteration e.attributes) (Directives.read inIteration e'.attributes) := by
  have hread := Diagnostic.hasErrors_of_isPrefix (Directives.diagnostics_read inIteration e.attributes) hclean
  have hstart : Reading.Renamed 0 {} {} := ⟨.inl ⟨rfl, rfl⟩, rfl, rfl, rfl, rfl, rfl, rfl, .nil⟩
  have hr : (Reading.ofAttributes e.attributes).Renamed k (Reading.ofAttributes e'.attributes) :=
    Nat.zero_add k ▸ hstart.foldl h.attributes hread
  have honce (hk : k ≠ 0) : (Reading.ofAttributes e.attributes).iteration? = none := by
    rw [Reading.iteration?_eq, Reading.ofAttributes, Reading.each_foldl (h.allowed hk)]
    rfl
  have hall := hr.diagnostics.append hr.iterationDiagnostics
  have hkeys := hr.key
  unfold Directives.read
  dsimp only
  rw [hr.iteration, hr.dynamic]
  cases hkey : (Reading.ofAttributes e.attributes).key <;> cases hkey' : (Reading.ofAttributes e'.attributes).key <;>
    rw [hkey, hkey'] at hkeys
  case none.none => exact ⟨⟨hr.condition, rfl, rfl, rfl, honce⟩, hr.rest, hall⟩
  case none.some | some.none => cases hkeys
  case some.some a a' =>
    have ha : a'.unplaced = a.unplaced := Option.some.inj hkeys
    dsimp only
    rw [← Reading.readKey_unplaced _ a', ha, Reading.readKey_unplaced]
    split
    · exact ⟨⟨hr.condition, rfl, rfl, rfl, honce⟩, hr.rest, hall⟩
    · exact ⟨⟨hr.condition, rfl, rfl, rfl, honce⟩, hr.rest, hall.append (.same _ _ _)⟩

/-! ## What is not read as a directive -/

section Attributes

variable (data : ElementData) (custom : Bool) (a : Markup.Attribute)

theorem setClasses_unplaced (value : AttributeValue) :
    data.unplaced.setClasses value = (data.setClasses value).unplaced := by
  cases value with
  | literal text =>
    unfold ElementData.setClasses
    dsimp only
    split <;> rfl
  | _ => rfl

theorem setStyle_unplaced (value : AttributeValue) : data.unplaced.setStyle value = (data.setStyle value).unplaced := by
  cases value with
  | literal text =>
    unfold ElementData.setStyle
    dsimp only
    split <;> rfl
  | _ => rfl

theorem set_unplaced (name : String) (value : AttributeValue) (position : Position) :
    data.unplaced.set custom name value .first = (data.set custom name value position).unplaced := by
  unfold ElementData.set
  rw [setClasses_unplaced, setStyle_unplaced, show data.unplaced.tag = data.tag from rfl]
  split
  · rfl
  · split
    · rfl
    · split
      · simp [ElementData.unplaced, Attribute.unplaced]
      · split <;> simp [ElementData.unplaced, Attribute.unplaced]

theorem add_unplaced : data.unplaced.add custom a.unplaced = (data.add custom a).map ElementData.unplaced := by
  have hvalue : attributeValue a.unplaced = attributeValue a := rfl
  have hname : a.unplaced.name = a.name := rfl
  unfold ElementData.add
  rw [hvalue, hname]
  cases attributeValue a with
  | error problem => rfl
  | ok value =>
    by_cases his : a.name = "is"
    · simp only [his]
      rfl
    · simp only [if_neg his]
      cases ElementData.eventName? a.name with
      | none => exact congrArg Except.ok (set_unplaced data custom a.name value a.position)
      | some event =>
        cases value with
        | expression handler =>
          refine congrArg Except.ok ?_
          simp [ElementData.unplaced, Listener.unplaced, Markup.Attribute.unplaced]
        | _ => rfl

variable {data data' : ElementData} {as as' : List Markup.Attribute}

theorem add_same (hdata : data'.unplaced = data.unplaced) {a a' : Markup.Attribute} (ha : a'.unplaced = a.unplaced) :
    (data'.add custom a').map ElementData.unplaced = (data.add custom a).map ElementData.unplaced := by
  rw [← add_unplaced, ← add_unplaced, hdata, ha]

/-- Attributes that differ in nothing but where they stand say the same of an element. -/
theorem addAll_same (hdata : data'.unplaced = data.unplaced)
    (h : as'.map Markup.Attribute.unplaced = as.map Markup.Attribute.unplaced) :
    (data'.addAll custom as').1.unplaced = (data.addAll custom as).1.unplaced ∧
      Diagnostic.Dropped 0 (data.addAll custom as).2 (data'.addAll custom as').2 := by
  induction as generalizing as' data data' with
  | nil =>
    obtain rfl : as' = [] := List.map_eq_nil_iff.1 h
    exact ⟨hdata, .nil⟩
  | cons a as ih =>
    obtain ⟨a', as', rfl, ha, has⟩ := List.map_eq_cons_iff.1 h
    have hadd := add_same custom hdata ha
    rw [ElementData.addAll, ElementData.addAll]
    cases hd : data.add custom a <;> cases hd' : data'.add custom a' <;> rw [hd, hd'] at hadd
    case error.ok | ok.error => cases hadd
    case ok.ok => exact ih (Except.ok.inj hadd) has
    case error.error =>
      obtain rfl := Except.error.inj hadd
      obtain ⟨hsame, hdropped⟩ := ih hdata has
      exact ⟨hsame, (Diagnostic.Dropped.same _ _ _).append hdropped⟩

/-- Attributes that differ in nothing but where they stand say the same of a slot. -/
theorem slotAttributes_same (h : as'.map Markup.Attribute.unplaced = as.map Markup.Attribute.unplaced) (name : String)
    {attributes attributes' : List Attribute}
    (hattributes : attributes'.map Attribute.unplaced = attributes.map Attribute.unplaced) :
    (slotAttributes name attributes' as').1 = (slotAttributes name attributes as).1 ∧
      (slotAttributes name attributes' as').2.1.map Attribute.unplaced =
        (slotAttributes name attributes as).2.1.map Attribute.unplaced ∧
      Diagnostic.Dropped 0 (slotAttributes name attributes as).2.2 (slotAttributes name attributes' as').2.2 := by
  induction as generalizing as' name attributes attributes' with
  | nil =>
    obtain rfl : as' = [] := List.map_eq_nil_iff.1 h
    exact ⟨rfl, hattributes, .nil⟩
  | cons a as ih =>
    obtain ⟨a', as', rfl, ha, has⟩ := List.map_eq_cons_iff.1 h
    have hname : a'.unplaced.name = a.unplaced.name := by rw [ha]
    have hwritten : a'.unplaced.value = a.unplaced.value := by rw [ha]
    have hvalue : attributeValue a'.unplaced = attributeValue a.unplaced := by rw [ha]
    have hfailed := ih has name hattributes
    rw [slotAttributes, slotAttributes, show a'.name = a.name from hname, show a'.value = a.value from hwritten,
      show attributeValue a' = attributeValue a from hvalue]
    dsimp only
    split
    · split
      · exact ⟨hfailed.1, hfailed.2.1, (Diagnostic.Dropped.same _ _ _).append hfailed.2.2⟩
      · exact ih has _ hattributes
    · split
      · exact ih has _ (by simp [hattributes, Attribute.unplaced])
      · exact ⟨hfailed.1, hfailed.2.1, (Diagnostic.Dropped.same _ _ _).append hfailed.2.2⟩

end Attributes

end Template

end TemplateCompiler
