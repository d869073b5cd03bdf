import TemplateCompiler.Proofs.Markup.Agreement
import TemplateCompiler.Proofs.Render.Occurrences
import TemplateCompiler.Proofs.Template.Authored
/-!
# Reserved names

Some names of attributes are the runtime's: `is`, `key`, those of directives and those of event handlers. The checks of
a native element keep them all out. A slot lets `is` and event handlers through, and a custom element turns names into
camel case behind the checks. `ofDocument_keepsReserved` says of each node when a reserved name gets into it, and that
the event handlers of an element are its listeners.
-/

namespace TemplateCompiler

open Text

namespace Template

/-- Whether the runtime keeps the name to itself. -/
def isReserved (name : String) : Bool :=
  name == "is" || Markup.isDirective name || (ElementData.eventName? name).isSome

/-- No attribute or property of the node has a reserved name. -/
def Node.KeepsReserved (n : Node) : Prop :=
  ∀ a ∈ n.attributes ++ n.properties, isReserved a.name = false

instance (n : Node) : Decidable n.KeepsReserved :=
  inferInstanceAs (Decidable (∀ a ∈ n.attributes ++ n.properties, isReserved a.name = false))

/-- The listener that an attribute says, if it is bound. -/
def listener? (a : Markup.Attribute) : Option Listener :=
  match ElementData.eventName? a.name, attributeValue a with
  | some event, .ok (.expression handler) => some ⟨event, handler, a.position⟩
  | _, _ => none

/-- An attribute gets past the checks of an element with the tag, and has a reserved name behind them: it is one of a
slot, or a property of a custom element whose name is reserved in camel case. -/
def SlipsThrough (tag : String) (a : Markup.Attribute) : Prop :=
  (tag = "slot" ∧ (a.name = "is" ∨ (ElementData.eventName? a.name).isSome)) ∨
    (Markup.isCustomName tag = true ∧ becomesProperty? tag a.name = some true ∧ isReserved (camelCase a.name) = true)

/-! ## What the checks establish -/

/-- What is known of an attribute of an element with the tag once no problem is found with it. -/
structure Accepted (tag : String) (a : Markup.Attribute) : Prop where
  value : tag = "slot" ∧ a.name = "name" ∨ ∃ value, attributeValue a = .ok value
  notIs : tag ≠ "slot" → a.name ≠ "is"
  bound : tag ≠ "slot" → (ElementData.eventName? a.name).isSome → (listener? a).isSome

namespace ElementData

theorem listeners_set (data : ElementData) (custom : Bool) (name : String) (value : AttributeValue)
    (position : Position) : (data.set custom name value position).listeners = data.listeners := by
  unfold set
  split
  · unfold setClasses
    split <;> [split; skip; skip] <;> rfl
  · split
    · unfold setStyle
      split <;> [split; skip; skip] <;> rfl
    · split
      · rfl
      · split <;> rfl

/-- What one attribute of an element must be, and the listener that it adds. -/
theorem accepted_add {data data' : ElementData} {custom : Bool} {a : Markup.Attribute}
    (h : data.add custom a = .ok data') :
    Accepted data.tag a ∧ data'.listeners = data.listeners ++ (listener? a).toList := by
  unfold add at h
  cases hvalue : attributeValue a with
  | error problem =>
    rw [hvalue] at h
    cases h
  | ok value =>
    rw [hvalue] at h
    have his : a.name ≠ "is" := by
      intro his
      simp [his, throw, throwThe, MonadExceptOf.throw, bind, Except.bind] at h
    simp only [his, if_false, bind, Except.bind, pure, Except.pure] at h
    cases hevent : eventName? a.name with
    | none =>
      rw [hevent] at h
      obtain rfl := Except.ok.inj h
      refine ⟨⟨.inr ⟨value, hvalue⟩, fun _ => his, fun _ hsome => by simp [hevent] at hsome⟩, ?_⟩
      simp [listeners_set, listener?, hevent]
    | some event =>
      rw [hevent] at h
      cases value with
      | expression handler =>
        obtain rfl := Except.ok.inj h
        have hlistener : listener? a = some ⟨event, handler, a.position⟩ := by simp [listener?, hevent, hvalue]
        exact ⟨⟨.inr ⟨_, hvalue⟩, fun _ => his, fun _ _ => by simp [hlistener]⟩, by simp [hlistener]⟩
      | _ => cases h

theorem accepted_addAll (attributes : List Markup.Attribute) {data data' : ElementData} {custom : Bool}
    (h : data.addAll custom attributes = (data', [])) :
    (∀ a ∈ attributes, Accepted data.tag a) ∧ data'.listeners = data.listeners ++ attributes.filterMap listener? := by
  induction attributes generalizing data with
  | nil =>
    cases h
    simp
  | cons a attributes ih =>
    rw [addAll] at h
    cases hadd : data.add custom a with
    | error problem =>
      rw [hadd] at h
      cases h
    | ok later =>
      rw [hadd] at h
      have hlater : later.tag = data.tag := tag_add hadd
      obtain ⟨haccepted, hlisteners⟩ := accepted_add hadd
      obtain ⟨hrest, hall⟩ := ih h
      refine ⟨List.forall_mem_cons.2 ⟨haccepted, hlater ▸ hrest⟩, ?_⟩
      rw [hall, hlisteners, List.append_assoc, List.filterMap_cons]
      cases listener? a <;> rfl

end ElementData

theorem accepted_slotAttributes (attributes : List Markup.Attribute) {name : String} {found : List Attribute}
    (h : (slotAttributes name found attributes).2.2 = []) : ∀ a ∈ attributes, Accepted "slot" a := by
  induction attributes generalizing name found with
  | nil => simp
  | cons a attributes ih =>
    rw [slotAttributes] at h
    dsimp only at h
    refine List.forall_mem_cons.2 ?_
    split at h
    · rename_i hname
      split at h
      · cases h
      · exact ⟨⟨.inl ⟨rfl, hname⟩, by simp, by simp⟩, ih h⟩
    · split at h
      · rename_i value hvalue
        exact ⟨⟨.inr ⟨value, hvalue⟩, by simp, by simp⟩, ih h⟩
      · cases h

theorem name_of_made {tag : String} {asProperty : Bool} {a : Markup.Attribute} {made : Attribute}
    (h : made? tag asProperty a = some made) :
    becomesProperty? tag a.name = some asProperty ∧
      made.name = if Markup.isCustomName tag && asProperty then camelCase a.name else a.name := by
  unfold made? at h
  split at h
  · rename_i hbecomes
    obtain ⟨value, -, rfl⟩ := Option.map_eq_some_iff.1 h
    refine ⟨hbecomes, ?_⟩
    split <;> rfl
  · cases h

theorem exists_made {tag : String} {asProperty : Bool} {a : Markup.Attribute} {value : AttributeValue}
    (hvalue : attributeValue a = .ok value) (h : becomesProperty? tag a.name = some asProperty) :
    ∃ made, made? tag asProperty a = some made := by
  simp [made?, h, hvalue, Except.toOption]

/-- An accepted attribute that is no directive becomes one with a reserved name exactly if it slips through. -/
theorem Accepted.made_iff {tag : String} {a : Markup.Attribute} (h : Accepted tag a)
    (hother : Markup.isDirective a.name = false) :
    (∃ asProperty made, made? tag asProperty a = some made ∧ isReserved made.name = true) ↔ SlipsThrough tag a := by
  have hreserved : isReserved a.name = true ↔ a.name = "is" ∨ (ElementData.eventName? a.name).isSome := by
    simp [isReserved, hother]
  have hslot : Markup.isCustomName "slot" = false := by decide
  constructor
  · rintro ⟨asProperty, made, hmade, hname⟩
    obtain ⟨hbecomes, hmadeName⟩ := name_of_made hmade
    by_cases hproperty : (Markup.isCustomName tag && asProperty) = true
    · rw [hmadeName, if_pos hproperty] at hname
      rw [Bool.and_eq_true] at hproperty
      obtain ⟨hcustom, rfl⟩ := hproperty
      exact .inr ⟨hcustom, hbecomes, hname⟩
    · rw [hmadeName, if_neg hproperty, hreserved] at hname
      by_cases htag : tag = "slot"
      · exact .inl ⟨htag, hname⟩
      · rcases hname with his | hevent
        · exact absurd his (h.notIs htag)
        · simp [becomesProperty?, htag, hevent] at hbecomes
  · rintro (⟨rfl, hname⟩ | ⟨hcustom, hbecomes, hname⟩)
    · have hother : a.name ≠ "name" := by
        intro heq
        rw [heq] at hname
        exact absurd hname (by decide)
      obtain ⟨-, heq⟩ | ⟨value, hvalue⟩ := h.value
      · exact absurd heq hother
      · obtain ⟨made, hmade⟩ := @exists_made "slot" false a value hvalue (by simp [becomesProperty?, hother])
        refine ⟨false, made, hmade, ?_⟩
        rw [(name_of_made hmade).2, Bool.and_false, if_neg (by decide)]
        exact hreserved.2 hname
    · obtain ⟨rfl, -⟩ | ⟨value, hvalue⟩ := h.value
      · rw [hslot] at hcustom
        cases hcustom
      · obtain ⟨made, hmade⟩ := exists_made hvalue hbecomes
        refine ⟨true, made, hmade, ?_⟩
        rw [(name_of_made hmade).2, hcustom, if_pos (by decide)]
        exact hname

section IsMadeOf

variable {inSvg : Bool} {e : Markup.Element} {n : Node}

/-- The attributes of an element that a node is made of are accepted, and its listeners are those that they say. -/
theorem Node.IsMadeOf.accepted (h : n.IsMadeOf inSvg e) :
    (∀ a ∈ e.own, Accepted e.tag a) ∧ (e.tag ≠ "slot" → n.listeners = e.own.filterMap listener?) := by
  cases h with
  | element key tag custom added =>
    obtain ⟨haccepted, hlisteners⟩ :=
      @ElementData.accepted_addAll e.own ⟨e.tag, _, [], [], none, none, [], key⟩ _ _ added
    exact ⟨haccepted, fun _ => hlisteners⟩
  | slot tag read =>
    have haccepted := @accepted_slotAttributes e.own "" [] (by rw [read])
    exact ⟨tag ▸ haccepted, fun h => absurd tag h⟩

theorem Node.keepsReserved_iff : n.KeepsReserved ↔ ∀ asProperty, ∀ a ∈ n.bag asProperty, isReserved a.name = false := by
  rw [KeepsReserved, List.forall_mem_append, Bool.forall_bool]
  rfl

/-- No reserved name gets into a node exactly if no attribute of its element slips through. -/
theorem Node.IsMadeOf.keepsReserved_iff (h : n.IsMadeOf inSvg e) :
    n.KeepsReserved ↔ ∀ a ∈ e.own, ¬ SlipsThrough e.tag a := by
  have hmade : ∀ a ∈ e.own, (∃ asProperty made, made? e.tag asProperty a = some made ∧ isReserved made.name = true) ↔
      SlipsThrough e.tag a := fun a ha =>
    (h.accepted.1 a ha).made_iff (by simpa using (List.mem_filter.1 ha).2)
  rw [Node.keepsReserved_iff]
  constructor
  · intro hkeeps a ha hslips
    obtain ⟨asProperty, made, hmade, hreserved⟩ := (hmade a ha).2 hslips
    have hin : made ∈ n.bag asProperty := h.bag asProperty ▸ List.mem_filterMap.2 ⟨a, ha, hmade⟩
    rw [hkeeps asProperty made hin] at hreserved
    cases hreserved
  · intro hnone asProperty made hin
    rw [h.bag asProperty] at hin
    obtain ⟨a, ha, hmadeOf⟩ := List.mem_filterMap.1 hin
    rw [← Bool.not_eq_true]
    exact fun hreserved => hnone a ha ((hmade a ha).1 ⟨asProperty, made, hmadeOf, hreserved⟩)

/-- The event handlers of an element are listeners, each of them bound, and nothing else listens. -/
def Node.ListensAs (n : Node) (e : Markup.Element) : Prop :=
  n.listeners = e.own.filterMap listener? ∧
    ∀ a ∈ e.own, (ElementData.eventName? a.name).isSome → (listener? a).isSome

end IsMadeOf

end Template

open Template

/-- In a template without errors, a reserved name gets into a node exactly if an attribute of its element slips
through: that is into no native element. All event handlers of an element become listeners, which are bound. -/
theorem ofDocument_keepsReserved {config : Config} {document : List Markup.Node}
    (hclean : (ofDocument config document).hasErrors = false) :
    List.Forall₂ (fun n seat => (n.KeepsReserved ↔ ∀ a ∈ seat.element.own, ¬ SlipsThrough seat.element.tag a) ∧
        (seat.element.tag ≠ "slot" → n.ListensAs seat.element))
      ((allNodes (ofDocument config document).nodes).filter Node.isKeyed)
      ((Markup.seatsOf [] document).filter (·.element.tag != "template")) := by
  refine (ofDocument_areMadeOf config document hclean).nodes.imp fun n seat h => ?_
  exact ⟨h.keepsReserved_iff, fun htag => ⟨h.accepted.2 htag, fun a ha => (h.accepted.1 a ha).bound htag⟩⟩

/-- A listener and attributes with other names, in an element and in a slot. -/
theorem ofDocument_keepsReserved_listener :
    ∃ document, Markup.parse "<template><a onclick={f} href='x'></a><slot title='y'></slot></template>".toList =
        .ok document ∧ (ofDocument {} document).hasErrors = false ∧
      (∀ n ∈ allNodes (ofDocument {} document).nodes, n.KeepsReserved) ∧
      List.Forall₂ (fun n seat => (n.KeepsReserved ↔ ∀ a ∈ seat.element.own, ¬ SlipsThrough seat.element.tag a) ∧
          (seat.element.tag ≠ "slot" → n.ListensAs seat.element))
        ((allNodes (ofDocument {} document).nodes).filter Node.isKeyed)
        ((Markup.seatsOf [] document).filter (·.element.tag != "template")) := by
  obtain ⟨document, hparse, hclean, hkeeps⟩ := @Markup.exists_parse
    "<template><a onclick={f} href='x'></a><slot title='y'></slot></template>".toList
    (fun document => (ofDocument {} document).hasErrors = false ∧
      ∀ n ∈ allNodes (ofDocument {} document).nodes, n.KeepsReserved) _ (by decide +kernel)
  exact ⟨document, hparse, hclean, hkeeps, ofDocument_keepsReserved hclean⟩

/-- A slot with the attribute `is`, one with an event handler, and a component with a property that is named as a
directive. -/
theorem exists_not_keepsReserved :
    (∃ document, Markup.parse "<template><slot is='x'></slot></template>".toList = .ok document ∧
      (ofDocument {} document).hasErrors = false ∧ ∃ n ∈ allNodes (ofDocument {} document).nodes, ¬ n.KeepsReserved) ∧
    (∃ document, Markup.parse "<template><slot onclick={f}></slot></template>".toList = .ok document ∧
      (ofDocument {} document).hasErrors = false ∧ ∃ n ∈ allNodes (ofDocument {} document).nodes, ¬ n.KeepsReserved) ∧
    ∃ document, Markup.parse "<template><c-d lwc-:x='y'></c-d></template>".toList = .ok document ∧
      (ofDocument {} document).hasErrors = false ∧ ∃ n ∈ allNodes (ofDocument {} document).nodes, ¬ n.KeepsReserved :=
  ⟨Markup.exists_parse (by decide +kernel), Markup.exists_parse (by decide +kernel),
    Markup.exists_parse (by decide +kernel)⟩

end TemplateCompiler
