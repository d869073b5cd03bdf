import TemplateCompiler.Proofs.Markup.Seats
import TemplateCompiler.Proofs.Render.ScopedValues
import TemplateCompiler.Proofs.Template.Branches
import TemplateCompiler.Proofs.Template.Namespaces
/-!
# What authors write

The elements and slots of a template without errors are made of the elements of its document, nested `template` elements
aside: one of each, in the same order, each in the namespace that the tags around it lead to, and with all its
attributes (`ofDocument_areMadeOf`). So what is written at an element can be followed into the node that it becomes:
`Node.IsMadeOf.bag` says which attributes and properties the node has.
-/

namespace TemplateCompiler

open Text Binding

/-! ## Elements of a document -/

namespace Markup

/-- Whether an attribute of the name is a directive. -/
def isDirective (name : String) : Bool :=
  name == "key" || startsWith name "lwc:" || startsWith name "if:" || startsWith name "for:"

/-- The attributes of an element that are no directives. -/
def Element.own (e : Element) : List Attribute :=
  e.attributes.filter (!isDirective ·.name)

/-- The element without its directives. -/
def Element.withoutDirectives (e : Element) : Element :=
  { e with attributes := e.own }

/-- Whether what stands in elements with the given tags, the innermost first, stands in SVG, where `svg` says whether the
document does. -/
def standsInSvg (svg : Bool) (around : List String) : Bool :=
  around.foldr (fun tag svg => Template.opensSvg svg tag) svg

end Markup

namespace Template

/-! ## Directives and other attributes -/

theorem Reading.rest_step_eq (r : Reading) (a : Markup.Attribute) :
    (r.step a).rest = r.rest ++ [a].filter (!Markup.isDirective ·.name) := by
  -- A directive that is known by its name.
  have hknown (hname : Markup.isDirective a.name = true) (hrest : (r.step a).rest = r.rest) :
      (r.step a).rest = r.rest ++ [a].filter (!Markup.isDirective ·.name) := by
    simp [hname, hrest]
  unfold step at hknown ⊢
  split at *
  case h_5 hname =>
    refine hknown (by rw [hname]; decide) ((rest_setCondition _ _ _).trans ?_)
    split <;> rfl
  case h_13 hkey _ _ _ =>
    by_cases hprefix : (Markup.startsWith a.name "lwc:" || Markup.startsWith a.name "if:" ||
        Markup.startsWith a.name "for:") = true
    · rw [if_pos hprefix] at hknown ⊢
      refine hknown ?_ rfl
      rw [Markup.isDirective, Bool.or_assoc, Bool.or_assoc, ← Bool.or_assoc (Markup.startsWith _ _), hprefix,
        Bool.or_true]
    · have hother : Markup.isDirective a.name = false := by
        simp_all [Markup.isDirective]
      rw [if_neg hprefix]
      simp [hother]
  all_goals
    rename_i hname
    refine hknown (by rw [hname]; decide) ?_
    first
    | rfl
    | exact rest_withValue _ _ _ fun _ _ => rfl
    | exact rest_withValue _ _ _ fun r _ => rest_setCondition r _ _

theorem Reading.rest_foldl_eq (attributes : List Markup.Attribute) (r : Reading) :
    (attributes.foldl step r).rest = r.rest ++ attributes.filter (!Markup.isDirective ·.name) := by
  induction attributes generalizing r with
  | nil => simp
  | cons a attributes ih =>
    rw [List.foldl_cons, ih, rest_step_eq, List.append_assoc, ← List.filter_append, List.singleton_append]

/-- The directives of an element are read off, and its other attributes are left. -/
theorem Directives.read_own (inIteration : Bool) (e : Markup.Element) :
    (Directives.read inIteration e.attributes).2.1 = e.own := by
  have hrest : (Reading.ofAttributes e.attributes).rest = e.own :=
    (Reading.rest_foldl_eq e.attributes {}).trans (List.nil_append _)
  unfold Directives.read
  dsimp only
  split
  · exact hrest
  · split <;> exact hrest

/-! ## Attributes without problems -/

/-- Whether an attribute of the name becomes a property of an element with the tag, or an attribute; neither if it says
something else of the element. -/
def becomesProperty? (tag name : String) : Option Bool :=
  if tag = "slot" then if name = "name" then none else some false
  else if (ElementData.eventName? name).isSome || name == "class" || name == "style" then none
  else if Markup.isCustomName tag then some !(Markup.startsWith name "data-" || name == "slot")
  else some (ElementData.isNativeProperty tag name)

/-- The attribute or property that an attribute of an element with the tag becomes. -/
def made? (tag : String) (asProperty : Bool) (a : Markup.Attribute) : Option Attribute :=
  if becomesProperty? tag a.name = some asProperty then
    (attributeValue a).toOption.map fun value =>
      if Markup.isCustomName tag && asProperty then
        ⟨camelCase a.name, ElementData.propertyValue a.name value, a.position, none⟩
      else ⟨a.name, value, a.position, none⟩
  else none

theorem attributeValue_isError {a : Markup.Attribute} {problem : Problem} (h : attributeValue a = .error problem) :
    problem.code.severity = .error := by
  unfold attributeValue readAttribute at h
  split at h
  · split at h
    · cases h
      rfl
    · split at h
      · cases h
      · cases h
        rfl
  · cases h

namespace ElementData

/-- The attributes of an element, or its properties. -/
def bag (asProperty : Bool) (data : ElementData) : List Attribute :=
  if asProperty then data.properties else data.attributes

theorem add_isError {data : ElementData} {custom : Bool} {a : Markup.Attribute} {problem : Problem}
    (h : data.add custom a = .error problem) : problem.code.severity = .error := by
  unfold add at h
  cases hvalue : attributeValue a with
  | error problem' =>
    rw [hvalue] at h
    cases h
    exact attributeValue_isError hvalue
  | ok value =>
    rw [hvalue] at h
    by_cases his : a.name = "is"
    · simp only [his, if_true, bind, Except.bind, throw, throwThe, MonadExceptOf.throw] at h
      cases h
      rfl
    · simp only [his, if_false, bind, Except.bind, pure, Except.pure] at h
      split at h
      · split at h
        · cases h
        · cases h
          rfl
      · cases h

theorem addAll_isError {d : Diagnostic} (attributes : List Markup.Attribute) {data : ElementData} {custom : Bool}
    (h : d ∈ (data.addAll custom attributes).2) : d.isError = true := by
  induction attributes generalizing data with
  | nil => cases h
  | cons a attributes ih =>
    rw [addAll] at h
    cases hadd : data.add custom a with
    | ok data' =>
      rw [hadd] at h
      exact ih h
    | error problem =>
      rw [hadd] at h
      rcases List.mem_cons.1 h with rfl | h
      · simp [Diagnostic.isError, Problem.diagnostic, add_isError hadd]
      · exact ih h

theorem bag_setClasses (data : ElementData) (value : AttributeValue) (asProperty : Bool) :
    (data.setClasses value).bag asProperty = data.bag asProperty := by
  unfold setClasses
  split
  · split <;> rfl
  · rfl
  · rfl

theorem bag_setStyle (data : ElementData) (value : AttributeValue) (asProperty : Bool) :
    (data.setStyle value).bag asProperty = data.bag asProperty := by
  unfold setStyle
  split
  · split <;> rfl
  · rfl
  · rfl

/-- An attribute without a problem becomes an attribute, a property or neither. -/
theorem bag_add {data data' : ElementData} {a : Markup.Attribute} (htag : data.tag ≠ "slot")
    (h : data.add (Markup.isCustomName data.tag) a = .ok data') (asProperty : Bool) :
    data'.bag asProperty = data.bag asProperty ++ [a].filterMap (made? data.tag asProperty) := by
  unfold add at h
  cases hvalue : attributeValue a with
  | error problem =>
    rw [hvalue] at h
    cases h
  | ok value =>
    rw [hvalue] at h
    have his : a.name ≠ "is" := by
      intro his
      simp [his, throw, throwThe, MonadExceptOf.throw, bind, Except.bind] at h
    simp only [his, if_false, bind, Except.bind, pure, Except.pure] at h
    cases hevent : eventName? a.name with
    | some event =>
      rw [hevent] at h
      have hmade : made? data.tag asProperty a = none := by
        simp [made?, becomesProperty?, htag, hevent]
      cases value with
      | expression handler =>
        obtain rfl := Except.ok.inj h
        simp [hmade, bag]
      | _ => cases h
    | none =>
      rw [hevent] at h
      obtain rfl := Except.ok.inj h
      unfold set
      by_cases hclass : a.name = "class"
      · simp [hclass, bag_setClasses, made?, becomesProperty?, htag]
      by_cases hstyle : a.name = "style"
      · simp [hstyle, bag_setStyle, made?, becomesProperty?, htag]
      by_cases hcustom : Markup.isCustomName data.tag = true
      · cases hplain : Markup.startsWith a.name "data-" || a.name == "slot" <;> cases asProperty <;>
          simp [made?, becomesProperty?, Except.toOption, bag, *]
      · cases hproperty : isNativeProperty data.tag a.name <;> cases asProperty <;>
          simp [made?, becomesProperty?, Except.toOption, bag, *]

theorem tag_add {data data' : ElementData} {custom : Bool} {a : Markup.Attribute} (h : data.add custom a = .ok data') :
    data'.tag = data.tag := by
  rcases add_cases h with ⟨listener, rfl⟩ | ⟨value, -, rfl⟩
  · rfl
  · have hadds := data.adds_set custom a.name value a.position
    generalize data.set custom a.name value a.position = later at hadds
    cases hadds <;> rfl

theorem bag_addAll (attributes : List Markup.Attribute) {data data' : ElementData} (htag : data.tag ≠ "slot")
    (h : data.addAll (Markup.isCustomName data.tag) attributes = (data', [])) (asProperty : Bool) :
    data'.bag asProperty = data.bag asProperty ++ attributes.filterMap (made? data.tag asProperty) := by
  induction attributes generalizing data with
  | nil =>
    cases h
    simp
  | cons a attributes ih =>
    rw [addAll] at h
    cases hadd : data.add (Markup.isCustomName data.tag) a with
    | error problem =>
      rw [hadd] at h
      cases h
    | ok later =>
      rw [hadd] at h
      have hlater : later.tag = data.tag := tag_add hadd
      have hrest := ih (hlater ▸ htag) (hlater.symm ▸ h)
      rw [hrest, bag_add htag hadd, hlater, List.append_assoc, ← List.filterMap_append, List.singleton_append]

end ElementData

theorem slotAttributes_isError {d : Diagnostic} (attributes : List Markup.Attribute) {name : String}
    {found : List Attribute} (h : d ∈ (slotAttributes name found attributes).2.2) : d.isError = true := by
  induction attributes generalizing name found with
  | nil => cases h
  | cons a attributes ih =>
    rw [slotAttributes] at h
    dsimp only at h
    split at h
    · split at h
      · rcases List.mem_cons.1 h with rfl | h
        · rfl
        · exact ih h
      · exact ih h
    · split at h
      · exact ih h
      · rename_i problem hvalue
        rcases List.mem_cons.1 h with rfl | h
        · simp [Diagnostic.isError, Problem.diagnostic, attributeValue_isError hvalue]
        · exact ih h

theorem slotAttributes_eq (attributes : List Markup.Attribute) {name : String} {found : List Attribute}
    (h : (slotAttributes name found attributes).2.2 = []) :
    (slotAttributes name found attributes).2.1 = found ++ attributes.filterMap (made? "slot" false) := by
  induction attributes generalizing name found with
  | nil => simp [slotAttributes]
  | cons a attributes ih =>
    rw [slotAttributes] at h ⊢
    by_cases hname : a.name = "name"
    · have hmade : made? "slot" false a = none := by simp [made?, becomesProperty?, hname]
      rw [List.filterMap_cons_none hmade]
      rw [if_pos hname] at h ⊢
      split at h
      · cases h
      · rename_i hbinding
        rw [if_neg hbinding]
        exact ih h
    · rw [if_neg hname] at h ⊢
      cases hvalue : attributeValue a with
      | error problem =>
        rw [hvalue] at h
        cases h
      | ok value =>
        rw [hvalue] at h
        have hmade : made? "slot" false a = some ⟨a.name, value, a.position, none⟩ := by
          simp [made?, becomesProperty?, hname, hvalue, Except.toOption, Markup.isCustomName]
        rw [List.filterMap_cons_some hmade]
        dsimp only
        rw [ih h, List.append_assoc, List.singleton_append]

/-! ## What elements are made into -/

/-- A node is made of an element of a document, which stands in SVG or not, and of all its attributes. -/
inductive Node.IsMadeOf (inSvg : Bool) (e : Markup.Element) : Node → Prop where
  | element {id : Nat} {role : Role} {data : ElementData} {children : List Node} (key : Option Expr)
      (tag : e.tag ≠ "slot") (custom : role.kind = .element ↔ Markup.isCustomName e.tag = false)
      (added : ElementData.addAll ⟨e.tag, namespaceIn inSvg e.tag, [], [], none, none, [], key⟩
        (Markup.isCustomName e.tag) e.own = (data, [])) :
      IsMadeOf inSvg e (.element id e.position role data children)
  | slot {id : Nat} {name : String} {attributes : List Attribute} {children : List Node} (tag : e.tag = "slot")
      (read : slotAttributes "" [] e.own = (name, attributes, [])) :
      IsMadeOf inSvg e (.slot id e.position name attributes children)

section IsMadeOf

variable {inSvg : Bool} {e : Markup.Element} {n : Node}

/-- The attributes and the properties of a node are those that the attributes of its element become. -/
theorem Node.IsMadeOf.bag (h : n.IsMadeOf inSvg e) (asProperty : Bool) :
    n.bag asProperty = e.own.filterMap (made? e.tag asProperty) := by
  cases h with
  | element key tag custom added =>
    have hbag := @ElementData.bag_addAll e.own ⟨e.tag, _, [], [], none, none, [], key⟩ _ tag added asProperty
    cases asProperty <;> exact hbag
  | slot tag read =>
    cases asProperty with
    | false =>
      have hread := @slotAttributes_eq e.own "" [] (by rw [read])
      rw [read] at hread
      rw [tag]
      exact hread
    | true =>
      have hmade (a : Markup.Attribute) : made? e.tag true a = none := by
        simp only [made?, becomesProperty?, tag, if_true]
        split <;> simp_all
      exact (List.filterMap_eq_nil_iff.2 fun a _ => hmade a).symm

end IsMadeOf

/-- The nodes are made of the elements in the seats, nested `template` elements aside, in the same order, and the
`template` elements have nothing but directives. -/
structure AreMadeOf (svg : Bool) (nodes : List Node) (seats : List Markup.Seat) : Prop where
  nodes : List.Forall₂ (fun n seat => n.IsMadeOf (Markup.standsInSvg svg seat.around) seat.element)
    (nodes.filter Node.isKeyed) (seats.filter (·.element.tag != "template"))
  templates : ∀ seat ∈ seats, seat.element.tag = "template" → seat.element.own = []

section Lists

variable {svg : Bool} {xs ys : List Node} {seats seats' : List Markup.Seat}

theorem AreMadeOf.nil (svg : Bool) : AreMadeOf svg [] [] :=
  ⟨.nil, by simp⟩

theorem AreMadeOf.append (h : AreMadeOf svg xs seats) (h' : AreMadeOf svg ys seats') :
    AreMadeOf svg (xs ++ ys) (seats ++ seats') := by
  constructor
  case nodes =>
    rw [List.filter_append, List.filter_append]
    exact List.rel_append h.nodes h'.nodes
  case templates => exact List.forall_mem_append.2 ⟨h.templates, h'.templates⟩

/-- Nodes that are neither elements nor slots do not count. -/
theorem AreMadeOf.congr (h : AreMadeOf svg xs seats) (heq : ys.filter Node.isKeyed = xs.filter Node.isKeyed) :
    AreMadeOf svg ys seats :=
  ⟨heq ▸ h.nodes, h.templates⟩

end Lists

/-! ## What documents are made into -/

section Becomes

variable {config : Config} {final : Draft} {place : Place} {low high : Nat} {e : Markup.Element}
  {directives : Directives} {body : Content} {nodes : List Node}

theorem TextBecomes.filter_isKeyed {text : String} {position : Position} {n : Node}
    (h : TextBecomes final place text position low high (some n)) : n.all.filter Node.isKeyed = [] := by
  unfold TextBecomes at h
  split at h
  · cases h.2
  · split at h
    · cases h.2.1
    · obtain rfl := Option.some.inj h.2.2
      rfl

theorem CommentBecomes.filter_isKeyed {text : String} {position : Position} {n : Node}
    (h : CommentBecomes final place config text position low high (some n)) : n.all.filter Node.isKeyed = [] := by
  unfold CommentBecomes at h
  split at h
  · obtain rfl := Option.some.inj h.2.2
    rfl
  · cases h.2

theorem OnceBecomes.exists_bare (h : OnceBecomes final place e directives body low high nodes) :
    ∃ place' low' high' inner, place'.svg = place.svg ∧ BareBecomes final place' e directives body low' high' inner ∧
      (allNodes nodes).filter Node.isKeyed = (allNodes inner).filter Node.isKeyed := by
  unfold OnceBecomes AloneBecomes at h
  split at h
  · obtain ⟨children, -, hchildren, rfl⟩ := h
    exact ⟨place.within low, _, _, children, rfl, hchildren, by simp [allNodes, Node.all, Chain.all, Node.isKeyed]⟩
  · exact ⟨place, low, high, nodes, rfl, h, rfl⟩

/-- Directives put an element into nodes that are no elements. -/
theorem ContentBecomes.exists_bare (h : ContentBecomes final place e directives body low high nodes) :
    ∃ place' low' high' inner, place'.svg = place.svg ∧ BareBecomes final place' e directives body low' high' inner ∧
      (allNodes nodes).filter Node.isKeyed = (allNodes inner).filter Node.isKeyed := by
  unfold ContentBecomes IterationBecomes at h
  split at h
  · exact h.exists_bare
  · obtain ⟨children, -, hchildren, rfl⟩ := h
    obtain ⟨place', low', high', inner, hsvg, hinner, hkeyed⟩ := hchildren.exists_bare
    exact ⟨place', low', high', inner, hsvg, hinner, by simp [allNodes, Node.all, Node.isKeyed, hkeyed]⟩

/-- Without errors, what siblings become is what the first one becomes and what the others become. -/
theorem SiblingsBecome.exists_content (hclean : final.IsClean) {children rest : List Markup.Node} {chain? : Option Nat}
    {siblings : Chain × List Node}
    (h : SiblingsBecome config final place chain? (.element e children :: rest) low high siblings) :
    ∃ place' low' high' body chain?' middle more, place'.svg = place.svg ∧
      ElementContent config final place.inIteration e children place' low' high' body ∧
      SiblingsBecome config final place chain?' rest middle high more ∧
      (allSiblings siblings).filter Node.isKeyed =
        (allNodes body ++ allSiblings more).filter Node.isKeyed := by
  cases h.joins.2 with
  | first _ _ hbody hmore =>
    refine ⟨place.within low, _, _, _, _, _, _, rfl, hbody, hmore, ?_⟩
    simp [allSiblings, allNodes, Node.all, Chain.all, Node.isKeyed]
  | @next id _ _ _ _ _ hbody hmore =>
    exact ⟨place.within id, _, _, _, _, _, _, rfl, hbody, hmore, by simp [allSiblings, Chain.all]⟩
  | @last id _ _ _ _ hbody hmore =>
    exact ⟨place.within id, _, _, _, _, _, _, rfl, hbody, hmore, by simp [allSiblings, Chain.all]⟩
  | stray _ hreport _ _ => exact absurd hreport (hclean.not_reports rfl)
  | apart _ hbody hmore =>
    exact ⟨place, _, _, _, _, _, _, rfl, hbody, hmore, by simp [allSiblings, Chain.all, allNodes_append]⟩

theorem roleOf_kind (tag : String) (directives : Directives) :
    (roleOf tag directives).kind = .element ↔ Markup.isCustomName tag = false := by
  unfold roleOf
  split
  · split <;> simp_all [Role.kind]
  · simp_all [Role.kind]

/-- Without errors, no errors are noted. -/
theorem Draft.IsClean.eq_nil (hclean : final.IsClean) {diagnostics : List Diagnostic}
    (herror : ∀ d ∈ diagnostics, d.isError = true) (hsub : diagnostics ⊆ final.diagnostics) : diagnostics = [] := by
  refine List.eq_nil_iff_forall_not_mem.2 fun d hd => ?_
  have := hclean.not_error (hsub hd)
  rw [herror d hd] at this
  cases this

theorem opensSvg_of_ne {tag : String} (hsvg : tag ≠ "svg") (hforeign : tag ≠ "foreignObject") (svg : Bool) :
    opensSvg svg tag = svg := by
  cases svg <;> simp [opensSvg, namespaceIn, hsvg, hforeign]

/-- An element is made into one node, with what is in it below that. -/
theorem TagBecomes.isMadeOf (hclean : final.IsClean) {n : Node}
    (h : TagBecomes final place e.withoutDirectives directives body low high n) :
    n.IsMadeOf place.svg e ∧ n.isKeyed = true ∧ ∃ place' low' high' children,
      place'.svg = opensSvg place.svg e.tag ∧ body place' low' high' children ∧ n.all = n :: allNodes children := by
  obtain ⟨-, h⟩ := h
  by_cases hslot : e.tag = "slot"
  · rw [if_pos (show e.withoutDirectives.tag = "slot" from hslot)] at h
    obtain ⟨-, hdiagnostics, children, hchildren, rfl⟩ := h
    have hnone := hclean.eq_nil (fun d hd => slotAttributes_isError _ hd) hdiagnostics
    refine ⟨.slot hslot ?_, rfl, place.below low, _, _, children, ?_, hchildren, rfl⟩
    · exact Prod.ext rfl (Prod.ext rfl hnone)
    · exact (opensSvg_of_ne (by simp [hslot]) (by simp [hslot]) _).symm
  · rw [if_neg (show ¬ e.withoutDirectives.tag = "slot" from hslot)] at h
    obtain ⟨-, hdiagnostics, children, hchildren, rfl⟩ := h
    have hnone := hclean.eq_nil (fun d hd => ElementData.addAll_isError _ hd) hdiagnostics
    refine ⟨.element directives.key hslot (roleOf_kind _ _) ?_, rfl, _, _, _, children, ?_, hchildren, rfl⟩
    · exact Prod.ext rfl hnone
    · rfl

/-- An element and what is in it are made into the nodes that it becomes, its directives aside. -/
theorem BareBecomes.areMadeOf (hclean : final.IsClean) {svg : Bool} {around : List String} {children : List Markup.Node}
    (hbody : ∀ {place low high nodes}, place.svg = Markup.standsInSvg svg (e.tag :: around) →
      body place low high nodes → AreMadeOf svg (allNodes nodes) (Markup.seatsOf (e.tag :: around) children))
    (hsvg : place.svg = Markup.standsInSvg svg around)
    (h : BareBecomes final place e.withoutDirectives directives body low high nodes) :
    AreMadeOf svg (allNodes nodes) ((Markup.Node.element e children).seats around) := by
  rw [Markup.Node.seats]
  unfold BareBecomes at h
  by_cases htag : e.tag = "template"
  · rw [if_pos (show e.withoutDirectives.tag = "template" from htag)] at h
    obtain ⟨-, hattributes, hnodes⟩ := h
    have hnone : e.own = [] := by
      refine List.map_eq_nil_iff.1 (hclean.eq_nil (fun d hd => ?_) hattributes)
      obtain ⟨a, -, rfl⟩ := List.mem_map.1 hd
      rfl
    have hinside : place.svg = Markup.standsInSvg svg (e.tag :: around) := by
      rw [hsvg]
      exact (opensSvg_of_ne (by simp [htag]) (by simp [htag]) _).symm
    have hinner := hbody hinside hnodes
    refine ⟨?_, List.forall_mem_cons.2 ⟨fun _ => hnone, hinner.templates⟩⟩
    rw [List.filter_cons_of_neg (by simp [htag])]
    exact hinner.nodes
  · rw [if_neg (show ¬ e.withoutDirectives.tag = "template" from htag)] at h
    obtain ⟨n, hn, rfl⟩ := h
    obtain ⟨hmade, hkeyed, place', low', high', inner, hopens, hchildren, hall⟩ := hn.isMadeOf hclean
    have hinner := hbody (hopens.trans (by rw [hsvg]; rfl)) hchildren
    refine ⟨?_, List.forall_mem_cons.2 ⟨fun h => absurd h htag, hinner.templates⟩⟩
    rw [allNodes, allNodes, List.append_nil, hall, List.filter_cons_of_pos hkeyed,
      List.filter_cons_of_pos (by simpa using htag)]
    exact .cons (hsvg ▸ hmade) hinner.nodes

/-- The elements among siblings and in them are made into the nodes that the siblings become. -/
theorem SiblingsBecome.areMadeOf (hclean : final.IsClean) {svg : Bool} {docs : List Markup.Node} {around : List String}
    {chain? : Option Nat} {siblings : Chain × List Node} (hsvg : place.svg = Markup.standsInSvg svg around)
    (h : SiblingsBecome config final place chain? docs low high siblings) :
    AreMadeOf svg (allSiblings siblings) (Markup.seatsOf around docs) := by
  induction docs using siblings_induction generalizing place chain? low high siblings around with
  | nil =>
    obtain ⟨-, rfl⟩ := h
    exact .nil svg
  | text text position rest ih =>
    obtain ⟨n?, middle, hn, ⟨rfl, hmore⟩ | ⟨n, nodes, rfl, hmore, rfl⟩⟩ := h.text
    · exact ih hsvg hmore
    · exact (ih hsvg hmore).congr (by simp [allSiblings, allNodes, hn.filter_isKeyed])
  | comment text position rest ih =>
    obtain ⟨n?, middle, hn, ⟨rfl, hmore⟩ | ⟨n, nodes, rfl, hmore, rfl⟩⟩ := h.comment
    · exact ih hsvg hmore
    · exact (ih hsvg hmore).congr (by simp [allSiblings, allNodes, hn.filter_isKeyed])
  | element e children rest ihchildren ih =>
    obtain ⟨place₁, low₁, high₁, body, chain?', middle, more, hsvg₁, hbody, hmore, hkeyed⟩ := h.exists_content hclean
    refine (AreMadeOf.append ?_ (ih hsvg hmore)).congr hkeyed
    unfold ElementContent at hbody
    rw [Directives.read_own] at hbody
    obtain ⟨place₂, low₂, high₂, inner, hsvg₂, hinner, hkeyed'⟩ := hbody.exists_bare
    refine AreMadeOf.congr ?_ hkeyed'
    refine hinner.areMadeOf hclean (fun hplace h => ?_) (by rw [hsvg₂, hsvg₁, hsvg])
    simpa [allSiblings, Chain.all] using ihchildren hplace h.siblings

end Becomes

/-! ## Root elements -/

theorem diagnostics_of_root {config : Config} {document : List Markup.Node} {e : Markup.Element}
    {children : List Markup.Node} (hroot : root document = .ok (e, children)) :
    (rootAttributes config e.attributes).2 ⊆ (ofDocument config document).draft.diagnostics := by
  have hgrows := (makes_buildSiblings (rootAttributes config e.attributes).1
    (rootPlace (rootAttributes config e.attributes).1) none children
    { diagnostics := (rootAttributes config e.attributes).2 }).1.diagnostics
  simp only [ofDocument, hroot]
  exact hgrows.subset

/-- A root element whose attributes are no errors has nothing but directives. -/
theorem own_of_rootAttributes {config : Config} {attributes : List Markup.Attribute}
    (h : (rootAttributes config attributes).2 = []) : attributes.filter (!Markup.isDirective ·.name) = [] := by
  induction attributes generalizing config with
  | nil => rfl
  | cons a rest ih =>
    rw [rootAttributes] at h
    cases hroot : rootAttribute config a with
    | error problem =>
      rw [hroot] at h
      cases h
    | ok config' =>
      rw [hroot] at h
      have hname : Markup.isDirective a.name = true := by
        unfold rootAttribute at hroot
        split at hroot
        · rename_i hname
          rw [hname]
          decide
        · rename_i hname
          rw [hname]
          decide
        · cases hroot
      rw [List.filter_cons_of_neg (by simp [hname]), ih h]

theorem rootAttributes_isError {d : Diagnostic} (attributes : List Markup.Attribute) {config : Config}
    (h : d ∈ (rootAttributes config attributes).2) : d.isError = true := by
  induction attributes generalizing config with
  | nil => cases h
  | cons a rest ih =>
    rw [rootAttributes] at h
    cases hroot : rootAttribute config a with
    | ok config' =>
      rw [hroot] at h
      exact ih h
    | error problem =>
      rw [hroot] at h
      rcases List.mem_cons.1 h with rfl | h
      · unfold rootAttribute at hroot
        split at hroot
        · split at hroot <;> cases hroot
          rfl
        · split at hroot <;> cases hroot
          rfl
        · cases hroot
          rfl
      · exact ih h

end Template

open Template

theorem Markup.seatsOf_filter_isSignificant (around : List String) (document : List Markup.Node) :
    Markup.seatsOf around (document.filter isSignificant) = Markup.seatsOf around document := by
  induction document with
  | nil => rfl
  | cons n ns ih =>
    cases hn : isSignificant n with
    | true => rw [List.filter_cons_of_pos hn, Markup.seatsOf, Markup.seatsOf, ih]
    | false =>
      rw [List.filter_cons_of_neg (by simp [hn]), ih, Markup.seatsOf]
      cases n with
      | element e children => cases hn
      | _ => rfl

/-- The elements and slots of a template without errors are made of the elements of its document. -/
theorem ofDocument_areMadeOf (config : Config) (document : List Markup.Node)
    (h : (ofDocument config document).hasErrors = false) :
    let t := ofDocument config document
    AreMadeOf (rootPlace t.config).svg (allNodes t.nodes) (Markup.seatsOf [] document) := by
  have hclean : (ofDocument config document).draft.IsClean := h
  obtain ⟨e, children, hroot⟩ := exists_root_of_isClean hclean
  obtain ⟨hfilter, htag⟩ := filter_of_root hroot
  have hown : e.own = [] := by
    have hnone := hclean.eq_nil (fun d hd => rootAttributes_isError _ hd) (diagnostics_of_root hroot)
    exact own_of_rootAttributes hnone
  have hinside : AreMadeOf (rootPlace (ofDocument config document).config).svg
      (allNodes (ofDocument config document).nodes) (Markup.seatsOf [e.tag] children) := by
    have hsvg (svg : Bool) : svg = Markup.standsInSvg svg [e.tag] :=
      (opensSvg_of_ne (by simp [htag]) (by simp [htag]) svg).symm
    have hmade := (ofDocument_becomes config hroot).areMadeOf hclean (hsvg _)
    simpa [allSiblings, Chain.all] using hmade
  have hseats : Markup.seatsOf [] document = ⟨[], e⟩ :: Markup.seatsOf [e.tag] children := by
    rw [← Markup.seatsOf_filter_isSignificant, hfilter]
    simp [Markup.seatsOf, Markup.Node.seats]
  rw [hseats]
  refine ⟨?_, List.forall_mem_cons.2 ⟨fun _ => hown, hinside.templates⟩⟩
  rw [List.filter_cons_of_neg (by simp [htag])]
  exact hinside.nodes

end TemplateCompiler
