import TemplateCompiler.Proofs.Render.References
/-!
# Scoped ids

The ids that a template lists are those of its scoped literals, each once and in the order in which they are written
(`ofDocument_ids`). An id or a reference by ids names each of its words, but the id of a component is listed as a whole.
A link names what stands behind its `#`, but without any further ones. So a link and an id share their entry exactly if
the id does not start with `#`.
-/

namespace TemplateCompiler

open Text Template Render

/-! ## Tables of ids -/

/-- The table of some ids lists each of them once, where it occurs first. -/
theorem Scoping.IdTable.ids_ofList (ids : List String) : (IdTable.ofList ids).ids = ids.eraseDups := by
  induction ids using List.reverseRecOn with
  | nil => rfl
  | append_singleton ids id ih =>
    rw [eraseDups_concat, ← ih, IdTable.ofList, List.foldl_append, List.foldl_cons, List.foldl_nil,
      ← IdTable.ofList, IdTable.insert]
    have hmem : (IdTable.ofList ids).ids.contains id = true ↔ id ∈ ids := by
      rw [List.contains_iff_mem, ih, List.mem_eraseDups]
    simp only [hmem]
    split <;> rfl

/-! ## Literals -/

namespace Template

/-- A literal that is scoped: an id of an element, a reference by ids, or a link. -/
structure ScopedLiteral where
  ofComponent : Bool
  scoping : Scoping
  text : String
deriving DecidableEq

namespace ScopedLiteral

/-- The ids that the literal names: its words, or what stands behind the `#` of a link. -/
def named (r : ScopedLiteral) : List String :=
  match r.scoping with
  | .id => words r.text
  | .fragment => [String.ofList (r.text.toList.drop 1)]

/-- The ids that are listed for the literal. -/
def listed (r : ScopedLiteral) : List String :=
  match r.scoping with
  | .id => if r.ofComponent then [r.text] else words r.text
  | .fragment => [String.ofList (r.text.toList.dropWhile (· == '#'))]

/-- The id of a component has no blanks, and behind the `#` of a link there is no further one. -/
def IsPlain (r : ScopedLiteral) : Prop :=
  match r.scoping with
  | .id => r.ofComponent = true → ∀ c ∈ r.text.toList, isBlank c = false
  | .fragment => (r.text.toList.drop 1).head? ≠ some '#'

/-- The literal is not empty, and a link starts with `#`. -/
def IsWellFormed (r : ScopedLiteral) : Prop :=
  match r.scoping with
  | .id => r.text ≠ ""
  | .fragment => r.text.toList.head? = some '#'

end ScopedLiteral

theorem words_eq_singleton_iff {text : String} (hne : text ≠ "") :
    words text = [text] ↔ ∀ c ∈ text.toList, isBlank c = false := by
  unfold words
  constructor
  case mp =>
    intro h c hc
    obtain ⟨run, hruns, rfl⟩ := List.map_eq_singleton_iff.1 h
    have hrun : run ∈ runsOf (fun c => !isBlank c) (String.ofList run).toList := hruns ▸ List.mem_singleton_self run
    simpa using ((mem_runsOf hrun).2 c (by simpa using hc)).1
  case mpr =>
    intro h
    have hruns := @runsOf_append (fun c => !isBlank c) text.toList [] (by simpa using hne)
      (by simpa using h) (by simp)
    rw [List.append_nil] at hruns
    simp [hruns, runsOf]

/-- What is listed for a literal is what it names exactly if the literal is plain. -/
theorem ScopedLiteral.IsWellFormed.listed_eq_iff {r : ScopedLiteral} (h : r.IsWellFormed) :
    r.listed = r.named ↔ r.IsPlain := by
  obtain ⟨ofComponent, scoping, text⟩ := r
  cases scoping with
  | id =>
    cases ofComponent with
    | false => simp [listed, named, IsPlain]
    | true =>
      simp only [listed, named, IsPlain, if_true, true_imp_iff]
      exact eq_comm.trans (words_eq_singleton_iff h)
  | fragment =>
    obtain ⟨cs, hcs⟩ : ∃ cs, text.toList = '#' :: cs := List.head?_eq_some_iff.1 h
    simp only [listed, named, IsPlain, hcs, List.drop_one, List.tail_cons, List.dropWhile_cons, beq_self_eq_true,
      if_true, List.cons.injEq, and_true, String.ofList_inj]
    cases cs with
    | nil => simp
    | cons c cs =>
      by_cases hc : c = '#'
      · have hlength := (List.dropWhile_sublist (p := (· == '#')) (l := cs)).length_le
        simp only [hc, List.dropWhile_cons, beq_self_eq_true, if_true, List.head?_cons, ne_eq, not_true_eq_false,
          iff_false]
        intro heq
        rw [heq, List.length_cons] at hlength
        omega
      · simp [hc]

/-! ## Literals of documents -/

/-- The literal that the attribute `a` of an element with the tag is scoped as, if it is. A component has nothing scoped but
its property `id`. -/
def scopedLiteral? (tag : String) (a : Markup.Attribute) : Option ScopedLiteral :=
  match attributeValue a with
  | .ok (.literal text) =>
    if Markup.isCustomName tag then
      if becomesProperty? tag a.name = some true ∧ camelCase a.name = "id" ∧ text ≠ "" then some ⟨true, .id, text⟩
      else none
    else (⟨a.name, .literal text, a.position, none⟩ : Attribute).reference?.map fun scoping => ⟨false, scoping, text⟩
  | _ => none

theorem scopedLiteral?_eq_some_iff {tag : String} {a : Markup.Attribute} {r : ScopedLiteral} :
    scopedLiteral? tag a = some r ↔ attributeValue a = .ok (.literal r.text) ∧
      r.ofComponent = Markup.isCustomName tag ∧
      (r.ofComponent = false → Refers a.name (.literal r.text) r.scoping) ∧
      (r.ofComponent = true → becomesProperty? tag a.name = some true ∧ camelCase a.name = "id" ∧ r.text ≠ "" ∧
        r.scoping = .id) := by
  obtain ⟨ofComponent, scoping, text⟩ := r
  unfold scopedLiteral?
  rcases attributeValue a with problem | text' | value | expr
  case ok.literal =>
    cases Markup.isCustomName tag with
    | true =>
      simp only [if_true]
      grind
    | false =>
      simp only [Bool.false_eq_true, if_false, Option.map_eq_some_iff, reference?_eq_some_iff]
      grind
  all_goals simp

theorem isWellFormed_of_scopedLiteral? {tag : String} {a : Markup.Attribute} {r : ScopedLiteral}
    (h : scopedLiteral? tag a = some r) : r.IsWellFormed := by
  obtain ⟨-, -, hother, hcomponent⟩ := scopedLiteral?_eq_some_iff.1 h
  obtain ⟨_ | _, scoping, text⟩ := r
  case false =>
    cases hother rfl with
    | id _ nonempty => exact nonempty
    | link _ place => simp [ScopedLiteral.IsWellFormed, place]
  case true =>
    obtain ⟨-, -, hne, rfl⟩ := hcomponent rfl
    exact hne

end Template

/-- The literals of a document that are scoped, in the order in which they are written. -/
def Markup.scopedLiterals (document : List Markup.Node) : List ScopedLiteral :=
  (seatsOf [] document).flatMap fun seat => seat.element.own.filterMap (scopedLiteral? seat.element.tag)

namespace Template

/-- What is listed for each member is listed for all of them. -/
theorem flatMap_filterMap_congr {α β β' γ : Type} {f : α → Option β} {f' : α → Option β'} {g : β → List γ}
    {g' : β' → List γ} (xs : List α) (h : ∀ x, (f x).elim [] g = (f' x).elim [] g') :
    (xs.filterMap f).flatMap g = (xs.filterMap f').flatMap g' := by
  induction xs with
  | nil => rfl
  | cons x xs ih =>
    have hx := h x
    cases hf : f x <;> cases hf' : f' x <;> simp_all

section Ids

variable {tag : String} (a : Markup.Attribute)

theorem ids_literal (name text : String) (position : Position) :
    (⟨name, .literal text, position, none⟩ : Attribute).ids .shadow =
      ((⟨name, .literal text, position, none⟩ : Attribute).reference?.map fun scoping =>
        (⟨false, scoping, text⟩ : ScopedLiteral)).elim [] ScopedLiteral.listed := by
  unfold Attribute.ids Attribute.needsScoping
  generalize (⟨name, .literal text, position, none⟩ : Attribute).reference? = reference?
  rcases reference? with _ | _ | _ <;> simp [ScopedLiteral.listed]

theorem reference?_eq_none {name : String} (hname : name ∉ referenceNames) (value : AttributeValue)
    (position : Position) : (⟨name, value, position, none⟩ : Attribute).reference? = none := by
  refine Option.eq_none_iff_forall_ne_some.2 fun scoping hscoping => ?_
  exact hname (reference?_eq_some_iff.1 hscoping).mem_referenceNames

theorem ids_eq_nil {name : String} (hname : name ∉ referenceNames) (value : AttributeValue) (position : Position) :
    (⟨name, value, position, none⟩ : Attribute).ids .shadow = [] := by
  simp [Attribute.ids, Attribute.needsScoping, reference?_eq_none hname]

/-- On an element that is no component, the attributes list what is scoped. -/
theorem ids_made? (hcustom : Markup.isCustomName tag = false) :
    (made? tag false a).elim [] (·.ids .shadow) = (scopedLiteral? tag a).elim [] ScopedLiteral.listed := by
  cases hvalue : attributeValue a with
  | error problem => simp [made?, scopedLiteral?, hvalue, Except.toOption]
  | ok value =>
    by_cases hname : a.name ∈ referenceNames
    · have hmade : made? tag false a = some ⟨a.name, value, a.position, none⟩ := by
        simp [made?, becomesProperty?_of_mem hname, hcustom, hvalue, Except.toOption]
      rw [hmade, scopedLiteral?, hvalue]
      cases value with
      | literal text => simp [hcustom, ids_literal]
      | _ => simp [Attribute.ids]
    · have hnone : scopedLiteral? tag a = none := by
        rw [scopedLiteral?, hvalue]
        cases value <;> simp [hcustom, reference?_eq_none hname]
      rw [hnone]
      unfold made?
      split
      · simp [hvalue, Except.toOption, hcustom, ids_eq_nil hname]
      · rfl

/-- On an element that is no component, no property is an id. -/
theorem propertyIds_made? (hcustom : Markup.isCustomName tag = false) :
    (made? tag true a).elim [] (·.propertyIds .shadow) = [] := by
  unfold made?
  split
  · rename_i hproperty
    have hid : a.name ≠ "id" := by
      intro hid
      have hmem : a.name ∈ referenceNames := by simp [hid, referenceNames]
      rw [becomesProperty?_of_mem hmem, hcustom] at hproperty
      cases hproperty
    cases (attributeValue a).toOption <;> simp [hcustom, Attribute.propertyIds, hid]
  · rfl

/-- On a component, the property that is its id is listed as a whole. -/
theorem propertyIds_made?_component (hcustom : Markup.isCustomName tag = true) :
    (made? tag true a).elim [] (·.propertyIds .shadow) = (scopedLiteral? tag a).elim [] ScopedLiteral.listed := by
  unfold made? scopedLiteral?
  cases hvalue : attributeValue a with
  | error problem => simp [Except.toOption]
  | ok value =>
    by_cases hproperty : becomesProperty? tag a.name = some true
    · by_cases hid : camelCase a.name = "id"
      · have hspellcheck : a.name ≠ "spellcheck" := by
          intro hname
          rw [hname] at hid
          exact absurd hid (by decide)
        cases value with
        | literal text =>
          by_cases hempty : text = "" <;>
            simp [hproperty, hcustom, hid, hspellcheck, hempty, ElementData.propertyValue, Except.toOption,
              Attribute.propertyIds, Attribute.needsScoping, Attribute.reference?, ScopedLiteral.listed]
        | boolean value => simp [hproperty, hcustom, ElementData.propertyValue, Except.toOption, Attribute.propertyIds]
        | expression expr => simp [hproperty, hcustom, ElementData.propertyValue, Except.toOption, Attribute.propertyIds]
      · cases value <;> simp [hproperty, hcustom, hid, Except.toOption, Attribute.propertyIds]
    · cases value <;> simp [hproperty, hcustom]

/-- On a component, no attribute is scoped. -/
theorem ids_made?_component (hcustom : Markup.isCustomName tag = true) :
    (made? tag false a).elim [] (·.ids .shadow) = [] := by
  unfold made?
  split
  · rename_i hattribute
    have hname : a.name ∉ referenceNames := by
      intro hname
      rw [becomesProperty?_of_mem hname, hcustom] at hattribute
      cases hattribute
    cases (attributeValue a).toOption <;> simp [ids_eq_nil hname]
  · rfl

end Ids

/-- The ids of a node are those that are listed for the literals of its element. -/
theorem ids_of_isMadeOf {svg : Bool} {e : Markup.Element} {n : Node} (h : n.IsMadeOf svg e) :
    n.ids .shadow = (e.own.filterMap (scopedLiteral? e.tag)).flatMap ScopedLiteral.listed := by
  have hbags : n.ids .shadow = (n.bag false).flatMap (·.ids .shadow) ++ (n.bag true).flatMap (·.propertyIds .shadow) := by
    cases h <;> simp [Node.ids, Node.bag, Node.attributes, Node.properties]
  have hnone {β : Type} {f : Markup.Attribute → Option β} {g : β → List String} (hf : ∀ a, (f a).elim [] g = []) :
      (e.own.filterMap f).flatMap g = [] := by
    have hcongr := @flatMap_filterMap_congr _ _ β _ f (fun _ => none) g g e.own hf
    rw [hcongr, List.filterMap_none, List.flatMap_nil]
  rw [hbags, h.bag, h.bag]
  cases hcustom : Markup.isCustomName e.tag with
  | false =>
    rw [hnone fun a => propertyIds_made? a hcustom, List.append_nil]
    exact flatMap_filterMap_congr e.own fun a => ids_made? a hcustom
  | true =>
    rw [hnone fun a => ids_made?_component a hcustom, List.nil_append]
    exact flatMap_filterMap_congr e.own fun a => propertyIds_made?_component a hcustom

end Template

/-! ## Ids of a template -/

/-- Members that contribute nothing may be left out. -/
theorem flatMap_filter_eq {α β : Type} {f : α → List β} {p : α → Bool} (xs : List α)
    (h : ∀ x ∈ xs, p x = false → f x = []) : (xs.filter p).flatMap f = xs.flatMap f := by
  induction xs with
  | nil => rfl
  | cons x xs ih =>
    obtain ⟨hx, hxs⟩ := List.forall_mem_cons.1 h
    cases hp : p x <;> simp_all

theorem ofDocument_ids (config : Config) {document : List Markup.Node}
    (hclean : (ofDocument config document).hasErrors = false)
    (hmode : (ofDocument config document).config.renderMode = .shadow) :
    (ofDocument config document).ids.ids =
      ((Markup.scopedLiterals document).flatMap ScopedLiteral.listed).eraseDups := by
  have hmade := ofDocument_areMadeOf config document hclean
  generalize ofDocument config document = t at *
  have hkeyed : ((allNodes t.nodes).filter Node.isKeyed).flatMap (·.ids .shadow) =
      (allNodes t.nodes).flatMap (·.ids .shadow) := by
    refine flatMap_filter_eq _ fun n _ hn => ?_
    cases n with
    | element | slot => cases hn
    | _ => rfl
  have htemplates : ((Markup.seatsOf [] document).filter (·.element.tag != "template")).flatMap
      (fun seat => seat.element.own.filterMap (scopedLiteral? seat.element.tag)) = Markup.scopedLiterals document := by
    refine flatMap_filter_eq _ fun seat hseat htag => ?_
    rw [hmade.templates seat hseat (by simpa using htag), List.filterMap_nil]
  rw [Template.ids, idTable, Scoping.IdTable.ids_ofList, hmode, ← hkeyed, ← htemplates, List.flatMap_assoc]
  exact congrArg List.eraseDups (flatMap_eq_of_forall₂ hmade.nodes fun n seat hn => ids_of_isMadeOf hn)

/-- The ids of an output are those of the scoped literals of a document. -/
structure Output.ListsIds (output : Output) (document : List Markup.Node) : Prop where
  /-- They stand in the order in which they are written first. -/
  ids : output.ids = ((Markup.scopedLiterals document).flatMap ScopedLiteral.listed).eraseDups
  nodup : output.ids.Nodup
  /-- A literal is listed with what it names exactly if it is plain. -/
  listed : ∀ r ∈ Markup.scopedLiterals document, r.listed = r.named ↔ r.IsPlain
  /-- If all literals are plain, the ids are those that they name. -/
  plain : (∀ r ∈ Markup.scopedLiterals document, r.IsPlain) →
    output.ids = ((Markup.scopedLiterals document).flatMap ScopedLiteral.named).eraseDups
  /-- A link has the entry of the id that it names, unless that starts with `#`. -/
  shared : ∀ link ∈ Markup.scopedLiterals document, link.scoping = .fragment →
    ∀ anchor ∈ Markup.scopedLiterals document, anchor.scoping = .id →
    link.text = "#" ++ anchor.text → (∀ c ∈ anchor.text.toList, isBlank c = false) →
    (link.listed = anchor.listed ↔ anchor.text.toList.head? ≠ some '#')

theorem Markup.isWellFormed_of_mem {document : List Markup.Node} {r : ScopedLiteral}
    (h : r ∈ Markup.scopedLiterals document) : r.IsWellFormed := by
  obtain ⟨seat, -, hr⟩ := List.mem_flatMap.1 h
  obtain ⟨a, -, ha⟩ := List.mem_filterMap.1 hr
  exact isWellFormed_of_scopedLiteral? ha

/-- A link and an id without blanks share their entry unless the id starts with `#`. -/
theorem Template.ScopedLiteral.listed_eq_listed_iff {link anchor : ScopedLiteral} (hlink : link.scoping = .fragment)
    (hanchor : anchor.scoping = .id) (hne : anchor.text ≠ "") (htext : link.text = "#" ++ anchor.text)
    (hblank : ∀ c ∈ anchor.text.toList, isBlank c = false) :
    link.listed = anchor.listed ↔ anchor.text.toList.head? ≠ some '#' := by
  have hlisted : anchor.listed = [anchor.text] := by
    simp [listed, hanchor, (words_eq_singleton_iff hne).2 hblank]
  have hnamed : link.named = [anchor.text] := by
    simp [named, hlink, htext]
  have hwell : link.IsWellFormed := by
    simp [IsWellFormed, hlink, htext]
  rw [hlisted, ← hnamed, hwell.listed_eq_iff]
  simp [IsPlain, hlink, htext]

namespace CompilesTo

variable {config : Config} {source : String} {t : Template} {m : RenderModule} {output : Output}

theorem ids_eq (h : CompilesTo config source t m) (houtput : compile config source = .ok output) :
    output.ids = t.ids.ids := by
  unfold compile at houtput
  rw [h.parsed] at houtput
  unfold Template.compile at houtput
  simp only [h.noErrors, h.rendered] at houtput
  cases houtput
  rfl

theorem listsIds {document : List Markup.Node} (h : CompilesTo config source (ofDocument config document) m)
    (hmode : (ofDocument config document).config.renderMode = .shadow)
    (houtput : compile config source = .ok output) : output.ListsIds document := by
  have hlisted : output.ids = ((Markup.scopedLiterals document).flatMap ScopedLiteral.listed).eraseDups :=
    (h.ids_eq houtput).trans (ofDocument_ids config h.noErrors hmode)
  have hiff : ∀ r ∈ Markup.scopedLiterals document, r.listed = r.named ↔ r.IsPlain := fun r hr =>
    (Markup.isWellFormed_of_mem hr).listed_eq_iff
  constructor
  case ids => exact hlisted
  case nodup => exact hlisted ▸ nodup_eraseDups _
  case listed => exact hiff
  case plain =>
    intro hplain
    rw [hlisted, List.flatMap_congr fun r hr => (hiff r hr).2 (hplain r hr)]
  case shared =>
    intro link hlink hfragment anchor hanchor hid htext hblank
    have hne : anchor.text ≠ "" := by
      simpa [ScopedLiteral.IsWellFormed, hid] using Markup.isWellFormed_of_mem hanchor
    exact ScopedLiteral.listed_eq_listed_iff hfragment hid hne htext hblank

end CompilesTo

/-- Wherever compiling gives code for a shadow tree, the ids that are listed are those of the scoped literals. -/
theorem compile_listsIds {config : Config} {source code : String} {output : Output}
    (h : compile config source = .ok output) (hcode : output.code = some code) :
    ∃ t m document, CompilesTo config source t m ∧ code = m.text ∧ Markup.parse source.toList = .ok document ∧
      (t.config.renderMode = .shadow → output.ListsIds document) := by
  obtain ⟨t, m, hm, rfl⟩ := compile_code_iff.1 ⟨output, h, hcode⟩
  obtain ⟨document, hdocument, rfl⟩ := exists_ofDocument hm.parsed
  exact ⟨_, m, document, hm, rfl, hdocument, fun hmode => hm.listsIds hmode h⟩

/-- A link and an id with one entry, and a label for two ids, of which a component has one. -/
theorem compile_listsIds_link :
    ∃ (output : Output) (document : List Markup.Node),
      compile {} ("<template><a href=\"#t\"></a><p id=\"t\" aria-labelledby=\"u v t\"></p>" ++
        "<c-d id=\"v\"></c-d></template>") = .ok output ∧
      output.ids = ["t", "u", "v"] ∧ output.ListsIds document := by
  have hread : (compiled? {} ("<template><a href=\"#t\"></a><p id=\"t\" aria-labelledby=\"u v t\"></p>" ++
      "<c-d id=\"v\"></c-d></template>")).map (fun result => (result.1.config.renderMode, result.1.ids.ids)) =
      some (.shadow, ["t", "u", "v"]) := by
    decide +kernel
  obtain ⟨t, m, hm, hread⟩ := exists_compilesTo hread
  obtain ⟨hmode, hids⟩ := Prod.mk.inj hread
  obtain ⟨output, houtput, hcode⟩ := hm.code
  obtain ⟨t', m', document, hm', -, -, hlists⟩ := compile_listsIds houtput hcode
  obtain rfl := Except.ok.inj (hm.parsed.symm.trans hm'.parsed)
  exact ⟨output, document, houtput, (hm.ids_eq houtput).trans hids, hlists hmode⟩

/-- The ids that are listed are not those that are named: a link to the id `#t` has an entry of its own. -/
theorem compile_not_listsNamed :
    ¬ ∀ (config : Config) (source code : String) (output : Output) (t : Template) (m : RenderModule)
        (document : List Markup.Node), compile config source = .ok output → output.code = some code →
      CompilesTo config source t m → Markup.parse source.toList = .ok document → t.config.renderMode = .shadow →
      output.ids = ((Markup.scopedLiterals document).flatMap ScopedLiteral.named).eraseDups := by
  intro h
  have hread : (compiled? {} "<template><a href=\"##t\"></a><b id=\"#t\"></b></template>").map
      (fun result => (result.1.config.renderMode, result.1.ids.ids)) = some (.shadow, ["t", "#t"]) := by
    decide +kernel
  obtain ⟨t, m, hm, hread⟩ := exists_compilesTo hread
  obtain ⟨hmode, hids⟩ := Prod.mk.inj hread
  obtain ⟨output, houtput, hcode⟩ := hm.code
  obtain ⟨document, hdocument, hnamed⟩ := @Markup.exists_parse
    "<template><a href=\"##t\"></a><b id=\"#t\"></b></template>".toList
    (fun document => ((Markup.scopedLiterals document).flatMap ScopedLiteral.named).eraseDups = ["#t"]) _
    (by decide +kernel)
  have heq := h _ _ _ _ t m document houtput hcode hm hdocument hmode
  rw [hm.ids_eq houtput, hids, hnamed] at heq
  exact absurd heq (by decide)

end TemplateCompiler
