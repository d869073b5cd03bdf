import TemplateCompiler.Proofs.Template.Iterated
import TemplateCompiler.Proofs.Template.Register
/-!
# Names of slots and missing keys

What is reported of names of slots and of keys is decided while the tree is built, from the slots seen so far and from a
flag of the place. Both are read off the finished tree: without errors, the elements and slots of a template are registered
as the elements of its document are (`ofDocument_registrations`). So the slots of a template are those of the document, once
for each name (`ofDocument_namesSlots`), and a missing key is reported of an element that has an iteration around it with
nothing but conditionals between (`ofDocument_reportsKeys`).
-/

namespace TemplateCompiler

open Text Binding

namespace Template

open Markup (registrationsOf)

/-! ## Elements of a template -/

/-- Whether a node is a conditional. -/
def Node.isConditional : Node → Bool
  | .conditional .. => true
  | _ => false

/-- Whether what stands in some nodes, the innermost first, is rendered once for each item of an iteration: that is the
innermost of them that is no conditional. -/
def standsPerItem (around : List Node) : Bool :=
  (around.find? fun n => !n.isConditional).any Node.isIteration

/-- What an element or a slot of a template is registered with. -/
def Site.registration? (s : Site) : Option Registration :=
  match s.node with
  | .element _ p _ data _ => some (.element data.tag p data.key.isSome (standsPerItem s.around))
  | .slot _ p name _ _ => some (.slot name p)
  | _ => none

section Becomes

variable {config : Config} {final : Draft} {place : Place} {low high : Nat} {around : List Node}

theorem TextBecomes.registrations {text : String} {position : Position} {n : Node}
    (h : TextBecomes final place text position low high (some n)) :
    (n.sites around).filterMap Site.registration? = [] := by
  unfold TextBecomes at h
  split at h
  · cases h.2
  · split at h
    · cases h.2.1
    · obtain rfl := Option.some.inj h.2.2
      rfl

theorem CommentBecomes.registrations {text : String} {position : Position} {n : Node}
    (h : CommentBecomes final place config text position low high (some n)) :
    (n.sites around).filterMap Site.registration? = [] := by
  unfold CommentBecomes at h
  split at h
  · obtain rfl := Option.some.inj h.2.2
    rfl
  · cases h.2

section Element

variable {e : Markup.Element} {directives : Directives} {body : Content} {inner : Bool → Bool → List Registration}
  (hbody : ∀ {place low high nodes around}, standsPerItem around = place.perItem → body place low high nodes →
    (sitesOf around nodes).filterMap Site.registration? = inner place.inIteration place.perItem)
include hbody

theorem TagBecomes.registrations {n : Node} (haround : standsPerItem around = place.perItem)
    (h : TagBecomes final place e directives body low high n) :
    (n.sites around).filterMap Site.registration? =
      e.registration directives.key.isSome place.perItem :: inner place.inIteration false := by
  obtain ⟨-, h⟩ := h
  unfold Markup.Element.registration
  by_cases hslot : e.tag = "slot"
  · rw [if_pos hslot] at h ⊢
    obtain ⟨-, -, children, hchildren, rfl⟩ := h
    have hname : (slotAttributes "" [] e.attributes).1 = e.slotName := slotAttributes_name e.attributes "" []
    rw [Node.sites, List.filterMap_cons, hbody rfl hchildren, ← hname]
    rfl
  · rw [if_neg hslot] at h ⊢
    obtain ⟨-, -, children, hchildren, rfl⟩ := h
    rw [Node.sites, List.filterMap_cons, hbody rfl hchildren]
    simp only [Site.registration?, ElementData.tag_addAll, ElementData.key_addAll, haround]
    rfl

theorem BareBecomes.registrations {nodes : List Node} (haround : standsPerItem around = place.perItem)
    (h : BareBecomes final place e directives body low high nodes) :
    (sitesOf around nodes).filterMap Site.registration? =
      e.registrations directives.key.isSome place.inIteration place.perItem inner := by
  unfold BareBecomes at h
  unfold Markup.Element.registrations
  by_cases htag : e.tag = "template"
  · rw [if_pos htag] at h ⊢
    exact hbody haround h.2.2
  · rw [if_neg htag] at h ⊢
    obtain ⟨n, hn, rfl⟩ := h
    simpa [sitesOf] using hn.registrations hbody haround

/-- A conditional around an element leaves open whether that is rendered once for each item. -/
theorem OnceBecomes.registrations {nodes : List Node} (haround : standsPerItem around = place.perItem)
    (h : OnceBecomes final place e directives body low high nodes) :
    (sitesOf around nodes).filterMap Site.registration? =
      e.registrations directives.key.isSome place.inIteration place.perItem inner := by
  unfold OnceBecomes AloneBecomes at h
  split at h
  · rename_i test negate hcondition
    obtain ⟨children, -, hchildren, rfl⟩ := h
    have hinside : standsPerItem (.conditional low e.position (.branch test negate children .done) :: around) =
        (place.within low).perItem := haround
    have hinner := hchildren.registrations hbody hinside
    simpa [sitesOf, Node.sites, Chain.sites, List.filterMap_cons, Site.registration?, Place.within] using hinner
  · exact h.registrations hbody haround

variable (inner) in
theorem ContentBecomes.registrations {nodes : List Node} (haround : standsPerItem around = place.perItem)
    (h : ContentBecomes final place e directives body low high nodes) :
    (sitesOf around nodes).filterMap Site.registration? =
      e.registrations directives.key.isSome (place.inIteration || directives.iteration.isSome)
        (place.perItem || directives.iteration.isSome) inner := by
  unfold ContentBecomes IterationBecomes at h
  cases hloop : directives.iteration with
  | none =>
    rw [hloop] at h
    simpa using h.registrations hbody haround
  | some loop =>
    rw [hloop] at h
    obtain ⟨children, -, hchildren, rfl⟩ := h
    have hinside : standsPerItem (.iteration low e.position loop children :: around) =
        (place.iterated low).perItem := rfl
    have hinner := hchildren.registrations hbody hinside
    simpa [sitesOf, Node.sites, List.filterMap_cons, Site.registration?, Place.iterated] using hinner

end Element

/-- Without errors, the elements and slots that siblings become are registered as the elements among the siblings and in
them. Branches that the siblings add to a conditional stand in that, and the nodes behind it around it. -/
theorem SiblingsBecome.registrations (hclean : final.IsClean) {docs : List Markup.Node} {chain? : Option Nat}
    {siblings : Chain × List Node} {aroundChain : List Node} (haround : standsPerItem around = place.perItem)
    (hchain : standsPerItem aroundChain = place.perItem)
    (h : SiblingsBecome config final place chain? docs low high siblings) :
    (siblings.1.sites aroundChain ++ sitesOf around siblings.2).filterMap Site.registration? =
      registrationsOf place.inIteration place.perItem docs := by
  induction docs using siblings_induction generalizing place chain? low high siblings around aroundChain with
  | nil =>
    obtain ⟨-, rfl⟩ := h
    rfl
  | text text position rest ih =>
    rw [registrationsOf, Markup.Node.registrations, List.nil_append]
    obtain ⟨n?, middle, hn, ⟨rfl, hmore⟩ | ⟨n, nodes, rfl, hmore, rfl⟩⟩ := h.text
    · exact ih haround hchain hmore
    · rw [← ih haround hchain hmore]
      simp [Chain.sites, sitesOf, hn.registrations]
  | comment text position rest ih =>
    rw [registrationsOf, Markup.Node.registrations, List.nil_append]
    obtain ⟨n?, middle, hn, ⟨rfl, hmore⟩ | ⟨n, nodes, rfl, hmore, rfl⟩⟩ := h.comment
    · exact ih haround hchain hmore
    · rw [← ih haround hchain hmore]
      simp [Chain.sites, sitesOf, hn.registrations]
  | element e children rest ihchildren ih =>
    -- The element is registered alike at any place with the flags of this one.
    have hcontent {place' : Place} {low high : Nat} {body around : List Node}
        (hbody : ElementContent config final place.inIteration e children place' low high body)
        (hiteration : place'.inIteration = place.inIteration) (hitem : place'.perItem = place.perItem)
        (haround : standsPerItem around = place.perItem) :
        (sitesOf around body).filterMap Site.registration? =
          (Markup.Node.element e children).registrations place.inIteration place.perItem := by
      unfold ElementContent at hbody
      rw [Directives.read_own] at hbody
      have hinner := ContentBecomes.registrations (registrationsOf · · children) (fun haround h => by
        simpa [Chain.sites] using ihchildren haround haround h.siblings) (haround.trans hitem.symm) hbody
      rw [hiteration, hitem] at hinner
      rw [hinner, Markup.Node.registrations]
      exact Markup.Element.registrations_withoutDirectives e _ _ _ _
    rw [registrationsOf]
    cases h.joins.2 with
    | @first _ test body _ more _ _ hbody hmore =>
      have hinside : standsPerItem (.conditional low e.position (.branch test false body more.1) :: around) =
          place.perItem := haround
      rw [← hcontent hbody rfl rfl hinside, ← ih haround hinside hmore]
      simp [Chain.sites, Node.sites, sitesOf, List.filterMap_cons, Site.registration?]
    | next _ hbody hmore => simp [Chain.sites, hcontent hbody rfl rfl hchain, ← ih haround hchain hmore]
    | last _ hbody hmore => simp [Chain.sites, hcontent hbody rfl rfl hchain, ← ih haround hchain hmore]
    | stray _ hreport _ _ => exact absurd hreport (hclean.not_reports rfl)
    | apart _ hbody hmore =>
      rw [← hcontent hbody rfl rfl haround, ← ih haround hchain hmore]
      simp [Chain.sites, sitesOf_eq_flatMap]

end Becomes

/-- The elements and slots of a template without errors are registered as the elements of its document. -/
theorem ofDocument_registrations {config : Config} {document children : List Markup.Node} {e : Markup.Element}
    (hroot : root document = .ok (e, children)) (h : (ofDocument config document).hasErrors = false) :
    (sitesOf [] (ofDocument config document).nodes).filterMap Site.registration? =
      registrationsOf false false children := by
  have hclean : (ofDocument config document).draft.IsClean := h
  have hbecome := ofDocument_becomes config hroot
  have haround : standsPerItem [] = false := rfl
  simpa [Chain.sites, rootPlace] using hbecome.registrations hclean haround haround

/-! ## Names of slots -/

end Template

namespace Markup

open Template (Registration)

/-- The name and the position of each slot among some nodes and in them, in document order. -/
def slotsOf (nodes : List Node) : List (String × Position) :=
  ((seatsOf [] nodes).filter (·.element.tag == "slot")).map fun seat => (seat.element.slotName, seat.element.position)

end Markup

namespace Template

open Markup (registrationsOf)

/-- The name and the position of a slot. -/
def Registration.slot? : Registration → Option (String × Position)
  | .slot name position => some (name, position)
  | .element .. => none

/-- The slots of a document are registered in document order. -/
theorem slot?_registrationsOf (inIteration perItem : Bool) (around : List String) (docs : List Markup.Node) :
    (registrationsOf inIteration perItem docs).filterMap Registration.slot? =
      ((Markup.seatsOf around docs).filter (·.element.tag == "slot")).map fun seat =>
        (seat.element.slotName, seat.element.position) := by
  induction docs using siblings_induction generalizing inIteration perItem around with
  | nil => rfl
  | text text position rest ih | comment text position rest ih =>
    rw [registrationsOf, Markup.Node.registrations, List.nil_append, ih inIteration perItem around]
    rfl
  | element e children rest ihchildren ih =>
    rw [registrationsOf, List.filterMap_append, ih inIteration perItem around, Markup.seatsOf, List.filter_append,
      List.map_append, Markup.Node.seats, Markup.Node.registrations, Markup.Element.registrations]
    congr 1
    split
    · rename_i htag
      rw [ihchildren _ _ (e.tag :: around), List.filter_cons_of_neg (by simp [htag])]
    · rw [List.filterMap_cons, ihchildren _ _ (e.tag :: around), Markup.Element.registration]
      by_cases hslot : e.tag = "slot"
      · rw [if_pos hslot, List.filter_cons_of_pos (by simp [hslot])]
        rfl
      · rw [if_neg hslot, List.filter_cons_of_neg (by simp [hslot])]
        rfl

/-- What is reported of the slots that have the name of an earlier one, with the place of the first slot of that name. -/
def repeatedSlots (slots : List (String × Position)) : List Diagnostic :=
  slots.zipIdx.filterMap fun (slot, i) =>
    ((slots.take i).lookup slot.1).map fun first => (Problem.duplicateSlot slot.1 first).diagnostic slot.2

theorem repeatedSlots_concat (slots : List (String × Position)) (name : String) (position : Position) :
    repeatedSlots (slots ++ [(name, position)]) = repeatedSlots slots ++
      ((slots.lookup name).map fun first => (Problem.duplicateSlot name first).diagnostic position).toList := by
  rw [repeatedSlots, List.zipIdx_append, List.filterMap_append]
  congr 1
  · -- Only the slots in front of a slot count.
    refine List.filterMap_congr fun entry hentry => ?_
    have hi : entry.2 < slots.length := by simpa using (List.mem_zipIdx hentry).2.1
    dsimp only
    rw [List.take_append_of_le_length (Nat.le_of_lt hi)]
  · have htake : (slots ++ [(name, position)]).take slots.length = slots := by simp
    simp only [List.zipIdx_cons, List.zipIdx_nil, Nat.zero_add, List.filterMap_cons, List.filterMap_nil, htake]
    cases slots.lookup name <;> rfl

theorem mem_names_of_lookup {slots : List (String × Position)} {name : String} {position : Position}
    (h : slots.lookup name = some position) : name ∈ slots.map Prod.fst := by
  obtain ⟨front, rest, rfl, -⟩ := List.lookup_eq_some_iff.1 h
  simp

theorem not_mem_names_of_lookup {slots : List (String × Position)} {name : String} (h : slots.lookup name = none) :
    name ∉ slots.map Prod.fst := by
  intro hmem
  obtain ⟨slot, hslot, rfl⟩ := List.mem_map.1 hmem
  simpa using List.lookup_eq_none_iff.1 h slot hslot

/-- A register lists the slots: the first of each name, and what is wrong with the others. -/
structure Register.Lists (register : Register) (slots : List (String × Position)) : Prop where
  names : register.slots.map Prod.fst = (slots.map Prod.fst).eraseDups
  lookup : ∀ name, register.slots.lookup name = slots.lookup name
  repeated : register.faults.filter (·.code = .duplicateSlotName) = repeatedSlots slots

/-- The register lists a slot more behind a slot, and the same slots behind any other element. -/
theorem Register.Lists.enter {register : Register} {slots : List (String × Position)} (h : register.Lists slots)
    (entry : Registration) : (register.enter entry).Lists (slots ++ entry.slot?.toList) := by
  cases entry with
  | element tag position keyed perItem =>
    rw [Register.enter, Registration.slot?, Option.toList_none, List.append_nil]
    split
    · have hother : [(Problem.noKey tag).diagnostic position].filter (·.code = .duplicateSlotName) = [] := rfl
      refine ⟨h.names, h.lookup, ?_⟩
      simp only [Register.fault, List.filter_append, h.repeated, hother, List.append_nil]
    · exact h
  | slot name position =>
    rw [Register.enter, Registration.slot?, Option.toList_some, h.lookup]
    cases hlookup : slots.lookup name with
    | some first =>
      refine ⟨?names, fun name' => ?lookup, ?repeated⟩
      case names =>
        rw [List.map_append, List.map_singleton, Render.eraseDups_concat, if_pos (mem_names_of_lookup hlookup)]
        exact h.names
      case lookup =>
        rw [List.lookup_append]
        by_cases hname : name' = name
        · rw [hname, hlookup]
          exact (h.lookup name).trans hlookup
        · rw [List.lookup_cons, beq_eq_false_iff_ne.2 hname, List.lookup_nil, Option.or_none]
          exact h.lookup name'
      case repeated =>
        simp only [Register.fault, List.filter_append, h.repeated, repeatedSlots_concat, hlookup]
        rfl
    | none =>
      refine ⟨?names, fun name' => ?lookup, ?repeated⟩
      case names =>
        rw [List.map_append, List.map_append, List.map_singleton, Render.eraseDups_concat,
          if_neg (not_mem_names_of_lookup hlookup), h.names]
      case lookup => rw [List.lookup_append, List.lookup_append, h.lookup]
      case repeated => simp [repeatedSlots_concat, hlookup, h.repeated]

/-- The register of some elements lists the slots among them. -/
theorem Register.lists_enterAll (entries : List Registration) :
    (Register.enterAll {} entries).Lists (entries.filterMap Registration.slot?) := by
  induction entries using List.reverseRecOn with
  | nil => exact ⟨rfl, fun _ => rfl, rfl⟩
  | append_singleton entries entry ih =>
    rw [Register.enterAll_append, List.filterMap_append]
    have hentry := ih.enter entry
    cases hslot : entry.slot? with
    | none => simpa [List.filterMap_cons, hslot] using hentry
    | some slot => simpa [List.filterMap_cons, hslot] using hentry

/-- Where no slot has the name of an earlier one, each name is there once. -/
theorem eraseDups_of_repeatedSlots {slots : List (String × Position)} (h : repeatedSlots slots = []) :
    (slots.map Prod.fst).eraseDups = slots.map Prod.fst := by
  induction slots using List.reverseRecOn with
  | nil => rfl
  | append_singleton slots slot ih =>
    obtain ⟨name, position⟩ := slot
    rw [repeatedSlots_concat, List.append_eq_nil_iff] at h
    have hnew : slots.lookup name = none := by
      cases hlookup : slots.lookup name with
      | none => rfl
      | some first => simp [hlookup] at h
    rw [List.map_append, List.map_singleton, Render.eraseDups_concat, if_neg (not_mem_names_of_lookup hnew), ih h.1]

/-- The name of a slot. -/
def Node.slotName? : Node → Option String
  | .slot _ _ name _ _ => some name
  | _ => none

/-- What a template says of the slots of its document. -/
structure NamesSlots (t : Template) (children : List Markup.Node) : Prop where
  /-- The names of the slots, each once and in the order of the first declarations. -/
  names : t.slots = ((Markup.slotsOf children).map Prod.fst).eraseDups
  /-- Reported are the slots that have the name of an earlier one, in document order. -/
  repeated : t.diagnostics.filter (·.code = .duplicateSlotName) = repeatedSlots (Markup.slotsOf children)
  /-- Without errors, the names are those of the slots in the tree, and they are distinct. -/
  distinct : t.hasErrors = false → t.slots = (allNodes t.nodes).filterMap Node.slotName? ∧ t.slots.Nodup

/-- The diagnostics with a code that is registered are those of the register. -/
theorem filter_registered {code : DiagnosticCode} {diagnostics : List Diagnostic}
    (hcode : ∀ d : Diagnostic, d.code = code → d.isRegistered = true) :
    (diagnostics.filter Diagnostic.isRegistered).filter (·.code = code) = diagnostics.filter (·.code = code) := by
  rw [List.filter_filter]
  refine List.filter_congr fun d _ => ?_
  by_cases h : d.code = code
  · simp [h, hcode d h]
  · simp [h]

/-- A template has the names of the slots of its document, and reports those that are taken. -/
theorem ofDocument_namesSlots (config : Config) {document children : List Markup.Node} {e : Markup.Element}
    (hroot : root document = .ok (e, children)) : (ofDocument config document).NamesSlots children := by
  obtain ⟨hslots, hfaults⟩ := ofDocument_register config hroot
  have hlists := Register.lists_enterAll (registrationsOf false false children)
  rw [slot?_registrationsOf false false [] children] at hlists
  have hnames : (ofDocument config document).slots = ((Markup.slotsOf children).map Prod.fst).eraseDups :=
    hslots.trans hlists.names
  have hrepeated : (ofDocument config document).diagnostics.filter (·.code = .duplicateSlotName) =
      repeatedSlots (Markup.slotsOf children) := by
    rw [← filter_registered fun d hd => by simp [Diagnostic.isRegistered, hd], hfaults]
    exact hlists.repeated
  refine ⟨hnames, hrepeated, fun hclean => ⟨?_, hnames ▸ Render.nodup_eraseDups _⟩⟩
  -- A repeated name is an error, so without errors the slots of the document are the slots of the template.
  have hnone : repeatedSlots (Markup.slotsOf children) = [] := by
    rw [← hrepeated, List.filter_eq_nil_iff]
    intro d hd hcode
    have hdraft : (ofDocument config document).draft.IsClean := hclean
    have herror := hdraft.not_error hd
    simp [Diagnostic.isError, of_decide_eq_true hcode, DiagnosticCode.severity] at herror
  have hnode (s : Site) : (s.registration?.bind Registration.slot?).map Prod.fst = s.node.slotName? := by
    obtain ⟨around, n⟩ := s
    cases n <;> rfl
  rw [hnames, eraseDups_of_repeatedSlots hnone, ← map_node_sitesOf [], Markup.slotsOf,
    ← slot?_registrationsOf false false, ← ofDocument_registrations hroot hclean, List.filterMap_filterMap,
    List.map_filterMap, List.filterMap_map]
  exact List.filterMap_congr fun s _ => hnode s

/-- The name of a slot in a branch that is left out is taken, and a bound name is that of the default slot. -/
theorem ofDocument_namesSlots_taken :
    ∃ (document children : List Markup.Node) (e : Markup.Element),
      (Markup.parse ("<template><slot name=' a '></slot><x-b lwc:else><slot name=c></slot></x-b><slot></slot>" ++
        "<slot name=c><slot name={d}></slot></slot></template>").toList).toOption = some document ∧
      root document = .ok (e, children) ∧ (ofDocument {} document).NamesSlots children ∧
      (ofDocument {} document).slots = ["a", "c", ""] ∧
      ((ofDocument {} document).diagnostics.filter (·.code = .duplicateSlotName)).map Diagnostic.position =
        [⟨1, 88⟩, ⟨1, 101⟩] := by
  have hread : (Markup.parse ("<template><slot name=' a '></slot><x-b lwc:else><slot name=c></slot></x-b>" ++
      "<slot></slot><slot name=c><slot name={d}></slot></slot></template>").toList).toOption.map
      (fun document => ((root document).toBool, (ofDocument {} document).slots,
        ((ofDocument {} document).diagnostics.filter (·.code = .duplicateSlotName)).map Diagnostic.position)) =
      some (true, ["a", "c", ""], [⟨1, 88⟩, ⟨1, 101⟩]) := by
    decide +kernel
  obtain ⟨document, hdocument, hread⟩ := Option.map_eq_some_iff.1 hread
  simp only [Prod.mk.injEq] at hread
  obtain ⟨hroot, hslots, hrepeated⟩ := hread
  cases hfound : root document with
  | error position => simp [hfound, Except.toBool] at hroot
  | ok found =>
    exact ⟨document, found.2, found.1, hdocument, hfound, ofDocument_namesSlots {} hfound, hslots, hrepeated⟩

/-! ## Missing keys -/

/-- What is reported of an element or a slot that is registered, if that is that it has no key. -/
def Registration.missingKey? : Registration → Option Diagnostic
  | .slot .. => none
  | .element tag position keyed perItem =>
    if perItem && !keyed then some ((Problem.noKey tag).diagnostic position) else none

/-- What is to be reported of a site whose node has no key, although it is rendered once for each item of an iteration. -/
def Site.missingKey? (s : Site) : Option Diagnostic :=
  match s.node with
  | .element _ p _ data _ =>
    if standsPerItem s.around && !data.key.isSome then some ((Problem.noKey data.tag).diagnostic p) else none
  | _ => none

/-- The register has the missing keys in document order. -/
theorem Register.missingKeys_enterAll (entries : List Registration) (register : Register) :
    (register.enterAll entries).faults.filter (·.code = .missingIterationKey) =
      register.faults.filter (·.code = .missingIterationKey) ++ entries.filterMap Registration.missingKey? := by
  induction entries generalizing register with
  | nil => simp
  | cons entry entries ih =>
    have hentry : (register.enter entry).faults.filter (·.code = .missingIterationKey) =
        register.faults.filter (·.code = .missingIterationKey) ++ entry.missingKey?.toList := by
      cases entry with
      | slot name position =>
        have hother (first : Position) :
            [(Problem.duplicateSlot name first).diagnostic position].filter (·.code = .missingIterationKey) = [] := rfl
        rw [Register.enter, Registration.missingKey?, Option.toList_none, List.append_nil]
        split
        · simp only [Register.fault, List.filter_append, hother, List.append_nil]
        · rfl
      | element tag position keyed perItem =>
        rw [Register.enter, Registration.missingKey?]
        split
        · simp only [Register.fault, List.filter_append, Option.toList_some]
          rfl
        · rw [Option.toList_none, List.append_nil]
    rw [Register.enterAll_cons, ih, hentry, List.append_assoc, List.filterMap_cons]
    cases entry.missingKey? <;> rfl

/-- What a template without errors says of the keys of its elements. -/
structure ReportsKeys (t : Template) : Prop where
  /-- Reported are, in document order, the elements without a key that are rendered once for each item: the innermost node
  around them that is no conditional is an iteration. -/
  missing : t.diagnostics.filter (·.code = .missingIterationKey) = (sitesOf [] t.nodes).filterMap Site.missingKey?
  /-- What has a key stands in an iteration. -/
  iterated : ∀ s ∈ sitesOf [] t.nodes, s.node.key?.isSome = true → s.isIterated = true

/-- A template without errors reports the missing keys of its elements, and has keys in iterations only. -/
theorem ofDocument_reportsKeys (config : Config) (document : List Markup.Node)
    (h : (ofDocument config document).hasErrors = false) : (ofDocument config document).ReportsKeys := by
  have hclean : (ofDocument config document).draft.IsClean := h
  obtain ⟨e, children, hroot⟩ := exists_root_of_isClean hclean
  constructor
  case missing =>
    have hsite (s : Site) : s.registration?.bind Registration.missingKey? = s.missingKey? := by
      obtain ⟨around, n⟩ := s
      cases n <;> rfl
    rw [← filter_registered fun d hd => by simp [Diagnostic.isRegistered, hd], (ofDocument_register config hroot).2,
      Register.missingKeys_enterAll, List.filter_nil, List.nil_append, ← ofDocument_registrations hroot h,
      List.filterMap_filterMap]
    exact List.filterMap_congr fun s _ => hsite s
  case iterated =>
    intro s hs hkey
    obtain ⟨tag, htag⟩ : ∃ tag, s.node.tag? = some tag := by
      obtain ⟨around, n⟩ := s
      cases n with
      | element id p role data children => exact ⟨data.tag, rfl⟩
      | _ => cases hkey
    have huse : s.keyUse? = some ⟨tag, s.node.position, s.isIterated, true⟩ := by
      rw [Site.keyUse?, htag, hkey]
      rfl
    -- An element of the document has the key, and it may have one only where it is iterated.
    have hmem := List.mem_filterMap.2 ⟨s, hs, huse⟩
    rw [ofDocument_keyUses hroot h] at hmem
    obtain ⟨standing, hstanding, hstands⟩ := List.mem_filterMap.1 hmem
    obtain ⟨-, hallowed⟩ := ofDocument_keys hroot h standing hstanding
    unfold Markup.Element.keyUse? at hstands
    split at hstands
    · cases hstands
    · simp only [Option.some.injEq, Markup.KeyUse.mk.injEq] at hstands
      obtain ⟨-, -, hiterated, hgiven⟩ := hstands
      exact hiterated ▸ hallowed hgiven

/-- A conditional and a nested `template` element stand between an iteration and what that renders, an element does not. -/
theorem ofDocument_reportsKeys_nested :
    ∃ document : List Markup.Node,
      (Markup.parse ("<template><template for:each={a} for:item='b'><p if:true={c}><i></i></p><u key={b}>" ++
        "<s key={b}></s></u></template></template>").toList).toOption = some document ∧
      (ofDocument {} document).hasErrors = false ∧ (ofDocument {} document).ReportsKeys ∧
      ((ofDocument {} document).diagnostics.filter (·.code = .missingIterationKey)).map Diagnostic.position =
        [⟨1, 47⟩] := by
  have hread : (Markup.parse ("<template><template for:each={a} for:item='b'><p if:true={c}><i></i></p><u key={b}>" ++
      "<s key={b}></s></u></template></template>").toList).toOption.map
      (fun document => ((ofDocument {} document).hasErrors,
        ((ofDocument {} document).diagnostics.filter (·.code = .missingIterationKey)).map Diagnostic.position)) =
      some (false, [⟨1, 47⟩]) := by
    decide +kernel
  obtain ⟨document, hdocument, hread⟩ := Option.map_eq_some_iff.1 hread
  simp only [Prod.mk.injEq] at hread
  obtain ⟨hclean, hmissing⟩ := hread
  exact ⟨document, hdocument, hclean, ofDocument_reportsKeys {} document hclean, hmissing⟩

end Template

end TemplateCompiler
