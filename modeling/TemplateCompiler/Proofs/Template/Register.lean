import TemplateCompiler.Proofs.Template.Authored
/-!
# Registers of names and keys

Two problems are not of an element by itself: the name of a slot that is taken, and a missing key of what is rendered once
for each item of an iteration. `registrationsOf` lists what the elements of a document have to do with them, in document
order, and a `Register` is what comes of that one by one. `Registers` says of a step of the building what it enters into
the register, whatever has been entered before; `ofDocument_register` says it of a whole template, with or without errors.
-/

namespace TemplateCompiler

open Text Binding

/-! ## Registers -/

namespace Template

/-- What an element or a slot is registered with. -/
inductive Registration where
  | slot (name : String) (position : Position)
  /-- An element that is no slot, and whether it is rendered once for each item of an iteration. -/
  | element (tag : String) (position : Position) (keyed perItem : Bool)
deriving DecidableEq

/-- The first slot of each name, and what is wrong with names of slots and with keys. -/
structure Register where
  slots : List (String × Position) := []
  faults : List Diagnostic := []

/-- The register with a further fault. -/
def Register.fault (register : Register) (problem : Problem) (position : Position) : Register :=
  { register with faults := register.faults ++ [problem.diagnostic position] }

/-- The register behind one more element or slot. -/
def Register.enter (register : Register) : Registration → Register
  | .slot name position =>
    match register.slots.lookup name with
    | some first => register.fault (.duplicateSlot name first) position
    | none => { register with slots := register.slots ++ [(name, position)] }
  | .element tag position keyed perItem =>
    if perItem && !keyed then register.fault (.noKey tag) position else register

/-- The register behind some elements and slots. -/
def Register.enterAll (register : Register) (entries : List Registration) : Register :=
  entries.foldl Register.enter register

@[simp] theorem Register.enterAll_nil (register : Register) : register.enterAll [] = register :=
  rfl

@[simp] theorem Register.enterAll_cons (register : Register) (entry : Registration) (entries : List Registration) :
    register.enterAll (entry :: entries) = (register.enter entry).enterAll entries :=
  rfl

theorem Register.enterAll_append (register : Register) (entries more : List Registration) :
    register.enterAll (entries ++ more) = (register.enterAll entries).enterAll more :=
  List.foldl_append

end Template

/-- Whether a diagnostic is about the name of a slot that is taken or a key that is missing. -/
def Diagnostic.isRegistered (d : Diagnostic) : Bool :=
  d.code = .duplicateSlotName || d.code = .missingIterationKey

/-- What a draft says of names of slots and of keys. -/
def Template.Draft.register (draft : Draft) : Register :=
  ⟨draft.slots, draft.diagnostics.filter Diagnostic.isRegistered⟩

/-! ## Elements of a document -/

namespace Markup

open Template (Directives Registration)

/-- Whether an attribute is a literal name of a slot. -/
def Attribute.isSlotName (a : Attribute) : Bool :=
  a.name == "name" && !isBinding a.value

/-- The name of a slot, which is empty for the default slot. -/
def Element.slotName (e : Element) : String :=
  ((e.attributes.filter Attribute.isSlotName).getLast?.map fun a => trimmed a.value).getD ""

/-- What an element is registered with. -/
def Element.registration (e : Element) (keyed perItem : Bool) : Registration :=
  if e.tag = "slot" then .slot e.slotName e.position else .element e.tag e.position keyed perItem

/-- What an element and the elements in it are registered with; `inner` says it of those in it, given whether they stand
in an iteration and whether they are rendered once for each item. What is in a nested `template` element takes its
place. -/
def Element.registrations (e : Element) (keyed inIteration perItem : Bool) (inner : Bool → Bool → List Registration) :
    List Registration :=
  if e.tag = "template" then inner inIteration perItem else e.registration keyed perItem :: inner inIteration false

mutual

/-- What the elements that a node is or has in it are registered with. -/
def Node.registrations (inIteration perItem : Bool) : Node → List Registration
  | .element e children =>
    let directives := (Directives.read inIteration e.attributes).1
    e.registrations directives.key.isSome (inIteration || directives.iteration.isSome)
      (perItem || directives.iteration.isSome) fun inIteration perItem => registrationsOf inIteration perItem children
  | .text _ _ => []
  | .comment _ _ => []

/-- What the elements among some nodes and in them are registered with. -/
def registrationsOf (inIteration perItem : Bool) : List Node → List Registration
  | [] => []
  | n :: ns => n.registrations inIteration perItem ++ registrationsOf inIteration perItem ns

end

/-- The name of a slot is none of its directives. -/
theorem Element.slotName_withoutDirectives (e : Element) : e.withoutDirectives.slotName = e.slotName := by
  have hfilter : e.own.filter Attribute.isSlotName = e.attributes.filter Attribute.isSlotName := by
    rw [Element.own, List.filter_filter]
    refine List.filter_congr fun a _ => ?_
    by_cases hname : a.name = "name"
    · have hdirective : isDirective "name" = false := by decide
      simp [hname, hdirective]
    · simp [Attribute.isSlotName, hname]
  rw [slotName, slotName]
  exact congrArg (fun found => (found.getLast?.map fun a => trimmed a.value).getD "") hfilter

theorem Element.registration_withoutDirectives (e : Element) (keyed perItem : Bool) :
    e.withoutDirectives.registration keyed perItem = e.registration keyed perItem := by
  rw [registration, slotName_withoutDirectives]
  rfl

theorem Element.registrations_withoutDirectives (e : Element) (keyed inIteration perItem : Bool)
    (inner : Bool → Bool → List Registration) :
    e.withoutDirectives.registrations keyed inIteration perItem inner =
      e.registrations keyed inIteration perItem inner := by
  rw [registrations, registration_withoutDirectives]
  rfl

end Markup

namespace Template

open Markup (registrationsOf)

/-- The last literal name counts. -/
theorem slotAttributes_name (attributes : List Markup.Attribute) (name : String) (found : List Attribute) :
    (slotAttributes name found attributes).1 =
      ((attributes.filter Markup.Attribute.isSlotName).getLast?.map fun a => trimmed a.value).getD name := by
  induction attributes generalizing name found with
  | nil => rfl
  | cons a attributes ih =>
    rw [slotAttributes]
    by_cases hname : a.name = "name"
    · rw [if_pos hname]
      by_cases hbinding : isBinding a.value = true
      · rw [if_pos hbinding, List.filter_cons_of_neg (by simp [Markup.Attribute.isSlotName, hbinding])]
        exact ih name found
      · rw [if_neg hbinding, List.filter_cons_of_pos (by simp [Markup.Attribute.isSlotName, hname, hbinding]), ih,
          List.getLast?_cons]
        cases (attributes.filter Markup.Attribute.isSlotName).getLast? <;> rfl
    · rw [if_neg hname, List.filter_cons_of_neg (by simp [Markup.Attribute.isSlotName, hname])]
      cases attributeValue a with
      | ok value => exact ih name _
      | error problem => exact ih name found

/-! ## Diagnostics about single elements -/

/-- Diagnostics that no register has. -/
def AreUnregistered (diagnostics : List Diagnostic) : Prop :=
  ∀ d ∈ diagnostics, d.isRegistered = false

theorem AreUnregistered.append {xs ys : List Diagnostic} (hx : AreUnregistered xs) (hy : AreUnregistered ys) :
    AreUnregistered (xs ++ ys) :=
  List.forall_mem_append.2 ⟨hx, hy⟩

theorem AreUnregistered.ite {xs ys : List Diagnostic} (c : Bool) (hx : AreUnregistered xs) (hy : AreUnregistered ys) :
    AreUnregistered (if c then xs else ys) := by
  cases c
  · exact hy
  · exact hx

/-- Whether a problem is about the name of a slot that is taken or a key that is missing. -/
def Problem.isRegistered : Problem → Bool
  | .duplicateSlot _ _ | .noKey _ => true
  | _ => false

@[simp] theorem Problem.isRegistered_diagnostic (problem : Problem) (position : Position) :
    (problem.diagnostic position).isRegistered = problem.isRegistered := by
  cases problem <;> rfl

theorem AreUnregistered.single {problem : Problem} (h : problem.isRegistered = false) (position : Position) :
    AreUnregistered [problem.diagnostic position] := by
  intro d hd
  rw [List.mem_singleton.1 hd, Problem.isRegistered_diagnostic, h]

theorem readAttribute_isRegistered {a : Markup.Attribute} {code : List Char} {problem : Problem}
    (h : readAttribute a code = .error problem) : problem.isRegistered = false := by
  unfold readAttribute at h
  split at h
  · cases h
  · cases h
    rfl

theorem requiredBinding_isRegistered {a : Markup.Attribute} {problem : Problem}
    (h : requiredBinding a = .error problem) : problem.isRegistered = false := by
  unfold requiredBinding at h
  split at h
  · split at h
    · cases h
      rfl
    · exact readAttribute_isRegistered h
  · cases h
    rfl

theorem attributeValue_isRegistered {a : Markup.Attribute} {problem : Problem}
    (h : attributeValue a = .error problem) : problem.isRegistered = false := by
  unfold attributeValue at h
  split at h
  · split at h
    · cases h
      rfl
    · cases hread : readAttribute a _ with
      | ok expr =>
        rw [hread] at h
        cases h
      | error problem' =>
        rw [hread] at h
        cases h
        exact readAttribute_isRegistered hread
  · cases h

namespace Reading

variable {r : Reading}

theorem unregistered_report (h : AreUnregistered r.diagnostics) {problem : Problem}
    (hproblem : problem.isRegistered = false) (position : Position) :
    AreUnregistered (r.report problem position).diagnostics :=
  h.append (.single hproblem position)

theorem unregistered_setCondition (h : AreUnregistered r.diagnostics) (a : Markup.Attribute) (condition : Condition) :
    AreUnregistered (r.setCondition a condition).diagnostics := by
  unfold setCondition
  split
  · exact unregistered_report h rfl a.position
  · exact h

theorem unregistered_withValue {α : Type} (h : AreUnregistered r.diagnostics) (a : Markup.Attribute)
    {value : Except Problem α} (hvalue : ∀ problem, value = .error problem → problem.isRegistered = false)
    {f : Reading → α → Reading} (hf : ∀ v, AreUnregistered (f r v).diagnostics) :
    AreUnregistered (r.withValue a value f).diagnostics := by
  cases value with
  | ok v => exact hf v
  | error problem => exact unregistered_report h (hvalue problem rfl) a.position

theorem variableName_isRegistered {a : Markup.Attribute} {problem : Problem} (h : variableName a = .error problem) :
    problem.isRegistered = false := by
  unfold variableName at h
  dsimp only at h
  split at h
  · cases h
  · cases h
    rfl

theorem readKey_isRegistered {repeated : Bool} {a : Markup.Attribute} {problem : Problem}
    (h : readKey repeated a = .error problem) : problem.isRegistered = false := by
  unfold readKey at h
  split at h
  · cases h
    rfl
  · split at h
    · split at h
      · cases h
        rfl
      · exact readAttribute_isRegistered h
    · cases h
      rfl

/-- No directive by itself says anything about other elements. -/
theorem unregistered_step (h : AreUnregistered r.diagnostics) (a : Markup.Attribute) :
    AreUnregistered (r.step a).diagnostics := by
  unfold step
  split
  case h_1 | h_2 =>
    have hreport : AreUnregistered (r.report (.deprecated a.name) a.position).diagnostics :=
      unregistered_report h rfl a.position
    exact unregistered_withValue hreport a (fun _ => requiredBinding_isRegistered) fun _ =>
      unregistered_setCondition hreport a _
  case h_3 | h_4 =>
    exact unregistered_withValue h a (fun _ => requiredBinding_isRegistered) fun _ => unregistered_setCondition h a _
  case h_5 =>
    refine unregistered_setCondition ?_ a .last
    split
    · exact unregistered_report h rfl a.position
    · exact h
  case h_6 | h_10 => exact unregistered_withValue h a (fun _ => requiredBinding_isRegistered) fun _ => h
  case h_7 | h_8 => exact unregistered_withValue h a (fun _ => variableName_isRegistered) fun _ => h
  case h_9 => exact h
  case h_11 | h_12 => exact unregistered_report h rfl a.position
  case h_13 =>
    split
    · exact unregistered_report h rfl a.position
    · exact h

theorem unregistered_foldl (h : AreUnregistered r.diagnostics) (attributes : List Markup.Attribute) :
    AreUnregistered (attributes.foldl step r).diagnostics := by
  induction attributes generalizing r with
  | nil => exact h
  | cons a attributes ih => exact ih (unregistered_step h a)

theorem unregistered_iteration (r : Reading) : AreUnregistered r.iterationDiagnostics := by
  unfold iterationDiagnostics
  refine .append ?_ ?_
  · split
    · exact .single rfl _
    · exact .single rfl _
    · simp [AreUnregistered]
  · split
    · exact .single rfl _
    · simp [AreUnregistered]

end Reading

/-- No diagnostic about the directives of an element is registered. -/
theorem Directives.unregistered_read (inIteration : Bool) (attributes : List Markup.Attribute) :
    AreUnregistered (Directives.read inIteration attributes).2.2 := by
  have hread : AreUnregistered ((Reading.ofAttributes attributes).diagnostics ++
      (Reading.ofAttributes attributes).iterationDiagnostics) :=
    (Reading.unregistered_foldl (by simp [AreUnregistered]) attributes).append (Reading.unregistered_iteration _)
  unfold Directives.read
  dsimp only
  split
  · exact hread
  · split
    · exact hread
    · rename_i hkey
      exact hread.append (.single (Reading.readKey_isRegistered hkey) _)

theorem ElementData.unregistered_addAll (attributes : List Markup.Attribute) (data : ElementData) (custom : Bool) :
    AreUnregistered (data.addAll custom attributes).2 := by
  induction attributes generalizing data with
  | nil => simp [addAll, AreUnregistered]
  | cons a attributes ih =>
    rw [addAll]
    cases hadd : data.add custom a with
    | ok data' => exact ih data'
    | error problem =>
      refine List.forall_mem_cons.2 ⟨?_, ih data⟩
      rw [Problem.isRegistered_diagnostic]
      unfold add at hadd
      cases hvalue : attributeValue a with
      | error problem' =>
        rw [hvalue] at hadd
        cases hadd
        exact attributeValue_isRegistered hvalue
      | ok value =>
        rw [hvalue] at hadd
        by_cases his : a.name = "is"
        · simp only [his, if_true, bind, Except.bind, throw, throwThe, MonadExceptOf.throw] at hadd
          cases hadd
          rfl
        · simp only [his, if_false, bind, Except.bind, pure, Except.pure] at hadd
          split at hadd
          · split at hadd
            · cases hadd
            · cases hadd
              rfl
          · cases hadd

theorem unregistered_slotAttributes (attributes : List Markup.Attribute) (name : String) (found : List Attribute) :
    AreUnregistered (slotAttributes name found attributes).2.2 := by
  induction attributes generalizing name found with
  | nil => simp [slotAttributes, AreUnregistered]
  | cons a attributes ih =>
    rw [slotAttributes]
    dsimp only
    split
    · split
      · exact List.forall_mem_cons.2 ⟨rfl, ih name found⟩
      · exact ih _ found
    · split
      · exact ih name _
      · rename_i problem hvalue
        refine List.forall_mem_cons.2 ⟨?_, ih name found⟩
        rw [Problem.isRegistered_diagnostic, attributeValue_isRegistered hvalue]

theorem unregistered_rootAttributes (attributes : List Markup.Attribute) (config : Config) :
    AreUnregistered (rootAttributes config attributes).2 := by
  induction attributes generalizing config with
  | nil => simp [rootAttributes, AreUnregistered]
  | cons a attributes ih =>
    rw [rootAttributes]
    cases hroot : rootAttribute config a with
    | ok config' => exact ih config'
    | error problem =>
      refine List.forall_mem_cons.2 ⟨?_, ih config⟩
      rw [Problem.isRegistered_diagnostic]
      unfold rootAttribute at hroot
      split at hroot
      · split at hroot <;> cases hroot
        rfl
      · split at hroot <;> cases hroot
        rfl
      · cases hroot
        rfl

/-! ## What is entered while a template is built -/

namespace Building

variable {α β : Type}

/-- The step enters the registrations into the register of any draft. -/
def Registers (m : Building α) (entries : List Registration) : Prop :=
  ∀ draft, (m.run draft).2.register = draft.register.enterAll entries

theorem Registers.pure (a : α) : Registers (pure a) [] :=
  fun _ => rfl

theorem Registers.bind {m : Building α} {k : α → Building β} {entries more : List Registration}
    (hm : Registers m entries) (hk : ∀ a, Registers (k a) more) : Registers (m >>= k) (entries ++ more) := by
  intro draft
  rw [Register.enterAll_append, ← hm draft]
  exact hk (m.run draft).1 (m.run draft).2

/-- A step that enters nothing, and then another one. -/
theorem Registers.after {m : Building α} {k : α → Building β} {entries : List Registration}
    (hm : Registers m []) (hk : ∀ a, Registers (k a) entries) : Registers (m >>= k) entries :=
  hm.bind hk

/-- A step, and then its result. -/
theorem Registers.map {m : Building α} {entries : List Registration} (hm : Registers m entries) (f : α → β) :
    Registers (m >>= fun a => Pure.pure (f a)) entries := by
  have := hm.bind fun a => Registers.pure (f a)
  rwa [List.append_nil] at this

theorem registers_note {diagnostics : List Diagnostic} (h : AreUnregistered diagnostics) :
    Registers (note diagnostics) [] := by
  intro draft
  have hnone : diagnostics.filter Diagnostic.isRegistered = [] := by simpa [AreUnregistered] using h
  show (⟨draft.slots, (draft.diagnostics ++ diagnostics).filter Diagnostic.isRegistered⟩ : Register) = draft.register
  rw [List.filter_append, hnone, List.append_nil]
  rfl

theorem registers_report {problems : List Problem} (position : Position)
    (h : ∀ problem ∈ problems, problem.isRegistered = false) : Registers (report problems position) [] := by
  refine registers_note fun d hd => ?_
  obtain ⟨problem, hproblem, rfl⟩ := List.mem_map.1 hd
  rw [Problem.isRegistered_diagnostic, h problem hproblem]

theorem registers_allocate (parent : Option Nat) (label : String) (position : Position) :
    Registers (allocate parent label position) [] :=
  fun _ => rfl

theorem registers_iterationAround (id : Nat) : Registers (iterationAround id) [] :=
  fun _ => rfl

theorem registers_declareSlot (name : String) (position : Position) :
    Registers (declareSlot name position) [.slot name position] := by
  intro draft
  show _ = draft.register.enter (.slot name position)
  unfold declareSlot Register.enter
  simp only [StateT.run_bind, StateT.run_get, pure_bind, Draft.register]
  cases draft.slots.lookup name with
  | some first =>
    show (⟨draft.slots, (draft.diagnostics ++ [_]).filter Diagnostic.isRegistered⟩ : Register) = _
    rw [List.filter_append]
    rfl
  | none => rfl

/-- Of the problems with a tag, the missing key is registered. -/
theorem registers_tagProblems (place : Place) (tag : String) (directives : Directives) (position : Position) :
    Registers (report (tagProblems place tag directives) position)
      [.element tag position directives.key.isSome place.perItem] := by
  intro draft
  have hkeys : ((tagProblems place tag directives).map (·.diagnostic position)).filter Diagnostic.isRegistered =
      if place.perItem && !directives.key.isSome then [(Problem.noKey tag).diagnostic position] else [] := by
    have hone (c : Bool) (problem : Problem) : ((if c then [problem] else []).map (·.diagnostic position)).filter
        Diagnostic.isRegistered = if c && problem.isRegistered then [problem.diagnostic position] else [] := by
      cases c <;> cases h : problem.isRegistered <;> simp [h]
    unfold tagProblems
    simp only [List.map_append, List.filter_append, hone]
    simp [Problem.isRegistered]
  show (⟨draft.slots, (draft.diagnostics ++ _).filter Diagnostic.isRegistered⟩ : Register) =
    draft.register.enter (.element tag position directives.key.isSome place.perItem)
  rw [List.filter_append, hkeys, Register.enter]
  split
  · rfl
  · rw [List.append_nil]
    rfl

end Building

open Building

theorem registers_buildText (place : Place) (text : String) (position : Position) :
    Registers (buildText place text position) [] := by
  unfold buildText
  cases shown place.keepBlanks text with
  | none => exact .pure none
  | some visible =>
    dsimp only
    cases splitText visible.toList with
    | error e => exact (registers_report position (by simp [Problem.isRegistered])).map fun _ => none
    | ok parts => exact (registers_allocate _ _ _).map fun id => some (Node.text id position parts)

theorem registers_buildComment (config : Config) (place : Place) (text : String) (position : Position) :
    Registers (buildComment config place text position) [] := by
  unfold buildComment
  split
  · exact (registers_allocate _ _ _).map fun id => some (Node.comment id position text)
  · exact .pure none

section Element

variable {body : Place → Building (List Node)} {inner : Bool → Bool → List Registration}
  (hbody : ∀ place, Registers (body place) (inner place.inIteration place.perItem))
include hbody

theorem registers_buildElement (place : Place) (id : Nat) (e : Markup.Element) (directives : Directives) :
    Registers (buildElement place id e directives body)
      (.element e.tag e.position directives.key.isSome place.perItem :: inner place.inIteration false) := by
  unfold buildElement
  refine .bind (registers_tagProblems place e.tag directives e.position) fun _ => ?_
  exact .after (registers_note (ElementData.unregistered_addAll _ _ _)) fun _ => (hbody _).map _

theorem registers_buildSlot (place : Place) (id : Nat) (e : Markup.Element) (directives : Directives) :
    Registers (buildSlot place id e directives body)
      (.slot e.slotName e.position :: inner place.inIteration false) := by
  have hname : (slotAttributes "" [] e.attributes).1 = e.slotName := slotAttributes_name e.attributes "" []
  have hrest : Registers (do
      note (slotAttributes "" [] e.attributes).2.2
      declareSlot (slotAttributes "" [] e.attributes).1 e.position
      let children ← body (place.below id)
      return .slot id e.position (slotAttributes "" [] e.attributes).1 (slotAttributes "" [] e.attributes).2.1
        children : Building Node) (.slot e.slotName e.position :: inner place.inIteration false) := by
    rw [hname]
    refine .after (registers_note (unregistered_slotAttributes _ _ _)) fun _ => ?_
    exact .bind (registers_declareSlot _ _) fun _ => (hbody _).map _
  have hdirective : Registers (do
      if directives.key.isSome || directives.dynamic.isSome then report [.slotDirective] e.position
      note (slotAttributes "" [] e.attributes).2.2
      declareSlot (slotAttributes "" [] e.attributes).1 e.position
      let children ← body (place.below id)
      return .slot id e.position (slotAttributes "" [] e.attributes).1 (slotAttributes "" [] e.attributes).2.1
        children : Building Node) (.slot e.slotName e.position :: inner place.inIteration false) := by
    split
    · exact .after (registers_report _ (by simp [Problem.isRegistered])) fun _ => hrest
    · exact hrest
  unfold buildSlot
  refine .after (registers_iterationAround id) fun iteration? => ?_
  cases iteration? with
  | none => exact hdirective
  | some iteration => exact .after (registers_report _ (by simp [Problem.isRegistered])) fun _ => hdirective

theorem registers_buildTag (place : Place) (e : Markup.Element) (directives : Directives) :
    Registers (buildTag place e directives body)
      (e.registration directives.key.isSome place.perItem :: inner place.inIteration false) := by
  unfold buildTag Markup.Element.registration
  refine .after (registers_allocate _ _ _) fun id => ?_
  by_cases hslot : e.tag = "slot"
  · rw [if_pos hslot, if_pos hslot]
    exact registers_buildSlot hbody place id e directives
  · rw [if_neg hslot, if_neg hslot]
    exact registers_buildElement hbody place id e directives

theorem registers_buildNested (place : Place) (e : Markup.Element) (directives : Directives) (directed : Bool) :
    Registers (buildNested place e directives directed body) (inner place.inIteration place.perItem) := by
  unfold buildNested
  have hproblems : ∀ problem ∈ nestedProblems directed directives, problem.isRegistered = false := by
    unfold nestedProblems
    intro problem hproblem
    rcases List.mem_append.1 hproblem with hproblem | hproblem
    · rcases List.mem_append.1 hproblem with hproblem | hproblem
      · split at hproblem <;> simp_all [Problem.isRegistered]
      · split at hproblem <;> simp_all [Problem.isRegistered]
    · split at hproblem <;> simp_all [Problem.isRegistered]
  have hattributes : AreUnregistered
      (e.attributes.map fun a => (Problem.templateAttribute a.name).diagnostic a.position) := by
    intro d hd
    obtain ⟨a, -, rfl⟩ := List.mem_map.1 hd
    rfl
  refine .after (registers_report e.position hproblems) fun _ => ?_
  exact .after (registers_note hattributes) fun _ => hbody place

variable (inner) in
theorem registers_buildIteration (place : Place) (position : Position) (loop : Option Iteration) :
    Registers (buildIteration place position loop body)
      (inner (place.inIteration || loop.isSome) (place.perItem || loop.isSome)) := by
  unfold buildIteration
  cases loop with
  | none =>
    rw [Option.isSome_none, Bool.or_false, Bool.or_false]
    exact hbody place
  | some loop =>
    rw [Option.isSome_some, Bool.or_true, Bool.or_true]
    exact .after (registers_allocate _ _ _) fun id => (hbody (place.iterated id)).map _

variable (inner) in
/-- A conditional stands between an iteration and what that renders for each item. -/
theorem registers_buildAlone (place : Place) (position : Position) (condition : Option Condition) :
    Registers (buildAlone place position condition body) (inner place.inIteration place.perItem) := by
  unfold buildAlone
  split
  · exact .after (registers_allocate _ _ _) fun id => (hbody (place.within id)).map _
  · exact hbody place

variable (inner) in
theorem registers_buildContent (place : Place) (e : Markup.Element) (directives : Directives) :
    Registers (buildContent place e directives body)
      (e.registrations directives.key.isSome (place.inIteration || directives.iteration.isSome)
        (place.perItem || directives.iteration.isSome) inner) := by
  refine registers_buildIteration (e.registrations directives.key.isSome · · inner) (fun place => ?_) place e.position _
  refine registers_buildAlone (e.registrations directives.key.isSome · · inner) (fun place => ?_) place e.position _
  unfold Markup.Element.registrations
  by_cases htag : e.tag = "template"
  · rw [if_pos htag, if_pos htag]
    exact registers_buildNested hbody place e directives _
  · rw [if_neg htag, if_neg htag]
    exact (registers_buildTag hbody place e directives).map _

end Element

/-- Building siblings enters the elements among them and in them, also those that are left out. -/
theorem registers_buildSiblings (config : Config) (docs : List Markup.Node) (place : Place) (chain? : Option Nat) :
    Registers (buildSiblings config place chain? docs) (registrationsOf place.inIteration place.perItem docs) := by
  induction docs using siblings_induction generalizing place chain? with
  | nil =>
    unfold buildSiblings
    exact .pure _
  | text text position rest ih =>
    unfold buildSiblings
    refine .after (registers_buildText place text position) fun n? => ?_
    cases n? with
    | none => exact ih place chain?
    | some n => exact (ih place none).map _
  | comment text position rest ih =>
    unfold buildSiblings
    refine .after (registers_buildComment config place text position) fun n? => ?_
    cases n? with
    | none => exact ih place chain?
    | some n => exact (ih place none).map _
  | element e children rest ihchildren ih =>
    have hchildren (place : Place) : Registers (buildChildren config place (.element e children))
        (registrationsOf place.inIteration place.perItem children) := by
      unfold buildChildren
      exact (ihchildren place none).map Prod.snd
    -- The element is entered alike at any place with the flags of this one.
    have hcontent (place' : Place) (hiteration : place'.inIteration = place.inIteration)
        (hitem : place'.perItem = place.perItem) : Registers
          (buildContent place' { e with attributes := (Directives.read place.inIteration e.attributes).2.1 }
            (Directives.read place.inIteration e.attributes).1 fun place => buildChildren config place (.element e children))
          ((Markup.Node.element e children).registrations place.inIteration place.perItem) := by
      have hbuilt := registers_buildContent (registrationsOf · · children) hchildren place' e.withoutDirectives
        (Directives.read place.inIteration e.attributes).1
      rw [Markup.Element.registrations_withoutDirectives, hiteration, hitem] at hbuilt
      rw [Directives.read_own, Markup.Node.registrations]
      exact hbuilt
    unfold buildSiblings
    rw [registrationsOf]
    dsimp only
    refine .after (registers_note (Directives.unregistered_read place.inIteration e.attributes)) fun _ => ?_
    have hstray (isElse : Bool) : Registers (report [.branchWithoutIf isElse] e.position) [] :=
      registers_report e.position (by simp [Problem.isRegistered])
    split
    · refine .after (registers_allocate _ _ _) fun id => ?_
      exact .bind (hcontent _ rfl rfl) fun _ => (ih place _).map _
    · exact .bind (hcontent _ rfl rfl) fun _ => (ih place _).map _
    · exact .bind (hcontent _ rfl rfl) fun _ => (ih place _).map _
    · exact .after (hstray false) fun _ => .bind (hcontent _ rfl rfl) fun _ => ih place none
    · exact .after (hstray true) fun _ => .bind (hcontent _ rfl rfl) fun _ => ih place none
    · exact .bind (hcontent _ rfl rfl) fun _ => (ih place _).map _

/-- A template has the register of the elements of its document, with or without errors. -/
theorem ofDocument_register (config : Config) {document children : List Markup.Node} {e : Markup.Element}
    (hroot : root document = .ok (e, children)) :
    let t := ofDocument config document
    let register := Register.enterAll {} (registrationsOf false false children)
    t.slots = register.slots.map Prod.fst ∧ t.diagnostics.filter Diagnostic.isRegistered = register.faults := by
  have hbuilt := registers_buildSiblings (rootAttributes config e.attributes).1 children
    (rootPlace (rootAttributes config e.attributes).1) none { diagnostics := (rootAttributes config e.attributes).2 }
  have hbefore : Draft.register { diagnostics := (rootAttributes config e.attributes).2 } = {} := by
    have hnone : (rootAttributes config e.attributes).2.filter Diagnostic.isRegistered = [] := by
      simpa [AreUnregistered] using unregistered_rootAttributes e.attributes config
    rw [Draft.register, hnone]
  rw [hbefore] at hbuilt
  simp only [ofDocument, hroot]
  exact ⟨congrArg (fun register => register.slots.map Prod.fst) hbuilt, congrArg Register.faults hbuilt⟩

end Template

end TemplateCompiler
