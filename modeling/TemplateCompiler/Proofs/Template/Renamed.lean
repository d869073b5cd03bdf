import TemplateCompiler.Proofs.Template.Built
import TemplateCompiler.Proofs.Template.RenamedElements
/-!
# Building from documents that differ in a directive

Two documents are built side by side. As long as the first one has no error, the nodes of the second one have the same
numbers and the same content, although an `lwc:if` is built by another way than an `if:true` (`follows_buildSiblings`):
the former opens a chain, but no sibling goes on with it, as that sibling would be an error behind an `if:true`.
-/

namespace TemplateCompiler.Template

open TemplateCompiler.Text TemplateCompiler.Binding

/-! ## Tables -/

/-- What matters of an entry: the node that it stands in, and whether it is an iteration. -/
def NodeEntry.frame (entry : NodeEntry) : Option Nat × Bool :=
  (entry.parent, entry.label == iterationLabel)

/-- The frames of the entries. -/
def NodeTable.frames (table : NodeTable) : List (Option Nat × Bool) :=
  table.entries.toList.map NodeEntry.frame

section Frames

variable {table table' : NodeTable} (h : table'.frames = table.frames)
include h

theorem size_of_frames : table'.size = table.size := by
  simpa [NodeTable.frames, NodeTable.size] using congrArg List.length h

theorem get?_of_frames (id : Nat) : (table'.get? id).map NodeEntry.frame = (table.get? id).map NodeEntry.frame := by
  rw [NodeTable.get?, NodeTable.get?, ← Array.getElem?_toList, ← Array.getElem?_toList, ← List.getElem?_map,
    ← List.getElem?_map]
  exact congrArg (·[id]?) h

theorem parent?_of_frames (id : Nat) : table'.parent? id = table.parent? id := by
  have hparent (table : NodeTable) : table.parent? id = ((table.get? id).map NodeEntry.frame).bind Prod.fst := by
    rw [NodeTable.parent?, Option.bind_map]
    rfl
  rw [hparent, hparent, get?_of_frames h]

theorem isIteration_of_frames (id : Nat) :
    (table'.label id == iterationLabel) = (table.label id == iterationLabel) := by
  have hlabel (table : NodeTable) :
      (table.label id == iterationLabel) = (((table.get? id).map NodeEntry.frame).map Prod.snd).getD false := by
    rw [NodeTable.label]
    cases table.get? id <;> rfl
  rw [hlabel, hlabel, get?_of_frames h]

theorem iteration?_of_frames (id : Nat) : table'.iteration? id = table.iteration? id := by
  have hancestors (bound id : Nat) : table'.ancestorsWithin bound id = table.ancestorsWithin bound id := by
    induction bound generalizing id with
    | zero => rfl
    | succ bound ih => simp only [NodeTable.ancestorsWithin, parent?_of_frames h, ih]
  simp only [NodeTable.iteration?, NodeTable.ancestors, hancestors, size_of_frames h, isIteration_of_frames h]

end Frames

/-! ## Drafts side by side -/

/-- The drafts are the same, places aside, but that `k` warnings of `if:true` are missing from the second. -/
structure Draft.Renamed (k : Nat) (draft draft' : Draft) : Prop where
  frames : draft'.table.frames = draft.table.frames
  slots : draft'.slots.map Prod.fst = draft.slots.map Prod.fst
  diagnostics : Diagnostic.Dropped k draft.diagnostics draft'.diagnostics

namespace Building

variable {α β γ : Type} {j k : Nat} {m m' : Building α} {view : α → γ}

/-- The step loses no diagnostics. -/
def Grows (m : Building α) : Prop :=
  ∀ draft, draft.diagnostics <+: (m.run draft).2.diagnostics

theorem Makes.grows {post : Draft → Nat → Nat → α → Prop} (hm : Makes m post) : Grows m :=
  fun draft => (hm draft).1.diagnostics

/-- Where the first step is taken without an error, the second one follows it in a draft like it: its result looks the
same, and `k` more warnings are missing. -/
structure Follows (k : Nat) (m m' : Building α) (view : α → γ) : Prop where
  grows : Grows m
  agree : ∀ {j : Nat} {draft draft' : Draft}, draft.Renamed j draft' → (m.run draft).2.IsClean →
    (m.run draft).2.Renamed (j + k) (m'.run draft').2 ∧ view (m'.run draft').1 = view (m.run draft).1

theorem Follows.pure {a a' : α} (h : view a' = view a) : Follows 0 (pure a) (pure a') view :=
  ⟨fun _ => List.prefix_refl _, fun hdraft _ => ⟨hdraft, h⟩⟩

/-- A step that follows another, and what comes after it. -/
theorem Follows.bind {δ : Type} {f f' : α → Building β} {view' : β → δ} (hm : Follows j m m' view)
    (hf : ∀ a a', view a' = view a → Follows k (f a) (f' a') view') :
    Follows (j + k) (m >>= f) (m' >>= f') view' := by
  have hgrows (a : α) : Grows (f a) := (hf a a rfl).grows
  refine ⟨fun draft => (hm.grows draft).trans (hgrows _ _), fun {i draft draft'} hdraft hclean => ?_⟩
  have hmiddle := Diagnostic.hasErrors_of_isPrefix (hgrows (m.run draft).1 (m.run draft).2) hclean
  obtain ⟨hdraft, hview⟩ := hm.agree hdraft hmiddle
  exact Nat.add_assoc i j k ▸ (hf _ _ hview).agree hdraft hclean

theorem Follows.map {δ : Type} {f f' : α → β} {view' : β → δ} (hm : Follows k m m' view)
    (hf : ∀ a a', view a' = view a → view' (f' a') = view' (f a)) :
    Follows k (m >>= fun a => Pure.pure (f a)) (m' >>= fun a => Pure.pure (f' a)) view' :=
  hm.bind fun a a' h => .pure (hf a a' h)

theorem Grows.after_note (hm : Grows m) (ds : List Diagnostic) : Grows (note ds >>= fun _ => m) :=
  fun draft => (List.prefix_append _ _).trans (hm { draft with diagnostics := draft.diagnostics ++ ds })

/-- Where errors are noted, there is nothing to follow. -/
theorem Follows.after_errors (hm : Grows m) {ds : List Diagnostic} (hds : Diagnostic.hasErrors ds = true)
    (m' : Building α) : Follows k (note ds >>= fun _ => m) m' view := by
  refine ⟨hm.after_note ds, fun {i draft draft'} _ hclean => ?_⟩
  have hnoted := Diagnostic.hasErrors_of_isPrefix (hm { draft with diagnostics := draft.diagnostics ++ ds }) hclean
  rw [(Diagnostic.hasErrors_append.1 hnoted).2] at hds
  cases hds

theorem Follows.after_note {ds ds' : List Diagnostic} (hds : Diagnostic.Dropped j ds ds')
    (hm : Follows k m m' view) : Follows (j + k) (note ds >>= fun _ => m) (note ds' >>= fun _ => m') view := by
  refine ⟨hm.grows.after_note ds, fun {i draft draft'} hdraft hclean => ?_⟩
  exact Nat.add_assoc i j k ▸ hm.agree { hdraft with diagnostics := hdraft.diagnostics.append hds } hclean

/-- What has to hold where the first step is taken without an error may be assumed. -/
theorem Follows.of_clean {p : Prop} (hm : Grows m) (hp : ∀ draft, (m.run draft).2.IsClean → p)
    (h : p → Follows k m m' view) : Follows k m m' view :=
  ⟨hm, fun hdraft hclean => (h (hp _ hclean)).agree hdraft hclean⟩

theorem Follows.after_report (problems : List Problem) (position position' : Position) (hm : Follows k m m' view) :
    Follows k (report problems position >>= fun _ => m) (report problems position' >>= fun _ => m') view :=
  Nat.zero_add k ▸ hm.after_note (.sameAll problems position position')

theorem Follows.after_allocate (parent : Option Nat) {label label' : String}
    (hlabel : (label' == iterationLabel) = (label == iterationLabel)) (position position' : Position)
    {f f' : Nat → Building α} (hf : ∀ id, Follows k (f id) (f' id) view) :
    Follows k (allocate parent label position >>= f) (allocate parent label' position' >>= f') view := by
  have hrun (label : String) (position : Position) (f : Nat → Building α) (draft : Draft) :
      (allocate parent label position >>= f).run draft =
        (f draft.table.size).run { draft with table := draft.table.push ⟨parent, label, position⟩ } := rfl
  refine ⟨fun draft => hrun label position f draft ▸ (hf draft.table.size).grows
    { draft with table := draft.table.push ⟨parent, label, position⟩ }, fun {i draft draft'} hdraft hclean => ?_⟩
  rw [hrun, hrun, size_of_frames hdraft.frames]
  refine (hf draft.table.size).agree { hdraft with frames := ?_ } hclean
  have hframes := hdraft.frames
  simp only [NodeTable.frames, NodeTable.push, Array.toList_push, List.map_append] at hframes ⊢
  rw [hframes]
  simp [NodeEntry.frame, hlabel]

theorem Follows.after_iterationAround (id : Nat) {f f' : Option Position → Building α}
    (hf : ∀ p? p?', p?'.isSome = p?.isSome → Follows k (f p?) (f' p?') view) :
    Follows k (iterationAround id >>= f) (iterationAround id >>= f') view := by
  refine ⟨fun draft => (hf _ _ rfl).grows _, fun {i draft draft'} hdraft hclean => ?_⟩
  refine (hf _ _ ?_).agree hdraft hclean
  have hentry (id : Nat) : (draft'.table.get? id).isSome = (draft.table.get? id).isSome := by
    rw [← Option.isSome_map, get?_of_frames hdraft.frames, Option.isSome_map]
  rw [iteration?_of_frames hdraft.frames]
  cases draft.table.iteration? id <;> simp [hentry]

theorem lookup_isSome_of_names {slots slots' : List (String × Position)}
    (h : slots'.map Prod.fst = slots.map Prod.fst) (name : String) :
    (slots'.lookup name).isSome = (slots.lookup name).isSome := by
  have hnames (slots : List (String × Position)) :
      (slots.lookup name).isSome = (slots.map Prod.fst).contains name := by
    induction slots with
    | nil => rfl
    | cons slot slots ih =>
      rw [List.lookup_cons, List.map_cons, List.contains_cons]
      cases hslot : name == slot.1 <;> simp [ih]
  rw [hnames, hnames, h]

theorem run_declareSlot (name : String) (position : Position) (m : Building α) (draft : Draft) :
    (declareSlot name position >>= fun _ => m).run draft =
      match draft.slots.lookup name with
      | some first => (report [.duplicateSlot name first] position >>= fun _ => m).run draft
      | none => m.run { draft with slots := draft.slots ++ [(name, position)] } := by
  unfold declareSlot
  simp only [StateT.run_bind, StateT.run_get, pure_bind]
  cases draft.slots.lookup name <;> rfl

theorem Follows.after_declareSlot (name : String) (position position' : Position) (hm : Follows k m m' view) :
    Follows k (declareSlot name position >>= fun _ => m) (declareSlot name position' >>= fun _ => m') view := by
  constructor
  · intro draft
    rw [run_declareSlot]
    split
    · exact hm.grows.after_note _ draft
    · exact hm.grows { draft with slots := draft.slots ++ [(name, position)] }
  · intro i draft draft' hdraft hclean
    have hsome := lookup_isSome_of_names hdraft.slots name
    rw [run_declareSlot] at hclean ⊢
    rw [run_declareSlot]
    cases hlookup : draft.slots.lookup name with
    | some first =>
      rw [hlookup] at hclean
      have hnoted : Follows k (note [(Problem.duplicateSlot name first).diagnostic position] >>= fun _ => m)
          (declareSlot name position' >>= fun _ => m') view := .after_errors hm.grows rfl _
      have hagree := hnoted.agree hdraft hclean
      rwa [run_declareSlot] at hagree
    | none =>
      obtain hnone : draft'.slots.lookup name = none := by simpa [hlookup] using hsome
      rw [hlookup] at hclean
      rw [hnone]
      exact hm.agree { hdraft with slots := by simp [hdraft.slots] } hclean

end Building

open Building

/-! ## Text and comments -/

theorem follows_buildText (place : Place) (text : String) (position position' : Position) :
    Follows 0 (buildText place text position) (buildText place text position') (Option.map Node.unplaced) := by
  unfold buildText
  cases shown place.keepBlanks text with
  | none => exact .pure rfl
  | some visible =>
    dsimp only
    cases splitText visible.toList with
    | error e => exact .after_report _ position position' (.pure rfl)
    | ok parts => exact .after_allocate _ rfl position position' fun id => .pure rfl

theorem follows_buildComment (config : Config) (place : Place) (text : String) (position position' : Position) :
    Follows 0 (buildComment config place text position) (buildComment config place text position')
      (Option.map Node.unplaced) := by
  unfold buildComment
  cases config.preserveComments with
  | false => exact .pure rfl
  | true => exact .after_allocate _ rfl position position' fun id => .pure rfl

/-! ## Elements -/

/-- What is built of an element, its iteration and its condition aside. -/
def buildBare (place : Place) (e : Markup.Element) (directives : Directives) (directed : Bool)
    (body : Place → Building (List Node)) : Building (List Node) := do
  if e.tag = "template" then buildNested place e directives directed body
  else return [← buildTag place e directives body]

theorem buildContent_eq (place : Place) (e : Markup.Element) (directives : Directives)
    (body : Place → Building (List Node)) :
    buildContent place e directives body =
      buildIteration place e.position directives.iteration fun place =>
        buildAlone place e.position directives.condition fun place =>
          buildBare place e directives (directives.condition.isSome || directives.iteration.isSome) body := rfl

/-- The elements differ in nothing but places. -/
structure SameElement (e e' : Markup.Element) : Prop where
  tag : e'.tag = e.tag
  attributes : e'.attributes.map Markup.Attribute.unplaced = e.attributes.map Markup.Attribute.unplaced

theorem dropped_of_unplaced {as as' : List Markup.Attribute}
    (h : as'.map Markup.Attribute.unplaced = as.map Markup.Attribute.unplaced) (problem : Markup.Attribute → Problem) :
    Diagnostic.Dropped 0 (as.map fun a => (problem a.unplaced).diagnostic a.position)
      (as'.map fun a => (problem a.unplaced).diagnostic a.position) := by
  induction as generalizing as' with
  | nil =>
    obtain rfl : as' = [] := List.map_eq_nil_iff.1 h
    exact .nil
  | cons a as ih =>
    obtain ⟨a', as', rfl, ha, has⟩ := List.map_eq_cons_iff.1 h
    simp only [List.map_cons, ha]
    exact (Diagnostic.Dropped.same _ _ _).append (ih has)

section Element

variable {k : Nat} {body body' : Place → Building (List Node)} {e e' : Markup.Element} {directives directives' : Directives}
  (hbody : ∀ place, Follows k (body place) (body' place) unplacedNodes) (he : SameElement e e')
  (hkey : directives'.key = directives.key) (hdynamic : directives'.dynamic = directives.dynamic)
include hbody he hkey hdynamic

theorem follows_buildElement (place : Place) (id : Nat) :
    Follows k (buildElement place id e directives body) (buildElement place id e' directives' body') Node.unplaced := by
  unfold buildElement
  have hproblems : tagProblems place e'.tag directives' = tagProblems place e.tag directives := by
    unfold tagProblems
    rw [he.tag, hkey, hdynamic]
  have hrole : roleOf e'.tag directives' = roleOf e.tag directives := by
    unfold roleOf
    rw [he.tag, hdynamic]
  rw [hproblems, hrole, he.tag, hkey]
  refine .after_report _ e.position e'.position ?_
  have hstart : ElementData.unplaced ⟨e.tag, place.namespaceOf e.tag, [], [], none, none, [], directives.key⟩ =
      ElementData.unplaced ⟨e.tag, place.namespaceOf e.tag, [], [], none, none, [], directives.key⟩ := rfl
  obtain ⟨hdata, hdropped⟩ := addAll_same (Markup.isCustomName e.tag) hstart he.attributes
  refine Nat.zero_add k ▸ Follows.after_note hdropped ?_
  refine (hbody _).map fun children children' h => ?_
  simp only [Node.unplaced]
  rw [h, hdata]

theorem follows_buildSlot (place : Place) (id : Nat) :
    Follows k (buildSlot place id e directives body) (buildSlot place id e' directives' body') Node.unplaced := by
  obtain ⟨hname, hattributes, hdropped⟩ := @slotAttributes_same _ _ he.attributes "" [] [] rfl
  have hrest : Follows k (do
      note (slotAttributes "" [] e.attributes).2.2
      declareSlot (slotAttributes "" [] e.attributes).1 e.position
      let children ← body (place.below id)
      return Node.slot id e.position (slotAttributes "" [] e.attributes).1 (slotAttributes "" [] e.attributes).2.1
        children) (do
      note (slotAttributes "" [] e'.attributes).2.2
      declareSlot (slotAttributes "" [] e'.attributes).1 e'.position
      let children ← body' (place.below id)
      return Node.slot id e'.position (slotAttributes "" [] e'.attributes).1 (slotAttributes "" [] e'.attributes).2.1
        children) Node.unplaced := by
    rw [hname]
    refine Nat.zero_add k ▸ Follows.after_note hdropped (.after_declareSlot _ e.position e'.position ?_)
    refine (hbody _).map fun children children' h => ?_
    simp only [Node.unplaced]
    rw [h, hattributes]
  have hdirective : Follows k (do
      if directives.key.isSome || directives.dynamic.isSome then report [.slotDirective] e.position
      note (slotAttributes "" [] e.attributes).2.2
      declareSlot (slotAttributes "" [] e.attributes).1 e.position
      let children ← body (place.below id)
      return Node.slot id e.position (slotAttributes "" [] e.attributes).1 (slotAttributes "" [] e.attributes).2.1
        children) (do
      if directives.key.isSome || directives.dynamic.isSome then report [.slotDirective] e'.position
      note (slotAttributes "" [] e'.attributes).2.2
      declareSlot (slotAttributes "" [] e'.attributes).1 e'.position
      let children ← body' (place.below id)
      return Node.slot id e'.position (slotAttributes "" [] e'.attributes).1 (slotAttributes "" [] e'.attributes).2.1
        children) Node.unplaced := by
    by_cases hdirective : (directives.key.isSome || directives.dynamic.isSome) = true
    · simp only [hdirective, if_true]
      exact .after_report _ e.position e'.position hrest
    · simp only [hdirective]
      exact hrest
  unfold buildSlot
  rw [hkey, hdynamic]
  refine .after_iterationAround id fun p? p?' hp => ?_
  cases p? with
  | some p => exact .after_errors hdirective.grows rfl _
  | none =>
    obtain rfl : p?' = none := by simpa using hp
    exact hdirective

/-- An element is built from its children alike. -/
theorem follows_buildTag (place : Place) :
    Follows k (buildTag place e directives body) (buildTag place e' directives' body') Node.unplaced := by
  unfold buildTag
  rw [he.tag]
  by_cases htag : e.tag = "slot"
  · simp only [htag, if_true]
    exact .after_allocate _ rfl e.position e'.position fun id => follows_buildSlot hbody he hkey hdynamic place id
  · simp only [htag, if_false]
    exact .after_allocate _ rfl e.position e'.position fun id => follows_buildElement hbody he hkey hdynamic place id

theorem follows_buildNested (place : Place) (directed : Bool) :
    Follows k (buildNested place e directives directed body) (buildNested place e' directives' directed body')
      unplacedNodes := by
  unfold buildNested nestedProblems
  rw [hkey, hdynamic]
  refine .after_report _ e.position e'.position (Nat.zero_add k ▸ Follows.after_note ?_ (hbody place))
  exact dropped_of_unplaced he.attributes fun a => .templateAttribute a.unplaced.name

theorem follows_buildBare (place : Place) (directed : Bool) :
    Follows k (buildBare place e directives directed body) (buildBare place e' directives' directed body')
      unplacedNodes := by
  unfold buildBare
  rw [he.tag]
  by_cases htag : e.tag = "template"
  · simp only [htag, if_true]
    exact follows_buildNested hbody he hkey hdynamic place directed
  · simp only [htag, if_false]
    refine (follows_buildTag hbody he hkey hdynamic place).map fun n n' h => ?_
    simp only [unplacedNodes, h]

omit he hkey hdynamic

theorem follows_buildIteration (place : Place) (position position' : Position) (loop : Option Iteration) :
    Follows k (buildIteration place position loop body) (buildIteration place position' loop body') unplacedNodes := by
  unfold buildIteration
  cases loop with
  | none => exact hbody place
  | some loop =>
    refine .after_allocate _ rfl position position' fun id => (hbody (place.iterated id)).map fun nodes nodes' h => ?_
    simp only [unplacedNodes, Node.unplaced, h]

theorem follows_buildAlone (place : Place) (position position' : Position) (condition : Option Condition) :
    Follows k (buildAlone place position condition body) (buildAlone place position' condition body') unplacedNodes := by
  unfold buildAlone
  rcases condition with _ | ⟨test, negate⟩ | _ | _ | _
  case some.alone =>
    refine .after_allocate _ rfl position position' fun id => (hbody (place.within id)).map fun nodes nodes' h => ?_
    simp only [unplacedNodes, Node.unplaced, Chain.unplaced, h]
  all_goals exact hbody place

include he in
/-- The content of an element with the same directives is built alike. -/
theorem follows_buildContent (hd : directives.Renamed 0 directives') (place : Place) :
    Follows k (buildContent place e directives body) (buildContent place e' directives' body') unplacedNodes := by
  obtain ⟨-, hcondition⟩ | ⟨hzero, -⟩ := hd.condition
  case inr => cases hzero
  rw [buildContent_eq, buildContent_eq, hd.iteration, hcondition]
  refine follows_buildIteration (fun place => ?_) place _ _ _
  refine follows_buildAlone (fun place => ?_) place _ _ _
  exact follows_buildBare hbody he hd.key hd.dynamic place _

end Element

/-! ## Siblings -/

/-- What is kept of siblings: their branches and nodes, places aside. -/
def siblingsView (siblings : Chain × List Node) : Chain × List Node :=
  (siblings.1.unplaced, unplacedNodes siblings.2)

section Alone

variable {directives : Directives} {test : Expr} (hloop : directives.iteration = none) (place : Place)
  (e : Markup.Element) (body : Place → Building (List Node))
include hloop

/-- A condition that stands alone is built with the content. -/
theorem buildContent_alone (hcondition : directives.condition = some (.alone test false)) :
    buildContent place e directives body = (do
      let id ← allocate place.parent "if:true" e.position
      let nodes ← buildBare (place.within id) e directives true body
      return [.conditional id e.position (.branch test false nodes .done)]) := by
  rw [buildContent_eq, hloop, hcondition]
  rfl

/-- A condition that starts a chain is not. -/
theorem buildContent_first (hcondition : directives.condition = some (.first test)) :
    buildContent place e directives body = buildBare place e directives true body := by
  rw [buildContent_eq, hloop, hcondition]
  rfl

end Alone

/-- No branch comes out of siblings that no chain is open for. -/
theorem bind_siblings_congr {α : Type} (config : Config) (place : Place) (docs : List Markup.Node)
    {f g : Chain × List Node → α} (h : ∀ nodes, f (.done, nodes) = g (.done, nodes)) :
    (do return f (← buildSiblings config place none docs)) =
      (do return g (← buildSiblings config place none docs) : Building α) := by
  funext draft
  have hdone := ((makes_buildSiblings config place none docs draft).2 _ (.refl _)).chain_eq_done
  have hrun (f : Chain × List Node → α) :
      (do return f (← buildSiblings config place none docs) : Building α) draft =
        (f ((buildSiblings config place none docs).run draft).1, ((buildSiblings config place none docs).run draft).2) := rfl
  rw [hrun, hrun]
  generalize (buildSiblings config place none docs).run draft = result at hdone
  obtain ⟨⟨chain, nodes⟩, later⟩ := result
  obtain rfl : chain = .done := hdone
  rw [h]

/-- What comes behind the first sibling is built alike. -/
theorem follows_behind {config : Config} {place : Place} {k : Nat} {chain? chain?' : Option Nat}
    {rest rest' : List Markup.Node} {step step' : Building (Option Node)}
    (hstep : Follows 0 step step' (Option.map Node.unplaced))
    (hrest : ∀ chain? chain?', chain?' = chain? ∨ chain? = none →
      Follows k (buildSiblings config place chain? rest) (buildSiblings config place chain?' rest') siblingsView)
    (hchain : chain?' = chain? ∨ chain? = none) :
    Follows k (do
        match ← step with
        | none => buildSiblings config place chain? rest
        | some n => return (.done, n :: (← buildSiblings config place none rest).2))
      (do
        match ← step' with
        | none => buildSiblings config place chain?' rest'
        | some n => return (.done, n :: (← buildSiblings config place none rest').2)) siblingsView := by
  refine Nat.zero_add k ▸ hstep.bind fun n? n?' h => ?_
  cases n? with
  | none =>
    obtain rfl : n?' = none := by simpa using h
    exact hrest _ _ hchain
  | some n =>
    obtain ⟨n', rfl, hn⟩ : ∃ n', n?' = some n' ∧ n'.unplaced = n.unplaced := by simpa using h
    refine (hrest none none (.inl rfl)).map fun more more' hmore => ?_
    have hnodes : unplacedNodes more'.2 = unplacedNodes more.2 := congrArg Prod.snd hmore
    simp only [siblingsView, unplacedNodes, hn, hnodes]

theorem follows_buildChildren {config : Config} {k : Nat} {e e' : Markup.Element} {children children' : List Markup.Node}
    (h : ∀ place, Follows k (buildSiblings config place none children) (buildSiblings config place none children')
      siblingsView) (place : Place) :
    Follows k (buildChildren config place (.element e children)) (buildChildren config place (.element e' children'))
      unplacedNodes := by
  unfold buildChildren
  exact (h place).map fun siblings siblings' hsiblings => congrArg Prod.snd hsiblings

theorem hasErrors_read_of_isClean {config : Config} {place : Place} {chain? : Option Nat} {e : Markup.Element}
    {children rest : List Markup.Node} {draft : Draft}
    (h : ((buildSiblings config place chain? (.element e children :: rest)).run draft).2.IsClean) :
    Diagnostic.hasErrors (Directives.read place.inIteration e.attributes).2.2 = false := by
  have hread := ((makes_buildSiblings config place chain? (.element e children :: rest) draft).2 _ (.refl _)).joins.1
  exact List.any_eq_false.2 fun d hd => by simpa using h.not_error (hread hd)

/-- Siblings of which some are renamed are built alike. Where no chain is open in the first document, one may be open in
the second. -/
theorem follows_buildSiblings (config : Config) (docs : List Markup.Node) {docs' : List Markup.Node} {k : Nat}
    (h : Markup.NodesRenamed Markup.Element.IsOnce k docs docs') (place : Place) {chain? chain?' : Option Nat}
    (hchain : chain?' = chain? ∨ chain? = none) :
    Follows k (buildSiblings config place chain? docs) (buildSiblings config place chain?' docs') siblingsView := by
  induction docs using siblings_induction generalizing k docs' place chain? chain?' with
  | nil =>
    cases h
    unfold buildSiblings
    exact .pure rfl
  | text text position rest ih =>
    cases h with
    | cons head tail =>
      cases head with
      | text _ _ position' =>
        unfold buildSiblings
        rw [Nat.zero_add]
        exact follows_behind (follows_buildText place text position position')
          (fun _ _ hchain => ih tail place hchain) hchain
  | comment text position rest ih =>
    cases h with
    | cons head tail =>
      cases head with
      | comment _ _ position' =>
        unfold buildSiblings
        rw [Nat.zero_add]
        exact follows_behind (follows_buildComment config place text position position')
          (fun _ _ hchain => ih tail place hchain) hchain
  | element e children rest ihchildren ihrest =>
    cases h with
    | cons head tail =>
      cases head with
      | @element j k _ e' _ children' tag content =>
        refine .of_clean (makes_buildSiblings config place chain? _).grows
          (fun draft => hasErrors_read_of_isClean) fun hclean => ?_
        have hread := Directives.read_renamed tag place.inIteration hclean
        have hrest {chain? chain?' : Option Nat} (hchain : chain?' = chain? ∨ chain? = none) :=
          ihrest tail place hchain
        have hchildren := @follows_buildChildren _ _ e e' _ _ fun place => ihchildren content place (.inl rfl)
        unfold buildSiblings
        rw [Nat.add_assoc]
        generalize Directives.read place.inIteration e.attributes = read at hread
        generalize Directives.read place.inIteration e'.attributes = read' at hread
        obtain ⟨directives, attributes, diagnostics⟩ := read
        obtain ⟨directives', attributes', diagnostics'⟩ := read'
        obtain ⟨hdirectives, hattributes, hdiagnostics⟩ := hread
        dsimp only at hdirectives hattributes hdiagnostics ⊢
        have hsame : SameElement { e with attributes } { e' with attributes := attributes' } := ⟨tag.tag, hattributes⟩
        refine .after_note hdiagnostics ?_
        obtain ⟨rfl, hcondition⟩ | ⟨rfl, test, halone, hfirst⟩ := hdirectives.condition
        · have hcontent := follows_buildContent hchildren hsame hdirectives
          rw [hcondition]
          rcases directives.condition with _ | ⟨test, negate⟩ | test | test | _
          case some.first =>
            refine .after_allocate _ rfl e.position e'.position fun id => (hcontent _).bind fun body body' hbody => ?_
            refine (hrest (.inl rfl)).map fun more more' hmore => ?_
            obtain ⟨hmore, hnodes⟩ := Prod.mk.inj hmore
            simp only [siblingsView, unplacedNodes, Node.unplaced, Chain.unplaced, hbody, hmore, hnodes]
          case some.next =>
            cases chain? with
            | none => exact .after_errors ((hcontent place).bind fun _ _ _ => hrest (.inl rfl)).grows rfl _
            | some id =>
              obtain rfl : chain?' = some id := by simpa using hchain
              refine (hcontent _).bind fun body body' hbody => (hrest (.inl rfl)).map fun more more' hmore => ?_
              obtain ⟨hmore, hnodes⟩ := Prod.mk.inj hmore
              simp only [siblingsView, Chain.unplaced, hbody, hmore, hnodes]
          case some.last =>
            cases chain? with
            | none => exact .after_errors ((hcontent place).bind fun _ _ _ => hrest (.inl rfl)).grows rfl _
            | some id =>
              obtain rfl : chain?' = some id := by simpa using hchain
              refine (hcontent _).bind fun body body' hbody => (hrest (.inl rfl)).map fun more more' hmore => ?_
              obtain ⟨-, hnodes⟩ := Prod.mk.inj hmore
              simp only [siblingsView, Chain.unplaced, hbody, hnodes]
          all_goals
            refine (hcontent _).bind fun body body' hbody => (hrest (.inl rfl)).map fun more more' hmore => ?_
            obtain ⟨-, hnodes⟩ := Prod.mk.inj hmore
            simp only [siblingsView, unplacedNodes_append, Chain.unplaced, hbody, hnodes]
        · have hbare := follows_buildBare hchildren hsame hdirectives.key hdirectives.dynamic
          have hloop := hdirectives.once Nat.one_ne_zero
          simp only [halone, hfirst, buildContent_alone hloop _ _ _ halone,
            buildContent_first (hdirectives.iteration.trans hloop) _ _ _ hfirst, bind_assoc, pure_bind]
          have hlabel : ("lwc:if" == iterationLabel) = ("if:true" == iterationLabel) := by decide
          refine .after_allocate _ hlabel e.position e'.position fun id => (hbare _ true).bind fun body body' hbody => ?_
          -- The chain that is open in the second document stays as it is: what goes on with it is an error in the first.
          rw [bind_siblings_congr config place rest (g := fun more =>
            (.done, .conditional id e.position (.branch test false body more.1) :: more.2)) fun _ => rfl]
          refine (hrest (.inr rfl)).map fun more more' hmore => ?_
          obtain ⟨hmore, hnodes⟩ := Prod.mk.inj hmore
          simp only [siblingsView, unplacedNodes, Node.unplaced, Chain.unplaced, hbody, hmore, hnodes]

end TemplateCompiler.Template
