import TemplateCompiler.Template.Build
/-!
# What a document is built into

`SiblingsBecome` says which branches and which nodes the siblings of a document become, with no reference to the state
that is threaded through the building: the numbers of the nodes are counted from `low` on and end below `high`, and what
is noted on the way, in the table and among the diagnostics, is noted in the draft `final` that the building ends with.
`makes_buildSiblings` shows that a building makes such branches and nodes, whatever it goes on with.
-/

namespace TemplateCompiler.Template

open TemplateCompiler.Text TemplateCompiler.Binding

/-! ## Drafts that grow -/

/-- A draft only gains nodes and diagnostics on its way to a later one. -/
structure Draft.GrowsTo (draft later : Draft) : Prop where
  entries : draft.table.entries.toList <+: later.table.entries.toList
  diagnostics : draft.diagnostics <+: later.diagnostics

theorem Draft.GrowsTo.refl (draft : Draft) : draft.GrowsTo draft :=
  ⟨List.prefix_refl _, List.prefix_refl _⟩

theorem Draft.GrowsTo.trans {draft later last : Draft} (h : draft.GrowsTo later) (h' : later.GrowsTo last) :
    draft.GrowsTo last :=
  ⟨h.entries.trans h'.entries, h.diagnostics.trans h'.diagnostics⟩

/-- A problem is among the diagnostics of the draft. -/
def Draft.Reports (draft : Draft) (problem : Problem) (position : Position) : Prop :=
  problem.diagnostic position ∈ draft.diagnostics

/-- Nothing keeps the template from being compiled. -/
def Draft.IsClean (draft : Draft) : Prop :=
  Diagnostic.hasErrors draft.diagnostics = false

theorem Draft.IsClean.not_error {draft : Draft} (h : draft.IsClean) {d : Diagnostic} (hd : d ∈ draft.diagnostics) :
    d.isError = false := by
  unfold Draft.IsClean Diagnostic.hasErrors at h
  simpa using List.any_eq_false.1 h d hd

/-- A clean draft reports no problem that is an error. -/
theorem Draft.IsClean.not_reports {draft : Draft} (h : draft.IsClean) {problem : Problem} {position : Position}
    (herror : problem.code.severity = .error) : ¬ draft.Reports problem position := by
  intro hreports
  have := h.not_error hreports
  simp [Diagnostic.isError, Problem.diagnostic, herror] at this

/-! ## Steps -/

namespace Building

variable {α β : Type}

/-- Wherever the step is taken and whatever comes after it, `post` holds of the draft in the end, of the numbers of
nodes before and behind the step, and of its result. -/
def Makes (m : Building α) (post : Draft → Nat → Nat → α → Prop) : Prop :=
  ∀ draft, draft.GrowsTo (m.run draft).2 ∧ ∀ final, (m.run draft).2.GrowsTo final →
    post final draft.table.size (m.run draft).2.table.size (m.run draft).1

theorem Makes.pure (a : α) : Makes (pure a) fun _ low high b => low = high ∧ b = a :=
  fun draft => ⟨.refl draft, fun _ _ => ⟨rfl, rfl⟩⟩

theorem Makes.weaken {m : Building α} {post post' : Draft → Nat → Nat → α → Prop} (hm : Makes m post)
    (h : ∀ final low high a, post final low high a → post' final low high a) : Makes m post' :=
  fun draft => ⟨(hm draft).1, fun final hgrows => h _ _ _ _ ((hm draft).2 final hgrows)⟩

/-- What a step makes, and then what the step after it makes. -/
theorem Makes.bind {m : Building α} {k : α → Building β} {P : Draft → Nat → Nat → α → Prop}
    {Q : α → Draft → Nat → Nat → β → Prop} (hm : Makes m P) (hk : ∀ a, Makes (k a) (Q a)) :
    Makes (m >>= k) fun final low high b => ∃ a middle, P final low middle a ∧ Q a final middle high b := by
  intro draft
  obtain ⟨hgrows, hmid⟩ := hm draft
  obtain ⟨hgrows', hpost⟩ := hk (m.run draft).1 (m.run draft).2
  exact ⟨hgrows.trans hgrows', fun final hfinal => ⟨_, _, hmid final (hgrows'.trans hfinal), hpost final hfinal⟩⟩

/-- What a step makes, and what is then made of its result. -/
theorem Makes.map {m : Building α} {post : Draft → Nat → Nat → α → Prop} (f : α → β) (hm : Makes m post) :
    Makes (m >>= fun a => Pure.pure (f a)) fun final low high b => ∃ a, post final low high a ∧ b = f a :=
  fun draft => ⟨(hm draft).1, fun final hgrows => ⟨_, (hm draft).2 final hgrows, rfl⟩⟩

theorem Makes.after_note (diagnostics : List Diagnostic) {m : Building α} {post : Draft → Nat → Nat → α → Prop}
    (hm : Makes m post) :
    Makes (note diagnostics >>= fun _ => m) fun final low high a =>
      diagnostics ⊆ final.diagnostics ∧ post final low high a := by
  intro draft
  obtain ⟨hgrows, hpost⟩ := hm ((note diagnostics).run draft).2
  have hnoted : draft.GrowsTo ((note diagnostics).run draft).2 := ⟨List.prefix_refl _, List.prefix_append _ _⟩
  refine ⟨hnoted.trans hgrows, fun final hfinal => ⟨fun d hd => ?_, hpost final hfinal⟩⟩
  exact (hgrows.trans hfinal).diagnostics.subset (List.mem_append_right _ hd)

theorem Makes.after_report (problems : List Problem) (position : Position) {m : Building α}
    {post : Draft → Nat → Nat → α → Prop} (hm : Makes m post) :
    Makes (report problems position >>= fun _ => m) fun final low high a =>
      (∀ problem ∈ problems, final.Reports problem position) ∧ post final low high a :=
  (hm.after_note _).weaken fun _ _ _ _ h => ⟨fun _ hproblem => h.1 (List.mem_map_of_mem hproblem), h.2⟩

/-- A new node has the next number, and its entry stays in the table. -/
theorem Makes.after_allocate (parent : Option Nat) (label : String) (position : Position) {k : Nat → Building α}
    {post : Nat → Draft → Nat → Nat → α → Prop} (hk : ∀ id, Makes (k id) (post id)) :
    Makes (allocate parent label position >>= k) fun final low high a =>
      final.table.get? low = some ⟨parent, label, position⟩ ∧ post low final (low + 1) high a := by
  intro draft
  obtain ⟨hgrows, hpost⟩ := hk draft.table.size ((allocate parent label position).run draft).2
  have hentries : ((allocate parent label position).run draft).2.table.entries.toList =
      draft.table.entries.toList ++ [⟨parent, label, position⟩] :=
    Array.toList_push
  have hsize : ((allocate parent label position).run draft).2.table.size = draft.table.size + 1 :=
    Array.size_push ..
  have hadded : draft.GrowsTo ((allocate parent label position).run draft).2 :=
    ⟨hentries ▸ List.prefix_append _ _, List.prefix_refl _⟩
  refine ⟨hadded.trans hgrows, fun final hfinal => ⟨?_, hsize ▸ hpost final hfinal⟩⟩
  obtain ⟨more, hmore⟩ := (hgrows.trans hfinal).entries
  rw [hentries] at hmore
  rw [NodeTable.get?, NodeTable.size, ← Array.getElem?_toList, ← hmore, ← Array.length_toList, List.append_assoc,
    List.getElem?_append_right (Nat.le_refl _), Nat.sub_self]
  rfl

theorem Makes.after_declareSlot (name : String) (position : Position) {m : Building α}
    {post : Draft → Nat → Nat → α → Prop} (hm : Makes m post) :
    Makes (declareSlot name position >>= fun _ => m) post := by
  intro draft
  have htable : ((declareSlot name position).run draft).2.table = draft.table := by
    unfold declareSlot
    simp only [StateT.run_bind, StateT.run_get, pure_bind]
    split <;> rfl
  have hdeclared : draft.GrowsTo ((declareSlot name position).run draft).2 := by
    refine ⟨htable ▸ List.prefix_refl _, ?_⟩
    unfold declareSlot
    simp only [StateT.run_bind, StateT.run_get, pure_bind]
    split
    · exact List.prefix_append _ _
    · exact List.prefix_refl _
  obtain ⟨hgrows, hpost⟩ := hm ((declareSlot name position).run draft).2
  exact ⟨hdeclared.trans hgrows, fun final hfinal => htable ▸ hpost final hfinal⟩

theorem Makes.after_iterationAround (id : Nat) {k : Option Position → Building α}
    {post : Draft → Nat → Nat → α → Prop} (hk : ∀ iteration?, Makes (k iteration?) post) :
    Makes (iterationAround id >>= k) post :=
  fun draft => hk _ draft

end Building

open Building

/-! ## What elements become -/

/-- What the content of an element becomes at a place, with numbers from the first one on and below the second. -/
abbrev Content := Place → Nat → Nat → List Node → Prop

section Parts

variable (final : Draft) (place : Place)

/-- A text becomes a node, if anything of it is shown. -/
def TextBecomes (text : String) (position : Position) (low high : Nat) (n? : Option Node) : Prop :=
  match shown place.keepBlanks text with
  | none => low = high ∧ n? = none
  | some visible =>
    match splitText visible.toList with
    | .error (_, error) => low = high ∧ n? = none ∧ final.Reports (.text error) position
    | .ok parts =>
      high = low + 1 ∧ final.table.get? low = some ⟨place.parent, "#text", position⟩ ∧
        n? = some (.text low position parts)

/-- A comment becomes a node, if comments are preserved. -/
def CommentBecomes (config : Config) (text : String) (position : Position) (low high : Nat) (n? : Option Node) :
    Prop :=
  if config.preserveComments then
    high = low + 1 ∧ final.table.get? low = some ⟨place.parent, "#comment", position⟩ ∧
      n? = some (.comment low position text)
  else low = high ∧ n? = none

/-- The element with the number `id` that is no slot becomes a node. -/
def ElementBecomes (id : Nat) (e : Markup.Element) (directives : Directives) (body : Content) (low high : Nat)
    (n : Node) : Prop :=
  let data := ElementData.addAll ⟨e.tag, place.namespaceOf e.tag, [], [], none, none, [], directives.key⟩
    (Markup.isCustomName e.tag) e.attributes
  (∀ problem ∈ tagProblems place e.tag directives, final.Reports problem e.position) ∧
    data.2 ⊆ final.diagnostics ∧ ∃ children, body (place.belowElement id e.tag) low high children ∧
      n = .element id e.position (roleOf e.tag directives) data.1 children

/-- The slot with the number `id` becomes a node. -/
def SlotBecomes (id : Nat) (e : Markup.Element) (directives : Directives) (body : Content) (low high : Nat)
    (n : Node) : Prop :=
  let slot := slotAttributes "" [] e.attributes
  ((directives.key.isSome || directives.dynamic.isSome) = true → final.Reports .slotDirective e.position) ∧
    slot.2.2 ⊆ final.diagnostics ∧ ∃ children, body (place.below id) low high children ∧
      n = .slot id e.position slot.1 slot.2.1 children

/-- An element or a slot becomes a node with the number `low`. -/
def TagBecomes (e : Markup.Element) (directives : Directives) (body : Content) (low high : Nat) (n : Node) : Prop :=
  final.table.get? low = some ⟨place.parent, "<" ++ e.tag ++ ">", e.position⟩ ∧
    if e.tag = "slot" then SlotBecomes final place low e directives body (low + 1) high n
    else ElementBecomes final place low e directives body (low + 1) high n

/-- A nested `template` element becomes what its content becomes. -/
def NestedBecomes (e : Markup.Element) (directives : Directives) (body : Content) (low high : Nat)
    (nodes : List Node) : Prop :=
  (∀ problem ∈ nestedProblems (directives.condition.isSome || directives.iteration.isSome) directives,
      final.Reports problem e.position) ∧
    (e.attributes.map fun a => (Problem.templateAttribute a.name).diagnostic a.position) ⊆ final.diagnostics ∧
    body place low high nodes

/-- The iteration around what `inner` says, if there is one. -/
def IterationBecomes (position : Position) (loop : Option Iteration) (inner : Content) (low high : Nat)
    (nodes : List Node) : Prop :=
  match loop with
  | none => inner place low high nodes
  | some loop =>
    ∃ children, final.table.get? low = some ⟨place.parent, iterationLabel, position⟩ ∧
      inner (place.iterated low) (low + 1) high children ∧ nodes = [.iteration low position loop children]

/-- The conditional of one branch around what `inner` says, if the condition makes one by itself. -/
def AloneBecomes (position : Position) (condition : Option Condition) (inner : Content) (low high : Nat)
    (nodes : List Node) : Prop :=
  match condition with
  | some (.alone test negate) =>
    ∃ children, final.table.get? low = some ⟨place.parent, if negate then "if:false" else "if:true", position⟩ ∧
      inner (place.within low) (low + 1) high children ∧
      nodes = [.conditional low position (.branch test negate children .done)]
  | _ => inner place low high nodes

/-- What an element becomes, its iteration and its condition aside. -/
def BareBecomes (e : Markup.Element) (directives : Directives) (body : Content) (low high : Nat)
    (nodes : List Node) : Prop :=
  if e.tag = "template" then NestedBecomes final place e directives body low high nodes
  else ∃ n, TagBecomes final place e directives body low high n ∧ nodes = [n]

/-- What an element becomes, its iteration aside and a condition that joins it to its siblings. -/
def OnceBecomes (e : Markup.Element) (directives : Directives) (body : Content) (low high : Nat)
    (nodes : List Node) : Prop :=
  AloneBecomes final place e.position directives.condition
    (fun place => BareBecomes final place e directives body) low high nodes

/-- What an element becomes, a condition that joins it to its siblings aside. -/
def ContentBecomes (e : Markup.Element) (directives : Directives) (body : Content) (low high : Nat)
    (nodes : List Node) : Prop :=
  IterationBecomes final place e.position directives.iteration
    (fun place => OnceBecomes final place e directives body) low high nodes

end Parts

/-! ## What siblings become -/

/-- What holds of no siblings, and of siblings if it holds of those behind the first one and of what is in that, holds
of all siblings. -/
@[elab_as_elim]
theorem siblings_induction {motive : List Markup.Node → Prop} (nil : motive [])
    (text : ∀ text position rest, motive rest → motive (.text text position :: rest))
    (comment : ∀ text position rest, motive rest → motive (.comment text position :: rest))
    (element : ∀ e children rest, motive children → motive rest → motive (.element e children :: rest))
    (docs : List Markup.Node) : motive docs := by
  -- Of a node by itself, it is what is in it that counts.
  refine @Markup.Node.rec_1 (fun n => ∀ rest, motive rest → motive (n :: rest)) motive ?_ ?_ ?_ nil ?_ docs
  · exact fun e children ih rest => element e children rest ih
  · exact fun content position rest => text content position rest
  · exact fun content position rest => comment content position rest
  · exact fun n rest hn ih => hn rest ih

section Siblings

variable (config : Config) (final : Draft)

mutual

/-- What the children of a node of the document become. -/
def ChildrenBecome : Markup.Node → Content
  | .element _ children, place, low, high, nodes =>
    ∃ chain, SiblingsBecome place none children low high (chain, nodes)
  | .text _ _, _, low, high, nodes => low = high ∧ nodes = []
  | .comment _ _, _, low, high, nodes => low = high ∧ nodes = []

/-- The branches that the first siblings add to the conditional `chain?`, which stands right before them, and the
nodes that the siblings after those become. -/
def SiblingsBecome (place : Place) (chain? : Option Nat) : List Markup.Node → Nat → Nat → Chain × List Node → Prop
  | [], low, high, siblings => low = high ∧ siblings = (.done, [])
  | .text text position :: rest, low, high, siblings =>
    ∃ n? middle, TextBecomes final place text position low middle n? ∧
      match n? with
      | none => SiblingsBecome place chain? rest middle high siblings
      | some n => ∃ more, SiblingsBecome place none rest middle high more ∧ siblings = (.done, n :: more.2)
  | .comment text position :: rest, low, high, siblings =>
    ∃ n? middle, CommentBecomes final place config text position low middle n? ∧
      match n? with
      | none => SiblingsBecome place chain? rest middle high siblings
      | some n => ∃ more, SiblingsBecome place none rest middle high more ∧ siblings = (.done, n :: more.2)
  | .element e children :: rest, low, high, siblings =>
    let read := Directives.read place.inIteration e.attributes
    let content (place : Place) := ContentBecomes final place { e with attributes := read.2.1 } read.1
      (ChildrenBecome (.element e children))
    read.2.2 ⊆ final.diagnostics ∧
      match read.1.condition, chain? with
      | some (.first test), _ =>
        ∃ body middle more, final.table.get? low = some ⟨place.parent, "lwc:if", e.position⟩ ∧
          content (place.within low) (low + 1) middle body ∧ SiblingsBecome place (some low) rest middle high more ∧
          siblings = (.done, .conditional low e.position (.branch test false body more.1) :: more.2)
      | some (.next test), some id =>
        ∃ body middle more, content (place.within id) low middle body ∧
          SiblingsBecome place (some id) rest middle high more ∧
          siblings = (.branch test false body more.1, more.2)
      | some .last, some id =>
        ∃ body middle more, content (place.within id) low middle body ∧
          SiblingsBecome place none rest middle high more ∧ siblings = (.otherwise body, more.2)
      | some (.next _), none =>
        ∃ body middle, final.Reports (.branchWithoutIf false) e.position ∧ content place low middle body ∧
          SiblingsBecome place none rest middle high siblings
      | some .last, none =>
        ∃ body middle, final.Reports (.branchWithoutIf true) e.position ∧ content place low middle body ∧
          SiblingsBecome place none rest middle high siblings
      | _, _ =>
        ∃ body middle more, content place low middle body ∧ SiblingsBecome place none rest middle high more ∧
          siblings = (.done, body ++ more.2)

end

/-- What an element becomes at a place, a condition that joins it to its siblings aside. Its directives are read where
the siblings stand. -/
def ElementContent (inIteration : Bool) (e : Markup.Element) (children : List Markup.Node) : Content :=
  fun place => ContentBecomes final place { e with attributes := (Directives.read inIteration e.attributes).2.1 }
    (Directives.read inIteration e.attributes).1 (ChildrenBecome config final (.element e children))

/-- The ways in which an element that `rest` follows becomes a part of what its siblings become. -/
inductive Joins (place : Place) (e : Markup.Element) (children rest : List Markup.Node) (low high : Nat) :
    Option Nat → Chain × List Node → Prop where
  /-- It starts a conditional. -/
  | first {chain? : Option Nat} {test : Expr} {body : List Node} {middle : Nat} {more : Chain × List Node}
      (condition : (Directives.read place.inIteration e.attributes).1.condition = some (.first test))
      (entry : final.table.get? low = some ⟨place.parent, "lwc:if", e.position⟩)
      (content : ElementContent config final place.inIteration e children (place.within low) (low + 1) middle body)
      (others : SiblingsBecome config final place (some low) rest middle high more) :
      Joins place e children rest low high chain?
        (.done, .conditional low e.position (.branch test false body more.1) :: more.2)
  /-- It adds a branch with a test. -/
  | next {id : Nat} {test : Expr} {body : List Node} {middle : Nat} {more : Chain × List Node}
      (condition : (Directives.read place.inIteration e.attributes).1.condition = some (.next test))
      (content : ElementContent config final place.inIteration e children (place.within id) low middle body)
      (others : SiblingsBecome config final place (some id) rest middle high more) :
      Joins place e children rest low high (some id) (.branch test false body more.1, more.2)
  /-- It adds the last branch. -/
  | last {id : Nat} {body : List Node} {middle : Nat} {nodes : List Node}
      (condition : (Directives.read place.inIteration e.attributes).1.condition = some .last)
      (content : ElementContent config final place.inIteration e children (place.within id) low middle body)
      (others : SiblingsBecome config final place none rest middle high (.done, nodes)) :
      Joins place e children rest low high (some id) (.otherwise body, nodes)
  /-- It would add a branch to a conditional that is not there. -/
  | stray {isElse : Bool} {body : List Node} {middle : Nat} {siblings : Chain × List Node}
      (condition : ∃ condition, (Directives.read place.inIteration e.attributes).1.condition = some condition ∧
        match condition with
        | .next _ => isElse = false
        | .last => isElse = true
        | _ => False)
      (report : final.Reports (.branchWithoutIf isElse) e.position)
      (content : ElementContent config final place.inIteration e children place low middle body)
      (others : SiblingsBecome config final place none rest middle high siblings) :
      Joins place e children rest low high none siblings
  /-- It has nothing to do with its siblings. -/
  | apart {chain? : Option Nat} {body : List Node} {middle : Nat} {nodes : List Node}
      (condition : ∀ condition, (Directives.read place.inIteration e.attributes).1.condition = some condition →
        ∃ test negate, condition = .alone test negate)
      (content : ElementContent config final place.inIteration e children place low middle body)
      (others : SiblingsBecome config final place none rest middle high (.done, nodes)) :
      Joins place e children rest low high chain? (.done, body ++ nodes)

variable {config final}

/-- No branch is added where no conditional takes one. -/
theorem SiblingsBecome.chain_eq_done {place : Place} {low high : Nat} {siblings : Chain × List Node}
    (docs : List Markup.Node) (h : SiblingsBecome config final place none docs low high siblings) :
    siblings.1 = .done := by
  induction docs generalizing low siblings with
  | nil =>
    obtain ⟨-, rfl⟩ := h
    rfl
  | cons doc rest ih =>
    cases doc with
    | element e children =>
      simp only [SiblingsBecome] at h
      rcases hcondition : (Directives.read place.inIteration e.attributes).1.condition with _ | ⟨_, _⟩ | _ | _ | _ <;>
        rw [hcondition] at h
      case some.next | some.last =>
        obtain ⟨-, body, middle, -, -, hrest⟩ := h
        exact ih hrest
      case some.first =>
        obtain ⟨-, body, middle, more, -, -, -, rfl⟩ := h
        rfl
      all_goals
        obtain ⟨-, body, middle, more, -, -, rfl⟩ := h
        rfl
    | text text position | comment text position =>
      simp only [SiblingsBecome] at h
      obtain ⟨n?, middle, -, hrest⟩ := h
      cases n? with
      | none => exact ih hrest
      | some n =>
        obtain ⟨more, -, rfl⟩ := hrest
        rfl

theorem ChildrenBecome.siblings {e : Markup.Element} {children : List Markup.Node} {place : Place} {low high : Nat}
    {nodes : List Node} (h : ChildrenBecome config final (.element e children) place low high nodes) :
    SiblingsBecome config final place none children low high (.done, nodes) := by
  unfold ChildrenBecome at h
  obtain ⟨chain, h⟩ := h
  obtain rfl : chain = .done := h.chain_eq_done
  exact h

theorem SiblingsBecome.joins {place : Place} {chain? : Option Nat} {e : Markup.Element}
    {children rest : List Markup.Node} {low high : Nat} {siblings : Chain × List Node}
    (h : SiblingsBecome config final place chain? (.element e children :: rest) low high siblings) :
    (Directives.read place.inIteration e.attributes).2.2 ⊆ final.diagnostics ∧
      Joins config final place e children rest low high chain? siblings := by
  simp only [SiblingsBecome] at h
  refine ⟨h.1, ?_⟩
  replace h := h.2
  rcases hcondition : (Directives.read place.inIteration e.attributes).1.condition with
      _ | ⟨test, negate⟩ | test | test | _ <;>
    rw [hcondition] at h
  case some.first =>
    obtain ⟨body, middle, more, hentry, hbody, hmore, rfl⟩ := h
    exact .first hcondition hentry hbody hmore
  case some.next =>
    cases chain? with
    | some id =>
      obtain ⟨body, middle, more, hbody, hmore, rfl⟩ := h
      exact .next hcondition hbody hmore
    | none =>
      obtain ⟨body, middle, hreport, hbody, hmore⟩ := h
      exact .stray ⟨_, hcondition, rfl⟩ hreport hbody hmore
  case some.last =>
    cases chain? with
    | some id =>
      obtain ⟨body, middle, ⟨chain, nodes⟩, hbody, hmore, rfl⟩ := h
      obtain rfl : chain = .done := hmore.chain_eq_done
      exact .last hcondition hbody hmore
    | none =>
      obtain ⟨body, middle, hreport, hbody, hmore⟩ := h
      exact .stray ⟨_, hcondition, rfl⟩ hreport hbody hmore
  all_goals
    obtain ⟨body, middle, ⟨chain, nodes⟩, hbody, hmore, rfl⟩ := h
    obtain rfl : chain = .done := hmore.chain_eq_done
    refine .apart (fun condition h => ?_) hbody hmore
    rw [hcondition] at h
    cases h
  exact ⟨test, negate, rfl⟩

/-- Behind what is nothing the siblings go on as before it, and behind a node they start again. -/
theorem siblings_behind {place : Place} {chain? : Option Nat} {rest : List Markup.Node} {low high : Nat}
    {siblings : Chain × List Node} {n? : Option Node}
    (h : match n? with
      | none => SiblingsBecome config final place chain? rest low high siblings
      | some n => ∃ more, SiblingsBecome config final place none rest low high more ∧ siblings = (.done, n :: more.2)) :
    (n? = none ∧ SiblingsBecome config final place chain? rest low high siblings) ∨
      ∃ n nodes, n? = some n ∧ SiblingsBecome config final place none rest low high (.done, nodes) ∧
        siblings = (.done, n :: nodes) := by
  cases n? with
  | none => exact .inl ⟨rfl, h⟩
  | some n =>
    obtain ⟨⟨chain, nodes⟩, hmore, rfl⟩ := h
    obtain rfl : chain = .done := hmore.chain_eq_done
    exact .inr ⟨n, nodes, rfl, hmore, rfl⟩

/-- A text becomes a node, or nothing is there of it and its siblings are next to each other. -/
theorem SiblingsBecome.text {place : Place} {chain? : Option Nat} {text : String} {position : Position}
    {rest : List Markup.Node} {low high : Nat} {siblings : Chain × List Node}
    (h : SiblingsBecome config final place chain? (.text text position :: rest) low high siblings) :
    ∃ n? middle, TextBecomes final place text position low middle n? ∧
      ((n? = none ∧ SiblingsBecome config final place chain? rest middle high siblings) ∨
        ∃ n nodes, n? = some n ∧ SiblingsBecome config final place none rest middle high (.done, nodes) ∧
          siblings = (.done, n :: nodes)) := by
  simp only [SiblingsBecome] at h
  obtain ⟨n?, middle, hn, h⟩ := h
  exact ⟨n?, middle, hn, siblings_behind h⟩

/-- A comment becomes a node, or nothing is there of it and its siblings are next to each other. -/
theorem SiblingsBecome.comment {place : Place} {chain? : Option Nat} {text : String} {position : Position}
    {rest : List Markup.Node} {low high : Nat} {siblings : Chain × List Node}
    (h : SiblingsBecome config final place chain? (.comment text position :: rest) low high siblings) :
    ∃ n? middle, CommentBecomes final place config text position low middle n? ∧
      ((n? = none ∧ SiblingsBecome config final place chain? rest middle high siblings) ∨
        ∃ n nodes, n? = some n ∧ SiblingsBecome config final place none rest middle high (.done, nodes) ∧
          siblings = (.done, n :: nodes)) := by
  simp only [SiblingsBecome] at h
  obtain ⟨n?, middle, hn, h⟩ := h
  exact ⟨n?, middle, hn, siblings_behind h⟩

end Siblings

/-! ## What is built -/

theorem makes_buildText (place : Place) (text : String) (position : Position) :
    Makes (buildText place text position) fun final => TextBecomes final place text position := by
  unfold buildText TextBecomes
  cases shown place.keepBlanks text with
  | none => exact .pure none
  | some visible =>
    dsimp only
    cases splitText visible.toList with
    | error e =>
      refine (Makes.after_report _ _ (.pure none)).weaken fun final low high n? ⟨hreport, hlow, hn⟩ => ?_
      exact ⟨hlow, hn, hreport _ (List.mem_singleton_self _)⟩
    | ok parts =>
      refine (Makes.after_allocate _ _ _ fun id => .pure (some (Node.text id position parts))).weaken ?_
      rintro final low high n? ⟨hentry, rfl, rfl⟩
      exact ⟨rfl, hentry, rfl⟩

theorem makes_buildComment (config : Config) (place : Place) (text : String) (position : Position) :
    Makes (buildComment config place text position) fun final => CommentBecomes final place config text position := by
  unfold buildComment CommentBecomes
  cases config.preserveComments with
  | false => exact .pure none
  | true =>
    refine (Makes.after_allocate _ _ _ fun id => .pure (some (Node.comment id position text))).weaken ?_
    rintro final low high n? ⟨hentry, rfl, rfl⟩
    exact ⟨rfl, hentry, rfl⟩

section Element

variable {body : Place → Building (List Node)} {content : Draft → Content}
  (hbody : ∀ place, Makes (body place) fun final => content final place)
include hbody

theorem makes_buildElement (place : Place) (id : Nat) (e : Markup.Element) (directives : Directives) :
    Makes (buildElement place id e directives body) fun final =>
      ElementBecomes final place id e directives (content final) := by
  unfold buildElement
  exact .after_report _ _ (.after_note _ ((hbody _).map _))

theorem makes_buildSlot (place : Place) (id : Nat) (e : Markup.Element) (directives : Directives) :
    Makes (buildSlot place id e directives body) fun final =>
      SlotBecomes final place id e directives (content final) := by
  have hrest (slot : String × List Attribute × List Diagnostic) :=
    Makes.after_note slot.2.2 (.after_declareSlot slot.1 e.position
      ((hbody (place.below id)).map fun children => Node.slot id e.position slot.1 slot.2.1 children))
  have hdirective : Makes (do
      if directives.key.isSome || directives.dynamic.isSome then report [.slotDirective] e.position
      note (slotAttributes "" [] e.attributes).2.2
      declareSlot (slotAttributes "" [] e.attributes).1 e.position
      let children ← body (place.below id)
      return .slot id e.position (slotAttributes "" [] e.attributes).1 (slotAttributes "" [] e.attributes).2.1
        children : Building Node) fun final => SlotBecomes final place id e directives (content final) := by
    by_cases hdirective : (directives.key.isSome || directives.dynamic.isSome) = true
    · simp only [hdirective, if_true]
      refine (Makes.after_report _ _ (hrest _)).weaken fun final low high n ⟨hreport, hn⟩ => ?_
      exact ⟨fun _ => hreport _ (List.mem_singleton_self _), hn⟩
    · simp only [hdirective]
      exact (hrest _).weaken fun final low high n hn => ⟨fun h => absurd h hdirective, hn⟩
  unfold buildSlot
  refine .after_iterationAround id fun iteration? => ?_
  -- What is reported of an iteration around the slot makes no difference to the node.
  cases iteration? with
  | none => exact hdirective
  | some iteration => exact (Makes.after_report _ _ hdirective).weaken fun _ _ _ _ h => h.2

theorem makes_buildTag (place : Place) (e : Markup.Element) (directives : Directives) :
    Makes (buildTag place e directives body) fun final => TagBecomes final place e directives (content final) := by
  unfold buildTag TagBecomes
  by_cases htag : e.tag = "slot"
  · simp only [htag, if_true]
    exact .after_allocate _ _ _ fun id => makes_buildSlot hbody place id e directives
  · simp only [htag, if_false]
    exact .after_allocate _ _ _ fun id => makes_buildElement hbody place id e directives

theorem makes_buildNested (place : Place) (e : Markup.Element) (directives : Directives) :
    Makes (buildNested place e directives (directives.condition.isSome || directives.iteration.isSome) body)
      fun final => NestedBecomes final place e directives (content final) := by
  unfold buildNested
  exact .after_report _ _ (.after_note _ (hbody place))

theorem makes_buildIteration (place : Place) (position : Position) (loop : Option Iteration) :
    Makes (buildIteration place position loop body) fun final =>
      IterationBecomes final place position loop (content final) := by
  unfold buildIteration
  cases loop with
  | none => exact hbody place
  | some loop =>
    refine (Makes.after_allocate _ _ _ fun id => (hbody (place.iterated id)).map fun children =>
      [Node.iteration id position loop children]).weaken ?_
    rintro final low high nodes ⟨hentry, children, hchildren, rfl⟩
    exact ⟨children, hentry, hchildren, rfl⟩

theorem makes_buildAlone (place : Place) (position : Position) (condition : Option Condition) :
    Makes (buildAlone place position condition body) fun final =>
      AloneBecomes final place position condition (content final) := by
  unfold buildAlone
  rcases condition with _ | ⟨test, negate⟩ | _ | _ | _
  case some.alone =>
    refine (Makes.after_allocate _ _ _ fun id => (hbody (place.within id)).map fun children =>
      [Node.conditional id position (.branch test negate children .done)]).weaken ?_
    rintro final low high nodes ⟨hentry, children, hchildren, rfl⟩
    exact ⟨children, hentry, hchildren, rfl⟩
  all_goals exact hbody place

theorem makes_buildContent (place : Place) (e : Markup.Element) (directives : Directives) :
    Makes (buildContent place e directives body) fun final =>
      ContentBecomes final place e directives (content final) := by
  refine makes_buildIteration (fun place => ?_) place _ _
  refine makes_buildAlone (fun place => ?_) place _ _
  unfold BareBecomes
  by_cases htag : e.tag = "template"
  · simp only [htag, if_true]
    exact makes_buildNested hbody place e directives
  · simp only [htag, if_false]
    exact (makes_buildTag hbody place e directives).map fun n => [n]

end Element

/-- What a step makes of the first sibling, if anything, and then what the siblings behind it become. -/
theorem makes_behind {config : Config} {place : Place} {chain? : Option Nat} {rest : List Markup.Node}
    {step : Building (Option Node)} {post : Draft → Nat → Nat → Option Node → Prop} (hstep : Makes step post)
    (hrest : ∀ chain?, Makes (buildSiblings config place chain? rest) fun final =>
      SiblingsBecome config final place chain? rest) :
    Makes (do
      match ← step with
      | none => buildSiblings config place chain? rest
      | some n => return (.done, n :: (← buildSiblings config place none rest).2)) fun final low high siblings =>
        ∃ n? middle, post final low middle n? ∧
          match n? with
          | none => SiblingsBecome config final place chain? rest middle high siblings
          | some n => ∃ more, SiblingsBecome config final place none rest middle high more ∧
              siblings = (.done, n :: more.2) := by
  refine hstep.bind fun n? => ?_
  cases n? with
  | none => exact hrest chain?
  | some n => exact (hrest none).map fun more => (Chain.done, n :: more.2)

mutual

theorem makes_buildChildren (config : Config) (place : Place) : ∀ node : Markup.Node,
    Makes (buildChildren config place node) fun final => ChildrenBecome config final node place
  | .element _ children => by
    unfold buildChildren
    refine ((makes_buildSiblings config place none children).map Prod.snd).weaken ?_
    rintro final low high nodes ⟨siblings, hsiblings, rfl⟩
    exact ⟨siblings.1, hsiblings⟩
  | .text _ _ => by
    unfold buildChildren
    exact .pure []
  | .comment _ _ => by
    unfold buildChildren
    exact .pure []

/-- Siblings are built into what they become. -/
theorem makes_buildSiblings (config : Config) (place : Place) (chain? : Option Nat) : ∀ nodes : List Markup.Node,
    Makes (buildSiblings config place chain? nodes) fun final => SiblingsBecome config final place chain? nodes
  | [] => by
    unfold buildSiblings
    exact .pure (Chain.done, [])
  | .text text position :: rest => by
    unfold buildSiblings
    exact makes_behind (makes_buildText place text position) fun chain? => makes_buildSiblings config place chain? rest
  | .comment text position :: rest => by
    unfold buildSiblings
    exact makes_behind (makes_buildComment config place text position) fun chain? =>
      makes_buildSiblings config place chain? rest
  | .element e children :: rest => by
    have hcontent := fun place' e' directives => makes_buildContent
      (fun place => makes_buildChildren config place (.element e children)) place' e' directives
    have hrest := fun chain? => makes_buildSiblings config place chain? rest
    unfold buildSiblings
    simp only [SiblingsBecome]
    obtain ⟨directives, attributes, diagnostics⟩ := Directives.read place.inIteration e.attributes
    refine .after_note _ ?_
    rcases hcondition : directives.condition with _ | ⟨test, negate⟩ | test | test | _
    case some.first =>
      refine (Makes.after_allocate _ _ _ fun id => (hcontent (place.within id) _ directives).bind fun body =>
        (hrest (some id)).map fun more =>
          (Chain.done, Node.conditional id e.position (.branch test false body more.1) :: more.2)).weaken ?_
      rintro final low high siblings ⟨hentry, body, middle, hbody, more, hmore, rfl⟩
      exact ⟨body, middle, more, hentry, hbody, hmore, rfl⟩
    case some.next =>
      cases chain? with
      | none =>
        -- A branch without a conditional is built, so that its numbers are used up, and then left out.
        refine (Makes.after_report _ _ ((hcontent place _ directives).bind fun _ => hrest none)).weaken ?_
        rintro final low high siblings ⟨hreport, body, middle, hbody, hmore⟩
        exact ⟨body, middle, hreport _ (List.mem_singleton_self _), hbody, hmore⟩
      | some id =>
        refine ((hcontent (place.within id) _ directives).bind fun body =>
          (hrest (some id)).map fun more => (Chain.branch test false body more.1, more.2)).weaken ?_
        rintro final low high siblings ⟨body, middle, hbody, more, hmore, rfl⟩
        exact ⟨body, middle, more, hbody, hmore, rfl⟩
    case some.last =>
      cases chain? with
      | none =>
        refine (Makes.after_report _ _ ((hcontent place _ directives).bind fun _ => hrest none)).weaken ?_
        rintro final low high siblings ⟨hreport, body, middle, hbody, hmore⟩
        exact ⟨body, middle, hreport _ (List.mem_singleton_self _), hbody, hmore⟩
      | some id =>
        refine ((hcontent (place.within id) _ directives).bind fun body =>
          (hrest none).map fun more => (Chain.otherwise body, more.2)).weaken ?_
        rintro final low high siblings ⟨body, middle, hbody, more, hmore, rfl⟩
        exact ⟨body, middle, more, hbody, hmore, rfl⟩
    all_goals
      refine ((hcontent place _ directives).bind fun body =>
        (hrest none).map fun more => (Chain.done, body ++ more.2)).weaken ?_
      rintro final low high siblings ⟨body, middle, hbody, more, hmore, rfl⟩
      exact ⟨body, middle, more, hbody, hmore, rfl⟩

end

/-! ## What a document is built into -/

/-- The table and the diagnostics that the building of a template has ended with. -/
def draft (t : Template) : Draft :=
  { table := t.table, diagnostics := t.diagnostics }

/-- The place of what stands at the top of a template. -/
def rootPlace (config : Config) : Place :=
  { svg := config.namespace = .svgHint }

/-- A template is what the children of the root element become. -/
theorem ofDocument_becomes (config : Config) {document : List Markup.Node} {e : Markup.Element}
    {children : List Markup.Node} (hroot : root document = .ok (e, children)) :
    let t := ofDocument config document
    SiblingsBecome t.config t.draft (rootPlace t.config) none children 0 t.table.size (.done, t.nodes) := by
  have hbuilt := (makes_buildSiblings (rootAttributes config e.attributes).1
    (rootPlace (rootAttributes config e.attributes).1) none children
    { diagnostics := (rootAttributes config e.attributes).2 }).2 (ofDocument config document).draft
  simp only [ofDocument, hroot] at hbuilt ⊢
  specialize hbuilt ⟨List.prefix_refl _, List.prefix_refl _⟩
  have hdone := hbuilt.chain_eq_done
  exact hdone ▸ hbuilt

/-- A document without errors has a root element. -/
theorem exists_root_of_isClean {config : Config} {document : List Markup.Node}
    (h : (ofDocument config document).draft.IsClean) :
    ∃ e children, root document = .ok (e, children) := by
  cases hroot : root document with
  | ok found => exact ⟨found.1, found.2, rfl⟩
  | error position =>
    simp [ofDocument, hroot, Draft.IsClean, Template.draft, Diagnostic.hasErrors, Diagnostic.isError,
      Problem.diagnostic, Problem.code, DiagnosticCode.severity] at h

end TemplateCompiler.Template
