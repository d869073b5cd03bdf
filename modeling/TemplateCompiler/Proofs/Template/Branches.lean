import TemplateCompiler.Proofs.Template.Kept
/-!
# Branches of conditionals

Which elements of a document make up a conditional is said here without the number of an open chain: an element with
`lwc:if` starts one, and the branches are what `laterBranches` finds behind it. `SiblingsBecome.branches` shows that the
chain of the conditional is made of just these, and `SiblingsBecome.behind` that a chain is open only where the siblings
so far leave one open, so that any other `lwc:elseif` or `lwc:else` is reported.
-/

namespace TemplateCompiler

open Text Binding

/-! ## Conditions in a document -/

namespace Markup

open Template (Condition Directives requiredBinding)

/-- The condition that an attribute puts on its element. -/
def Attribute.condition? (a : Attribute) : Option Condition :=
  match a.name with
  | "if:true" => (requiredBinding a).toOption.map fun test => .alone test false
  | "if:false" => (requiredBinding a).toOption.map fun test => .alone test true
  | "lwc:if" => (requiredBinding a).toOption.map .first
  | "lwc:elseif" => (requiredBinding a).toOption.map .next
  | "lwc:else" => some .last
  | _ => none

/-- The condition of an element: the first one that is put on it. -/
def Element.condition? (e : Element) : Option Condition :=
  e.attributes.findSome? Attribute.condition?

/-- The names of the directives that are conditions. -/
def conditionNames : List String :=
  ["if:true", "if:false", "lwc:if", "lwc:elseif", "lwc:else"]

/-- The only conditional directive of the element is a well-formed `lwc:else` if `isElse`, and otherwise a well-formed
`lwc:elseif`. -/
def Element.IsBranch (e : Element) (isElse : Bool) : Prop :=
  ∃ a, e.attributes.filter (fun a => conditionNames.contains a.name) = [a] ∧
    if isElse then a.name = "lwc:else" ∧ a.hasValue = false
    else a.name = "lwc:elseif" ∧ ∃ test, requiredBinding a = .ok test

/-- What neither a report nor the use of a value changes stays as it is. -/
theorem keeps_withValue {α β : Type} {p : Template.Reading → β}
    (hreport : ∀ r problem position, p (r.report problem position) = p r) (r : Template.Reading) (a : Attribute)
    (value : Except Template.Problem α) {f : Template.Reading → α → Template.Reading} (hf : ∀ r v, p (f r v) = p r) :
    p (r.withValue a value f) = p r := by
  cases value with
  | ok v => exact hf r v
  | error problem => exact hreport r problem a.position

theorem condition_setCondition (r : Template.Reading) (a : Attribute) (condition : Condition) :
    (r.setCondition a condition).condition = r.condition.or (some condition) := by
  unfold Template.Reading.setCondition
  cases h : r.condition with
  | none => rfl
  | some first => simp [h, Template.Reading.report]

theorem condition_withCondition (r : Template.Reading) (a : Attribute) (f : Expr → Condition) :
    (r.withValue a (requiredBinding a) fun r test => r.setCondition a (f test)).condition =
      r.condition.or ((requiredBinding a).toOption.map f) := by
  cases requiredBinding a with
  | ok test => exact condition_setCondition r a (f test)
  | error problem => simp [Template.Reading.withValue, Template.Reading.report, Except.toOption]

/-- A condition that is there stays, and one that is not is that of the next attribute. -/
theorem condition_step (r : Template.Reading) (a : Attribute) : (r.step a).condition = r.condition.or a.condition? := by
  unfold Template.Reading.step
  split
  case h_13 =>
    have hnone : a.condition? = none := by
      unfold Attribute.condition?
      split <;> first | contradiction | rfl
    rw [hnone, Option.or_none]
    split <;> rfl
  all_goals
    rename_i hname
    rw [Attribute.condition?, hname]
  case h_1 | h_2 => exact condition_withCondition _ a _
  case h_3 | h_4 => exact condition_withCondition r a _
  case h_5 =>
    rw [condition_setCondition]
    split <;> rfl
  case h_6 | h_7 | h_8 | h_10 =>
    refine Eq.trans ?_ (Option.or_none ..).symm
    exact keeps_withValue (p := Template.Reading.condition) (fun _ _ _ => rfl) _ _ _ fun _ _ => rfl
  all_goals exact (Option.or_none ..).symm

theorem condition_foldl (attributes : List Attribute) (r : Template.Reading) :
    (attributes.foldl Template.Reading.step r).condition =
      r.condition.or (attributes.findSome? Attribute.condition?) := by
  induction attributes generalizing r with
  | nil => simp
  | cons a attributes ih =>
    rw [List.foldl_cons, ih, condition_step, List.findSome?_cons]
    cases r.condition <;> cases a.condition? <;> rfl

/-- The condition among the directives of an element does not depend on where it stands. -/
theorem condition_read (inIteration : Bool) (e : Element) :
    (Directives.read inIteration e.attributes).1.condition = e.condition? := by
  have h := condition_foldl e.attributes {}
  unfold Directives.read
  dsimp only
  split
  · exact h
  · split <;> exact h

theorem contains_of_condition? {a : Attribute} (h : a.condition?.isSome = true) :
    conditionNames.contains a.name = true := by
  unfold Attribute.condition? at h
  split at h <;> simp_all [conditionNames]

/-- Only the attributes with one of the names can have a condition. -/
theorem Element.condition?_eq (e : Element) :
    e.condition? =
      (e.attributes.filter fun a => conditionNames.contains a.name).findSome? Attribute.condition? := by
  unfold Element.condition?
  induction e.attributes with
  | nil => rfl
  | cons a attributes ih =>
    by_cases hname : conditionNames.contains a.name = true
    · rw [List.filter_cons, if_pos hname, List.findSome?_cons, List.findSome?_cons, ih]
    · have hnone : a.condition? = none := by
        cases h : a.condition? with
        | none => rfl
        | some condition => exact absurd (contains_of_condition? (by simp [h])) hname
      rw [List.filter_cons, if_neg hname, List.findSome?_cons, hnone, ih]

/-- A branch by itself has the condition that its one conditional directive says. -/
theorem Element.IsBranch.condition? {e : Element} {isElse : Bool} (h : e.IsBranch isElse) :
    if isElse then e.condition? = some .last else ∃ test, e.condition? = some (.next test) := by
  obtain ⟨a, hfilter, ha⟩ := h
  have honly : e.condition? = a.condition? := by
    rw [e.condition?_eq, hfilter, List.findSome?_cons]
    cases a.condition? <;> rfl
  rw [honly]
  cases isElse with
  | true => simp [Attribute.condition?, ha.1]
  | false =>
    obtain ⟨hname, test, htest⟩ := ha
    exact ⟨test, by simp [Attribute.condition?, hname, htest, Except.toOption]⟩

/-! ## Siblings of a document -/

/-- Some siblings are those given first, or siblings inside one of these; the truth values say whether blanks are kept
around them. -/
inductive SiblingsWithin : Bool → List Node → Bool → List Node → Prop where
  | here (keepBlanks : Bool) (docs : List Node) : SiblingsWithin keepBlanks docs keepBlanks docs
  | inside {keepBlanks keepBlanks' : Bool} {docs docs' children : List Node} {e : Element}
      (mem : .element e children ∈ docs)
      (within : SiblingsWithin (keepBlanks || e.keepsBlanks) children keepBlanks' docs') :
      SiblingsWithin keepBlanks docs keepBlanks' docs'

/-- A node that becomes nothing: text of which nothing is shown, or that cannot be read, and a comment unless comments
are preserved. -/
def Node.isNothing (config : Config) (keepBlanks : Bool) : Node → Bool
  | .element _ _ => false
  | .text content _ => (textParts? keepBlanks content).isNone
  | .comment _ _ => !config.preserveComments

/-- Whether a conditional that is open before the node is open behind it. -/
def Node.keepsOpen (config : Config) (keepBlanks : Bool) : Node → Bool
  | .element e _ =>
    match e.condition? with
    | some (.next _) => true
    | _ => false
  | n => n.isNothing config keepBlanks

/-- A conditional is open behind the siblings: an `lwc:if` is among them, and nothing behind it has closed it. -/
def LeavesOpen (config : Config) (keepBlanks : Bool) (docs : List Node) : Prop :=
  ∃ before e children between test, docs = before ++ .element e children :: between ∧
    e.condition? = some (.first test) ∧ ∀ n ∈ between, n.keepsOpen config keepBlanks = true

theorem LeavesOpen.cons {config : Config} {keepBlanks : Bool} {docs : List Node} (n : Node)
    (h : LeavesOpen config keepBlanks docs) : LeavesOpen config keepBlanks (n :: docs) := by
  obtain ⟨before, e, children, between, test, rfl, hcondition, hopen⟩ := h
  exact ⟨n :: before, e, children, between, test, rfl, hcondition, hopen⟩

/-- An element that is shown if its test is the first that holds, or, without a test, if none holds. -/
structure Branch where
  test? : Option Expr
  element : Element
  children : List Node

/-- The branches that siblings add to the conditional before them: those with `lwc:elseif`, up to one with `lwc:else`,
with nothing between them. -/
def laterBranches (config : Config) (keepBlanks : Bool) : List Node → List Branch
  | [] => []
  | .element e children :: rest =>
    match e.condition? with
    | some (.next test) => ⟨some test, e, children⟩ :: laterBranches config keepBlanks rest
    | some .last => [⟨none, e, children⟩]
    | _ => []
  | n :: rest => if n.isNothing config keepBlanks then laterBranches config keepBlanks rest else []

end Markup

namespace Template

open Markup (SiblingsWithin LeavesOpen Branch laterBranches)

/-! ## Branches in a template -/

section Becomes

variable (config : Config) (final : Draft)

/-- An element of the document becomes the nodes, its condition aside unless it stands alone. -/
def ElementBecomesIn (e : Markup.Element) (children : List Markup.Node) (nodes : List Node) : Prop :=
  ∃ place low high, ElementContent config final place.inIteration e children place low high nodes

/-- An element of the document becomes the nodes, its iteration and its condition aside. -/
def BareBecomesIn (e : Markup.Element) (children : List Markup.Node) (nodes : List Node) : Prop :=
  ∃ inIteration place low high, BareBecomes final place
    { e with attributes := (Directives.read inIteration e.attributes).2.1 } (Directives.read inIteration e.attributes).1
    (ChildrenBecome config final (.element e children)) low high nodes

/-- A chain shows just the branches, in their order. -/
inductive BranchesBecome : List Branch → Chain → Prop where
  | done : BranchesBecome [] .done
  | branch {test : Expr} {e : Markup.Element} {children : List Markup.Node} {body : List Node} {more : List Branch}
      {next : Chain} (content : ElementBecomesIn config final e children body) (others : BranchesBecome more next) :
      BranchesBecome (⟨some test, e, children⟩ :: more) (.branch test false body next)
  | otherwise {e : Markup.Element} {children : List Markup.Node} {body : List Node}
      (content : ElementBecomesIn config final e children body) :
      BranchesBecome [⟨none, e, children⟩] (.otherwise body)

end Becomes

section Becomes

variable {config : Config} {final : Draft} {place : Place} {low high : Nat}

theorem TextBecomes.isNothing_eq (config : Config) {text : String} {position : Position} {n? : Option Node}
    (h : TextBecomes final place text position low high n?) :
    (Markup.Node.text text position).isNothing config place.keepBlanks = n?.isNone := by
  unfold TextBecomes at h
  change (Markup.textParts? place.keepBlanks text).isNone = _
  unfold Markup.textParts?
  cases hshown : shown place.keepBlanks text with
  | none =>
    rw [hshown] at h
    rw [h.2]
    rfl
  | some visible =>
    simp only [hshown] at h
    rw [Option.bind_some]
    cases hparts : splitText visible.toList with
    | error error =>
      simp only [hparts] at h
      rw [h.2.1]
      rfl
    | ok parts =>
      simp only [hparts] at h
      rw [h.2.2]
      rfl

theorem CommentBecomes.isNothing_eq {text : String} {position : Position} {n? : Option Node}
    (h : CommentBecomes final place config text position low high n?) :
    (Markup.Node.comment text position).isNothing config place.keepBlanks = n?.isNone := by
  unfold CommentBecomes at h
  unfold Markup.Node.isNothing
  cases hpreserve : config.preserveComments <;> simp [hpreserve] at h <;> simp [h.2]

/-- The branches that siblings add to a conditional are their later branches. -/
theorem SiblingsBecome.branches {docs : List Markup.Node} {id : Nat} {siblings : Chain × List Node}
    (h : SiblingsBecome config final place (some id) docs low high siblings) :
    BranchesBecome config final (laterBranches config place.keepBlanks docs) siblings.1 := by
  induction docs generalizing low siblings with
  | nil =>
    obtain ⟨-, rfl⟩ := h
    exact .done
  | cons doc rest ih =>
    cases doc with
    | text text position =>
      obtain ⟨n?, middle, hn, hmore⟩ := h.text
      simp only [laterBranches, hn.isNothing_eq config]
      obtain ⟨rfl, hmore⟩ | ⟨n, nodes, rfl, hmore, rfl⟩ := hmore
      · exact ih hmore
      · exact .done
    | comment text position =>
      obtain ⟨n?, middle, hn, hmore⟩ := h.comment
      simp only [laterBranches, hn.isNothing_eq]
      obtain ⟨rfl, hmore⟩ | ⟨n, nodes, rfl, hmore, rfl⟩ := hmore
      · exact ih hmore
      · exact .done
    | element e children =>
      rw [laterBranches]
      cases h.joins.2 with
      | first hcondition _ _ _ =>
        rw [Markup.condition_read] at hcondition
        rw [hcondition]
        exact .done
      | next hcondition hbody hmore =>
        rw [Markup.condition_read] at hcondition
        rw [hcondition]
        exact .branch ⟨_, _, _, hbody⟩ (ih hmore)
      | last hcondition hbody hmore =>
        rw [Markup.condition_read] at hcondition
        rw [hcondition]
        exact .otherwise ⟨_, _, _, hbody⟩
      | apart hcondition hbody hmore =>
        rw [Markup.condition_read] at hcondition
        cases hc : e.condition? with
        | none => exact .done
        | some condition =>
          obtain ⟨test, negate, rfl⟩ := hcondition _ hc
          exact .done

/-! ## Siblings inside others -/

/-- All nodes in what siblings have become. -/
def allSiblings (siblings : Chain × List Node) : List Node :=
  siblings.1.all ++ allNodes siblings.2

theorem mem_allNodes_of_mem {n : Node} {nodes : List Node} (h : n ∈ nodes) : n ∈ allNodes nodes := by
  rw [allNodes_eq_flatMap]
  exact List.mem_flatMap.2 ⟨n, h, n.self_mem_all⟩

/-- What stands behind some siblings becomes a part of what all become, and it can only add branches to a conditional
that is open there. -/
theorem SiblingsBecome.behind {front docs : List Markup.Node} {chain? : Option Nat} {siblings : Chain × List Node}
    (h : SiblingsBecome config final place chain? (front ++ docs) low high siblings) :
    ∃ chain?' middle siblings', SiblingsBecome config final place chain?' docs middle high siblings' ∧
      siblings'.2 <:+ siblings.2 ∧ allSiblings siblings' ⊆ allSiblings siblings ∧
      (chain?'.isSome = true → LeavesOpen config place.keepBlanks front ∨
        chain?.isSome = true ∧ ∀ n ∈ front, n.keepsOpen config place.keepBlanks = true) := by
  induction front generalizing low chain? siblings with
  | nil => exact ⟨chain?, low, siblings, h, List.suffix_rfl, fun _ hn => hn, fun h => .inr ⟨h, by simp⟩⟩
  | cons doc front ih =>
    -- Behind the first sibling a conditional is open that it has started, or one that it has left open.
    have step {chain?₁ : Option Nat} {middle : Nat} {more : Chain × List Node}
        (hmore : SiblingsBecome config final place chain?₁ (front ++ docs) middle high more)
        (hsuffix : more.2 <:+ siblings.2) (hsub : allSiblings more ⊆ allSiblings siblings)
        (hstart : chain?₁.isSome = true →
          (∃ e children test, doc = .element e children ∧ e.condition? = some (.first test)) ∨
            chain?.isSome = true ∧ doc.keepsOpen config place.keepBlanks = true) :
        ∃ chain?' middle siblings', SiblingsBecome config final place chain?' docs middle high siblings' ∧
          siblings'.2 <:+ siblings.2 ∧ allSiblings siblings' ⊆ allSiblings siblings ∧
          (chain?'.isSome = true → LeavesOpen config place.keepBlanks (doc :: front) ∨
            chain?.isSome = true ∧ ∀ n ∈ doc :: front, n.keepsOpen config place.keepBlanks = true) := by
      obtain ⟨chain?', middle', siblings', hbecome, hsuffix', hsub', hopen⟩ := ih hmore
      refine ⟨chain?', middle', siblings', hbecome, hsuffix'.trans hsuffix, fun n hn => hsub (hsub' hn), ?_⟩
      intro hsome
      rcases hopen hsome with hleaves | ⟨hsome₁, hfront⟩
      · exact .inl (hleaves.cons doc)
      · rcases hstart hsome₁ with ⟨e, children, test, rfl, hcondition⟩ | ⟨hsome, hdoc⟩
        · exact .inl ⟨[], e, children, front, test, rfl, hcondition, hfront⟩
        · exact .inr ⟨hsome, List.forall_mem_cons.2 ⟨hdoc, hfront⟩⟩
    cases doc with
    | text text position =>
      obtain ⟨n?, middle, hn, ⟨rfl, hmore⟩ | ⟨n, nodes, rfl, hmore, rfl⟩⟩ := h.text
      · exact step hmore List.suffix_rfl (fun _ hn => hn) fun hsome => .inr ⟨hsome, hn.isNothing_eq config⟩
      · refine step hmore (List.suffix_cons n nodes) ?_ (by simp)
        exact List.subset_append_right n.all (allNodes nodes)
    | comment text position =>
      obtain ⟨n?, middle, hn, ⟨rfl, hmore⟩ | ⟨n, nodes, rfl, hmore, rfl⟩⟩ := h.comment
      · exact step hmore List.suffix_rfl (fun _ hn => hn) fun hsome => .inr ⟨hsome, hn.isNothing_eq⟩
      · refine step hmore (List.suffix_cons n nodes) ?_ (by simp)
        exact List.subset_append_right n.all (allNodes nodes)
    | element e children =>
      cases h.joins.2 with
      | first hcondition _ _ hmore =>
        rw [Markup.condition_read] at hcondition
        refine step hmore (List.suffix_cons _ _) ?_ fun _ => .inl ⟨e, children, _, rfl, hcondition⟩
        simp [allSiblings, Chain.all, allNodes, Node.all]
      | next hcondition _ hmore =>
        rw [Markup.condition_read] at hcondition
        refine step hmore List.suffix_rfl ?_ fun _ => .inr ⟨rfl, by simp [Markup.Node.keepsOpen, hcondition]⟩
        simp [allSiblings, Chain.all]
      | last _ _ hmore =>
        refine step hmore List.suffix_rfl ?_ (by simp)
        simp [allSiblings, Chain.all]
      | stray _ _ _ hmore => exact step hmore List.suffix_rfl (fun _ hn => hn) (by simp)
      | apart _ _ hmore =>
        refine step hmore (List.suffix_append _ _) ?_ (by simp)
        simp [allSiblings, Chain.all, allNodes_append]

section Inner

variable {e : Markup.Element} {directives : Directives} {body : Content} {nodes : List Node}

theorem BareBecomes.inner (h : BareBecomes final place e directives body low high nodes) :
    ∃ place' low' high' nodes', place'.keepBlanks = (place.keepBlanks || e.keepsBlanks) ∧
      place'.inIteration = place.inIteration ∧ body place' low' high' nodes' ∧ allNodes nodes' ⊆ allNodes nodes := by
  unfold BareBecomes at h
  by_cases htag : e.tag = "template"
  · rw [if_pos htag] at h
    exact ⟨place, low, high, nodes, by simp [Markup.Element.keepsBlanks, htag], rfl, h.2.2, fun _ hn => hn⟩
  · rw [if_neg htag] at h
    obtain ⟨n, ⟨-, hn⟩, rfl⟩ := h
    by_cases hslot : e.tag = "slot"
    · rw [if_pos hslot] at hn
      obtain ⟨-, -, children, hchildren, rfl⟩ := hn
      have hblanks : (place.below low).keepBlanks = (place.keepBlanks || e.keepsBlanks) := by
        simp [Place.below, Markup.Element.keepsBlanks, hslot]
      refine ⟨_, _, _, children, hblanks, rfl, hchildren, ?_⟩
      simp [allNodes, Node.all]
    · rw [if_neg hslot] at hn
      obtain ⟨-, -, children, hchildren, rfl⟩ := hn
      have hblanks : (place.belowElement low e.tag).keepBlanks = (place.keepBlanks || e.keepsBlanks) := by
        simp [Place.belowElement, Markup.Element.keepsBlanks, Bool.or_assoc]
      refine ⟨_, _, _, children, hblanks, rfl, hchildren, ?_⟩
      simp [allNodes, Node.all]

theorem OnceBecomes.inner (h : OnceBecomes final place e directives body low high nodes) :
    ∃ place' low' high' nodes', place'.keepBlanks = (place.keepBlanks || e.keepsBlanks) ∧
      place'.inIteration = place.inIteration ∧ body place' low' high' nodes' ∧ allNodes nodes' ⊆ allNodes nodes := by
  unfold OnceBecomes AloneBecomes at h
  split at h
  · obtain ⟨children, -, hchildren, rfl⟩ := h
    obtain ⟨place', low', high', nodes', hblanks, hiteration, hbody, hsub⟩ := hchildren.inner
    refine ⟨place', low', high', nodes', hblanks, hiteration, hbody, ?_⟩
    simpa [allNodes, Node.all, Chain.all] using List.subset_cons_of_subset _ hsub
  · exact h.inner

/-- What an element becomes has in it what the siblings inside the element become. -/
theorem ContentBecomes.inner (h : ContentBecomes final place e directives body low high nodes) :
    ∃ place' low' high' nodes', place'.keepBlanks = (place.keepBlanks || e.keepsBlanks) ∧
      place'.inIteration = (place.inIteration || directives.iteration.isSome) ∧ body place' low' high' nodes' ∧
      allNodes nodes' ⊆ allNodes nodes := by
  unfold ContentBecomes IterationBecomes at h
  cases hloop : directives.iteration with
  | none =>
    rw [hloop] at h
    simpa using h.inner
  | some loop =>
    rw [hloop] at h
    obtain ⟨children, -, hchildren, rfl⟩ := h
    obtain ⟨place', low', high', nodes', hblanks, hiteration, hbody, hsub⟩ := hchildren.inner
    refine ⟨place', low', high', nodes', hblanks, by simp [hiteration, Place.iterated], hbody, ?_⟩
    simpa [allNodes, Node.all] using List.subset_cons_of_subset _ hsub

theorem OnceBecomes.alone {test : Expr} {negate : Bool} (hcondition : directives.condition = some (.alone test negate))
    (h : OnceBecomes final place e directives body low high nodes) :
    ∃ id p children place' low' high', .conditional id p (.branch test negate children .done) ∈ allNodes nodes ∧
      BareBecomes final place' e directives body low' high' children := by
  unfold OnceBecomes AloneBecomes at h
  rw [hcondition] at h
  obtain ⟨children, -, hchildren, rfl⟩ := h
  exact ⟨low, e.position, children, place.within low, low + 1, high, by simp [allNodes, Node.all], hchildren⟩

theorem ContentBecomes.alone {test : Expr} {negate : Bool}
    (hcondition : directives.condition = some (.alone test negate))
    (h : ContentBecomes final place e directives body low high nodes) :
    ∃ id p children place' low' high', .conditional id p (.branch test negate children .done) ∈ allNodes nodes ∧
      BareBecomes final place' e directives body low' high' children := by
  unfold ContentBecomes IterationBecomes at h
  split at h
  · exact h.alone hcondition
  · obtain ⟨children, -, hchildren, rfl⟩ := h
    obtain ⟨id, p, inner, place', low', high', hmem, hinner⟩ := hchildren.alone hcondition
    exact ⟨id, p, inner, place', low', high', by simp [allNodes, Node.all, hmem], hinner⟩

end Inner

/-- An element becomes something, which is a part of what its siblings become unless it is left out with an error. -/
theorem Joins.content {e : Markup.Element} {children rest : List Markup.Node} {chain? : Option Nat}
    {siblings : Chain × List Node} (h : Joins config final place e children rest low high chain? siblings) :
    ∃ place' low' high' body, place'.inIteration = place.inIteration ∧ place'.keepBlanks = place.keepBlanks ∧
      ElementContent config final place'.inIteration e children place' low' high' body ∧
      (final.IsClean → allNodes body ⊆ allSiblings siblings) := by
  cases h with
  | first _ _ hbody _ =>
    refine ⟨place.within _, _, _, _, rfl, rfl, hbody, fun _ => ?_⟩
    simp [allSiblings, allNodes, Node.all, Chain.all]
  | next _ hbody _ =>
    refine ⟨place.within _, _, _, _, rfl, rfl, hbody, fun _ => ?_⟩
    simp [allSiblings, Chain.all]
  | last _ hbody _ =>
    refine ⟨place.within _, _, _, _, rfl, rfl, hbody, fun _ => ?_⟩
    simp [allSiblings, Chain.all]
  | stray _ hreport hbody _ =>
    exact ⟨_, _, _, _, rfl, rfl, hbody, fun hclean => absurd hreport (hclean.not_reports rfl)⟩
  | apart _ hbody _ =>
    refine ⟨_, _, _, _, rfl, rfl, hbody, fun _ => ?_⟩
    simp [allSiblings, Chain.all, allNodes_append]

/-- Siblings inside others become something by themselves, which is a part of what the others become unless it is left
out with an error. -/
theorem SiblingsBecome.within {keepBlanks keepBlanks' : Bool} {docs docs' : List Markup.Node}
    (hwithin : SiblingsWithin keepBlanks docs keepBlanks' docs') {nodes : List Node}
    (h : SiblingsBecome config final place none docs low high (.done, nodes))
    (hblanks : place.keepBlanks = keepBlanks) :
    ∃ place' low' high' nodes', place'.keepBlanks = keepBlanks' ∧
      SiblingsBecome config final place' none docs' low' high' (.done, nodes') ∧
      (final.IsClean → allNodes nodes' ⊆ allNodes nodes) := by
  induction hwithin generalizing place low high nodes with
  | here => exact ⟨place, low, high, nodes, hblanks, h, fun _ _ hn => hn⟩
  | inside mem _ ih =>
    obtain ⟨front, rest, rfl⟩ := List.append_of_mem mem
    -- One step inwards: to the element among its siblings, to its content, and to what stands in that.
    obtain ⟨chain?, middle, siblings, hbecome, -, hsub, -⟩ := h.behind
    obtain ⟨place', low', high', body, -, hplace, hbody, hsub'⟩ := hbecome.joins.2.content
    obtain ⟨place₁, low₁, high₁, nodes₁, hblanks₁, -, hnodes₁, hsub₁⟩ := ContentBecomes.inner hbody
    obtain ⟨place₂, low₂, high₂, nodes₂, hblanks₂, hnodes₂, hsub₂⟩ :=
      ih hnodes₁.siblings (by rw [hblanks₁, hplace, hblanks]; rfl)
    refine ⟨place₂, low₂, high₂, nodes₂, hblanks₂, hnodes₂, fun hclean n hn => ?_⟩
    simpa [allSiblings, Chain.all] using hsub (hsub' hclean (hsub₁ (hsub₂ hclean hn)))

end Becomes

/-! ## Branches of a document -/

section Becomes

variable {config : Config} {final : Draft} {place : Place} {low high : Nat}

/-- A branch is reported where no conditional is open. -/
theorem SiblingsBecome.reports_stray {front rest children : List Markup.Node} {e : Markup.Element} {isElse : Bool}
    {nodes : List Node}
    (h : SiblingsBecome config final place none (front ++ .element e children :: rest) low high (.done, nodes))
    (hbranch : e.IsBranch isElse) (hopen : ¬ LeavesOpen config place.keepBlanks front) :
    final.Reports (.branchWithoutIf isElse) e.position := by
  obtain ⟨chain?, middle, siblings, hbecome, -, -, hchain⟩ := h.behind
  have hcondition := hbranch.condition?
  -- In front of the element no conditional is open that it could join.
  obtain rfl : chain? = none := by
    cases chain? with
    | none => rfl
    | some id =>
      rcases hchain rfl with hleaves | ⟨hsome, -⟩
      · exact absurd hleaves hopen
      · cases hsome
  cases hbecome.joins.2 with
  | first hfirst _ _ _ =>
    rw [Markup.condition_read] at hfirst
    cases isElse <;> simp [hfirst] at hcondition
  | stray hstray hreport _ _ =>
    rw [Markup.condition_read] at hstray
    obtain ⟨condition, hstray, hkind⟩ := hstray
    cases isElse with
    | true =>
      obtain rfl : condition = .last := Option.some.inj (hstray.symm.trans hcondition)
      obtain rfl := hkind
      exact hreport
    | false =>
      obtain ⟨test, hcondition⟩ := hcondition
      obtain rfl : condition = .next test := Option.some.inj (hstray.symm.trans hcondition)
      obtain rfl := hkind
      exact hreport
  | apart hapart _ _ =>
    rw [Markup.condition_read] at hapart
    cases isElse with
    | true => simpa using hapart _ hcondition
    | false =>
      obtain ⟨test, hcondition⟩ := hcondition
      simpa using hapart _ hcondition

/-- An `lwc:if` becomes a conditional with its branches. -/
theorem SiblingsBecome.exists_conditional {front rest children : List Markup.Node} {e : Markup.Element} {test : Expr}
    {nodes : List Node}
    (h : SiblingsBecome config final place none (front ++ .element e children :: rest) low high (.done, nodes))
    (hcondition : e.condition? = some (.first test)) :
    ∃ id p chain, .conditional id p chain ∈ allNodes nodes ∧
      BranchesBecome config final
        (⟨some test, e, children⟩ :: laterBranches config place.keepBlanks rest) chain := by
  obtain ⟨chain?, middle, siblings, hbecome, hsuffix, -⟩ := h.behind
  cases hbecome.joins.2 with
  | first hfirst _ hbody hmore =>
    rw [Markup.condition_read, hcondition] at hfirst
    cases hfirst
    exact ⟨_, _, _, mem_allNodes_of_mem (hsuffix.mem List.mem_cons_self), .branch ⟨_, _, _, hbody⟩ hmore.branches⟩
  | next hnext _ _ =>
    rw [Markup.condition_read, hcondition] at hnext
    cases hnext
  | last hlast _ _ =>
    rw [Markup.condition_read, hcondition] at hlast
    cases hlast
  | stray hstray _ _ _ =>
    rw [Markup.condition_read] at hstray
    obtain ⟨condition, hstray, hkind⟩ := hstray
    obtain rfl := Option.some.inj (hstray.symm.trans hcondition)
    exact hkind.elim
  | apart hapart _ _ =>
    rw [Markup.condition_read] at hapart
    simpa using hapart _ hcondition

/-- An element with `if:true` or `if:false` becomes a conditional of its own. -/
theorem SiblingsBecome.exists_alone {front rest children : List Markup.Node} {e : Markup.Element} {test : Expr}
    {negate : Bool} {nodes : List Node} (hclean : final.IsClean)
    (h : SiblingsBecome config final place none (front ++ .element e children :: rest) low high (.done, nodes))
    (hcondition : e.condition? = some (.alone test negate)) :
    ∃ id p body, .conditional id p (.branch test negate body .done) ∈ allNodes nodes ∧
      BareBecomesIn config final e children body := by
  obtain ⟨chain?, middle, siblings, hbecome, -, hsub, -⟩ := h.behind
  obtain ⟨place', low', high', body, -, -, hbody, hsub'⟩ := hbecome.joins.2.content
  obtain ⟨id, p, inner, place₁, low₁, high₁, hmem, hinner⟩ :=
    ContentBecomes.alone ((Markup.condition_read _ e).trans hcondition) hbody
  refine ⟨id, p, inner, ?_, _, _, _, _, hinner⟩
  simpa [allSiblings, Chain.all] using hsub (hsub' hclean hmem)

end Becomes

end Template

end TemplateCompiler
