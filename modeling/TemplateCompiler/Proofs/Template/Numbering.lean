import TemplateCompiler.Template.Build
/-!
# Numbers of nodes

Building a template numbers its nodes in document order. `Numbers` says of a step that the numbers of the nodes it
makes follow, in increasing order, the numbers of the nodes before it; `nodes_increasing` says it of a whole template.
-/

namespace TemplateCompiler.Template

open TemplateCompiler.Text

/-- Numbers in increasing order, from `low` on and below `high`. -/
structure Numbered (low high : Nat) (numbersOf : List Nat) : Prop where
  le : low ≤ high
  increasing : numbersOf.Pairwise (· < ·)
  bounds : ∀ i ∈ numbersOf, low ≤ i ∧ i < high

theorem Numbered.nil (n : Nat) : Numbered n n [] :=
  ⟨Nat.le_refl n, .nil, by simp⟩

theorem Numbered.append {low mid high : Nat} {xs ys : List Nat} (hx : Numbered low mid xs)
    (hy : Numbered mid high ys) : Numbered low high (xs ++ ys) := by
  refine ⟨Nat.le_trans hx.le hy.le, List.pairwise_append.2 ⟨hx.increasing, hy.increasing, ?_⟩, ?_⟩
  · intro x hxs y hys
    exact Nat.lt_of_lt_of_le (hx.bounds x hxs).2 (hy.bounds y hys).1
  · intro i hi
    rcases List.mem_append.1 hi with hi | hi
    · exact ⟨(hx.bounds i hi).1, Nat.lt_of_lt_of_le (hx.bounds i hi).2 hy.le⟩
    · exact ⟨Nat.le_trans hx.le (hy.bounds i hi).1, (hy.bounds i hi).2⟩

theorem Numbered.next {low high : Nat} {numbersOf : List Nat} (h : Numbered low high numbersOf) :
    Numbered low (high + 1) (numbersOf ++ [high]) :=
  h.append ⟨by omega, by simp, by simp⟩

theorem Numbered.sublist {low high : Nat} {xs ys : List Nat} (h : Numbered low high ys) (hs : xs.Sublist ys) :
    Numbered low high xs :=
  ⟨h.le, h.increasing.sublist hs, fun i hi => h.bounds i (hs.subset hi)⟩

/-- The numbers of the nodes of some trees, in document order. -/
def numbersOf (nodes : List Node) : List Nat :=
  (allNodes nodes).map Node.id

namespace Building

variable {α β : Type}

/-- Where the numbers `before` have been given, the step gives further ones, and `after` are all of them. -/
def Numbers (before : List Nat) (m : Building α) (after : α → List Nat) : Prop :=
  ∀ low draft, Numbered low draft.table.size before →
    Numbered low (m.run draft).2.table.size (after (m.run draft).1)

theorem Numbers.pure {before : List Nat} {a : α} {after : α → List Nat} (h : after a = before) :
    Numbers before (pure a) after := by
  intro low draft hn
  subst h
  exact hn

theorem Numbers.bind {before : List Nat} {m : Building α} {mid : α → List Nat} {k : α → Building β}
    {after : β → List Nat} (hm : Numbers before m mid) (hk : ∀ a, Numbers (mid a) (k a) after) :
    Numbers before (m >>= k) after := by
  intro low draft hn
  exact hk _ low _ (hm low draft hn)

theorem Numbers.weaken {before : List Nat} {m : Building α} {after after' : α → List Nat}
    (hm : Numbers before m after) (h : ∀ a, (after' a).Sublist (after a)) : Numbers before m after' :=
  fun low draft hn => (hm low draft hn).sublist (h _)

theorem Numbers.ite {before : List Nat} {m m' : Building α} {after : α → List Nat} (c : Bool)
    (hm : Numbers before m after) (hm' : Numbers before m' after) : Numbers before (if c then m else m') after := by
  split
  · exact hm
  · exact hm'

/-- What a step does does not depend on the numbers given before it. -/
theorem Numbers.after {m : Building α} {made : α → List Nat} (hm : Numbers [] m made) (before : List Nat) :
    Numbers before m fun a => before ++ made a := by
  intro low draft hn
  exact hn.append (hm draft.table.size draft (.nil _))

theorem numbers_note (before : List Nat) (diagnostics : List Diagnostic) :
    Numbers before (note diagnostics) fun _ => before :=
  fun _ _ hn => hn

theorem numbers_report (before : List Nat) (problems : List Problem) (position : Position) :
    Numbers before (report problems position) fun _ => before :=
  numbers_note before _

theorem numbers_allocate (before : List Nat) (parent : Option Nat) (label : String) (position : Position) :
    Numbers before (allocate parent label position) fun id => before ++ [id] := by
  intro low draft hn
  have hsize : ((allocate parent label position).run draft).2.table.size = draft.table.size + 1 :=
    Array.size_push ..
  rw [hsize]
  exact hn.next

theorem numbers_declareSlot (before : List Nat) (name : String) (position : Position) :
    Numbers before (declareSlot name position) fun _ => before := by
  intro low draft hn
  have hsize : ((declareSlot name position).run draft).2.table = draft.table := by
    unfold declareSlot
    simp only [StateT.run_bind, StateT.run_get, pure_bind]
    split <;> rfl
  rw [hsize]
  exact hn

theorem numbers_iterationAround (before : List Nat) (id : Nat) :
    Numbers before (iterationAround id) fun _ => before :=
  fun _ _ hn => hn

end Building

open Building

/-! ## The parts of a template -/

theorem numbers_buildText (place : Place) (text : String) (position : Position) :
    Numbers [] (buildText place text position) fun n? => numbersOf n?.toList := by
  unfold buildText
  cases shown place.keepBlanks text with
  | none => exact .pure rfl
  | some text =>
    dsimp only
    cases Binding.splitText text.toList with
    | error e =>
      refine .bind (numbers_report [] _ _) fun _ => ?_
      exact .pure rfl
    | ok parts =>
      refine .bind (numbers_allocate [] _ _ _) fun id => ?_
      exact .pure rfl

theorem numbers_buildComment (config : Config) (place : Place) (text : String) (position : Position) :
    Numbers [] (buildComment config place text position) fun n? => numbersOf n?.toList := by
  unfold buildComment
  split
  · refine .bind (numbers_allocate [] _ _ _) fun id => ?_
    exact .pure rfl
  · exact .pure rfl

section Element

variable {body : Place → Building (List Node)} (hbody : ∀ place, Numbers [] (body place) numbersOf)
include hbody

theorem numbers_buildElement (place : Place) (id : Nat) (e : Markup.Element) (directives : Directives) :
    Numbers [id] (buildElement place id e directives body) fun n => numbersOf [n] := by
  unfold buildElement
  refine .bind (numbers_report [id] _ _) fun _ => ?_
  refine .bind (numbers_note [id] _) fun _ => ?_
  refine .bind ((hbody _).after [id]) fun children => ?_
  exact .pure (by simp [numbersOf, allNodes, Node.all, Node.id])

theorem numbers_buildSlot (place : Place) (id : Nat) (e : Markup.Element) (directives : Directives) :
    Numbers [id] (buildSlot place id e directives body) fun n => numbersOf [n] := by
  have hrest (slot : String × List Attribute × List Diagnostic) : Numbers [id] (do
      note slot.2.2
      declareSlot slot.1 e.position
      let children ← body (place.below id)
      return .slot id e.position slot.1 slot.2.1 children : Building Node) fun n => numbersOf [n] := by
    refine .bind (numbers_note [id] _) fun _ => ?_
    refine .bind (numbers_declareSlot [id] _ _) fun _ => ?_
    refine .bind ((hbody _).after [id]) fun children => ?_
    exact .pure (by simp [numbersOf, allNodes, Node.all, Node.id])
  have hdirective (slot : String × List Attribute × List Diagnostic) :=
    Numbers.ite (directives.key.isSome || directives.dynamic.isSome)
      (.bind (numbers_report [id] [.slotDirective] e.position) fun _ => hrest slot) (hrest slot)
  unfold buildSlot
  refine .bind (numbers_iterationAround [id] id) fun iteration? => ?_
  cases iteration? with
  | none => exact hdirective (slotAttributes "" [] e.attributes)
  | some iteration => exact .bind (numbers_report [id] _ _) fun _ => hdirective (slotAttributes "" [] e.attributes)

theorem numbers_buildTag (place : Place) (e : Markup.Element) (directives : Directives) :
    Numbers [] (buildTag place e directives body) fun n => numbersOf [n] := by
  unfold buildTag
  refine .bind (numbers_allocate [] _ _ _) fun id => ?_
  split
  · exact numbers_buildSlot hbody place id e directives
  · exact numbers_buildElement hbody place id e directives

theorem numbers_buildNested (place : Place) (e : Markup.Element) (directives : Directives) (directed : Bool) :
    Numbers [] (buildNested place e directives directed body) numbersOf := by
  unfold buildNested
  refine .bind (numbers_report [] _ _) fun _ => ?_
  refine .bind (numbers_note [] _) fun _ => ?_
  exact hbody place

theorem numbers_buildIteration (place : Place) (position : Position) (loop : Option Iteration) :
    Numbers [] (buildIteration place position loop body) numbersOf := by
  unfold buildIteration
  cases loop with
  | none => exact hbody place
  | some loop =>
    refine .bind (numbers_allocate [] _ _ _) fun id => ?_
    refine .bind ((hbody _).after [id]) fun children => ?_
    exact .pure (by simp [numbersOf, allNodes, Node.all, Node.id])

theorem numbers_buildAlone (place : Place) (position : Position) (condition : Option Condition) :
    Numbers [] (buildAlone place position condition body) numbersOf := by
  unfold buildAlone
  split
  · refine .bind (numbers_allocate [] _ _ _) fun id => ?_
    refine .bind ((hbody _).after [id]) fun children => ?_
    exact .pure (by simp [numbersOf, allNodes, Node.all, Node.id, Chain.all])
  · exact hbody place

theorem numbers_buildContent (place : Place) (e : Markup.Element) (directives : Directives) :
    Numbers [] (buildContent place e directives body) numbersOf := by
  refine numbers_buildIteration (fun place => ?_) place _ _
  refine numbers_buildAlone (fun place => ?_) place _ _
  split
  · exact numbers_buildNested hbody place e directives _
  · refine .bind (numbers_buildTag hbody place e directives) fun n => ?_
    exact .pure rfl

end Element

/-- The numbers of the nodes in the branches that siblings add to a conditional, and of the nodes behind them. -/
def siblingNumbers (siblings : Chain × List Node) : List Nat :=
  siblings.1.all.map Node.id ++ numbersOf siblings.2

theorem numbersOf_sublist_siblingNumbers (siblings : Chain × List Node) : (numbersOf siblings.2).Sublist (siblingNumbers siblings) :=
  List.sublist_append_right _ _

theorem numbersOf_append (xs ys : List Node) : numbersOf (xs ++ ys) = numbersOf xs ++ numbersOf ys := by
  induction xs with
  | nil => rfl
  | cons n ns ih => simp [numbersOf, allNodes] at ih ⊢; exact ih

theorem sublist_withSiblings (nodes : List Node) (siblings : Chain × List Node) :
    (siblingNumbers (.done, nodes ++ siblings.2)).Sublist (numbersOf nodes ++ siblingNumbers siblings) := by
  show (numbersOf (nodes ++ siblings.2)).Sublist _
  rw [numbersOf_append]
  exact (List.Sublist.refl _).append (numbersOf_sublist_siblingNumbers siblings)

mutual
theorem numbers_buildChildren (config : Config) (place : Place) :
    ∀ node : Markup.Node, Numbers [] (buildChildren config place node) numbersOf
  | .element _ children => by
    unfold buildChildren
    refine .bind (numbers_buildSiblings config place none children) fun siblings => ?_
    exact (Numbers.pure rfl).weaken fun _ => numbersOf_sublist_siblingNumbers siblings
  | .text _ _ => by
    unfold buildChildren
    exact .pure rfl
  | .comment _ _ => by
    unfold buildChildren
    exact .pure rfl

theorem numbers_buildSiblings (config : Config) (place : Place) (chain? : Option Nat) :
    ∀ nodes : List Markup.Node, Numbers [] (buildSiblings config place chain? nodes) siblingNumbers
  | [] => by
    unfold buildSiblings
    exact .pure rfl
  | .text text position :: rest => by
    unfold buildSiblings
    refine .bind (numbers_buildText place text position) fun n? => ?_
    cases n? with
    | none => exact numbers_buildSiblings config place chain? rest
    | some n =>
      refine .bind ((numbers_buildSiblings config place none rest).after _) fun siblings => ?_
      exact (Numbers.pure rfl).weaken fun _ => sublist_withSiblings [n] siblings
  | .comment text position :: rest => by
    unfold buildSiblings
    refine .bind (numbers_buildComment config place text position) fun n? => ?_
    cases n? with
    | none => exact numbers_buildSiblings config place chain? rest
    | some n =>
      refine .bind ((numbers_buildSiblings config place none rest).after _) fun siblings => ?_
      exact (Numbers.pure rfl).weaken fun _ => sublist_withSiblings [n] siblings
  | .element e children :: rest => by
    unfold buildSiblings
    have hcontent := fun place' e' directives => numbers_buildContent
      (fun place => numbers_buildChildren config place (.element e children)) place' e' directives
    have hrest := fun chain? => numbers_buildSiblings config place chain? rest
    dsimp only
    refine .bind (numbers_note [] _) fun _ => ?_
    split
    · refine .bind (numbers_allocate [] _ _ _) fun id => ?_
      refine .bind ((hcontent _ _ _).after _) fun body => ?_
      refine .bind ((hrest _).after _) fun siblings => ?_
      exact .pure (by simp [siblingNumbers, numbersOf, allNodes, Node.all, Node.id, Chain.all])
    · refine .bind (hcontent _ _ _) fun body => ?_
      refine .bind ((hrest _).after _) fun siblings => ?_
      exact .pure (by simp [siblingNumbers, numbersOf, Chain.all])
    · refine .bind (hcontent _ _ _) fun body => ?_
      refine .bind ((hrest _).after _) fun siblings => ?_
      have hs : (siblingNumbers (.otherwise body, siblings.2)).Sublist (numbersOf body ++ siblingNumbers siblings) :=
        (List.Sublist.refl _).append (numbersOf_sublist_siblingNumbers siblings)
      exact (Numbers.pure rfl).weaken fun _ => hs
    · refine .bind (numbers_report [] _ _) fun _ => ?_
      refine .bind (hcontent _ _ _) fun body => ?_
      exact ((hrest _).after _).weaken fun siblings => List.sublist_append_right _ _
    · refine .bind (numbers_report [] _ _) fun _ => ?_
      refine .bind (hcontent _ _ _) fun body => ?_
      exact ((hrest _).after _).weaken fun siblings => List.sublist_append_right _ _
    · refine .bind (hcontent _ _ _) fun nodes => ?_
      refine .bind ((hrest _).after _) fun siblings => ?_
      exact (Numbers.pure rfl).weaken fun _ => sublist_withSiblings nodes siblings
end

/-- The nodes of a template have increasing numbers. -/
theorem numbersOf_increasing (config : Config) (document : List Markup.Node) :
    (numbersOf (ofDocument config document).nodes).Pairwise (· < ·) := by
  unfold ofDocument
  split
  · exact .nil
  · rename_i e children _
    have h := numbers_buildSiblings (rootAttributes config e.attributes).1
      { svg := (rootAttributes config e.attributes).1.namespace = .svgHint } none children 0
      { diagnostics := (rootAttributes config e.attributes).2 } (.nil 0)
    exact h.increasing.sublist (numbersOf_sublist_siblingNumbers _)

/-- The nodes of a template have distinct numbers. -/
theorem numbersOf_nodup (config : Config) (document : List Markup.Node) :
    (numbersOf (ofDocument config document).nodes).Nodup :=
  (numbersOf_increasing config document).imp Nat.ne_of_lt

end TemplateCompiler.Template
