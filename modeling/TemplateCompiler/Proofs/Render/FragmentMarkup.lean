import TemplateCompiler.Proofs.Template.Regular
import TemplateCompiler.Render.Fragment
/-!
# Fragments node by node

The markup of a fragment is written along a tour of its nodes, which enters each of them once, in document order, and
leaves it behind the nodes below it. Where a void element has children they would be missing; no template has such an
element.
-/

namespace TemplateCompiler.Render

open TemplateCompiler.Template

/-- A step of a tour. -/
inductive Visit where
  | enter (n : Node)
  | leave (n : Node)

/-- The node that a step enters. -/
def Visit.entered? : Visit → Option Node
  | .enter n => some n
  | .leave _ => none

mutual

/-- A tour of a node and of all nodes below it. -/
def tour : Node → List Visit
  | .element id p role data children =>
    .enter (.element id p role data children) :: tourOf children ++ [.leave (.element id p role data children)]
  | .slot id p name attributes children =>
    .enter (.slot id p name attributes children) :: tourOf children ++ [.leave (.slot id p name attributes children)]
  | .text id p parts => [.enter (.text id p parts), .leave (.text id p parts)]
  | .comment id p text => [.enter (.comment id p text), .leave (.comment id p text)]
  | .conditional id p chain =>
    .enter (.conditional id p chain) :: tourOfChain chain ++ [.leave (.conditional id p chain)]
  | .iteration id p loop children =>
    .enter (.iteration id p loop children) :: tourOf children ++ [.leave (.iteration id p loop children)]

/-- A tour of the nodes in the branches of a chain. -/
def tourOfChain : Chain → List Visit
  | .done => []
  | .otherwise children => tourOf children
  | .branch _ _ children next => tourOf children ++ tourOfChain next

/-- A tour of some nodes and of all nodes below them. -/
def tourOf : List Node → List Visit
  | [] => []
  | n :: ns => tour n ++ tourOf ns

end

/-- The nodes that a tour enters. -/
def entered (visits : List Visit) : List Node :=
  visits.filterMap Visit.entered?

@[simp] theorem entered_nil : entered [] = [] := rfl

@[simp] theorem entered_enter (n : Node) (visits : List Visit) : entered (.enter n :: visits) = n :: entered visits :=
  rfl

@[simp] theorem entered_leave (n : Node) (visits : List Visit) : entered (.leave n :: visits) = entered visits :=
  rfl

@[simp] theorem entered_append (visits visits' : List Visit) :
    entered (visits ++ visits') = entered visits ++ entered visits' :=
  List.filterMap_append

mutual

/-- A tour enters each node once, in document order. -/
theorem entered_tour : ∀ n : Node, entered (tour n) = n.all
  | .element id p role data children => by simp [tour, Node.all, entered_tourOf children]
  | .slot id p name attributes children => by simp [tour, Node.all, entered_tourOf children]
  | .text id p parts => rfl
  | .comment id p text => rfl
  | .conditional id p chain => by simp [tour, Node.all, entered_tourOfChain chain]
  | .iteration id p loop children => by simp [tour, Node.all, entered_tourOf children]

theorem entered_tourOfChain : ∀ c : Chain, entered (tourOfChain c) = c.all
  | .done => rfl
  | .otherwise children => by rw [tourOfChain, Chain.all, entered_tourOf children]
  | .branch test negate children next => by
    rw [tourOfChain, Chain.all, entered_append, entered_tourOf children, entered_tourOfChain next]

theorem entered_tourOf : ∀ nodes : List Node, entered (tourOf nodes) = allNodes nodes
  | [] => rfl
  | n :: ns => by rw [tourOf, allNodes, entered_append, entered_tour n, entered_tourOf ns]

end

/-! ## The markup of a tour -/

/-- What stands where a node is entered: a start tag, a text or a comment. -/
def enterMarkup : Node → Except InternalError String
  | .element _ _ _ data _ => startTag data
  | .text _ _ parts => do return "".intercalate (← parts.mapM partMarkup)
  | .comment _ _ text => .ok ("<!--" ++ text ++ "-->")
  | _ => .ok ""

/-- What stands where a node is left: an end tag, unless the element is void. -/
def leaveMarkup : Node → String
  | .element _ _ _ data _ => if Markup.isVoidElement data.tag then "" else "</" ++ data.tag ++ ">"
  | _ => ""

/-- What stands where a tour takes a step. -/
def Visit.markup : Visit → Except InternalError String
  | .enter n => enterMarkup n
  | .leave n => .ok (leaveMarkup n)

/-- The markup along a tour. -/
def tourMarkup : List Visit → Except InternalError String
  | [] => .ok ""
  | visit :: visits => do return (← visit.markup) ++ (← tourMarkup visits)

theorem tourMarkup_nil : tourMarkup [] = .ok "" :=
  rfl

theorem append_eq_ok_iff {x y : Except InternalError String} {s : String} :
    (do return (← x) ++ (← y) : Except InternalError String) = .ok s ↔ ∃ a b, x = .ok a ∧ y = .ok b ∧ a ++ b = s := by
  cases x with
  | error e => simp [bind, Except.bind]
  | ok a =>
    cases y with
    | error e => simp [bind, Except.bind]
    | ok b => simp [bind, Except.bind, pure, Except.pure]

theorem tourMarkup_append {visits visits' : List Visit} {html html' : String} (h : tourMarkup visits = .ok html)
    (h' : tourMarkup visits' = .ok html') : tourMarkup (visits ++ visits') = .ok (html ++ html') := by
  induction visits generalizing html with
  | nil =>
    cases h
    rw [List.nil_append, h', String.empty_append]
  | cons visit visits ih =>
    rw [tourMarkup] at h
    obtain ⟨first, rest, hfirst, hrest, rfl⟩ := append_eq_ok_iff.1 h
    rw [List.cons_append, tourMarkup]
    exact append_eq_ok_iff.2 ⟨first, rest ++ html', hfirst, ih hrest, (String.append_assoc ..).symm⟩

/-- The markup along a tour that enters a node, goes through what is below it, and leaves it. -/
theorem tourMarkup_around {n : Node} {visits : List Visit} {start content : String} (hstart : enterMarkup n = .ok start)
    (hcontent : tourMarkup visits = .ok content) :
    tourMarkup (.enter n :: visits ++ [.leave n]) = .ok (start ++ content ++ leaveMarkup n) := by
  have hleave : tourMarkup [.leave n] = .ok (leaveMarkup n) :=
    append_eq_ok_iff.2 ⟨leaveMarkup n, "", rfl, rfl, String.append_empty⟩
  exact tourMarkup_append (append_eq_ok_iff.2 ⟨start, content, hstart, hcontent, rfl⟩) hleave

mutual

/-- The markup of a node is that along the tour of it. -/
theorem tourMarkup_tour : ∀ (n : Node) (html : String), markup n = .ok html → AreRegular n.all →
    tourMarkup (tour n) = .ok html
  | .element id p role data children, html => by
    intro h hregular
    obtain ⟨hvoid, hbelow⟩ := areRegular_cons.1 hregular
    cases role with
    | component => cases h
    | dynamic constructor => cases h
    | native =>
      unfold markup at h
      cases hstart : startTag data with
      | error e =>
        rw [hstart] at h
        cases h
      | ok start =>
        rw [hstart] at h
        by_cases hv : Markup.isVoidElement data.tag = true
        · -- The children of a void element are not written, but there are none.
          obtain rfl : start = html := by simpa [hv, bind, Except.bind, pure, Except.pure] using h
          obtain rfl := hvoid hv
          have htour := tourMarkup_around (n := .element id p .native data []) hstart tourMarkup_nil
          simpa [tour, tourOf, leaveMarkup, hv] using htour
        · cases hcontent : markupOfList children with
          | error e => simp [hv, hcontent, bind, Except.bind] at h
          | ok content =>
            have heq : start ++ content ++ leaveMarkup (.element id p .native data children) = html := by
              simpa [hv, hcontent, leaveMarkup, bind, Except.bind, pure, Except.pure, String.append_assoc] using h
            rw [← heq]
            exact tourMarkup_around hstart (tourMarkup_tourOf children content hcontent hbelow)
  | .slot .., html => fun h => by cases h
  | .text id p parts, html => fun h _ => by
    have htour := tourMarkup_around (n := .text id p parts) h tourMarkup_nil
    simpa [tour, leaveMarkup] using htour
  | .comment id p text, html => fun h _ => by
    have htour := tourMarkup_around (n := .comment id p text) h tourMarkup_nil
    simpa [tour, leaveMarkup] using htour
  | .conditional .., html => fun h => by cases h
  | .iteration .., html => fun h => by cases h

theorem tourMarkup_tourOf : ∀ (nodes : List Node) (html : String), markupOfList nodes = .ok html →
    AreRegular (allNodes nodes) → tourMarkup (tourOf nodes) = .ok html
  | [], html => fun h _ => h
  | n :: ns, html => by
    intro h hregular
    obtain ⟨hn, hns⟩ := areRegular_append.1 hregular
    rw [markupOfList] at h
    obtain ⟨first, rest, hfirst, hrest, rfl⟩ := append_eq_ok_iff.1 h
    exact tourMarkup_append (tourMarkup_tour n first hfirst hn) (tourMarkup_tourOf ns rest hrest hns)

end

end TemplateCompiler.Render
