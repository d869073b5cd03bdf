import TemplateCompiler.Proofs.Render.EveryNode
import TemplateCompiler.Proofs.Template.Iterated
/-!
# Names on a stack

A body can be generated with the names that iterations bind on a stack: an iteration puts its names there before its
children are generated, and takes off as many when that is done, whether it has succeeded or failed. `mimics_node` shows
that this makes the values that `nodeValue` makes of the names on the stack, fails where that fails, and always leaves
the stack as it was. `spread_outlines` shows what is on the stack at each node: the names that are bound at its site.
-/

namespace TemplateCompiler.Render

open TemplateCompiler.Template TemplateCompiler.Binding
open Emitting

/-! ## Generators with a stack -/

/-- A generator at work. -/
structure Generator where
  /-- The names on the stack, those that were put there last at the end. -/
  locals : List String := []
  emission : Emission := {}
  /-- The nodes so far, each with the names that were on the stack then. -/
  visited : List Placed := []

/-- A step of a generator, which may fail at any point. -/
abbrev Generating := ExceptT InternalError (StateM Generator)

namespace Generating

variable {α β : Type}

/-- What comes of a step, and the generator behind it. -/
def start (m : Generating α) (g : Generator) : Except InternalError α × Generator :=
  (m.run.run g : Id _)

/-- A step that reads the names on the stack, and leaves them there. -/
def reading (step : List String → Emitting α) : Generating α :=
  ExceptT.mk fun g =>
    match (step g.locals).run g.emission with
    | .ok (a, emission) => (.ok a, { g with emission })
    | .error error => (.error error, g)

/-- A step that calls a helper. -/
def calling (helper : Helper) (arguments : List Value) : Generating Value :=
  reading fun _ => do
    use helper
    return .call helper.localName arguments

/-- Notes that nodes are generated with what is on the stack. -/
def visit (nodes : List Node) : Generating Unit :=
  modify fun g => { g with visited := g.visited ++ nodes.map (Placed.mk g.locals) }

/-- A step with names on the stack, of which as many are taken off behind it, even if it fails. -/
def under (names : List String) (step : Generating α) : Generating α :=
  ExceptT.mk do
    modify fun g => { g with locals := g.locals ++ names }
    let result ← step.run
    modify fun g => { g with locals := g.locals.take (g.locals.length - names.length) }
    return result

/-- The value that a node is: a fragment, or else what `render` makes of it. -/
def node (sources : Sources) (n : Node) (render : Facts → Generating Value) : Generating Value := do
  let facts ← reading fun _ => liftM (factsFor sources n)
  if facts.isFragment then
    visit n.all
    reading fun _ => fragmentValue n facts
  else
    visit [n]
    render facts

/-- The array of the values of `nodes`. -/
def array (nodes : List Node) (values : Generating (List Value)) : Generating Value := do
  if nodes.any Node.isDirective then
    reading fun _ => use .flatten
    let values ← values
    calling .flatten [.array values]
  else
    let values ← values
    return .array values

/-- The children of a component by the slots that they are put into. -/
def slotted (children : List Node) (content : String → Generating Value) : Generating Value := do
  if children.isEmpty then return .undefined
  else return .object (← (slotNames children).mapM fun name => do return (name, .arrow (← content name)))

end Generating

open Generating

mutual

/-- Generates the value that a node is. -/
def generateNode (sources : Sources) : Node → Generating Value
  | .element id p role data children =>
    Generating.node sources (.element id p role data children) fun facts => do
      let tag := Value.string data.tag
      let flags := Value.number facts.hints.mask
      let content (name : String) :=
        Generating.array (children.filter (·.slotTarget == name))
          (generateNodes sources (·.slotTarget == name) children)
      match role with
      | .native =>
        reading fun _ => use .element
        let options ← reading fun locals => options sources locals (.element id p role data children) data facts
        let content ← Generating.array children (generateNodes sources (fun _ => true) children)
        calling .element [tag, options, content, flags]
      | .component =>
        reading fun _ => use .customElement
        let component ← reading fun _ => liftM (componentFor sources data.tag)
        let options ← reading fun locals => options sources locals (.element id p role data children) data facts
        let slotted ← Generating.slotted children content
        calling .customElement [tag, component, options, slotted, flags]
      | .dynamic constructor =>
        reading fun _ => use .dynamicComponent
        let constructed ← reading fun locals => return exprValue locals constructor
        let options ← reading fun locals => options sources locals (.element id p role data children) data facts
        let slotted ← Generating.slotted children content
        calling .dynamicComponent [tag, constructed, options, slotted, flags]
  | .slot id p name attributes children =>
    Generating.node sources (.slot id p name attributes children) fun facts => do
      reading fun _ => use .slot
      let options ← reading fun locals =>
        slotOptions locals (.slot id p name attributes children) attributes facts
      let fallback ← Generating.array children (generateNodes sources (fun _ => true) children)
      calling .slot [.string name, options, fallback, .raw "$slotset", .number facts.hints.mask]
  | .text id p parts =>
    Generating.node sources (.text id p parts) fun _ => reading fun locals => textValue locals parts
  | .comment id p text =>
    Generating.node sources (.comment id p text) fun _ => calling .comment [.string text]
  | .conditional id p chain =>
    Generating.node sources (.conditional id p chain) fun _ => generateChain sources chain
  | .iteration id p loop children =>
    Generating.node sources (.iteration id p loop children) fun _ => do
      reading fun _ => use .iterator
      -- What is iterated over stands outside the iteration, so its names are not on the stack yet.
      let iterable ← reading fun locals => return exprValue locals loop.iterable
      let body ← under loop.names
        (Generating.array children (generateNodes sources (fun _ => true) children))
      calling .iterator [iterable, .function loop.names body]

/-- Generates the value that the branches of a conditional are. -/
def generateChain (sources : Sources) : Chain → Generating Value
  | .done => return .array []
  | .otherwise children => Generating.array children (generateNodes sources (fun _ => true) children)
  | .branch test negate children next => do
    let test ← reading fun locals => return .raw ((if negate then "!" else "") ++ test.toJs locals)
    let consequent ← Generating.array children (generateNodes sources (fun _ => true) children)
    let alternate ← generateChain sources next
    return .conditional test consequent alternate

/-- Generates the values of the nodes in a list that `keep` picks. -/
def generateNodes (sources : Sources) (keep : Node → Bool) : List Node → Generating (List Value)
  | [] => return []
  | n :: ns =>
    if keep n then do
      let value ← generateNode sources n
      return value :: (← generateNodes sources keep ns)
    else generateNodes sources keep ns

end

/-- Generates the body of a render function. -/
def generateBody (sources : Sources) (nodes : List Node) : Generating Value :=
  Generating.array nodes (generateNodes sources (fun _ => true) nodes)

/-! ## Runs -/

namespace Generating

variable {α β : Type}

@[simp] theorem start_pure (a : α) (g : Generator) : (pure a : Generating α).start g = (.ok a, g) := rfl

theorem start_bind (m : Generating α) (k : α → Generating β) (g : Generator) :
    (m >>= k).start g =
      match m.start g with
      | (.ok a, g') => (k a).start g'
      | (.error error, g') => (.error error, g') := by
  unfold start
  simp only [ExceptT.run_bind, StateT.run_bind]
  rcases h : m.run.run g with ⟨result, g'⟩
  cases result <;> rfl

theorem start_reading (step : List String → Emitting α) (g : Generator) :
    (reading step).start g =
      match (step g.locals).run g.emission with
      | .ok (a, emission) => (.ok a, { g with emission })
      | .error error => (.error error, g) := rfl

theorem start_visit (nodes : List Node) (g : Generator) :
    (visit nodes).start g = (.ok (), { g with visited := g.visited ++ nodes.map (Placed.mk g.locals) }) := rfl

theorem start_under (names : List String) (step : Generating α) (g : Generator) :
    (under names step).start g =
      let ended := step.start { g with locals := g.locals ++ names }
      (ended.1, { ended.2 with locals := ended.2.locals.take (ended.2.locals.length - names.length) }) := rfl

/-! ## Steps on a stack and steps with arguments -/

/-- With the names on the stack, the step makes what `f` makes and visits the places, or it fails as `f` does. In both
cases the stack is as before. -/
structure Mimics (locals : List String) (m : Generating α) (f : Emitting α) (places : List Placed) : Prop where
  restores : ∀ e visited, (m.start ⟨locals, e, visited⟩).2.locals = locals
  succeeds : ∀ {e a e'} visited, f.run e = .ok (a, e') →
    m.start ⟨locals, e, visited⟩ = (.ok a, ⟨locals, e', visited ++ places⟩)
  fails : ∀ {e error} visited, f.run e = .error error → (m.start ⟨locals, e, visited⟩).1 = .error error

namespace Mimics

variable {locals names : List String} {m : Generating α} {k : α → Generating β} {f : Emitting α} {h : α → Emitting β}
  {places more : List Placed}

theorem result (hm : Mimics locals m f places) (e : Emission) (visited : List Placed) :
    (m.start ⟨locals, e, visited⟩).1 = (f.run e).map Prod.fst := by
  cases hrun : f.run e with
  | error error => exact hm.fails visited hrun
  | ok made => rw [hm.succeeds visited hrun, Except.map]

theorem pure (a : α) : Mimics locals (pure a) (pure a) [] where
  restores _ _ := rfl
  succeeds visited hrun := by
    cases hrun
    rw [List.append_nil, start_pure]
  fails visited hrun := by cases hrun

theorem reading (step : List String → Emitting α) : Mimics locals (reading step) (step locals) [] where
  restores e visited := by
    rw [start_reading]
    split <;> rfl
  succeeds visited hrun := by rw [start_reading, hrun, List.append_nil]
  fails visited hrun := by rw [start_reading, hrun]

theorem bind (hm : Mimics locals m f places) (hk : ∀ a, Mimics locals (k a) (h a) more) :
    Mimics locals (m >>= k) (f >>= h) (places ++ more) where
  restores e visited := by
    have hfirst := hm.restores e visited
    rw [start_bind]
    -- The second step finds the same names on the stack, and if the first one fails there is no second.
    rcases hrun : m.start ⟨locals, e, visited⟩ with ⟨result, stack, e', visited'⟩
    rw [hrun] at hfirst
    obtain rfl : stack = locals := hfirst
    cases result with
    | ok a => exact (hk a).restores e' visited'
    | error error => rfl
  succeeds {e b e'} visited hrun := by
    rw [StateT.run_bind] at hrun
    cases hfirst : f.run e with
    | error error =>
      rw [hfirst] at hrun
      cases hrun
    | ok result =>
      rw [hfirst] at hrun
      rw [start_bind, hm.succeeds visited hfirst, ← List.append_assoc]
      exact (hk result.1).succeeds _ hrun
  fails {e error} visited hrun := by
    rw [StateT.run_bind] at hrun
    cases hfirst : f.run e with
    | error error' =>
      rw [hfirst] at hrun
      cases hrun
      have hfails := hm.fails visited hfirst
      rw [start_bind]
      rcases hstart : m.start ⟨locals, e, visited⟩ with ⟨result, g⟩
      rw [hstart] at hfails
      cases hfails
      rfl
    | ok result =>
      rw [hfirst] at hrun
      rw [start_bind, hm.succeeds visited hfirst]
      exact (hk result.1).fails _ hrun

/-- A step that visits nothing, and then another one. -/
theorem before (hm : Mimics locals m f []) (hk : ∀ a, Mimics locals (k a) (h a) places) :
    Mimics locals (m >>= k) (f >>= h) places :=
  hm.bind hk

/-- A step, and then another one that visits nothing. -/
theorem behind (hm : Mimics locals m f places) (hk : ∀ a, Mimics locals (k a) (h a) []) :
    Mimics locals (m >>= k) (f >>= h) places := by
  have := hm.bind hk
  rwa [List.append_nil] at this

/-- What is made of a value that depends on the names on the stack. -/
theorem fetch {value : List String → α} {f : Emitting β} (hk : Mimics locals (k (value locals)) f places) :
    Mimics locals (Generating.reading (fun locals => return value locals) >>= k) f places :=
  ⟨hk.restores, hk.succeeds, hk.fails⟩

/-- A look-up, and what is done with a result of it. -/
theorem lookUp (x : Except InternalError α) (hk : ∀ a, x = .ok a → Mimics locals (k a) (h a) places) :
    Mimics locals (Generating.reading (fun _ => liftM x) >>= k) (liftM x >>= h) places := by
  cases x with
  | error error =>
    constructor
    case restores => exact fun _ _ => rfl
    case succeeds =>
      intro e b e' visited hrun
      cases hrun
    case fails =>
      intro e error' visited hrun
      cases hrun
      rfl
  | ok a => exact hk a rfl

/-- The nodes that are visited before a step. -/
theorem visiting (nodes : List Node) (hm : Mimics locals m f places) :
    Mimics locals (visit nodes >>= fun _ => m) f (nodes.map (Placed.mk locals) ++ places) where
  restores e visited := hm.restores e _
  succeeds visited hrun := by
    rw [start_bind, start_visit, ← List.append_assoc]
    exact hm.succeeds _ hrun
  fails visited hrun := by
    rw [start_bind, start_visit]
    exact hm.fails _ hrun

/-- Names that are put on the stack are off it again behind the step, even if that fails. -/
theorem under (hm : Mimics (locals ++ names) m f places) : Mimics locals (under names m) f places where
  restores e visited := by
    have hlocals := hm.restores e visited
    rw [start_under]
    simp [hlocals]
  succeeds visited hrun := by
    rw [start_under]
    simp [hm.succeeds visited hrun]
  fails visited hrun := by
    rw [start_under]
    exact hm.fails visited hrun

theorem mapM {k : α → Generating β} {f : α → Emitting β} {places : α → List Placed} (xs : List α)
    (h : ∀ x, Mimics locals (k x) (f x) (places x)) : Mimics locals (xs.mapM k) (xs.mapM f) (xs.flatMap places) := by
  induction xs with
  | nil => exact pure []
  | cons x xs ih =>
    simp only [List.mapM_cons, List.flatMap_cons]
    exact (h x).bind fun y => ih.behind fun ys => pure (y :: ys)

theorem array {values : Generating (List Value)} {values' : Emitting (List Value)} (nodes : List Node)
    (h : Mimics locals values values' places) :
    Mimics locals (array nodes values) (arrayValue nodes values') places := by
  unfold Generating.array arrayValue
  split
  · refine (reading fun _ => use .flatten).before fun _ => ?_
    exact h.behind fun vs => reading fun _ => call .flatten [.array vs]
  · exact h.behind fun vs => pure (Value.array vs)

theorem slotted {content : String → Generating Value} {content' : String → Emitting Value}
    {places : String → List Placed} (children : List Node)
    (h : ∀ name, Mimics locals (content name) (content' name) (places name)) :
    Mimics locals (slotted children content) (slottedValue children content')
      ((slotNames children).flatMap places) := by
  unfold Generating.slotted slottedValue
  split
  · rename_i hempty
    rw [List.isEmpty_iff.1 hempty]
    exact pure Value.undefined
  · refine Mimics.behind (mapM _ fun name => ?_) fun entries => pure (Value.object entries)
    exact (h name).behind fun v => pure (name, Value.arrow v)

end Mimics

end Generating

/-! ## Bodies on a stack and bodies with arguments -/

/-- The nodes that some places of an outline stand for, each with the names that are bound at its place. -/
def spread (sources : Sources) (places : List Placed) : List Placed :=
  places.flatMap fun p => (p.nodes sources.isFragment).map (Placed.mk p.locals)

theorem spread_append (sources : Sources) (places more : List Placed) :
    spread sources (places ++ more) = spread sources places ++ spread sources more := by
  simp [spread]

section Mimicry

variable {sources : Sources} {locals : List String}

/-- A node is visited before those in its groups, or with all nodes in it if it is a fragment. -/
theorem mimics_generated {n : Node} {render : Facts → Generating Value} {render' : Facts → Emitting Value}
    {groups : List (List (Outline Placed))}
    (h : ∀ facts, Mimics locals (render facts) (render' facts) (spread sources (Outline.itemsOfGroups groups))) :
    Mimics locals (Generating.node sources n render) (renderedValue sources n render')
      (spread sources (Outline.items (.node ⟨locals, n⟩ (if sources.isFragment n then [] else groups)))) := by
  refine .lookUp _ fun facts hfacts => ?_
  -- The places go by the table, and the step by the facts that it has found there.
  have hfragment : sources.isFragment n = facts.isFragment := by
    unfold factsFor at hfacts
    split at hfacts
    · rename_i hget
      cases hfacts
      rw [Sources.isFragment, hget, Option.any_some]
    · cases hfacts
  rw [hfragment]
  by_cases hlift : facts.isFragment = true
  · have hplaces : spread sources (Outline.items (.node ⟨locals, n⟩ [])) = n.all.map (Placed.mk locals) ++ [] := by
      simp [spread, Outline.items, Outline.itemsOfGroups, Placed.nodes, hfragment, hlift]
    simp only [if_pos hlift, hplaces]
    exact .visiting n.all (.reading fun _ => fragmentValue n facts)
  · have hplaces : spread sources (Outline.items (.node ⟨locals, n⟩ groups)) =
        [n].map (Placed.mk locals) ++ spread sources (Outline.itemsOfGroups groups) := by
      simp [spread, Outline.items, Placed.nodes, hfragment, hlift]
    simp only [if_neg hlift, hplaces]
    exact .visiting [n] (h facts)

/-- A node that has no groups is visited alone, or with all nodes in it if it is a fragment. -/
theorem mimics_generated_leaf {n : Node} {render : Facts → Generating Value} {render' : Facts → Emitting Value}
    (h : ∀ facts, Mimics locals (render facts) (render' facts) []) :
    Mimics locals (Generating.node sources n render) (renderedValue sources n render')
      (spread sources (Outline.items (.node ⟨locals, n⟩ []))) := by
  have := @mimics_generated sources locals n render render' [] h
  rwa [ite_self] at this

/-- The children of a node that stand together are one group. -/
theorem mimics_group {children : List Node}
    (h : ∀ keep, Mimics locals (generateNodes sources keep children) (nodeValues sources locals keep children)
      (spread sources (Outline.itemsOf (outlines sources.isFragment locals keep children)))) :
    Mimics locals (Generating.array children (generateNodes sources (fun _ => true) children))
      (arrayValue children (nodeValues sources locals (fun _ => true) children))
      (spread sources (Outline.itemsOfGroups [outlines sources.isFragment locals (fun _ => true) children])) := by
  rw [Outline.itemsOfGroups, Outline.itemsOfGroups, List.append_nil]
  exact .array children (h _)

/-- The children of a component are a group for each slot. -/
theorem mimics_slots {children : List Node}
    (h : ∀ keep, Mimics locals (generateNodes sources keep children) (nodeValues sources locals keep children)
      (spread sources (Outline.itemsOf (outlines sources.isFragment locals keep children)))) :
    Mimics locals
      (Generating.slotted children fun name => Generating.array (children.filter (·.slotTarget == name))
        (generateNodes sources (·.slotTarget == name) children))
      (slottedValue children fun name => arrayValue (children.filter (·.slotTarget == name))
        (nodeValues sources locals (·.slotTarget == name) children))
      (spread sources (Outline.itemsOfGroups ((slotNames children).map fun name =>
        outlines sources.isFragment locals (·.slotTarget == name) children))) := by
  have hplaces : spread sources (Outline.itemsOfGroups ((slotNames children).map fun name =>
        outlines sources.isFragment locals (·.slotTarget == name) children)) =
      (slotNames children).flatMap fun name =>
        spread sources (Outline.itemsOf (outlines sources.isFragment locals (·.slotTarget == name) children)) := by
    simp only [spread, Outline.itemsOfGroups_eq_flatMap, List.flatMap_map, List.flatMap_assoc]
  rw [hplaces]
  exact .slotted children fun name => .array _ (h (·.slotTarget == name))

mutual

/-- On a stack a node becomes what it becomes with the names on the stack. -/
theorem mimics_node (locals : List String) : ∀ n : Node,
    Mimics locals (generateNode sources n) (nodeValue sources locals n)
      (spread sources (n.outline sources.isFragment locals).items)
  | .element id p role data children => by
    unfold generateNode nodeValue
    refine mimics_generated fun facts => ?_
    have hchildren := fun keep => mimics_nodes locals keep children
    cases role with
    | native =>
      refine .before (.reading _) fun _ => ?_
      refine .before (.reading _) fun options => ?_
      exact (mimics_group hchildren).behind fun content => .reading _
    | component =>
      refine .before (.reading _) fun _ => ?_
      refine .before (.reading _) fun component => ?_
      refine .before (.reading _) fun options => ?_
      exact (mimics_slots hchildren).behind fun slotted => .reading _
    | dynamic constructor =>
      refine .before (.reading _) fun _ => ?_
      refine .fetch (.before (.reading _) fun options => ?_)
      exact (mimics_slots hchildren).behind fun slotted => .reading _
  | .slot id p name attributes children => by
    unfold generateNode nodeValue
    refine mimics_generated fun facts => ?_
    refine .before (.reading _) fun _ => ?_
    refine .before (.reading _) fun options => ?_
    exact (mimics_group fun keep => mimics_nodes locals keep children).behind fun content => .reading _
  | .text id p parts => by
    unfold generateNode nodeValue
    exact mimics_generated_leaf fun _ => .reading _
  | .comment id p text => by
    unfold generateNode nodeValue
    exact mimics_generated_leaf fun _ => .reading _
  | .conditional id p chain => by
    unfold generateNode nodeValue
    exact mimics_generated fun _ => mimics_chain locals chain
  | .iteration id p loop children => by
    unfold generateNode nodeValue
    refine mimics_generated fun facts => ?_
    -- The children find the names of the iteration on the stack, and what is behind it does not.
    have hchildren := fun keep => mimics_nodes (locals ++ loop.names) keep children
    refine .before (.reading _) fun _ => ?_
    exact .fetch ((mimics_group hchildren).under.behind fun body => .reading _)

theorem mimics_chain (locals : List String) : ∀ c : Chain,
    Mimics locals (generateChain sources c) (chainValue sources locals c)
      (spread sources (Outline.itemsOfGroups (c.outlines sources.isFragment locals)))
  | .done => by
    unfold generateChain chainValue
    exact .pure _
  | .otherwise children => by
    unfold generateChain chainValue
    exact mimics_group fun keep => mimics_nodes locals keep children
  | .branch test negate children next => by
    unfold generateChain chainValue
    have hplaces : Outline.itemsOfGroups ((Chain.branch test negate children next).outlines sources.isFragment locals) =
        Outline.itemsOfGroups [outlines sources.isFragment locals (fun _ => true) children] ++
          Outline.itemsOfGroups (next.outlines sources.isFragment locals) := by
      simp [Chain.outlines, Outline.itemsOfGroups]
    have hfirst := mimics_group fun keep => mimics_nodes locals keep children
    rw [hplaces, spread_append]
    exact .fetch (hfirst.bind fun consequent => (mimics_chain locals next).behind fun alternate => .pure _)

theorem mimics_nodes (locals : List String) (keep : Node → Bool) : ∀ nodes : List Node,
    Mimics locals (generateNodes sources keep nodes) (nodeValues sources locals keep nodes)
      (spread sources (Outline.itemsOf (outlines sources.isFragment locals keep nodes)))
  | [] => by
    unfold generateNodes nodeValues
    exact .pure _
  | n :: ns => by
    unfold generateNodes nodeValues outlines
    split
    · rw [Outline.itemsOf, spread_append]
      exact (mimics_node locals n).bind fun v => (mimics_nodes locals keep ns).behind fun vs => .pure (v :: vs)
    · exact mimics_nodes locals keep ns

end

/-- A body that is generated on an empty stack is the one that is generated without names. -/
theorem mimics_body (nodes : List Node) : Mimics [] (generateBody sources nodes) (bodyValue sources nodes)
    (spread sources (Outline.itemsOf (outlines sources.isFragment [] (fun _ => true) nodes))) :=
  .array nodes (mimics_nodes [] _ nodes)

/-- Behind every node the stack is as before it, also where the generation fails. -/
theorem generateNode_restores (sources : Sources) (n : Node) (g : Generator) :
    ((generateNode sources n).start g).2.locals = g.locals :=
  (mimics_node g.locals n).restores g.emission g.visited

theorem generateNode_eq (sources : Sources) (n : Node) (g : Generator) :
    ((generateNode sources n).start g).1 = ((nodeValue sources g.locals n).run g.emission).map Prod.fst :=
  (mimics_node g.locals n).result g.emission g.visited

end Mimicry

/-! ## What is on the stack -/

section Visits

variable {sources : Sources}

mutual

/-- Where there are no iterations, the same names are bound everywhere. -/
theorem placed_sites (around : List Node) : ∀ n : Node, (∀ m ∈ n.all, m.isIteration = false) →
    (n.sites around).map Site.placed = n.all.map (Placed.mk (localsOf around))
  | .element id p role data children => by
    intro h
    have hbelow := placed_sitesOf (.element id p role data children :: around) children fun m hm =>
      h m (List.mem_cons_of_mem _ hm)
    rw [localsOf_cons_of rfl] at hbelow
    rw [Node.sites, Node.all, List.map_cons, List.map_cons, hbelow]
    rfl
  | .slot id p name attributes children => by
    intro h
    have hbelow := placed_sitesOf (.slot id p name attributes children :: around) children fun m hm =>
      h m (List.mem_cons_of_mem _ hm)
    rw [localsOf_cons_of rfl] at hbelow
    rw [Node.sites, Node.all, List.map_cons, List.map_cons, hbelow]
    rfl
  | .text .. | .comment .. => fun _ => rfl
  | .conditional id p chain => by
    intro h
    have hbelow := placed_chainSites (.conditional id p chain :: around) chain fun m hm =>
      h m (List.mem_cons_of_mem _ hm)
    rw [localsOf_cons_of rfl] at hbelow
    rw [Node.sites, Node.all, List.map_cons, List.map_cons, hbelow]
    rfl
  | .iteration id p loop children => fun h => by cases h _ List.mem_cons_self

theorem placed_chainSites (around : List Node) : ∀ c : Chain, (∀ m ∈ c.all, m.isIteration = false) →
    (c.sites around).map Site.placed = c.all.map (Placed.mk (localsOf around))
  | .done => fun _ => rfl
  | .otherwise children => placed_sitesOf around children
  | .branch _ _ children next => by
    intro h
    rw [Chain.sites, Chain.all, List.map_append, List.map_append,
      placed_sitesOf around children fun m hm => h m (List.mem_append_left _ hm),
      placed_chainSites around next fun m hm => h m (List.mem_append_right _ hm)]

theorem placed_sitesOf (around : List Node) : ∀ nodes : List Node, (∀ m ∈ allNodes nodes, m.isIteration = false) →
    (sitesOf around nodes).map Site.placed = (allNodes nodes).map (Placed.mk (localsOf around))
  | [] => fun _ => rfl
  | n :: ns => by
    intro h
    rw [sitesOf, allNodes, List.map_append, List.map_append,
      placed_sites around n fun m hm => h m (List.mem_append_left _ hm),
      placed_sitesOf around ns fun m hm => h m (List.mem_append_right _ hm)]

end

/-- A place and its groups stand for the site of the node and those below it, where the groups stand for those below. -/
theorem spread_cons_perm {around : List Node} {n : Node} {groups : List (List (Outline Placed))} {below : List Site}
    (hsites : n.sites around = ⟨around, n⟩ :: below)
    (hflat : ∀ m, InFragment sources.isFragment n.all m → m.isIteration = false)
    (hgroups : (spread sources (Outline.itemsOfGroups groups)).Perm (below.map Site.placed)) :
    (spread sources (Outline.items (.node ⟨localsOf around, n⟩ (if sources.isFragment n then [] else groups)))).Perm
      ((n.sites around).map Site.placed) := by
  by_cases hf : sources.isFragment n = true
  -- A fragment is one place for all nodes in it, and there is no iteration among them that would bind more.
  · rw [placed_sites around n fun m hm => hflat m ⟨n, n.self_mem_all, hf, hm⟩]
    simp [spread, hf, Outline.items, Outline.itemsOfGroups, Placed.nodes]
  · rw [if_neg hf, hsites, List.map_cons]
    simpa [spread, hf, Outline.items, Placed.nodes, Site.placed, Site.locals] using
      hgroups.cons (Site.placed ⟨around, n⟩)

theorem spread_single {around nodes : List Node}
    (h : ∀ keep, (spread sources (Outline.itemsOf (outlines sources.isFragment (localsOf around) keep nodes))).Perm
      ((sitesOf around (nodes.filter keep)).map Site.placed)) :
    (spread sources (Outline.itemsOfGroups
      [outlines sources.isFragment (localsOf around) (fun _ => true) nodes])).Perm
      ((sitesOf around nodes).map Site.placed) := by
  have := h fun _ => true
  rw [List.filter_true] at this
  rwa [Outline.itemsOfGroups, Outline.itemsOfGroups, List.append_nil]

theorem spread_slots {around nodes : List Node}
    (h : ∀ keep, (spread sources (Outline.itemsOf (outlines sources.isFragment (localsOf around) keep nodes))).Perm
      ((sitesOf around (nodes.filter keep)).map Site.placed)) :
    (spread sources (Outline.itemsOfGroups ((slotNames nodes).map fun name =>
      outlines sources.isFragment (localsOf around) (·.slotTarget == name) nodes))).Perm
      ((sitesOf around nodes).map Site.placed) := by
  calc (spread sources (Outline.itemsOfGroups ((slotNames nodes).map fun name =>
          outlines sources.isFragment (localsOf around) (·.slotTarget == name) nodes)))
    _ = (slotNames nodes).flatMap fun name => spread sources
          (Outline.itemsOf (outlines sources.isFragment (localsOf around) (·.slotTarget == name) nodes)) := by
      simp only [spread, Outline.itemsOfGroups_eq_flatMap, List.flatMap_map, List.flatMap_assoc]
    List.Perm _ ((slotNames nodes).flatMap fun name =>
          (sitesOf around (nodes.filter (·.slotTarget == name))).map Site.placed) :=
      List.Perm.flatMap_left _ fun name _ => h _
    _ = ((slotNames nodes).flatMap fun name => nodes.filter (·.slotTarget == name)).flatMap fun n =>
          (n.sites around).map Site.placed := by
      simp only [sitesOf_eq_flatMap, List.map_flatMap, List.flatMap_assoc]
    List.Perm _ (nodes.flatMap fun n => (n.sites around).map Site.placed) :=
      (flatMap_filter_perm Node.slotTarget nodes).flatMap_right _
    _ = (sitesOf around nodes).map Site.placed := by rw [sitesOf_eq_flatMap, List.map_flatMap]

mutual

theorem spread_outline (around : List Node) : ∀ n : Node,
    (∀ m, InFragment sources.isFragment n.all m → m.isIteration = false) →
    (spread sources (n.outline sources.isFragment (localsOf around)).items).Perm ((n.sites around).map Site.placed)
  | .element id p role data children => by
    intro h
    have hchildren := fun keep => spread_outlines (.element id p role data children :: around) keep children fun m hm =>
      h m (hm.mono _ (List.subset_cons_self _ _))
    refine spread_cons_perm rfl h ?_
    rw [← localsOf_cons_of (n := .element id p role data children) rfl]
    cases role with
    | native => exact spread_single hchildren
    | component => exact spread_slots hchildren
    | dynamic constructor => exact spread_slots hchildren
  | .slot id p name attributes children => by
    intro h
    have hchildren := fun keep => spread_outlines (.slot id p name attributes children :: around) keep children
      fun m hm => h m (hm.mono _ (List.subset_cons_self _ _))
    refine spread_cons_perm rfl h ?_
    rw [← localsOf_cons_of (n := .slot id p name attributes children) rfl]
    exact spread_single hchildren
  | .text id p parts => by
    intro h
    have := @spread_cons_perm sources around (.text id p parts) [] [] rfl h .nil
    rwa [ite_self] at this
  | .comment id p text => by
    intro h
    have := @spread_cons_perm sources around (.comment id p text) [] [] rfl h .nil
    rwa [ite_self] at this
  | .conditional id p chain => by
    intro h
    refine spread_cons_perm rfl h ?_
    rw [← localsOf_cons_of (n := .conditional id p chain) rfl]
    exact spread_chain _ chain fun m hm => h m (hm.mono _ (List.subset_cons_self _ _))
  | .iteration id p loop children => by
    intro h
    have hchildren := fun keep => spread_outlines (.iteration id p loop children :: around) keep children
      fun m hm => h m (hm.mono _ (List.subset_cons_self _ _))
    have hlocals : localsOf (.iteration id p loop children :: around) = localsOf around ++ loop.names :=
      localsOf_cons _ _
    refine spread_cons_perm rfl h ?_
    rw [← hlocals]
    exact spread_single hchildren

theorem spread_chain (around : List Node) : ∀ c : Chain,
    (∀ m, InFragment sources.isFragment c.all m → m.isIteration = false) →
    (spread sources (Outline.itemsOfGroups (c.outlines sources.isFragment (localsOf around)))).Perm
      ((c.sites around).map Site.placed)
  | .done => fun _ => .nil
  | .otherwise children => fun h => spread_single fun keep => spread_outlines around keep children h
  | .branch test negate children next => by
    intro h
    have hfirst := spread_outlines around (fun _ => true) children fun m hm =>
      h m (hm.mono _ (List.subset_append_left _ _))
    have hnext := spread_chain around next fun m hm => h m (hm.mono _ (List.subset_append_right _ _))
    rw [List.filter_true] at hfirst
    rw [Chain.outlines, Outline.itemsOfGroups, spread_append, Chain.sites, List.map_append]
    exact hfirst.append hnext

/-- What is visited in the outlines of the nodes that `keep` picks are the sites of these nodes. -/
theorem spread_outlines (around : List Node) (keep : Node → Bool) : ∀ nodes : List Node,
    (∀ m, InFragment sources.isFragment (allNodes nodes) m → m.isIteration = false) →
    (spread sources (Outline.itemsOf (outlines sources.isFragment (localsOf around) keep nodes))).Perm
      ((sitesOf around (nodes.filter keep)).map Site.placed)
  | [] => fun _ => .nil
  | n :: ns => by
    intro h
    have hrest := spread_outlines around keep ns fun m hm => h m (hm.mono _ (List.subset_append_right _ _))
    rw [outlines, List.filter_cons]
    split
    · rw [Outline.itemsOf, spread_append, sitesOf, List.map_append]
      exact (spread_outline around n fun m hm => h m (hm.mono _ (List.subset_append_left _ _))).append hrest
    · exact hrest

end

end Visits

end TemplateCompiler.Render
