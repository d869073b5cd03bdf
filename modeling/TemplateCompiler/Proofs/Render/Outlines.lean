import TemplateCompiler.Proofs.Render.Shown
/-!
# Outlines of templates

An outline is a tree with something at each place and groups of further outlines below it. The outline of a template
has its nodes at their places, down to the fragments: the branches of a conditional are groups, and so are the children
of a component that are put into one slot. A node that is not below a fragment stands in the outline once.
-/

namespace TemplateCompiler.Template

/-- A tree with items at its places. -/
inductive Outline (α : Type) where
  | node (item : α) (groups : List (List (Outline α)))

namespace Outline

variable {α β : Type}

mutual

/-- The outline with all items replaced. -/
def map (f : α → β) : Outline α → Outline β
  | .node item groups => .node (f item) (mapGroups f groups)

/-- The outlines with all items replaced. -/
def mapAll (f : α → β) : List (Outline α) → List (Outline β)
  | [] => []
  | o :: os => o.map f :: mapAll f os

/-- The groups with all items replaced. -/
def mapGroups (f : α → β) : List (List (Outline α)) → List (List (Outline β))
  | [] => []
  | os :: groups => mapAll f os :: mapGroups f groups

end

mutual

/-- The items of an outline, each before those below it. -/
def items : Outline α → List α
  | .node item groups => item :: itemsOfGroups groups

/-- The items of some outlines. -/
def itemsOf : List (Outline α) → List α
  | [] => []
  | o :: os => o.items ++ itemsOf os

/-- The items of some groups. -/
def itemsOfGroups : List (List (Outline α)) → List α
  | [] => []
  | os :: groups => itemsOf os ++ itemsOfGroups groups

end

mutual

theorem items_map (f : α → β) : ∀ o : Outline α, (o.map f).items = o.items.map f
  | .node item groups => by rw [map, items, items, List.map_cons, items_mapGroups f groups]

theorem items_mapAll (f : α → β) : ∀ os : List (Outline α), itemsOf (mapAll f os) = (itemsOf os).map f
  | [] => rfl
  | o :: os => by rw [mapAll, itemsOf, itemsOf, List.map_append, items_map f o, items_mapAll f os]

theorem items_mapGroups (f : α → β) :
    ∀ groups : List (List (Outline α)), itemsOfGroups (mapGroups f groups) = (itemsOfGroups groups).map f
  | [] => rfl
  | os :: groups => by
    rw [mapGroups, itemsOfGroups, itemsOfGroups, List.map_append, items_mapAll f os, items_mapGroups f groups]

end

theorem itemsOf_eq_flatMap (os : List (Outline α)) : itemsOf os = os.flatMap items := by
  induction os with
  | nil => rfl
  | cons o os ih => rw [itemsOf, List.flatMap_cons, ih]

theorem itemsOfGroups_eq_flatMap (groups : List (List (Outline α))) : itemsOfGroups groups = groups.flatMap itemsOf := by
  induction groups with
  | nil => rfl
  | cons os groups ih => rw [itemsOfGroups, List.flatMap_cons, ih]

end Outline

/-! ## Outlines of nodes -/

/-- A node where it stands: `locals` are the names that iterations around it bind. -/
structure Placed where
  locals : List String
  node : Node

section Outlines

variable (isFragment : Node → Bool)

mutual

/-- The outline of a tree of nodes, down to the fragments. -/
def Node.outline (locals : List String) : Node → Outline Placed
  | .element id p role data children =>
    .node ⟨locals, .element id p role data children⟩ <|
      if isFragment (.element id p role data children) then []
      else match role with
        | .native => [outlines locals (fun _ => true) children]
        | .component | .dynamic _ =>
          (Render.slotNames children).map fun name => outlines locals (·.slotTarget == name) children
  | .slot id p name attributes children =>
    .node ⟨locals, .slot id p name attributes children⟩ <|
      if isFragment (.slot id p name attributes children) then [] else [outlines locals (fun _ => true) children]
  | .text id p parts => .node ⟨locals, .text id p parts⟩ []
  | .comment id p text => .node ⟨locals, .comment id p text⟩ []
  | .conditional id p chain =>
    .node ⟨locals, .conditional id p chain⟩ <|
      if isFragment (.conditional id p chain) then [] else chain.outlines locals
  | .iteration id p loop children =>
    .node ⟨locals, .iteration id p loop children⟩ <|
      if isFragment (.iteration id p loop children) then []
      else [outlines (locals ++ loop.names) (fun _ => true) children]

/-- The outlines of the branches of a chain, and of what is shown where no test holds. -/
def Chain.outlines (locals : List String) : Chain → List (List (Outline Placed))
  | .done => [[]]
  | .otherwise children => [Template.outlines locals (fun _ => true) children]
  | .branch _ _ children next => Template.outlines locals (fun _ => true) children :: next.outlines locals

/-- The outlines of the nodes of a list that `keep` picks. -/
def outlines (locals : List String) (keep : Node → Bool) : List Node → List (Outline Placed)
  | [] => []
  | n :: ns => if keep n then n.outline locals :: outlines locals keep ns else outlines locals keep ns

end

/-! ## Nodes in outlines -/

/-- The nodes that a place in an outline stands for: all that are in a fragment, and else one. -/
def Placed.nodes (p : Placed) : List Node :=
  if isFragment p.node then p.node.all else [p.node]

/-- The nodes that some places stand for. -/
def nodesOf (places : List Placed) : List Node :=
  places.flatMap (Placed.nodes isFragment)

/-- A list is put together again from what belongs to each of its keys. -/
theorem flatMap_filter_perm {α β : Type} [BEq β] [LawfulBEq β] (key : α → β) (xs : List α) :
    ((xs.map key).eraseDups.flatMap fun b => xs.filter (key · == b)).Perm xs := by
  induction hn : xs.length using Nat.strongRecOn generalizing xs with
  | _ n ih =>
    cases xs with
    | nil => exact .nil
    | cons x xs =>
      have hkeys : (xs.map key).filter (fun b => !b == key x) = (xs.filter fun y => !key y == key x).map key := by
        rw [List.filter_map]
        rfl
      have hothers : ∀ b ∈ ((xs.filter fun y => !key y == key x).map key).eraseDups,
          (x :: xs).filter (key · == b) = (xs.filter fun y => !key y == key x).filter (key · == b) := by
        intro b hb
        have hne : ¬ b = key x := by
          obtain ⟨y, hy, rfl⟩ := List.mem_map.1 (List.mem_eraseDups.1 hb)
          simpa using (List.mem_filter.1 hy).2
        have hx : (key x == b) = false := by simpa using Ne.symm hne
        rw [List.filter_cons, hx, List.filter_filter]
        refine List.filter_congr fun y _ => ?_
        by_cases hy : key y = b
        · simp [hy, hne]
        · simp [hy]
      have hrest := ih _ (by rw [← hn]; exact Nat.lt_succ_of_le (List.length_filter_le _ xs))
        (xs.filter fun y => !key y == key x) rfl
      rw [List.map_cons, List.eraseDups_cons, List.flatMap_cons, hkeys, List.flatMap_congr hothers, List.filter_cons,
        if_pos (by simp)]
      refine ((hrest.append_left _).trans ?_).cons x
      exact List.filter_append_perm (fun y => key y == key x) xs

theorem allNodes_eq_flatMap (nodes : List Node) : allNodes nodes = nodes.flatMap Node.all := by
  induction nodes with
  | nil => rfl
  | cons n ns ih => rw [allNodes, List.flatMap_cons, ih]

/-- What stands for a node and the groups below it stands for all nodes of its tree, where the groups stand for those
below the node. -/
theorem nodesOf_cons_perm {locals : List String} {n : Node} {groups : List (List (Outline Placed))} {below : List Node}
    (hall : n.all = n :: below) (hgroups : (nodesOf isFragment (Outline.itemsOfGroups groups)).Perm below) :
    (nodesOf isFragment (Outline.items (.node ⟨locals, n⟩ (if isFragment n then [] else groups)))).Perm n.all := by
  by_cases hf : isFragment n
  · simp [hf, Outline.items, Outline.itemsOfGroups, nodesOf, Placed.nodes]
  · rw [if_neg hf, Outline.items, hall]
    simpa [nodesOf, Placed.nodes, hf] using hgroups

theorem nodesOf_single {locals : List String} {nodes : List Node}
    (h : (nodesOf isFragment (Outline.itemsOf (outlines isFragment locals (fun _ => true) nodes))).Perm
      (allNodes (nodes.filter fun _ => true))) :
    (nodesOf isFragment (Outline.itemsOfGroups [outlines isFragment locals (fun _ => true) nodes])).Perm
      (allNodes nodes) := by
  simpa [Outline.itemsOfGroups] using h

/-- The groups of slots stand for all nodes of a list. -/
theorem nodesOf_slots {locals : List String} {nodes : List Node}
    (h : ∀ keep, (nodesOf isFragment (Outline.itemsOf (outlines isFragment locals keep nodes))).Perm
      (allNodes (nodes.filter keep))) :
    (nodesOf isFragment (Outline.itemsOfGroups
      ((Render.slotNames nodes).map fun name => outlines isFragment locals (·.slotTarget == name) nodes))).Perm
      (allNodes nodes) := by
  have hgroups : nodesOf isFragment (Outline.itemsOfGroups
      ((Render.slotNames nodes).map fun name => outlines isFragment locals (·.slotTarget == name) nodes)) =
      (Render.slotNames nodes).flatMap fun name =>
        nodesOf isFragment (Outline.itemsOf (outlines isFragment locals (·.slotTarget == name) nodes)) := by
    simp only [Outline.itemsOfGroups_eq_flatMap, nodesOf, List.flatMap_map, List.flatMap_assoc]
  rw [hgroups, allNodes_eq_flatMap nodes]
  calc List.Perm _ ((Render.slotNames nodes).flatMap fun name => allNodes (nodes.filter (·.slotTarget == name))) :=
        List.Perm.flatMap_left _ fun name _ => h _
    _ = ((Render.slotNames nodes).flatMap fun name => nodes.filter (·.slotTarget == name)).flatMap Node.all := by
      simp only [allNodes_eq_flatMap, List.flatMap_assoc]
    List.Perm _ (nodes.flatMap Node.all) := (flatMap_filter_perm Node.slotTarget nodes).flatMap_right _

mutual

theorem nodesOf_outline (locals : List String) :
    ∀ n : Node, (nodesOf isFragment (n.outline isFragment locals).items).Perm n.all
  | .element id p role data children => by
    refine nodesOf_cons_perm isFragment rfl ?_
    cases role with
    | native => exact nodesOf_single isFragment (nodesOf_outlines locals _ children)
    | component => exact nodesOf_slots isFragment fun keep => nodesOf_outlines locals keep children
    | dynamic constructor => exact nodesOf_slots isFragment fun keep => nodesOf_outlines locals keep children
  | .slot id p name attributes children =>
    nodesOf_cons_perm isFragment rfl (nodesOf_single isFragment (nodesOf_outlines locals _ children))
  | .text id p parts => by simp [Node.outline, Outline.items, Outline.itemsOfGroups, nodesOf, Placed.nodes, Node.all]
  | .comment id p text => by
    simp [Node.outline, Outline.items, Outline.itemsOfGroups, nodesOf, Placed.nodes, Node.all]
  | .conditional id p chain => nodesOf_cons_perm isFragment rfl (nodesOf_chain locals chain)
  | .iteration id p loop children =>
    nodesOf_cons_perm isFragment rfl (nodesOf_single isFragment (nodesOf_outlines (locals ++ loop.names) _ children))

theorem nodesOf_chain (locals : List String) :
    ∀ c : Chain, (nodesOf isFragment (Outline.itemsOfGroups (c.outlines isFragment locals))).Perm c.all
  | .done => .nil
  | .otherwise children => nodesOf_single isFragment (nodesOf_outlines locals _ children)
  | .branch test negate children next => by
    rw [Chain.outlines, Outline.itemsOfGroups, nodesOf, List.flatMap_append]
    have hfirst := nodesOf_outlines locals (fun _ => true) children
    rw [List.filter_true] at hfirst
    exact hfirst.append (nodesOf_chain locals next)

/-- Each node of a list that `keep` picks is in the outlines once, with all that is below it. -/
theorem nodesOf_outlines (locals : List String) (keep : Node → Bool) : ∀ nodes : List Node,
    (nodesOf isFragment (Outline.itemsOf (outlines isFragment locals keep nodes))).Perm (allNodes (nodes.filter keep))
  | [] => .nil
  | n :: ns => by
    rw [outlines, List.filter_cons]
    split
    · rw [Outline.itemsOf, nodesOf, List.flatMap_append]
      exact (nodesOf_outline locals n).append (nodesOf_outlines locals keep ns)
    · exact nodesOf_outlines locals keep ns

end

end Outlines

end TemplateCompiler.Template
