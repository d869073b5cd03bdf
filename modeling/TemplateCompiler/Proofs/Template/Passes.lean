import TemplateCompiler.Proofs.Template.Numbering
import TemplateCompiler.Template.Analysis
/-!
# The passes of an analysis

An analysis visits the nodes, and then marks the fragments, which looks up what it has found by the numbers of the
nodes. Where these differ, one pass that is told whether it may lift a node knows the same (`analyze_eq`).
-/

namespace TemplateCompiler.Template

/-! ## One pass -/

/-- Whether a node can be rendered as a fragment, what is above it aside. -/
def Node.canBeFragment (mode : RenderMode) : Node → Bool
  | .element id p .native data children =>
    data.namespace = .html && (Node.element id p .native data children).isStatic mode
  | _ => false

/-- What is known of a node; `key` is the number of the next key, and `lift` says that the node may be rendered as a
fragment. -/
def Node.facts (mode : RenderMode) (lift : Bool) (key : Nat) (n : Node) : Facts :=
  { n.plainFacts mode key with isFragment := lift && n.canBeFragment mode }

mutual
/-- What is known of a node and of the nodes below it, in document order, and the number of the next key. -/
def Node.allFacts (mode : RenderMode) (lift : Bool) (key : Nat) : Node → List (Nat × Facts) × Nat
  | .element id p role data children =>
    let n := Node.element id p role data children
    let (facts, next) := factsOf mode (lift && !n.canBeFragment mode) (n.nextKey key) children
    ((id, n.facts mode lift key) :: facts, next)
  | .slot id p name attributes children =>
    let n := Node.slot id p name attributes children
    let (facts, next) := factsOf mode lift (n.nextKey key) children
    ((id, n.facts mode lift key) :: facts, next)
  | .text id p parts => ([(id, (Node.text id p parts).facts mode lift key)], key)
  | .comment id p text => ([(id, (Node.comment id p text).facts mode lift key)], key)
  | .conditional id p chain =>
    let (facts, next) := chain.allFacts mode lift key
    ((id, (Node.conditional id p chain).facts mode lift key) :: facts, next)
  | .iteration id p loop children =>
    let (facts, next) := factsOf mode lift key children
    ((id, (Node.iteration id p loop children).facts mode lift key) :: facts, next)

/-- What is known of the nodes in a chain. -/
def Chain.allFacts (mode : RenderMode) (lift : Bool) (key : Nat) : Chain → List (Nat × Facts) × Nat
  | .done => ([], key)
  | .otherwise children => factsOf mode lift key children
  | .branch _ _ children next =>
    let (first, key) := factsOf mode lift key children
    let (rest, key) := next.allFacts mode lift key
    (first ++ rest, key)

/-- What is known of the nodes in a list. -/
def factsOf (mode : RenderMode) (lift : Bool) (key : Nat) : List Node → List (Nat × Facts) × Nat
  | [] => ([], key)
  | n :: ns =>
    let (first, key) := n.allFacts mode lift key
    let (rest, key) := factsOf mode lift key ns
    (first ++ rest, key)
end

/-! ## Entries -/

mutual
theorem map_fst_allFacts (mode : RenderMode) (lift : Bool) (key : Nat) :
    ∀ n : Node, (n.allFacts mode lift key).1.map Prod.fst = n.all.map Node.id
  | .element id p role data children => by
    simp [Node.allFacts, Node.all, Node.id, map_fst_factsOf]
  | .slot id p name attributes children => by
    simp [Node.allFacts, Node.all, Node.id, map_fst_factsOf]
  | .text .. => rfl
  | .comment .. => rfl
  | .conditional id p chain => by
    simp [Node.allFacts, Node.all, Node.id, map_fst_chainFacts]
  | .iteration id p loop children => by
    simp [Node.allFacts, Node.all, Node.id, map_fst_factsOf]

theorem map_fst_chainFacts (mode : RenderMode) (lift : Bool) (key : Nat) :
    ∀ c : Chain, (c.allFacts mode lift key).1.map Prod.fst = c.all.map Node.id
  | .done => rfl
  | .otherwise children => by
    simp [Chain.allFacts, Chain.all, map_fst_factsOf]
  | .branch test negate children next => by
    simp [Chain.allFacts, Chain.all, map_fst_factsOf, map_fst_chainFacts]

theorem map_fst_factsOf (mode : RenderMode) (lift : Bool) (key : Nat) :
    ∀ nodes : List Node, (factsOf mode lift key nodes).1.map Prod.fst = (allNodes nodes).map Node.id
  | [] => rfl
  | n :: ns => by
    simp [factsOf, allNodes, map_fst_allFacts, map_fst_factsOf]
end

/-! ## Facts without fragments -/

/-- What is known of a node that is no fragment. -/
def Facts.unlifted (facts : Facts) : Facts :=
  { facts with isFragment := false }

/-- What is known of some nodes, none of which is a fragment. -/
def unlifted (facts : List (Nat × Facts)) : List (Nat × Facts) :=
  facts.map fun entry => (entry.1, entry.2.unlifted)

theorem facts_unlifted (mode : RenderMode) (lift : Bool) (key : Nat) (n : Node) :
    n.facts mode false key = (n.facts mode lift key).unlifted := by
  simp [Node.facts, Facts.unlifted]

mutual

theorem allFacts_unlifted (mode : RenderMode) (lift : Bool) : ∀ (n : Node) (key : Nat),
    n.allFacts mode false key = (unlifted (n.allFacts mode lift key).1, (n.allFacts mode lift key).2)
  | .element id p role data children, key => by
    rw [Node.allFacts, Node.allFacts, facts_unlifted mode lift, Bool.false_and]
    dsimp only
    rw [factsOf_unlifted mode (lift && !(Node.element id p role data children).canBeFragment mode) children]
    rfl
  | .slot id p name attributes children, key => by
    rw [Node.allFacts, Node.allFacts, facts_unlifted mode lift]
    dsimp only
    rw [factsOf_unlifted mode lift children]
    rfl
  | .text id p parts, key => by
    rw [Node.allFacts, Node.allFacts, facts_unlifted mode lift]
    rfl
  | .comment id p text, key => by
    rw [Node.allFacts, Node.allFacts, facts_unlifted mode lift]
    rfl
  | .conditional id p chain, key => by
    rw [Node.allFacts, Node.allFacts, facts_unlifted mode lift, chainFacts_unlifted mode lift chain]
    rfl
  | .iteration id p loop children, key => by
    rw [Node.allFacts, Node.allFacts, facts_unlifted mode lift, factsOf_unlifted mode lift children]
    rfl

theorem chainFacts_unlifted (mode : RenderMode) (lift : Bool) : ∀ (c : Chain) (key : Nat),
    c.allFacts mode false key = (unlifted (c.allFacts mode lift key).1, (c.allFacts mode lift key).2)
  | .done, key => by rw [Chain.allFacts, Chain.allFacts]; rfl
  | .otherwise children, key => by rw [Chain.allFacts, Chain.allFacts, factsOf_unlifted mode lift children key]
  | .branch test negate children next, key => by
    rw [Chain.allFacts, Chain.allFacts, factsOf_unlifted mode lift children]
    dsimp only
    rw [chainFacts_unlifted mode lift next]
    simp [unlifted]

theorem factsOf_unlifted (mode : RenderMode) (lift : Bool) : ∀ (nodes : List Node) (key : Nat),
    factsOf mode false key nodes = (unlifted (factsOf mode lift key nodes).1, (factsOf mode lift key nodes).2)
  | [], key => by rw [factsOf, factsOf]; rfl
  | n :: ns, key => by
    rw [factsOf, factsOf, allFacts_unlifted mode lift n key]
    dsimp only
    rw [factsOf_unlifted mode lift ns]
    simp [unlifted]

end

theorem next_allFacts (mode : RenderMode) (lift : Bool) (key : Nat) (n : Node) :
    (n.allFacts mode lift key).2 = (n.allFacts mode false key).2 :=
  (congrArg Prod.snd (allFacts_unlifted mode lift n key)).symm

theorem next_factsOf (mode : RenderMode) (lift : Bool) (key : Nat) (nodes : List Node) :
    (factsOf mode lift key nodes).2 = (factsOf mode false key nodes).2 :=
  (congrArg Prod.snd (factsOf_unlifted mode lift nodes key)).symm

/-! ## The visit -/

mutual
/-- A visit is the pass that lifts nothing. -/
theorem visit_eq (mode : RenderMode) (key : Nat) : ∀ n : Node, n.visit mode key = n.allFacts mode false key
  | .element _ _ _ _ children => by
    simp only [Node.visit, Node.allFacts, visitNodes_eq mode _ children, Bool.false_and]
    rfl
  | .slot _ _ _ _ children => by
    simp only [Node.visit, Node.allFacts, visitNodes_eq mode _ children]
    rfl
  | .text .. => rfl
  | .comment .. => rfl
  | .conditional _ _ chain => by
    simp only [Node.visit, Node.allFacts, visit_chain_eq mode key chain]
    rfl
  | .iteration _ _ _ children => by
    simp only [Node.visit, Node.allFacts, visitNodes_eq mode _ children]
    rfl

theorem visit_chain_eq (mode : RenderMode) (key : Nat) : ∀ c : Chain, c.visit mode key = c.allFacts mode false key
  | .done => rfl
  | .otherwise children => visitNodes_eq mode key children
  | .branch _ _ children next => by
    simp only [Chain.visit, Chain.allFacts, visitNodes_eq mode _ children, visit_chain_eq mode _ next]

theorem visitNodes_eq (mode : RenderMode) (key : Nat) :
    ∀ nodes : List Node, visitNodes mode key nodes = factsOf mode false key nodes
  | [] => rfl
  | n :: ns => by
    simp only [visitNodes, factsOf, visit_eq mode _ n, visitNodes_eq mode _ ns]
end

/-! ## The marking -/

namespace Analysis

variable {front back : List (Nat × Facts)} {id : Nat} {facts : Facts} {keyCount : Nat}

theorem get?_between (hfront : id ∉ front.map Prod.fst) :
    (⟨front ++ (id, facts) :: back, keyCount⟩ : Analysis).get? id = some facts := by
  have hnone : front.lookup id = none := by
    rw [List.lookup_eq_none_iff]
    intro entry hentry
    have : id ≠ entry.1 := fun heq => hfront (heq ▸ List.mem_map_of_mem hentry)
    simpa using this
  rw [get?, List.lookup_append, hnone]
  simp

theorem lift_between (hfront : id ∉ front.map Prod.fst) (hback : id ∉ back.map Prod.fst) :
    (⟨front ++ (id, facts) :: back, keyCount⟩ : Analysis).lift id =
      ⟨front ++ (id, { facts with isFragment := true }) :: back, keyCount⟩ := by
  have hsame {entries : List (Nat × Facts)} (hid : id ∉ entries.map Prod.fst) :
      entries.map (fun entry => (entry.1, if entry.1 = id then { entry.2 with isFragment := true } else entry.2)) =
        entries := by
    refine (List.map_congr_left fun entry hentry => ?_).trans entries.map_id
    have hne : entry.1 ≠ id := fun heq => hid (heq ▸ List.mem_map_of_mem hentry)
    simp [hne]
  simp [lift, hsame hfront, hsame hback]

end Analysis

/-- The numbers of what stands before some nodes, of the nodes, and of what stands behind them differ. -/
def Apart (front : List (Nat × Facts)) (ids : List Nat) (back : List (Nat × Facts)) : Prop :=
  (front.map Prod.fst ++ (ids ++ back.map Prod.fst)).Nodup

theorem Apart.first {front back : List (Nat × Facts)} {ids ids' : List Nat} (h : Apart front (ids ++ ids') back)
    {facts : List (Nat × Facts)} (hfacts : facts.map Prod.fst = ids') : Apart front ids (facts ++ back) := by
  rw [Apart, List.map_append, hfacts]
  simpa [Apart] using h

theorem Apart.rest {front back : List (Nat × Facts)} {ids ids' : List Nat} (h : Apart front (ids ++ ids') back)
    {facts : List (Nat × Facts)} (hfacts : facts.map Prod.fst = ids) : Apart (front ++ facts) ids' back := by
  rw [Apart, List.map_append, hfacts]
  simpa [Apart] using h

/-- The nodes below a node stand behind it. -/
theorem Apart.below {front back : List (Nat × Facts)} {id : Nat} {ids : List Nat} (h : Apart front (id :: ids) back)
    (facts : Facts) : Apart (front ++ [(id, facts)]) ids back :=
  Apart.rest (show Apart front ([id] ++ ids) back from h) rfl

theorem Apart.head {front back : List (Nat × Facts)} {id : Nat} {ids : List Nat} (h : Apart front (id :: ids) back)
    {facts : List (Nat × Facts)} (hfacts : facts.map Prod.fst = ids) :
    id ∉ front.map Prod.fst ∧ id ∉ (facts ++ back).map Prod.fst := by
  rw [Apart, List.nodup_append] at h
  rw [List.map_append, hfacts]
  exact ⟨fun hm => h.2.2 id hm id List.mem_cons_self rfl, (List.nodup_cons.1 h.2.1).1⟩

mutual
/-- The marking of a visited node finds what the pass that may lift it knows. -/
theorem markFragments_allFacts (mode : RenderMode) : ∀ (n : Node) (front back : List (Nat × Facts)) (key count : Nat),
    Apart front (n.all.map Node.id) back →
      n.markFragments ⟨front ++ ((n.allFacts mode false key).1 ++ back), count⟩ =
        ⟨front ++ ((n.allFacts mode true key).1 ++ back), count⟩
  | .element id p .native data children, front, back, key, count, hapart => by
    obtain ⟨hfront, hback⟩ := hapart.head (map_fst_factsOf mode false (key + 1) children)
    have hbelow := markFragments_factsOf mode children _ back (key + 1) count
      (hapart.below ((Node.element id p .native data children).plainFacts mode key))
    rw [List.append_assoc, List.append_assoc] at hbelow
    have hget : (⟨front ++ (((Node.element id p .native data children).allFacts mode false key).1 ++ back), count⟩ :
        Analysis).get? id = some ((Node.element id p .native data children).plainFacts mode key) :=
      Analysis.get?_between hfront
    rw [Node.markFragments, hget]
    by_cases hlift : (Node.element id p .native data children).canBeFragment mode = true
    · rw [if_pos (by simpa [Node.canBeFragment, Node.plainFacts] using hlift)]
      simp only [Node.allFacts, Node.facts, hlift]
      exact Analysis.lift_between hfront hback
    · rw [if_neg (by simpa [Node.canBeFragment, Node.plainFacts] using hlift)]
      simp only [Node.allFacts, Node.facts, hlift]
      exact hbelow
  | .element id p .component data children, front, back, key, count, hapart => by
    have hbelow := markFragments_factsOf mode children _ back (key + 1) count
      (hapart.below ((Node.element id p .component data children).plainFacts mode key))
    rwa [List.append_assoc, List.append_assoc] at hbelow
  | .element id p (.dynamic constructor) data children, front, back, key, count, hapart => by
    have hbelow := markFragments_factsOf mode children _ back (key + 1) count
      (hapart.below ((Node.element id p (.dynamic constructor) data children).plainFacts mode key))
    rwa [List.append_assoc, List.append_assoc] at hbelow
  | .slot id p name attributes children, front, back, key, count, hapart => by
    have hbelow := markFragments_factsOf mode children _ back (key + 1) count
      (hapart.below ((Node.slot id p name attributes children).plainFacts mode key))
    rwa [List.append_assoc, List.append_assoc] at hbelow
  | .text .., _, _, _, _, _ => rfl
  | .comment .., _, _, _, _, _ => rfl
  | .conditional id p chain, front, back, key, count, hapart => by
    have hbelow := markFragments_chainFacts mode chain _ back key count
      (hapart.below ((Node.conditional id p chain).plainFacts mode key))
    rwa [List.append_assoc, List.append_assoc] at hbelow
  | .iteration id p loop children, front, back, key, count, hapart => by
    have hbelow := markFragments_factsOf mode children _ back key count
      (hapart.below ((Node.iteration id p loop children).plainFacts mode key))
    rwa [List.append_assoc, List.append_assoc] at hbelow

theorem markFragments_chainFacts (mode : RenderMode) :
    ∀ (c : Chain) (front back : List (Nat × Facts)) (key count : Nat), Apart front (c.all.map Node.id) back →
      c.markFragments ⟨front ++ ((c.allFacts mode false key).1 ++ back), count⟩ =
        ⟨front ++ ((c.allFacts mode true key).1 ++ back), count⟩
  | .done, _, _, _, _, _ => rfl
  | .otherwise children, front, back, key, count, hapart =>
    markFragments_factsOf mode children front back key count hapart
  | .branch _ _ children next, front, back, key, count, hapart => by
    rw [Chain.all, List.map_append] at hapart
    have hfirst := markFragments_factsOf mode children front
      ((next.allFacts mode false (factsOf mode false key children).2).1 ++ back) key count
      (hapart.first (map_fst_chainFacts mode _ _ next))
    have hrest := markFragments_chainFacts mode next (front ++ (factsOf mode true key children).1) back
      (factsOf mode true key children).2 count (hapart.rest (map_fst_factsOf mode _ _ children))
    simp only [Chain.allFacts, Chain.markFragments, List.append_assoc] at hfirst hrest ⊢
    rw [next_factsOf mode true key children] at hrest ⊢
    rw [hfirst, hrest]

theorem markFragments_factsOf (mode : RenderMode) :
    ∀ (nodes : List Node) (front back : List (Nat × Facts)) (key count : Nat),
      Apart front ((allNodes nodes).map Node.id) back →
        markFragmentsIn ⟨front ++ ((factsOf mode false key nodes).1 ++ back), count⟩ nodes =
          ⟨front ++ ((factsOf mode true key nodes).1 ++ back), count⟩
  | [], _, _, _, _, _ => rfl
  | n :: ns, front, back, key, count, hapart => by
    rw [allNodes, List.map_append] at hapart
    have hfirst := markFragments_allFacts mode n front
      ((factsOf mode false (n.allFacts mode false key).2 ns).1 ++ back) key count (hapart.first (map_fst_factsOf mode _ _ ns))
    have hrest := markFragments_factsOf mode ns (front ++ (n.allFacts mode true key).1) back
      (n.allFacts mode true key).2 count (hapart.rest (map_fst_allFacts mode _ _ n))
    simp only [factsOf, markFragmentsIn, List.append_assoc] at hfirst hrest ⊢
    rw [next_allFacts mode true key n] at hrest ⊢
    rw [hfirst, hrest]
end

/-- The analysis of nodes with distinct numbers knows what one pass over them does. -/
theorem analyze_eq (config : Config) {nodes : List Node} (hd : (numbersOf nodes).Nodup) :
    analyze config nodes =
      ⟨(factsOf config.renderMode config.optimizeStatic 0 nodes).1,
        (factsOf config.renderMode config.optimizeStatic 0 nodes).2⟩ := by
  unfold analyze
  dsimp only
  rw [visitNodes_eq]
  cases config.optimizeStatic with
  | false => rfl
  | true =>
    have hapart : Apart [] ((allNodes nodes).map Node.id) [] := by simpa [Apart, numbersOf] using hd
    have hmarked := markFragments_factsOf config.renderMode nodes [] [] 0
      (factsOf config.renderMode true 0 nodes).2 hapart
    rw [List.nil_append, List.append_nil, List.nil_append, List.append_nil] at hmarked
    rw [if_pos rfl, ← next_factsOf config.renderMode true, hmarked]

end TemplateCompiler.Template
