import TemplateCompiler.Proofs.Template.Facts
import TemplateCompiler.Proofs.Render.Outlines
/-!
# Keys

The keys of a template number its elements, components and slots in document order. `numberings` is that numbering of a
list of kinds, `keys_factsOf` says that an analysis gives each node its number in it, and `analyze_keys` that this holds
of every template whose nodes have distinct numbers. A key depends on nothing but the kinds of the nodes, so that it
stays the same wherever the tree is of the same shape.
-/

namespace TemplateCompiler.Template

open Binding (TextPart)

/-! ## Numbering kinds -/

/-- The kinds of nodes that the runtime tells apart by a key. -/
def keyedKinds : List NodeKind := [.element, .component, .slot, .dynamic]

/-- The kinds in order, each with its number if it has a key, where `key` is the number of the next key. -/
def numberings (key : Nat) : List NodeKind → List (Option Nat)
  | [] => []
  | kind :: kinds =>
    if kind ∈ keyedKinds then some key :: numberings (key + 1) kinds else none :: numberings key kinds

/-- How many of the kinds have a key. -/
def keyedCount (kinds : List NodeKind) : Nat :=
  kinds.countP (· ∈ keyedKinds)

section Kinds

variable {key : Nat} {kind : NodeKind} {kinds : List NodeKind}

@[simp] theorem numberings_keyed (h : kind ∈ keyedKinds) :
    numberings key (kind :: kinds) = some key :: numberings (key + 1) kinds := by
  rw [numberings, if_pos h]

@[simp] theorem numberings_unkeyed (h : kind ∉ keyedKinds) :
    numberings key (kind :: kinds) = none :: numberings key kinds := by
  rw [numberings, if_neg h]

@[simp] theorem keyedCount_keyed (h : kind ∈ keyedKinds) : keyedCount (kind :: kinds) = keyedCount kinds + 1 := by
  simp [keyedCount, h]

@[simp] theorem keyedCount_unkeyed (h : kind ∉ keyedKinds) : keyedCount (kind :: kinds) = keyedCount kinds := by
  simp [keyedCount, h]

end Kinds

theorem numberings_append (key : Nat) (xs ys : List NodeKind) :
    numberings key (xs ++ ys) = numberings key xs ++ numberings (key + keyedCount xs) ys := by
  induction xs generalizing key with
  | nil => rfl
  | cons kind kinds ih =>
    rw [List.cons_append]
    by_cases h : kind ∈ keyedKinds
    · rw [numberings_keyed h, numberings_keyed h, keyedCount_keyed h, ih, Nat.add_right_comm, ← Nat.add_assoc,
        List.cons_append]
    · rw [numberings_unkeyed h, numberings_unkeyed h, keyedCount_unkeyed h, ih, List.cons_append]

section Numbered

variable {α : Type} {kind : α → NodeKind} {number? : α → Option Nat} {key : Nat} {xs : List α}

/-- The numbers that are given are consecutive. -/
theorem numbers_filter (h : xs.map number? = numberings key (xs.map kind)) :
    (xs.filter (kind · ∈ keyedKinds)).map number? = (List.range' key (keyedCount (xs.map kind))).map some := by
  induction xs generalizing key with
  | nil => rfl
  | cons x xs ih =>
    rw [List.map_cons, List.map_cons] at h
    by_cases hkeyed : kind x ∈ keyedKinds
    · rw [numberings_keyed hkeyed] at h
      obtain ⟨hx, hxs⟩ := List.cons_eq_cons.1 h
      simp [hkeyed, hx, ih hxs, List.range'_succ]
    · rw [numberings_unkeyed hkeyed] at h
      simpa [hkeyed] using ih (List.cons_eq_cons.1 h).2

/-- What is of another kind is given no number. -/
theorem number?_eq_none (h : xs.map number? = numberings key (xs.map kind)) {x : α} (hx : x ∈ xs)
    (hkind : kind x ∉ keyedKinds) : number? x = none := by
  induction xs generalizing key with
  | nil => cases hx
  | cons y xs ih =>
    rw [List.map_cons, List.map_cons] at h
    rcases List.mem_cons.1 hx with rfl | hx
    · rw [numberings_unkeyed hkind] at h
      exact (List.cons_eq_cons.1 h).1
    · by_cases hkeyed : kind y ∈ keyedKinds
      · rw [numberings_keyed hkeyed] at h
        exact ih (List.cons_eq_cons.1 h).2 hx
      · rw [numberings_unkeyed hkeyed] at h
        exact ih (List.cons_eq_cons.1 h).2 hx

end Numbered

/-! ## Keys of nodes -/

theorem Node.isKeyed_iff (n : Node) : n.isKeyed = true ↔ n.kind ∈ keyedKinds := by
  cases n with
  | element id p role data children => cases role <;> simp [Node.isKeyed, Node.kind, Role.kind, keyedKinds]
  | _ => simp [Node.isKeyed, Node.kind, keyedKinds]

/-- Facts about nodes of the kinds give them their keys, from `key` on, and leave `next` as the number of the next. -/
structure GivesKeys (key : Nat) (kinds : List NodeKind) (facts : List (Nat × Facts)) (next : Nat) : Prop where
  keys : facts.map (fun entry => entry.2.key) = numberings key kinds
  next : next = key + keyedCount kinds

theorem GivesKeys.nil (key : Nat) : GivesKeys key [] [] key :=
  ⟨rfl, rfl⟩

theorem GivesKeys.append {key middle next : Nat} {kinds kinds' : List NodeKind} {facts facts' : List (Nat × Facts)}
    (h : GivesKeys key kinds facts middle) (h' : GivesKeys middle kinds' facts' next) :
    GivesKeys key (kinds ++ kinds') (facts ++ facts') next := by
  constructor
  case keys => rw [List.map_append, h.keys, h'.keys, numberings_append, h.next]
  case next => rw [h'.next, h.next, keyedCount, keyedCount, keyedCount, List.countP_append, Nat.add_assoc]

theorem GivesKeys.cons {key next : Nat} {kinds : List NodeKind} {facts : List (Nat × Facts)} (mode : RenderMode)
    (lift : Bool) (n : Node) (h : GivesKeys (n.nextKey key) kinds facts next) :
    GivesKeys key (n.kind :: kinds) ((n.id, n.facts mode lift key) :: facts) next := by
  have hfirst : GivesKeys key [n.kind] [(n.id, n.facts mode lift key)] (n.nextKey key) := by
    by_cases hkeyed : n.isKeyed = true
    · have hkind := n.isKeyed_iff.1 hkeyed
      exact ⟨by simp [numberings, Node.facts, Node.plainFacts, hkeyed, hkind],
        by simp [Node.nextKey, hkeyed, keyedCount, hkind]⟩
    · have hkind : n.kind ∉ keyedKinds := fun hkind => hkeyed (n.isKeyed_iff.2 hkind)
      exact ⟨by simp [numberings, Node.facts, Node.plainFacts, hkeyed, hkind],
        by simp [Node.nextKey, hkeyed, keyedCount, hkind]⟩
  exact hfirst.append h

mutual

theorem keys_allFacts (mode : RenderMode) (lift : Bool) (key : Nat) : ∀ n : Node,
    GivesKeys key (n.all.map Node.kind) (n.allFacts mode lift key).1 (n.allFacts mode lift key).2
  | .element id p role data children =>
    .cons mode lift (.element id p role data children) (keys_factsOf mode _ _ children)
  | .slot id p name attributes children =>
    .cons mode lift (.slot id p name attributes children) (keys_factsOf mode _ _ children)
  | .text id p parts => .cons mode lift (.text id p parts) (.nil key)
  | .comment id p text => .cons mode lift (.comment id p text) (.nil key)
  | .conditional id p chain => .cons mode lift (.conditional id p chain) (keys_chainFacts mode _ _ chain)
  | .iteration id p loop children => .cons mode lift (.iteration id p loop children) (keys_factsOf mode _ _ children)

theorem keys_chainFacts (mode : RenderMode) (lift : Bool) (key : Nat) : ∀ c : Chain,
    GivesKeys key (c.all.map Node.kind) (c.allFacts mode lift key).1 (c.allFacts mode lift key).2
  | .done => .nil key
  | .otherwise children => keys_factsOf mode lift key children
  | .branch test negate children next => by
    rw [Chain.all, List.map_append]
    exact (keys_factsOf mode lift key children).append (keys_chainFacts mode lift _ next)

theorem keys_factsOf (mode : RenderMode) (lift : Bool) (key : Nat) : ∀ nodes : List Node,
    GivesKeys key ((allNodes nodes).map Node.kind) (factsOf mode lift key nodes).1 (factsOf mode lift key nodes).2
  | [] => .nil key
  | n :: ns => by
    rw [allNodes, List.map_append]
    exact (keys_allFacts mode lift key n).append (keys_factsOf mode lift _ ns)

end

/-! ## Keys of a template -/

/-- The key of a node in an analysis. -/
def Analysis.key? (analysis : Analysis) (n : Node) : Option Nat :=
  (analysis.get? n.id).bind Facts.key

section Keys

variable (config : Config) {nodes : List Node}

theorem map_key?_analyze (hd : (numbersOf nodes).Nodup) :
    (allNodes nodes).map (analyze config nodes).key? = numberings 0 ((allNodes nodes).map Node.kind) := by
  have hfacts : (analyze config nodes).facts = (factsOf config.renderMode config.optimizeStatic 0 nodes).1 := by
    rw [analyze_eq config hd]
  have hids : (analyze config nodes).facts.map Prod.fst = numbersOf nodes := by
    rw [hfacts]
    exact map_fst_factsOf _ _ _ _
  have hlookup : ∀ entry ∈ (analyze config nodes).facts,
      ((analyze config nodes).get? entry.1).bind Facts.key = entry.2.key := by
    rintro ⟨id, facts⟩ hentry
    rw [Analysis.get?, lookup_of_mem (hids ▸ hd) hentry, Option.bind_some]
  -- The facts stand in document order, so looking up every node gives them back one after the other.
  calc (allNodes nodes).map (analyze config nodes).key?
    _ = (numbersOf nodes).map fun id => ((analyze config nodes).get? id).bind Facts.key := by
        rw [numbersOf, List.map_map]
        rfl
    _ = (analyze config nodes).facts.map fun entry => ((analyze config nodes).get? entry.1).bind Facts.key := by
        rw [← hids, List.map_map]
        rfl
    _ = (analyze config nodes).facts.map fun entry => entry.2.key := List.map_congr_left hlookup
    _ = numberings 0 ((allNodes nodes).map Node.kind) := by
        rw [hfacts]
        exact (keys_factsOf _ _ 0 nodes).keys

/-- No two nodes have the same key. -/
theorem eq_of_key?_analyze (hd : (numbersOf nodes).Nodup) {n n' : Node} (hn : n ∈ allNodes nodes)
    (hn' : n' ∈ allNodes nodes) {key : Nat} (hkey : (analyze config nodes).key? n = some key)
    (hkey' : (analyze config nodes).key? n' = some key) : n = n' := by
  have hkeys := map_key?_analyze config hd
  have hnodup : (((allNodes nodes).filter (Node.kind · ∈ keyedKinds)).map (analyze config nodes).key?).Nodup := by
    rw [numbers_filter hkeys]
    exact (List.nodup_range').map fun _ _ => Option.some.inj
  -- A node with a key is of a kind that gets keys.
  have hmem {m : Node} (hm : m ∈ allNodes nodes) (hkey : (analyze config nodes).key? m = some key) :
      m ∈ (allNodes nodes).filter (Node.kind · ∈ keyedKinds) := by
    refine List.mem_filter.2 ⟨hm, ?_⟩
    by_contra hkind
    rw [number?_eq_none hkeys hm (by simpa using hkind)] at hkey
    cases hkey
  exact List.inj_on_of_nodup_map hnodup (hmem hn hkey) (hmem hn' hkey') (hkey.trans hkey'.symm)

theorem keyCount_analyze (hd : (numbersOf nodes).Nodup) :
    (analyze config nodes).keyCount = keyedCount ((allNodes nodes).map Node.kind) := by
  rw [← Nat.zero_add (keyedCount _), analyze_eq config hd]
  exact (keys_factsOf config.renderMode config.optimizeStatic 0 nodes).next

end Keys

/-! ## Trees of the same shape -/

mutual

/-- The kinds of a node and of the nodes below it, at their places. -/
def Node.kinds : Node → Outline NodeKind
  | .element _ _ role _ children => .node role.kind [kindsOf children]
  | .slot _ _ _ _ children => .node .slot [kindsOf children]
  | .text .. => .node .text []
  | .comment .. => .node .comment []
  | .conditional _ _ chain => .node .conditional chain.kinds
  | .iteration _ _ _ children => .node .iteration [kindsOf children]

/-- The kinds of the nodes in the branches of a chain. -/
def Chain.kinds : Chain → List (List (Outline NodeKind))
  | .done => []
  | .otherwise children => [kindsOf children]
  | .branch _ _ children next => kindsOf children :: next.kinds

/-- The kinds of some nodes and of the nodes below them. What the nodes carry is left out: their numbers, positions and
tags, attributes and listeners, expressions and texts. -/
def kindsOf : List Node → List (Outline NodeKind)
  | [] => []
  | n :: ns => n.kinds :: kindsOf ns

end

mutual

theorem items_kinds : ∀ n : Node, n.kinds.items = n.all.map Node.kind
  | .element id p role data children => by
    simp [Node.kinds, Outline.items, Outline.itemsOfGroups, Node.all, itemsOf_kindsOf children, Node.kind]
  | .slot id p name attributes children => by
    simp [Node.kinds, Outline.items, Outline.itemsOfGroups, Node.all, itemsOf_kindsOf children, Node.kind]
  | .text .. => rfl
  | .comment .. => rfl
  | .conditional id p chain => by
    simp [Node.kinds, Outline.items, Node.all, itemsOfGroups_kinds chain, Node.kind]
  | .iteration id p loop children => by
    simp [Node.kinds, Outline.items, Outline.itemsOfGroups, Node.all, itemsOf_kindsOf children, Node.kind]

theorem itemsOfGroups_kinds : ∀ c : Chain, Outline.itemsOfGroups c.kinds = c.all.map Node.kind
  | .done => rfl
  | .otherwise children => by simp [Chain.kinds, Outline.itemsOfGroups, Chain.all, itemsOf_kindsOf children]
  | .branch test negate children next => by
    simp [Chain.kinds, Outline.itemsOfGroups, Chain.all, itemsOf_kindsOf children, itemsOfGroups_kinds next]

theorem itemsOf_kindsOf : ∀ nodes : List Node, Outline.itemsOf (kindsOf nodes) = (allNodes nodes).map Node.kind
  | [] => rfl
  | n :: ns => by simp [kindsOf, Outline.itemsOf, allNodes, items_kinds n, itemsOf_kindsOf ns]

end

/-- The keys of the nodes that have one are the numbers from 0 on in document order, and a tree of the same shape has
the same keys at the same places, however it is configured. -/
theorem analyze_keys (config : Config) {nodes : List Node} (hd : (numbersOf nodes).Nodup) :
    ((allNodes nodes).filter (·.kind ∈ keyedKinds)).map (analyze config nodes).key? =
        (List.range (analyze config nodes).keyCount).map some ∧
      (∀ n ∈ allNodes nodes, n.kind ∉ keyedKinds →
        ∃ facts, (analyze config nodes).get? n.id = some facts ∧ facts.key = none) ∧
      ∀ (config' : Config) (nodes' : List Node), (numbersOf nodes').Nodup → kindsOf nodes' = kindsOf nodes →
        (allNodes nodes').map (analyze config' nodes').key? = (allNodes nodes).map (analyze config nodes).key? := by
  have hkeys := map_key?_analyze config hd
  refine ⟨?_, ?_, ?_⟩
  · rw [numbers_filter hkeys, keyCount_analyze config hd, List.range_eq_range']
  · intro n hn hkind
    obtain ⟨lift, key, hget⟩ := analyze_get? config hd hn
    refine ⟨_, hget, ?_⟩
    have hnone := number?_eq_none hkeys hn hkind
    rwa [Analysis.key?, hget, Option.bind_some] at hnone
  · intro config' nodes' hd' hkinds
    rw [map_key?_analyze config' hd', hkeys, ← itemsOf_kindsOf, ← itemsOf_kindsOf, hkinds]

/-- A paragraph beside a component in a `div`, with a slot behind it. -/
def paragraphBesideComponent (first : Nat) (attributes : List Attribute) (parts : List TextPart) : List Node :=
  [.element first .first .native { tag := "div", «namespace» := .html, attributes := attributes }
    [.element (first + 1) .first .native { tag := "p", «namespace» := .html } [.text (first + 2) .first parts],
      .element (first + 3) .first .component { tag := "x-foo", «namespace» := .html } []],
   .slot (first + 4) .first "" [] []]

/-- A title, a bound text and other numbers change no key. -/
theorem analyze_keys_titled :
    let plain := paragraphBesideComponent 0 [] [.literal "a"]
    let titled := paragraphBesideComponent 7 [⟨"title", .literal "t", .first, none⟩] [.expression (.identifier "b")]
    (numbersOf plain).Nodup ∧ (numbersOf titled).Nodup ∧ kindsOf titled = kindsOf plain ∧
      (allNodes plain).map (analyze {} plain).key? = [some 0, some 1, none, some 2, some 3] ∧
      (allNodes titled).map (analyze { renderMode := .light, optimizeStatic := false } titled).key? =
        [some 0, some 1, none, some 2, some 3] := by
  intro plain titled
  have hplain : (numbersOf plain).Nodup := by decide
  have htitled : (numbersOf titled).Nodup := by decide
  have hkinds : kindsOf titled = kindsOf plain := rfl
  have hkeys : (allNodes plain).map (analyze {} plain).key? = [some 0, some 1, none, some 2, some 3] := by decide
  have hsame := (analyze_keys {} hplain).2.2 { renderMode := .light, optimizeStatic := false } titled htitled hkinds
  exact ⟨hplain, htitled, hkinds, hkeys, hsame.trans hkeys⟩

end TemplateCompiler.Template
