import TemplateCompiler.Compile
import TemplateCompiler.Proofs.Template.Built
import TemplateCompiler.Proofs.Template.Numbering
/-!
# Ancestors in the table

The table of a template is faithful to its tree. A `Site` is a node with the nodes that it stands in, and the table has
for each site the number of the innermost of those as the parent: `ofDocument_isIndexed` says so of every document, also
of one with errors, whose table has entries for nodes that are left out. `Grown` is what the building guarantees about
the numbers of nodes, and everything here follows from it by induction.
-/

namespace TemplateCompiler

open Text Binding

namespace Template

/-! ## Sites -/

/-- A node with the nodes that it stands in, from the inside. -/
structure Site where
  around : List Node
  node : Node

mutual

/-- The sites of a node and of all nodes below it, where `around` are the nodes that the first one stands in. -/
def Node.sites (around : List Node) : Node → List Site
  | .element id p role data children =>
    ⟨around, .element id p role data children⟩ :: sitesOf (.element id p role data children :: around) children
  | .slot id p name attributes children =>
    ⟨around, .slot id p name attributes children⟩ :: sitesOf (.slot id p name attributes children :: around) children
  | .text id p parts => [⟨around, .text id p parts⟩]
  | .comment id p text => [⟨around, .comment id p text⟩]
  | .conditional id p chain => ⟨around, .conditional id p chain⟩ :: chain.sites (.conditional id p chain :: around)
  | .iteration id p loop children =>
    ⟨around, .iteration id p loop children⟩ :: sitesOf (.iteration id p loop children :: around) children

/-- The sites in the branches of a chain. -/
def Chain.sites (around : List Node) : Chain → List Site
  | .done => []
  | .otherwise children => sitesOf around children
  | .branch _ _ children next => sitesOf around children ++ next.sites around

/-- The sites of some nodes, in document order. -/
def sitesOf (around : List Node) : List Node → List Site
  | [] => []
  | n :: ns => n.sites around ++ sitesOf around ns

end

mutual

theorem map_node_sites (around : List Node) : ∀ n : Node, (n.sites around).map Site.node = n.all
  | .element .. => by simp [Node.sites, Node.all, map_node_sitesOf]
  | .slot .. => by simp [Node.sites, Node.all, map_node_sitesOf]
  | .text .. => rfl
  | .comment .. => rfl
  | .conditional .. => by simp [Node.sites, Node.all, map_node_chainSites]
  | .iteration .. => by simp [Node.sites, Node.all, map_node_sitesOf]

theorem map_node_chainSites (around : List Node) : ∀ c : Chain, (c.sites around).map Site.node = c.all
  | .done => rfl
  | .otherwise _ => by simp [Chain.sites, Chain.all, map_node_sitesOf]
  | .branch .. => by simp [Chain.sites, Chain.all, map_node_sitesOf, map_node_chainSites]

/-- There is one site for each node. -/
theorem map_node_sitesOf (around : List Node) : ∀ nodes : List Node,
    (sitesOf around nodes).map Site.node = allNodes nodes
  | [] => rfl
  | n :: ns => by simp [sitesOf, allNodes, map_node_sites, map_node_sitesOf]

end

theorem sitesOf_eq_flatMap (around : List Node) (nodes : List Node) :
    sitesOf around nodes = nodes.flatMap (Node.sites around) := by
  induction nodes with
  | nil => rfl
  | cons n ns ih => rw [sitesOf, List.flatMap_cons, ih]

/-- Whether the node is an iteration. -/
def Node.isIteration : Node → Bool
  | .iteration .. => true
  | _ => false

theorem any_isIteration_cons {n : Node} {around : List Node} (h : n.isIteration = false) :
    (n :: around).any Node.isIteration = around.any Node.isIteration := by
  rw [List.any_cons, h, Bool.false_or]

/-- The nodes right below a node that is no conditional. -/
def Node.children? : Node → Option (List Node)
  | .element _ _ _ _ children | .slot _ _ _ _ children | .iteration _ _ _ children => some children
  | .text .. | .comment .. => some []
  | .conditional .. => none

theorem Node.all_of_children? {n : Node} {children : List Node} (h : n.children? = some children) :
    n.all = n :: allNodes children := by
  cases n <;> cases h <;> rfl

theorem Node.sites_of_children? {n : Node} {children : List Node} (h : n.children? = some children)
    (around : List Node) : n.sites around = ⟨around, n⟩ :: sitesOf (n :: around) children := by
  cases n <;> cases h <;> rfl

/-! ## Names at sites -/

/-- The names that a node binds for the nodes below it. -/
def Node.boundNames : Node → List String
  | .iteration _ _ loop _ => loop.names
  | _ => []

/-- The names that are bound where `around` are the nodes around, those of the outermost iteration first. -/
def localsOf (around : List Node) : List String :=
  around.reverse.flatMap Node.boundNames

/-- The names that are bound at a site. -/
def Site.locals (s : Site) : List String :=
  localsOf s.around

theorem localsOf_cons (n : Node) (around : List Node) : localsOf (n :: around) = localsOf around ++ n.boundNames := by
  simp [localsOf]

theorem boundNames_eq_nil {n : Node} : n.boundNames = [] ↔ n.isIteration = false := by
  cases n <;> simp [Node.boundNames, Node.isIteration, Iteration.names]

theorem localsOf_cons_of {n : Node} {around : List Node} (h : n.isIteration = false) :
    localsOf (n :: around) = localsOf around := by
  rw [localsOf_cons, boundNames_eq_nil.2 h, List.append_nil]

/-- Every iteration binds a name. -/
theorem localsOf_eq_nil {around : List Node} : localsOf around = [] ↔ around.any Node.isIteration = false := by
  simp [localsOf, boundNames_eq_nil]

/-! ## Grown nodes -/

/-- The table has an entry for a node that stands in the node with the number `parent?`. -/
def NodeTable.Enters (table : NodeTable) (parent? : Option Nat) (n : Node) : Prop :=
  ∃ label, table.get? n.id = some ⟨parent?, label, n.position⟩ ∧ (label = iterationLabel ↔ n.isIteration = true)

/-- A chain of branches for the conditional `chain?` and nodes behind it have grown in the node `parent?`: they have the
numbers from the first one on and below the second, in document order, and the table of the final draft enters them. -/
inductive Grown (final : Draft) : Option Nat → Option Nat → Nat → Nat → Chain → List Node → Prop where
  | nil {parent? chain? : Option Nat} {low : Nat} : Grown final parent? chain? low low .done []
  /-- A node with what has grown in it. -/
  | node {parent? chain? : Option Nat} {middle high : Nat} {n : Node} {children nodes : List Node}
      (shape : n.children? = some children) (entry : final.table.Enters parent? n)
      (below : Grown final (some n.id) none (n.id + 1) middle .done children)
      (others : Grown final parent? none middle high .done nodes) :
      Grown final parent? chain? n.id high .done (n :: nodes)
  /-- A conditional, whose further branches grow before the nodes behind it. -/
  | conditional {parent? chain? : Option Nat} {low middle high : Nat} {p : Position} {test : Expr} {negate : Bool}
      {body nodes : List Node} {next : Chain}
      (entry : final.table.Enters parent? (.conditional low p (.branch test negate body next)))
      (below : Grown final (some low) none (low + 1) middle .done body)
      (others : Grown final parent? (some low) middle high next nodes) :
      Grown final parent? chain? low high .done (.conditional low p (.branch test negate body next) :: nodes)
  | branch {parent? : Option Nat} {id low middle high : Nat} {test : Expr} {negate : Bool} {body nodes : List Node}
      {next : Chain} (below : Grown final (some id) none low middle .done body)
      (others : Grown final parent? (some id) middle high next nodes) :
      Grown final parent? (some id) low high (.branch test negate body next) nodes
  | otherwise {parent? : Option Nat} {id low middle high : Nat} {body nodes : List Node}
      (below : Grown final (some id) none low middle .done body)
      (others : Grown final parent? none middle high .done nodes) :
      Grown final parent? (some id) low high (.otherwise body) nodes
  /-- What has an error may be left out, and so are its numbers. -/
  | skip {parent? chain? : Option Nat} {low middle high : Nat} {body nodes : List Node} {chain : Chain}
      (error : ¬ final.IsClean) (left : Grown final parent? none low middle .done body)
      (others : Grown final parent? chain? middle high chain nodes) : Grown final parent? chain? low high chain nodes
  /-- A conditional need not get further branches. -/
  | close {parent? chain? : Option Nat} {low high : Nat} {nodes : List Node}
      (others : Grown final parent? none low high .done nodes) : Grown final parent? chain? low high .done nodes

section Grown

variable {final : Draft} {parent? chain? : Option Nat} {low middle high : Nat} {chain : Chain} {xs ys : List Node}

theorem Grown.append (h : Grown final parent? chain? low middle chain xs)
    (h' : Grown final parent? none middle high .done ys) : Grown final parent? chain? low high chain (xs ++ ys) := by
  induction h with
  | nil => exact .close h'
  | node shape entry below _ _ ih => exact .node shape entry below (ih h')
  | conditional entry below _ _ ih => exact .conditional entry below (ih h')
  | branch below _ _ ih => exact .branch below (ih h')
  | otherwise below _ _ ih => exact .otherwise below (ih h')
  | skip error left _ _ ih => exact .skip error left (ih h')
  | close _ ih => exact .close (ih h')

end Grown

/-! ## What grows -/

section Becomes

variable {config : Config} {final : Draft} {place : Place} {low high : Nat}

theorem tagLabel_ne (tag : String) : "<" ++ tag ++ ">" ≠ iterationLabel := by
  intro h
  have := congrArg String.toList h
  simp [iterationLabel] at this

theorem TextBecomes.grown {text : String} {position : Position} {n? : Option Node}
    (h : TextBecomes final place text position low high n?) :
    Grown final place.parent none low high .done n?.toList := by
  unfold TextBecomes at h
  split at h
  · obtain ⟨rfl, rfl⟩ := h
    exact .nil
  · split at h
    · obtain ⟨rfl, rfl, -⟩ := h
      exact .nil
    · obtain ⟨rfl, hentry, rfl⟩ := h
      exact .node (n := .text low position _) rfl ⟨_, hentry, by simp [iterationLabel, Node.isIteration]⟩ .nil .nil

theorem CommentBecomes.grown {text : String} {position : Position} {n? : Option Node}
    (h : CommentBecomes final place config text position low high n?) :
    Grown final place.parent none low high .done n?.toList := by
  unfold CommentBecomes at h
  split at h
  · obtain ⟨rfl, hentry, rfl⟩ := h
    exact .node (n := .comment low position _) rfl ⟨_, hentry, by simp [iterationLabel, Node.isIteration]⟩ .nil .nil
  · obtain ⟨rfl, rfl⟩ := h
    exact .nil

theorem TextBecomes.eq_of_none {text : String} {position : Position}
    (h : TextBecomes final place text position low high none) : low = high := by
  unfold TextBecomes at h
  split at h
  · exact h.1
  · split at h
    · exact h.1
    · cases h.2.2

theorem CommentBecomes.eq_of_none {text : String} {position : Position}
    (h : CommentBecomes final place config text position low high none) : low = high := by
  unfold CommentBecomes at h
  split at h
  · cases h.2.2
  · exact h.1

section Element

variable {e : Markup.Element} {directives : Directives} {body : Content}
  (hbody : ∀ {place low high nodes}, body place low high nodes → Grown final place.parent none low high .done nodes)
include hbody

theorem TagBecomes.grown {n : Node} (h : TagBecomes final place e directives body low high n) :
    Grown final place.parent none low high .done [n] := by
  obtain ⟨hentry, h⟩ := h
  by_cases htag : e.tag = "slot"
  · rw [if_pos htag] at h
    obtain ⟨-, -, children, hchildren, rfl⟩ := h
    refine .node (n := .slot low e.position _ _ children) rfl ⟨_, hentry, ?_⟩ (hbody hchildren) .nil
    simp [tagLabel_ne, Node.isIteration]
  · rw [if_neg htag] at h
    obtain ⟨-, -, children, hchildren, rfl⟩ := h
    refine .node (n := .element low e.position _ _ children) rfl ⟨_, hentry, ?_⟩ (hbody hchildren) .nil
    simp [tagLabel_ne, Node.isIteration]

theorem BareBecomes.grown {nodes : List Node} (h : BareBecomes final place e directives body low high nodes) :
    Grown final place.parent none low high .done nodes := by
  unfold BareBecomes at h
  split at h
  · exact hbody h.2.2
  · obtain ⟨n, hn, rfl⟩ := h
    exact hn.grown hbody

theorem OnceBecomes.grown {nodes : List Node} (h : OnceBecomes final place e directives body low high nodes) :
    Grown final place.parent none low high .done nodes := by
  unfold OnceBecomes AloneBecomes at h
  split at h
  · obtain ⟨children, hentry, hchildren, rfl⟩ := h
    refine .conditional ⟨_, hentry, ?_⟩ (hchildren.grown hbody) .nil
    split <;> simp [iterationLabel, Node.isIteration]
  · exact h.grown hbody

theorem ContentBecomes.grown {nodes : List Node} (h : ContentBecomes final place e directives body low high nodes) :
    Grown final place.parent none low high .done nodes := by
  unfold ContentBecomes IterationBecomes at h
  split at h
  · exact h.grown hbody
  · obtain ⟨children, hentry, hchildren, rfl⟩ := h
    refine .node (n := .iteration low e.position _ children) rfl ⟨_, hentry, ?_⟩ (hchildren.grown hbody) .nil
    simp [Node.isIteration]

end Element

/-- What siblings become has grown. -/
theorem SiblingsBecome.grown {docs : List Markup.Node} {chain? : Option Nat} {siblings : Chain × List Node}
    (h : SiblingsBecome config final place chain? docs low high siblings) :
    Grown final place.parent chain? low high siblings.1 siblings.2 := by
  induction docs using siblings_induction generalizing place chain? low high siblings with
  | nil =>
    obtain ⟨rfl, rfl⟩ := h
    exact .nil
  | text text position rest ih =>
    obtain ⟨n?, middle, hn, ⟨rfl, hmore⟩ | ⟨n, nodes, rfl, hmore, rfl⟩⟩ := h.text
    · obtain rfl := hn.eq_of_none
      exact ih hmore
    · exact .close (hn.grown.append (ih hmore))
  | comment text position rest ih =>
    obtain ⟨n?, middle, hn, ⟨rfl, hmore⟩ | ⟨n, nodes, rfl, hmore, rfl⟩⟩ := h.comment
    · obtain rfl := hn.eq_of_none
      exact ih hmore
    · exact .close (hn.grown.append (ih hmore))
  | element e children rest ihchildren ih =>
    have hcontent {place' : Place} {low high : Nat} {body : List Node}
        (hbody : ElementContent config final place.inIteration e children place' low high body) :
        Grown final place'.parent none low high .done body :=
      ContentBecomes.grown (fun h => ihchildren h.siblings) hbody
    cases h.joins.2 with
    | first _ hentry hbody hmore =>
      exact .conditional ⟨_, hentry, by simp [iterationLabel, Node.isIteration]⟩ (hcontent hbody) (ih hmore)
    | next _ hbody hmore => exact .branch (hcontent hbody) (ih hmore)
    | last _ hbody hmore => exact .otherwise (hcontent hbody) (ih hmore)
    | stray _ hreport hbody hmore =>
      exact .skip (fun hclean => hclean.not_reports rfl hreport) (hcontent hbody) (ih hmore)
    | apart _ hbody hmore => exact .close ((hcontent hbody).append (ih hmore))

end Becomes

/-! ## Numbers and entries -/

/-- The numbers from `low` on and below `high` have entries, and the number of a parent is smaller than that of what
stands in it. -/
structure NodeTable.Rises (table : NodeTable) (low high : Nat) : Prop where
  le : low ≤ high
  entries : ∀ i, low ≤ i → i < high → ∃ entry, table.get? i = some entry ∧ ∀ parent ∈ entry.parent, parent < i

theorem NodeTable.Rises.nil (table : NodeTable) (low : Nat) : table.Rises low low :=
  ⟨Nat.le_refl low, fun i hlow hhigh => by omega⟩

theorem NodeTable.Rises.append {table : NodeTable} {low middle high : Nat} (h : table.Rises low middle)
    (h' : table.Rises middle high) : table.Rises low high := by
  refine ⟨Nat.le_trans h.le h'.le, ?_⟩
  intro i hlow hhigh
  by_cases hi : i < middle
  · exact h.entries i hlow hi
  · exact h'.entries i (by omega) hhigh

theorem NodeTable.Rises.cons {table : NodeTable} {parent? : Option Nat} {n : Node} {high : Nat}
    (hentry : table.Enters parent? n) (hparent : ∀ parent ∈ parent?, parent < n.id)
    (h : table.Rises (n.id + 1) high) : table.Rises n.id high := by
  obtain ⟨label, hget, -⟩ := hentry
  refine ⟨Nat.le_of_succ_le h.le, ?_⟩
  intro i hlow hhigh
  by_cases hi : i = n.id
  · subst hi
    exact ⟨_, hget, hparent⟩
  · exact h.entries i (by omega) hhigh

/-- The numbers are all from `low` on and below `high`, in order. -/
structure Fills (low high : Nat) (numbers : List Nat) : Prop where
  le : low ≤ high
  eq : numbers = List.range' low (high - low)

theorem Fills.nil (low : Nat) : Fills low low [] :=
  ⟨Nat.le_refl low, by simp⟩

theorem Fills.append {low middle high : Nat} {xs ys : List Nat} (h : Fills low middle xs) (h' : Fills middle high ys) :
    Fills low high (xs ++ ys) := by
  have hle := h.le
  have hle' := h'.le
  refine ⟨by omega, ?_⟩
  rw [h.eq, h'.eq, show high - low = (middle - low) + (high - middle) by omega, ← List.range'_append_1,
    show low + (middle - low) = middle by omega]

theorem Fills.cons {low high : Nat} {xs : List Nat} (h : Fills (low + 1) high xs) : Fills low high (low :: xs) := by
  have hle := h.le
  refine ⟨by omega, ?_⟩
  rw [h.eq, show high - low = (high - (low + 1)) + 1 by omega, List.range'_succ]

section Grown

variable {final : Draft} {parent? chain? : Option Nat} {low high : Nat} {chain : Chain} {nodes : List Node}

/-- What stands below a number stands below every later one. -/
theorem lt_of_lt_le {number? : Option Nat} {low middle : Nat} (h : ∀ number ∈ number?, number < low)
    (hle : low ≤ middle) : ∀ number ∈ number?, number < middle :=
  fun number hnumber => Nat.lt_of_lt_of_le (h number hnumber) hle

/-- Numbers rise in what has grown, if the numbers of the node that it has grown in and of the conditional that it adds
branches to are smaller. -/
theorem Grown.rises (h : Grown final parent? chain? low high chain nodes) (hparent : ∀ parent ∈ parent?, parent < low)
    (hchain : ∀ id ∈ chain?, id < low) : final.table.Rises low high := by
  induction h with
  | nil => exact .nil _ _
  | node shape entry below others ihbelow ihothers =>
    have hall := NodeTable.Rises.cons entry hparent (ihbelow (by simp) (by simp))
    exact hall.append (ihothers (lt_of_lt_le hparent hall.le) (by simp))
  | @conditional parent? chain? low middle high p test negate body nodes next entry below others ihbelow ihothers =>
    have hbelow := ihbelow (by simp) (by simp)
    have hall : final.table.Rises low middle := .cons entry hparent hbelow
    -- The branches that are still to grow stand in the conditional, whose number comes before theirs.
    have hnext : ∀ id ∈ some low, id < middle := by simpa using Nat.lt_of_succ_le hbelow.le
    exact hall.append (ihothers (lt_of_lt_le hparent hall.le) hnext)
  | branch below others ihbelow ihothers =>
    have hbelow := ihbelow hchain (by simp)
    exact hbelow.append (ihothers (lt_of_lt_le hparent hbelow.le) (lt_of_lt_le hchain hbelow.le))
  | otherwise below others ihbelow ihothers =>
    have hbelow := ihbelow hchain (by simp)
    exact hbelow.append (ihothers (lt_of_lt_le hparent hbelow.le) (by simp))
  | skip error left others ihleft ihothers =>
    have hleft := ihleft hparent (by simp)
    exact hleft.append (ihothers (lt_of_lt_le hparent hleft.le) (lt_of_lt_le hchain hleft.le))
  | close others ih => exact ih hparent (by simp)

/-- Without errors no number is left out. -/
theorem Grown.fills (h : Grown final parent? chain? low high chain nodes) (hclean : final.IsClean) :
    Fills low high (siblingNumbers (chain, nodes)) := by
  induction h with
  | nil => exact .nil _
  | node shape entry below others ihbelow ihothers =>
    have hall := (Fills.cons ihbelow).append ihothers
    simpa [siblingNumbers, numbersOf, allNodes, Chain.all, Node.all_of_children? shape] using hall
  | conditional entry below others ihbelow ihothers =>
    have hall := (Fills.cons ihbelow).append ihothers
    simpa [siblingNumbers, numbersOf, allNodes, Chain.all, Node.all, Node.id] using hall
  | branch below others ihbelow ihothers =>
    simpa [siblingNumbers, numbersOf, Chain.all] using ihbelow.append ihothers
  | otherwise below others ihbelow ihothers =>
    simpa [siblingNumbers, numbersOf, Chain.all] using ihbelow.append ihothers
  | skip error left others ihleft ihothers => exact absurd hclean error
  | close others ih => exact ih

/-- The table knows where a site is: it enters the node in the innermost node around it. -/
def NodeTable.Knows (table : NodeTable) (s : Site) : Prop :=
  table.Enters (s.around.head?.map Node.id) s.node

/-- The table knows all sites of what has grown, where it has grown in the innermost of the nodes `around`, and the
chain is that of the conditional `owner`. -/
theorem Grown.knows (h : Grown final parent? chain? low high chain nodes) (around : List Node) (owner : Node)
    (hparent : around.head?.map Node.id = parent?) (hchain : ∀ id ∈ chain?, owner.id = id) :
    (∀ s ∈ chain.sites (owner :: around), final.table.Knows s) ∧ ∀ s ∈ sitesOf around nodes, final.table.Knows s := by
  induction h generalizing around owner with
  | nil => simp [Chain.sites, sitesOf]
  | @node parent? chain? middle high n children nodes shape entry below others ihbelow ihothers =>
    have hbelow := (ihbelow (n :: around) n rfl (by simp)).2
    have hothers := (ihothers around n hparent (by simp)).2
    have hentry : final.table.Knows ⟨around, n⟩ := by
      subst hparent
      exact entry
    simp only [Chain.sites, sitesOf, Node.sites_of_children? shape, List.forall_mem_append, List.forall_mem_cons]
    exact ⟨by simp, ⟨hentry, hbelow⟩, hothers⟩
  | @conditional parent? chain? low middle high p test negate body nodes next entry below others ihbelow ihothers =>
    generalize hn : Node.conditional low p (.branch test negate body next) = n at entry
    have hid : n.id = low := by rw [← hn, Node.id]
    have hbelow := (ihbelow (n :: around) n (by simp [hid]) (by simp)).2
    have hothers := ihothers around n hparent (by simp [hid])
    have hentry : final.table.Knows ⟨around, n⟩ := by
      subst hparent
      exact entry
    have hsites : n.sites around = ⟨around, n⟩ :: (sitesOf (n :: around) body ++ next.sites (n :: around)) := by
      rw [← hn, Node.sites, Chain.sites]
    simp only [Chain.sites, sitesOf, hsites, List.forall_mem_append, List.forall_mem_cons]
    exact ⟨by simp, ⟨hentry, hbelow, hothers.1⟩, hothers.2⟩
  | branch below others ihbelow ihothers =>
    have hbelow := (ihbelow (owner :: around) owner (by simpa using hchain) (by simp)).2
    have hothers := ihothers around owner hparent hchain
    simp only [Chain.sites, List.forall_mem_append]
    exact ⟨⟨hbelow, hothers.1⟩, hothers.2⟩
  | otherwise below others ihbelow ihothers =>
    have hbelow := (ihbelow (owner :: around) owner (by simpa using hchain) (by simp)).2
    have hothers := ihothers around owner hparent (by simp)
    exact ⟨hbelow, hothers.2⟩
  | skip error left others ihleft ihothers => exact ihothers around owner hparent hchain
  | close others ih => exact ih around owner hparent (by simp)

end Grown

/-! ## Ancestors -/

/-- Every node that one of the sites stands in has a site among them, up to the nodes `around` all of them. -/
def AreClosed (around : List Node) (sites : List Site) : Prop :=
  ∀ s ∈ sites, s.around = around ∨ ∃ n outer, s.around = n :: outer ∧ ⟨outer, n⟩ ∈ sites

theorem AreClosed.cons {around : List Node} {n : Node} {sites : List Site} (h : AreClosed (n :: around) sites) :
    AreClosed around (⟨around, n⟩ :: sites) := by
  intro s hs
  rcases List.mem_cons.1 hs with rfl | hs
  · exact .inl rfl
  · rcases h s hs with heq | ⟨m, outer, heq, hm⟩
    · exact .inr ⟨n, around, heq, List.mem_cons_self⟩
    · exact .inr ⟨m, outer, heq, List.mem_cons_of_mem _ hm⟩

theorem AreClosed.append {around : List Node} {xs ys : List Site} (h : AreClosed around xs) (h' : AreClosed around ys) :
    AreClosed around (xs ++ ys) := by
  intro s hs
  rcases List.mem_append.1 hs with hs | hs
  · rcases h s hs with heq | ⟨n, outer, heq, hn⟩
    · exact .inl heq
    · exact .inr ⟨n, outer, heq, List.mem_append_left _ hn⟩
  · rcases h' s hs with heq | ⟨n, outer, heq, hn⟩
    · exact .inl heq
    · exact .inr ⟨n, outer, heq, List.mem_append_right _ hn⟩

theorem AreClosed.nil (around : List Node) : AreClosed around [] := by
  intro s hs
  cases hs

/-- The innermost node that a site stands in has a site as well. -/
theorem AreClosed.site_above {sites : List Site} (h : AreClosed [] sites) {n m : Node} {outer : List Node}
    (hs : ⟨m :: outer, n⟩ ∈ sites) : ⟨outer, m⟩ ∈ sites := by
  rcases h _ hs with heq | ⟨m', outer', heq, hm⟩
  · cases heq
  · cases heq
    exact hm

mutual

theorem areClosed_sites (around : List Node) : ∀ n : Node, AreClosed around (n.sites around)
  | .element _ _ _ _ children => (areClosed_sitesOf _ children).cons
  | .slot _ _ _ _ children => (areClosed_sitesOf _ children).cons
  | .text .. => (AreClosed.nil _).cons
  | .comment .. => (AreClosed.nil _).cons
  | .conditional _ _ chain => (areClosed_chainSites _ chain).cons
  | .iteration _ _ _ children => (areClosed_sitesOf _ children).cons

theorem areClosed_chainSites (around : List Node) : ∀ c : Chain, AreClosed around (c.sites around)
  | .done => .nil _
  | .otherwise children => areClosed_sitesOf around children
  | .branch _ _ children next => (areClosed_sitesOf around children).append (areClosed_chainSites around next)

theorem areClosed_sitesOf (around : List Node) : ∀ nodes : List Node, AreClosed around (sitesOf around nodes)
  | [] => .nil _
  | n :: ns => (areClosed_sites around n).append (areClosed_sitesOf around ns)

end

/-- Each of the sites stands in the nodes `around`, and every other node that it stands in is one of `nodes` and has it
below. -/
structure StandIn (around nodes : List Node) (sites : List Site) : Prop where
  outer : ∀ s ∈ sites, around ⊆ s.around
  inner : ∀ s ∈ sites, ∀ n ∈ s.around, n ∈ around ∨ n ∈ nodes ∧ s.node ∈ n.all

theorem StandIn.nil (around : List Node) : StandIn around [] [] :=
  ⟨by simp, by simp⟩

theorem StandIn.cons {around below : List Node} {n : Node} {sites : List Site} (h : StandIn (n :: around) below sites)
    (hall : n.all = n :: below) (hsites : sites.map Site.node = below) :
    StandIn around n.all (⟨around, n⟩ :: sites) := by
  constructor
  case outer =>
    refine List.forall_mem_cons.2 ⟨List.Subset.refl _, fun s hs => ?_⟩
    exact List.Subset.trans (List.subset_cons_self _ _) (h.outer s hs)
  case inner =>
    refine List.forall_mem_cons.2 ⟨fun m hm => .inl hm, fun s hs m hm => ?_⟩
    rw [hall]
    have hbelow : s.node ∈ below := hsites ▸ List.mem_map_of_mem hs
    -- The nodes around the site are those around `n`, then `n`, then nodes below it.
    rcases h.inner s hs m hm with hm | ⟨hm, hin⟩
    · rcases List.mem_cons.1 hm with rfl | hm
      · exact .inr ⟨List.mem_cons_self, hall ▸ List.mem_cons_of_mem _ hbelow⟩
      · exact .inl hm
    · exact .inr ⟨List.mem_cons_of_mem _ hm, hin⟩

theorem StandIn.append {around nodes nodes' : List Node} {xs ys : List Site} (h : StandIn around nodes xs)
    (h' : StandIn around nodes' ys) : StandIn around (nodes ++ nodes') (xs ++ ys) := by
  constructor
  case outer => exact List.forall_mem_append.2 ⟨h.outer, h'.outer⟩
  case inner =>
    refine List.forall_mem_append.2 ⟨fun s hs n hn => ?_, fun s hs n hn => ?_⟩
    · exact (h.inner s hs n hn).imp_right fun hin => ⟨List.mem_append_left _ hin.1, hin.2⟩
    · exact (h'.inner s hs n hn).imp_right fun hin => ⟨List.mem_append_right _ hin.1, hin.2⟩

mutual

theorem standIn_sites (around : List Node) : ∀ n : Node, StandIn around n.all (n.sites around)
  | .element _ _ _ _ children => (standIn_sitesOf _ children).cons rfl (map_node_sitesOf _ children)
  | .slot _ _ _ _ children => (standIn_sitesOf _ children).cons rfl (map_node_sitesOf _ children)
  | .text .. => (StandIn.nil _).cons rfl rfl
  | .comment .. => (StandIn.nil _).cons rfl rfl
  | .conditional _ _ chain => (standIn_chainSites _ chain).cons rfl (map_node_chainSites _ chain)
  | .iteration _ _ _ children => (standIn_sitesOf _ children).cons rfl (map_node_sitesOf _ children)

theorem standIn_chainSites (around : List Node) : ∀ c : Chain, StandIn around c.all (c.sites around)
  | .done => .nil _
  | .otherwise children => standIn_sitesOf around children
  | .branch _ _ children next => (standIn_sitesOf around children).append (standIn_chainSites around next)

theorem standIn_sitesOf (around : List Node) : ∀ nodes : List Node,
    StandIn around (allNodes nodes) (sitesOf around nodes)
  | [] => .nil _
  | n :: ns => (standIn_sites around n).append (standIn_sitesOf around ns)

end

/-- From the node `id` up, each number is that of the node which the one before stands in, and the last one stands in
none. -/
inductive NodeTable.Climbs (table : NodeTable) : Nat → List Nat → Prop where
  | top {id : Nat} (step : table.parent? id = none) : table.Climbs id []
  | up {id parent : Nat} {ids : List Nat} (step : table.parent? id = some parent) (above : table.Climbs parent ids) :
      table.Climbs id (parent :: ids)

theorem NodeTable.Climbs.ancestorsWithin_eq {table : NodeTable} {id bound : Nat} {ids : List Nat}
    (h : table.Climbs id ids) (hbound : ids.length ≤ bound) : table.ancestorsWithin bound id = ids := by
  induction h generalizing bound with
  | top step =>
    cases bound with
    | zero => rfl
    | succ bound => simp [ancestorsWithin, step]
  | up step above ih =>
    cases bound with
    | zero => simp at hbound
    | succ bound =>
      have := ih (Nat.le_of_succ_le_succ hbound)
      simp [ancestorsWithin, step, this]

/-- Where parents have smaller numbers, a node has at most as many ancestors as its number says. -/
theorem NodeTable.Climbs.length_le {table : NodeTable}
    (hrising : ∀ id parent, table.parent? id = some parent → parent < id) {id : Nat} {ids : List Nat}
    (h : table.Climbs id ids) : ids.length ≤ id := by
  induction h with
  | top => simp
  | up step above ih =>
    have := hrising _ _ step
    rw [List.length_cons]
    omega

theorem NodeTable.Knows.parent?_eq {table : NodeTable} {s : Site} (h : table.Knows s) :
    table.parent? s.node.id = s.around.head?.map Node.id := by
  obtain ⟨label, hget, -⟩ := h
  rw [parent?, hget]
  rfl

/-- A table that knows all of some sites leads from each of them to all nodes that it stands in. -/
theorem climbs_of_knows {table : NodeTable} {sites : List Site} (hclosed : AreClosed [] sites)
    (hknows : ∀ s ∈ sites, table.Knows s) {s : Site} (hs : s ∈ sites) :
    table.Climbs s.node.id (s.around.map Node.id) := by
  obtain ⟨around, n⟩ := s
  induction around generalizing n with
  | nil => exact .top (hknows _ hs).parent?_eq
  | cons m outer ih => exact .up (hknows _ hs).parent?_eq (ih _ (hclosed.site_above hs))

end Template

open Template

/-- The table of a template is faithful to its tree. -/
structure Template.IsIndexed (t : Template) : Prop where
  /-- The numbers of the nodes increase in document order. -/
  increasing : (numbersOf t.nodes).Pairwise (· < ·)
  /-- Each node has an entry, and its parent is the innermost node that it stands in. -/
  parent : ∀ s ∈ sitesOf [] t.nodes, (t.table.get? s.node.id).map NodeEntry.parent = some (s.around.head?.map Node.id)
  /-- A parent has a smaller number. -/
  rising : ∀ id parent, t.table.parent? id = some parent → parent < id
  /-- The way up from a node comes to an end, and leads through the nodes that it stands in, from the inside. -/
  climbs : ∀ s ∈ sitesOf [] t.nodes, t.table.Climbs s.node.id (s.around.map Node.id)
  ancestors : ∀ s ∈ sitesOf [] t.nodes, t.table.ancestors s.node.id = s.around.map Node.id
  /-- Without errors the nodes have all numbers that the table has. -/
  complete : t.hasErrors = false → numbersOf t.nodes = List.range t.table.size

namespace Template

theorem ofDocument_grown (config : Config) (document : List Markup.Node) :
    let t := ofDocument config document
    Grown t.draft none none 0 t.table.size .done t.nodes := by
  cases hroot : root document with
  | error position =>
    simp only [ofDocument, hroot]
    exact .nil
  | ok found => exact (ofDocument_becomes config hroot).grown

/-- Every site of a template is known to its table. -/
theorem ofDocument_knows (config : Config) (document : List Markup.Node) :
    ∀ s ∈ sitesOf [] (ofDocument config document).nodes, (ofDocument config document).table.Knows s := by
  -- No branch has grown at the top, so it does not matter what would be around one.
  exact ((ofDocument_grown config document).knows [] (.comment 0 .first "") rfl (by simp)).2

theorem ofDocument_rising (config : Config) (document : List Markup.Node) (id parent : Nat)
    (h : (ofDocument config document).table.parent? id = some parent) : parent < id := by
  have hrises := (ofDocument_grown config document).rises (by simp) (by simp)
  obtain ⟨entry, hget, hparent⟩ := Option.bind_eq_some_iff.1 h
  obtain ⟨hlt, -⟩ := Array.getElem?_eq_some_iff.1 hget
  obtain ⟨entry', hget', hparent'⟩ := hrises.entries id (Nat.zero_le id) hlt
  obtain rfl := Option.some.inj (hget.symm.trans hget')
  exact hparent' parent hparent

end Template

/-- The table of every template is faithful to its tree. -/
theorem ofDocument_isIndexed (config : Config) (document : List Markup.Node) :
    (ofDocument config document).IsIndexed := by
  have hknows := ofDocument_knows config document
  have hrising := ofDocument_rising config document
  have hclimbs {s : Site} (hs : s ∈ sitesOf [] (ofDocument config document).nodes) :=
    climbs_of_knows (areClosed_sitesOf [] _) hknows hs
  constructor
  case increasing => exact numbersOf_increasing config document
  case rising => exact hrising
  case climbs => exact fun s hs => hclimbs hs
  case parent =>
    intro s hs
    obtain ⟨label, hget, -⟩ := hknows s hs
    rw [hget]
    rfl
  case ancestors =>
    intro s hs
    obtain ⟨label, hget, -⟩ := hknows s hs
    obtain ⟨hlt, -⟩ := Array.getElem?_eq_some_iff.1 hget
    have hlength := (hclimbs hs).length_le hrising
    refine (hclimbs hs).ancestorsWithin_eq ?_
    change _ ≤ (ofDocument config document).table.entries.size + 1
    omega
  case complete =>
    intro hclean
    have hfills := (ofDocument_grown config document).fills hclean
    simpa [siblingNumbers, Chain.all, List.range_eq_range'] using hfills.eq

end TemplateCompiler
