import TemplateCompiler.Compile
/-!
# Slots of directive wrappers

A conditional or an iteration below a component has no slot of its own: it is meant to go where the first element in it
goes. What decides instead is the first node in it, and the first one in that, down to a node that has none before any
element: where this one is an element or a slot, it is the first of the wrapper (`slotTarget_eq_projection_iff`), and
where it is a text or a comment, the wrapper goes to the default slot.
-/

namespace TemplateCompiler.Template

/-- Elements look at the first attribute of the name, and slots for the first literal one. Where no name is repeated,
this is the same. -/
theorem firstLiteralSlot?_eq {attributes : List Attribute} (h : (attributes.map Attribute.name).Nodup) :
    firstLiteralSlot? attributes = slotTarget? attributes := by
  induction attributes with
  | nil => rfl
  | cons a attributes ih =>
    obtain ⟨hnew, hrest⟩ := List.nodup_cons.1 h
    by_cases hname : a.name = "slot"
    · have hnone : firstLiteralSlot? attributes = none := by
        refine List.findSome?_eq_none_iff.2 fun b hb => ?_
        have hb : b.name ≠ "slot" := fun heq => hnew (hname.trans heq.symm ▸ List.mem_map_of_mem hb)
        split
        · exact absurd ‹_› hb
        · rfl
      rw [firstLiteralSlot?, List.findSome?_cons, ← firstLiteralSlot?, hnone]
      cases hvalue : a.value <;> simp [slotTarget?, attribute?, hname, hvalue]
    · rw [firstLiteralSlot?, List.findSome?_cons, ← firstLiteralSlot?, ih hrest]
      simp [slotTarget?, attribute?, hname]

namespace Node

/-- The slot that an element, or a slot, literally asks for. -/
def literalTarget? : Node → Option String
  | .element _ _ _ data _ => data.slotTarget?
  | .slot _ _ _ attributes _ => firstLiteralSlot? attributes
  | _ => none

/-- The first element or slot of a tree, in document order: no other one is around it. -/
def firstElement? (n : Node) : Option Node :=
  n.all.find? Node.isKeyed

/-- The slot of the first element of a tree, and the default slot if there is no element, or it asks for none. -/
def projection (n : Node) : String :=
  (n.firstElement?.bind literalTarget?).getD ""

end Node

/-! ## First nodes -/

mutual

/-- The node that is reached from a wrapper by going to the first node in it for as long as there is one. -/
def Node.leader : Node → Node
  | .conditional id p chain => chain.leader?.getD (.conditional id p chain)
  | .iteration id p loop children => (leaderOf? children).getD (.iteration id p loop children)
  | n => n

/-- The node that is reached from the first branch with nodes in it. -/
def Chain.leader? : Chain → Option Node
  | .done => none
  | .otherwise children => leaderOf? children
  | .branch _ _ children next => (leaderOf? children).or next.leader?

/-- The node that is reached from the first node of a list. -/
def leaderOf? : List Node → Option Node
  | [] => none
  | n :: _ => some n.leader

end

/-- A node that is no element asks for no slot. -/
theorem literalTarget?_of_not_isKeyed {n : Node} (h : n.isKeyed = false) : n.literalTarget? = none := by
  cases n with
  | element id p role data children => cases h
  | slot id p name attributes children => cases h
  | _ => rfl

mutual

/-- A node goes where the node goes that it leads to. -/
theorem slotTarget_eq_leader : ∀ n : Node, n.slotTarget = n.leader.literalTarget?.getD ""
  | .element .. => rfl
  | .slot .. => rfl
  | .text .. => rfl
  | .comment .. => rfl
  | .conditional id p chain => by
    rw [Node.slotTarget, slotTarget?_chain_eq_leader chain, Node.leader]
    cases chain.leader? <;> rfl
  | .iteration id p loop children => by
    rw [Node.slotTarget, firstSlotTarget?_eq_leader children, Node.leader]
    cases leaderOf? children <;> rfl

theorem slotTarget?_chain_eq_leader :
    ∀ chain : Chain, chain.slotTarget? = chain.leader?.map fun n => n.literalTarget?.getD ""
  | .done => rfl
  | .otherwise children => firstSlotTarget?_eq_leader children
  | .branch test negate children next => by
    rw [Chain.slotTarget?, firstSlotTarget?_eq_leader children, slotTarget?_chain_eq_leader next, Chain.leader?]
    cases leaderOf? children <;> rfl

theorem firstSlotTarget?_eq_leader :
    ∀ nodes : List Node, firstSlotTarget? nodes = (leaderOf? nodes).map fun n => n.literalTarget?.getD ""
  | [] => rfl
  | n :: ns => by rw [firstSlotTarget?, leaderOf?, slotTarget_eq_leader n, Option.map_some]

end

mutual

/-- An element that a node leads to is the first of its tree. -/
theorem firstElement?_of_leader : ∀ n : Node, n.leader.isKeyed = true → n.firstElement? = some n.leader
  | .element .., _ => rfl
  | .slot .., _ => rfl
  | .text .., h => by cases h
  | .comment .., h => by cases h
  | .conditional id p chain, h => by
    rw [Node.leader] at h ⊢
    cases hleader : chain.leader? with
    | none =>
      rw [hleader] at h
      cases h
    | some n =>
      rw [hleader] at h
      exact firstElement?_of_chainLeader chain n hleader h
  | .iteration id p loop children, h => by
    rw [Node.leader] at h ⊢
    cases hleader : leaderOf? children with
    | none =>
      rw [hleader] at h
      cases h
    | some n =>
      rw [hleader] at h
      exact firstElement?_of_leaderOf children n hleader h

theorem firstElement?_of_chainLeader : ∀ (chain : Chain) (n : Node), chain.leader? = some n → n.isKeyed = true →
    chain.all.find? Node.isKeyed = some n
  | .done, n, h, _ => by cases h
  | .otherwise children, n, h, hn => firstElement?_of_leaderOf children n h hn
  | .branch test negate children next, n, h, hn => by
    rw [Chain.leader?] at h
    rw [Chain.all, List.find?_append]
    cases children with
    | nil => exact firstElement?_of_chainLeader next n h hn
    | cons first others =>
      rw [firstElement?_of_leaderOf (first :: others) n h hn]
      rfl

theorem firstElement?_of_leaderOf : ∀ (nodes : List Node) (n : Node), leaderOf? nodes = some n → n.isKeyed = true →
    (allNodes nodes).find? Node.isKeyed = some n
  | [], n, h, _ => by cases h
  | first :: others, n, h, hn => by
    obtain rfl := Option.some.inj h
    have hfirst : first.all.find? Node.isKeyed = some first.leader := firstElement?_of_leader first hn
    rw [allNodes, List.find?_append, hfirst]
    rfl

end

/-! ## Slots -/

/-- A node goes to the slot of the node that it leads to. That is the slot of its first element exactly if it leads to
an element, or its first element goes to the default slot. -/
theorem slotTarget_eq_projection_iff (n : Node) :
    n.slotTarget = n.leader.literalTarget?.getD "" ∧
      (n.slotTarget = n.projection ↔ n.leader.isKeyed = true ∨ n.projection = "") := by
  have htarget := slotTarget_eq_leader n
  refine ⟨htarget, ?_⟩
  cases hkeyed : n.leader.isKeyed with
  | true =>
    have hfirst : n.slotTarget = n.projection := by
      rw [htarget, Node.projection, firstElement?_of_leader n hkeyed]
      rfl
    simp [hfirst]
  | false =>
    have hdefault : n.slotTarget = "" := by
      rw [htarget, literalTarget?_of_not_isKeyed hkeyed]
      rfl
    rw [hdefault]
    exact ⟨fun h => .inr h.symm, fun h => (h.resolve_left Bool.false_ne_true).symm⟩

/-- A text in front of an element hides the slot that the element asks for. -/
theorem slotTarget_ne_projection :
    (Template.parse {} "<template><c-d><template lwc:if={a}>Hi <p slot=\"x\"></p></template></c-d></template>").toOption.map
      (fun t => ((allNodes t.nodes).filter Node.isDirective).map fun n => (n.slotTarget, n.projection)) =
      some [("", "x")] := by
  decide +kernel

end TemplateCompiler.Template
