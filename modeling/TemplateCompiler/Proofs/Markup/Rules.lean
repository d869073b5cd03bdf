import TemplateCompiler.Proofs.Markup.TokenSteps
/-!
# What the nodes of a document obey

Each node of a document is made of a token, when that is read. So a rule for nodes holds throughout a document if the
tokens make only nodes that obey it (`parse_obeys`): a step keeps it for the nodes read so far, and for what will become
of the open elements. The first such rule is that void elements have no content.
-/

namespace TemplateCompiler.Markup

/-- What is asked of the nodes of a document. -/
structure Rules where
  element : Element → List Node → Prop
  /-- What is asked of the characters of a text. -/
  character : Char → Prop
  comment : String → Prop

mutual

/-- A node and all nodes in it obey the rules. -/
def Node.Obeys (rules : Rules) : Node → Prop
  | .element e children => rules.element e children ∧ AllObey rules children
  | .text text _ => ∀ c ∈ text.toList, rules.character c
  | .comment text _ => rules.comment text

/-- Some nodes and all nodes in them obey the rules. -/
def AllObey (rules : Rules) : List Node → Prop
  | [] => True
  | n :: ns => n.Obeys rules ∧ AllObey rules ns

end

theorem allObey_iff {rules : Rules} {nodes : List Node} : AllObey rules nodes ↔ ∀ n ∈ nodes, n.Obeys rules := by
  induction nodes with
  | nil => simp [AllObey]
  | cons n ns ih => simp [AllObey, ih]

/-- An element obeys a rule whatever its content will be. -/
def Element.Obeys (rules : Rules) (e : Element) : Prop :=
  ∀ children, rules.element e children

/-- What is made of a token obeys the rules: an element without content, and with any content if it may have some. -/
def Token.Gives (rules : Rules) : Token → Prop
  | .character c => rules.character c
  | .tag t => ∀ source svg start raws,
    rules.element (Assembly.elementOf source svg start t raws) [] ∧
      (isVoidElement t.name = false → (Assembly.elementOf source svg start t raws).Obeys rules)
  | .comment text => rules.comment text
  | .doctype => True

namespace Assembly

variable {rules : Rules}

/-- The nodes read so far obey the rules, and the open elements will, whatever is read in them. -/
structure Obeys (rules : Rules) (a : Assembly) : Prop where
  roots : ∀ n ∈ a.roots, n.Obeys rules
  children : ∀ o ∈ a.opened, ∀ n ∈ o.children, n.Obeys rules
  opened : ∀ o ∈ a.opened, o.element.Obeys rules
  pending : ∀ p ∈ a.pending, ∀ c ∈ p.1.toList, rules.character c

theorem obeys_initial (source : List Char) : (initial source).Obeys rules :=
  ⟨by simp [initial], by simp [initial], by simp [initial], by simp [initial]⟩

theorem Obeys.attach {a : Assembly} (h : a.Obeys rules) {n : Node} (hn : n.Obeys rules) :
    (a.attach n).Obeys rules := by
  unfold Assembly.attach
  split
  · rename_i innermost outer hopened
    have hchildren := h.children
    have helements := h.opened
    rw [hopened, List.forall_mem_cons] at hchildren helements
    refine ⟨h.roots, ?_, ?_, h.pending⟩
    · exact List.forall_mem_cons.2 ⟨List.forall_mem_cons.2 ⟨hn, hchildren.1⟩, hchildren.2⟩
    · exact List.forall_mem_cons.2 helements
  · exact ⟨List.forall_mem_cons.2 ⟨hn, h.roots⟩, h.children, h.opened, h.pending⟩

theorem Obeys.flush {a : Assembly} (h : a.Obeys rules) : a.flush.Obeys rules := by
  unfold Assembly.flush
  split
  · rename_i text position hpending
    refine Obeys.attach ?_ ?_
    · exact ⟨h.roots, h.children, h.opened, by simp⟩
    · exact h.pending _ hpending
  · exact h

theorem Obeys.enter {a : Assembly} (h : a.Obeys rules) {name : String} {e : Element} (hempty : rules.element e [])
    (hopen : isVoidElement name = false → e.Obeys rules) : (a.enter name e).Obeys rules := by
  unfold Assembly.enter
  split
  · exact h.attach ⟨hempty, trivial⟩
  · rename_i hcontent
    simp only [Bool.or_eq_true, not_or, Bool.not_eq_true] at hcontent
    refine ⟨h.roots, ?_, ?_, h.pending⟩
    · exact List.forall_mem_cons.2 ⟨by simp, h.children⟩
    · exact List.forall_mem_cons.2 ⟨hopen hcontent.2, h.opened⟩

theorem Obeys.character {source : List Char} {a : Assembly} (h : a.Obeys rules) {c : Char} (hc : rules.character c) :
    (a.character source c).Obeys rules := by
  unfold Assembly.character
  split
  · rename_i text position hpending
    refine ⟨h.roots, h.children, h.opened, fun p hp d hd => ?_⟩
    obtain rfl := Option.some.inj hp
    rw [String.toList_push, List.mem_append, List.mem_singleton] at hd
    rcases hd with hd | rfl
    · exact h.pending _ hpending d hd
    · exact hc
  · refine ⟨h.roots, h.children, h.opened, fun p hp d hd => ?_⟩
    obtain rfl := Option.some.inj hp
    obtain rfl : d = c := by simpa [Char.toString] using hd
    exact hc

theorem Obeys.takes {source : List Char} {a a' : Assembly} {token : Token} (h : a.Obeys rules)
    (htoken : token.Gives rules) (htakes : a.Takes source token a') : a'.Obeys rules := by
  have hflush := h.flush
  cases htakes with
  | character c => exact h.character htoken
  | comment text =>
    refine Obeys.attach ?_ htoken
    exact ⟨hflush.roots, hflush.children, hflush.opened, hflush.pending⟩
  | doctype => exact ⟨h.roots, h.children, h.opened, h.pending⟩
  | @opening t raws =>
    obtain ⟨hempty, hopen⟩ := htoken source (t.name == "svg" || a.flush.inSvg) (a.tagPlace t).1 raws
    refine Obeys.enter ?_ hempty hopen
    exact ⟨hflush.roots, hflush.children, hflush.opened, hflush.pending⟩
  | closing _ _ hopened =>
    have hchildren := hflush.children
    have helements := hflush.opened
    rw [hopened, List.forall_mem_cons] at hchildren helements
    refine Obeys.attach ?_ ?_
    · exact ⟨hflush.roots, hchildren.2, helements.2, hflush.pending⟩
    · -- An element that is closed was open, so it obeys the rules with any content.
      exact ⟨helements.1 _, allObey_iff.2 fun n hn => hchildren.1 n (List.mem_reverse.1 hn)⟩

end Assembly

/-- The nodes of a document obey the rules if what is made of its tokens does. -/
theorem parse_obeys {rules : Rules} {source : List Char} {document : List Node} (h : parse source = .ok document)
    (htokens : ∀ token ∈ (tokenize source).tokens, token.Gives rules) : AllObey rules document := by
  obtain ⟨-, a, hrun, -, rfl⟩ := parse_eq_ok_iff.1 h
  have hobeys : a.Obeys rules :=
    Assembly.foldlM_keeps (fun token htoken a a' ha htakes => ha.takes (htokens token htoken) htakes)
      (Assembly.obeys_initial source) hrun
  exact allObey_iff.2 fun n hn => hobeys.flush.roots n (List.mem_reverse.1 hn)

/-! ## Void elements -/

/-- Void elements have no content. -/
def voidsEmpty : Rules where
  element e children := isVoidElement e.tag = true → children = []
  character _ := True
  comment _ := True

/-- The spelling of a name is not that of a void element, unless the name is one. -/
theorem isVoidElement_spelling {name : String} (h : isVoidElement name = false) :
    isVoidElement (spelling svgElementNames name) = false := by
  have hnames : ∀ s ∈ svgElementNames, isVoidElement s = false := by decide
  unfold spelling
  cases hfind : svgElementNames.find? (sameName · name) with
  | none => exact h
  | some s => exact hnames s (List.mem_of_find?_eq_some hfind)

theorem gives_voidsEmpty (token : Token) : token.Gives voidsEmpty := by
  cases token with
  | tag t =>
    refine fun source svg start raws => ⟨fun _ => rfl, fun hopen children hvoid => ?_⟩
    have htag : (Assembly.elementOf source svg start t raws).tag =
        if svg then spelling svgElementNames t.name else t.name := rfl
    rw [htag] at hvoid
    split at hvoid
    · rw [isVoidElement_spelling hopen] at hvoid
      cases hvoid
    · rw [hopen] at hvoid
      cases hvoid
  | _ => trivial

/-- No void element of a document has content. -/
theorem parse_voidsEmpty {source : List Char} {document : List Node} (h : parse source = .ok document) :
    AllObey voidsEmpty document :=
  parse_obeys h fun token _ => gives_voidsEmpty token

end TemplateCompiler.Markup
