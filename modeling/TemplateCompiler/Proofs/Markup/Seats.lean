import TemplateCompiler.Proofs.Markup.TokenSteps
/-!
# Elements and what is around them

The elements of a document, in the order of their start tags, are those that its start tags have made, and what is
around an element is what is open when its start tag is read (`parse_seats`): every step of the reading keeps the
elements, and a start tag adds its own at the end.
-/

namespace TemplateCompiler.Markup

/-! ## Elements of a document -/

/-- An element of a document, and the tags of the elements around it, the innermost first. -/
structure Seat where
  around : List String
  element : Element
deriving DecidableEq

mutual

/-- The element that a node is, and all elements in it, where `around` are the tags around the node. -/
def Node.seats (around : List String) : Node → List Seat
  | .element e children => ⟨around, e⟩ :: seatsOf (e.tag :: around) children
  | .text .. => []
  | .comment .. => []

/-- The elements among some nodes and in them, in document order. -/
def seatsOf (around : List String) : List Node → List Seat
  | [] => []
  | n :: ns => n.seats around ++ seatsOf around ns

end

theorem seatsOf_append (around : List String) (xs ys : List Node) :
    seatsOf around (xs ++ ys) = seatsOf around xs ++ seatsOf around ys := by
  induction xs with
  | nil => rfl
  | cons n ns ih => rw [List.cons_append, seatsOf, seatsOf, ih, List.append_assoc]

mutual

theorem Node.around_of_mem_seats {seat : Seat} : ∀ (n : Node) (around : List String), seat ∈ n.seats around →
    seat.around = around ∨ ∃ e rest, seat.around = e.tag :: rest ∧ ⟨rest, e⟩ ∈ n.seats around
  | .element e children, around, h => by
    rw [Node.seats] at h ⊢
    rcases List.mem_cons.1 h with rfl | h
    · exact .inl rfl
    · rcases around_of_mem_seatsOf children (e.tag :: around) h with heq | ⟨e', rest, heq, hmem⟩
      · exact .inr ⟨e, around, heq, List.mem_cons_self⟩
      · exact .inr ⟨e', rest, heq, List.mem_cons_of_mem _ hmem⟩
  | .text .., _, h => nomatch h
  | .comment .., _, h => nomatch h

/-- The innermost element around an element is one of the document, unless nothing is around it. -/
theorem around_of_mem_seatsOf {seat : Seat} : ∀ (nodes : List Node) (around : List String),
    seat ∈ seatsOf around nodes →
    seat.around = around ∨ ∃ e rest, seat.around = e.tag :: rest ∧ ⟨rest, e⟩ ∈ seatsOf around nodes
  | n :: ns, around, h => by
    rw [seatsOf] at h ⊢
    rcases List.mem_append.1 h with h | h
    · exact (n.around_of_mem_seats around h).imp_right fun ⟨e, rest, heq, hmem⟩ =>
        ⟨e, rest, heq, List.mem_append_left _ hmem⟩
    · exact (around_of_mem_seatsOf ns around h).imp_right fun ⟨e, rest, heq, hmem⟩ =>
        ⟨e, rest, heq, List.mem_append_right _ hmem⟩

end

/-! ## Readings -/

namespace Assembly

/-- The tags of the open elements, the innermost first. -/
def tags (opened : List OpenElement) : List String :=
  opened.map (·.element.tag)

/-- The open elements, and those that stand in them so far. -/
def openSeats : List OpenElement → List Seat
  | [] => []
  | o :: outer => openSeats outer ++ ⟨tags outer, o.element⟩ :: seatsOf (tags (o :: outer)) o.children.reverse

/-- The elements read so far. -/
def seats (a : Assembly) : List Seat :=
  seatsOf [] a.roots.reverse ++ openSeats a.opened

variable {source : List Char} {a a' : Assembly} {token : Token}

theorem seats_attach (a : Assembly) (n : Node) : (a.attach n).seats = a.seats ++ n.seats (tags a.opened) := by
  unfold attach
  split
  · rename_i innermost outer hopened
    simp [seats, hopened, openSeats, seatsOf_append, seatsOf, tags]
  · rename_i hopened
    simp [seats, hopened, openSeats, seatsOf_append, seatsOf, tags]

theorem seats_flush (a : Assembly) : a.flush.seats = a.seats := by
  unfold flush
  split
  · rw [seats_attach, Node.seats, List.append_nil]
    rfl
  · rfl

theorem seats_enter (a : Assembly) (name : String) (e : Element) :
    (a.enter name e).seats = a.seats ++ [⟨tags a.opened, e⟩] := by
  unfold enter
  split
  · rw [seats_attach, Node.seats, seatsOf]
  · simp [seats, openSeats, seatsOf]

theorem inSvg_eq (a : Assembly) : a.inSvg = (tags a.opened).contains "svg" := by
  rw [inSvg, tags, List.contains_eq_any_beq, List.any_map]
  exact congrArg (List.any a.opened) (funext fun o => Bool.beq_comm)

end Assembly

/-! ## Start tags -/

/-- The element that is made of a start tag. -/
def Makes (source : List Char) (call : Assembly × Tag) (e : Element) : Prop :=
  ∃ raws, scanTag (call.1.tagPlace call.2).1 (call.1.tagPlace call.2).2 call.2.name.utf8ByteSize = some raws ∧
    e = Assembly.elementOf source (call.2.name == "svg" || call.1.inSvg) (call.1.tagPlace call.2).1 call.2 raws

/-- The element in a seat is made of a start tag, and what is around it is open when the tag is read. -/
structure MakesSeat (source : List Char) (call : Assembly × Tag) (seat : Seat) : Prop where
  around : seat.around = Assembly.tags call.1.opened
  element : Makes source call seat.element

/-- A token that is taken adds the element of its start tag. -/
theorem Assembly.Takes.seats {source : List Char} {a a' : Assembly} {token : Token} (h : a.Takes source token a') :
    (∃ tag seat, token.startTag? = some tag ∧ MakesSeat source (a.flush, tag) seat ∧ a'.seats = a.seats ++ [seat]) ∨
      (token.startTag? = none ∧ a'.seats = a.seats) := by
  have hflush := a.seats_flush
  cases h with
  | character c =>
    unfold Assembly.character
    split <;> exact .inr ⟨rfl, rfl⟩
  | comment text =>
    refine .inr ⟨rfl, ?_⟩
    rw [Assembly.comment, seats_attach, Node.seats, List.append_nil]
    exact hflush
  | doctype => exact .inr ⟨rfl, rfl⟩
  | @opening t raws hstart hscan =>
    refine .inl ⟨t, ⟨tags a.flush.opened, elementOf source (t.name == "svg" || a.flush.inSvg) (a.tagPlace t).1 t raws⟩,
      by simp [Token.startTag?, hstart], ⟨rfl, raws, by simpa using hscan, by rw [tagPlace_flush]⟩, ?_⟩
    rw [seats_enter, ← hflush]
    rfl
  | @closing t innermost outer hstop _ hopened =>
    -- The element that is closed keeps its place: it was among the open ones, with what stands in it behind it.
    refine .inr ⟨by simp [Token.startTag?, hstop], ?_⟩
    rw [seats_attach, ← hflush, Assembly.seats, Assembly.seats, hopened, openSeats, Node.seats]
    simp [tags]

theorem exists_of_mem_right {α β : Type} {R : α → β → Prop} {xs : List α} {ys : List β} (h : List.Forall₂ R xs ys)
    {y : β} (hy : y ∈ ys) : ∃ x ∈ xs, R x y := by
  induction h with
  | nil => cases hy
  | @cons x y' xs ys hxy _ ih =>
    rcases List.mem_cons.1 hy with rfl | hy
    · exact ⟨x, by simp, hxy⟩
    · obtain ⟨x', hx', hR⟩ := ih hy
      exact ⟨x', by simp [hx'], hR⟩

/-- A run over tokens adds the elements of the start tags among them, one for each. -/
theorem foldlM_seats {source : List Char} {a a' : Assembly} {tokens : List Token}
    (h : tokens.foldlM (Assembly.step source) a = .ok a') :
    ∃ added, a'.seats = a.seats ++ added ∧ List.Forall₂ (MakesSeat source) (startCallsFrom source a tokens) added ∧
      (startCallsFrom source a tokens).map Prod.snd = tokens.filterMap Token.startTag? := by
  induction tokens generalizing a with
  | nil =>
    obtain rfl := Except.ok.inj h
    exact ⟨[], by simp, .nil, rfl⟩
  | cons token tokens ih =>
    rw [List.foldlM_cons] at h
    cases hstep : a.step source token with
    | error e =>
      rw [hstep] at h
      cases h
    | ok a₁ =>
      rw [hstep] at h
      obtain ⟨added, hseats, hmakes, htags⟩ := ih h
      unfold startCallsFrom
      rw [hstep]
      rcases (Assembly.step_eq_ok_iff.1 hstep).seats with ⟨tag, seat, htag, hmake, heq⟩ | ⟨htag, heq⟩
      · exact ⟨seat :: added, by simp [hseats, heq], by simpa [htag] using List.Forall₂.cons hmake hmakes,
          by simp [htag, htags]⟩
      · exact ⟨added, by rw [hseats, heq], by simpa [htag] using hmakes, by simp [htag, htags]⟩

/-- The elements of a document are those that its start tags make, in their order and with what is around them. -/
theorem parse_seats {source : List Char} {document : List Node} (h : parse source = .ok document) :
    List.Forall₂ (MakesSeat source) (startCalls source) (seatsOf [] document) ∧
      (startCalls source).map Prod.snd = (tokenize source).tokens.filterMap Token.startTag? := by
  obtain ⟨-, a, hrun, hopened, rfl⟩ := parse_eq_ok_iff.1 h
  obtain ⟨added, hseats, hmakes, htags⟩ := foldlM_seats hrun
  refine ⟨?_, htags⟩
  suffices hdocument : seatsOf [] a.flush.roots.reverse = added by
    rw [hdocument]
    exact hmakes
  have hflush := a.seats_flush
  rw [hseats] at hflush
  simpa [Assembly.seats, Assembly.openSeats, Assembly.initial, seatsOf, hopened] using hflush

end TemplateCompiler.Markup
