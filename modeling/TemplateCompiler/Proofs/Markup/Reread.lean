import TemplateCompiler.Proofs.Markup.Agreement
import TemplateCompiler.Proofs.Markup.Shape
/-!
# Written trees are read back

Markup that is written from a tree is read back as a document with the same shape, as long as no value without
quotes seems to end in the slash of its tag.
-/

namespace TemplateCompiler.Markup

open TemplateCompiler.Text

/-! ## Attributes -/

/-- Whether raw attributes show an attribute as one whose value the slash of its tag has run into. -/
def slashIn (raws : List RawAttribute) (t : TagAttribute) : Bool :=
  Assembly.endsInSlash ((raws.find? (·.name == t.name)).any RawAttribute.quoted) t.value

/-- The value of an attribute as it comes into a document. -/
def valueIn (raws : List RawAttribute) (t : TagAttribute) : String :=
  if slashIn raws t then String.ofList t.value.toList.dropLast else t.value

theorem lowerName_spelling (names : List String) (name : String) : lowerName (spelling names name) = lowerName name := by
  simpa [sameName] using sameName_spelling names name

/-- The attribute of a document that is made of one of a tag, given what raw text shows of it. -/
def attributeIn (source : List Char) (svg : Bool) (start : Nat) (raws : List RawAttribute) (t : TagAttribute) : Attribute :=
  let raw? := raws.find? (·.name == t.name)
  { name := if svg then spelling svgAttributeNames t.name else t.name
    value := valueIn raws t
    hasValue := (raw?.map RawAttribute.hasValue).getD (!t.value.isEmpty)
    quoted := raw?.any RawAttribute.quoted
    position := locate source ((raw?.map RawAttribute.offset).getD start) }

/-- Attributes with different names take nothing from each other. -/
theorem attributes_map (source : List Char) (svg : Bool) (start : Nat) {ts : List TagAttribute} (raws : List RawAttribute)
    (hnodup : (ts.map TagAttribute.name).Nodup) :
    Assembly.attributes source svg start ts raws =
      (ts.map (attributeIn source svg start raws), ts.any (slashIn raws)) := by
  induction ts generalizing raws with
  | nil => rfl
  | cons t ts ih =>
    obtain ⟨hdistinct, hnodup'⟩ := List.nodup_cons.1 hnodup
    have hfind : ∀ u ∈ ts, (Assembly.takeRaw t.name raws).2.find? (·.name == u.name) = raws.find? (·.name == u.name) := by
      intro u hu
      have hne : u.name ≠ t.name := fun heq => hdistinct (heq ▸ List.mem_map_of_mem hu)
      exact Assembly.takeRaw_snd hne raws
    have hlater : ts.map (attributeIn source svg start (Assembly.takeRaw t.name raws).2) =
        ts.map (attributeIn source svg start raws) :=
      List.map_congr_left fun u hu => by rw [attributeIn, attributeIn, valueIn, valueIn, slashIn, slashIn, hfind u hu]
    have hslash : ts.any (slashIn (Assembly.takeRaw t.name raws).2) = ts.any (slashIn raws) := by
      rw [Bool.eq_iff_iff, List.any_eq_true, List.any_eq_true]
      exact exists_congr fun u => and_congr_right fun hu => by rw [slashIn, slashIn, hfind u hu]
    rw [Assembly.attributes, List.map_cons, List.any_cons, ← hlater, ← hslash, attributeIn, valueIn, slashIn,
      ← Assembly.takeRaw_fst]
    dsimp only
    rw [ih _ hnodup']
    cases (Assembly.takeRaw t.name raws).1 <;> rfl

theorem attributes_eq (source : List Char) (svg : Bool) (start : Nat) {ts : List TagAttribute}
    (raws : List RawAttribute) (hnodup : (ts.map TagAttribute.name).Nodup) :
    (Assembly.attributes source svg start ts raws).1.map (fun a => (lowerName a.name, a.value)) =
        ts.map (fun t => (lowerName t.name, valueIn raws t)) ∧
      (Assembly.attributes source svg start ts raws).2 = ts.any (slashIn raws) := by
  rw [attributes_map source svg start raws hnodup, List.map_map]
  refine ⟨List.map_congr_left fun t _ => ?_, rfl⟩
  show (lowerName (if svg then spelling svgAttributeNames t.name else t.name), valueIn raws t) = _
  split
  · rw [lowerName_spelling]
  · rfl

/-! ## Elements -/

@[simp] theorem lowerName_lowerName (name : String) : lowerName (lowerName name) = lowerName name := by
  simp [lowerName, Function.comp_def]

/-- A start tag whose values come into the document as they are. -/
def KeepsValues (call : Assembly × Tag) : Prop :=
  ∃ raws, scanTag (call.1.tagPlace call.2).1 (call.1.tagPlace call.2).2 call.2.name.utf8ByteSize = some raws ∧
    call.2.attributes.any (slashIn raws) = false

theorem map_pairs_attributesAt (pos : Nat) (as : List (String × Option String)) :
    (attributesAt pos as).map (fun t => (lowerName t.name, t.value)) =
      (writtenPairs as).map fun a => (lowerName a.1, a.2) := by
  induction as generalizing pos with
  | nil => rfl
  | cons a as ih =>
    have hlater := ih (pos + byteLength (attributeText a))
    simp only [writtenPairs, List.map_map] at hlater ⊢
    simp [attributesAt, hlater]

/-- The element that is made of a start tag that was written. -/
structure MadeOf (tag : String) (attributes : List (String × Option String)) (e : Element) : Prop where
  selfClosing : e.selfClosing = false
  sameName : Markup.sameName e.tag (lowerName tag) = true
  shape : ∀ children, Shape.ofElement e.tag e.pairs children = .ofElement tag (writtenPairs attributes) children

theorem madeOf_elementOf {source : List Char} {svg : Bool} {start : Cursor} {raws : List RawAttribute} {tag : String}
    {attributes : List (String × Option String)} (hnodup : (attributes.map fun a => lowerName a.1).Nodup) {pos : Nat}
    {t : Tag} (hname : t.name = lowerName tag) (hself : t.selfClosing = false)
    (hattributes : t.attributes = attributesAt pos attributes) (hslash : t.attributes.any (slashIn raws) = false) :
    MadeOf tag attributes (Assembly.elementOf source svg start t raws) := by
  obtain ⟨hpairs, hflag⟩ := attributes_eq source svg start.offset raws
    (show (t.attributes.map TagAttribute.name).Nodup by rwa [hattributes, map_name_attributesAt])
  have hvalues : t.attributes.map (fun t => (lowerName t.name, valueIn raws t)) =
      (writtenPairs attributes).map fun a => (lowerName a.1, a.2) := by
    rw [← map_pairs_attributesAt pos, ← hattributes]
    refine List.map_congr_left fun u hu => ?_
    rw [valueIn, if_neg (by simpa using List.any_eq_false.1 hslash u hu)]
  have hlower : lowerName (if svg then spelling svgElementNames t.name else t.name) = lowerName tag := by
    split
    · rw [lowerName_spelling, hname, lowerName_lowerName]
    · rw [hname, lowerName_lowerName]
  refine ⟨?_, ?_, fun children => Shape.ofElement_congr hlower ?_ children⟩
  · change (t.selfClosing || (Assembly.attributes source svg start.offset t.attributes raws).2) = false
    rw [hself, hflag, hslash]
    rfl
  · change (lowerName (if svg then spelling svgElementNames t.name else t.name) == lowerName (lowerName tag)) = true
    simp [hlower]
  · rw [← hvalues, ← hpairs, Element.pairs, List.map_map]
    rfl

/-! ## Assemblies -/

namespace Assembly

/-- The siblings read so far, newest first. -/
def level (a : Assembly) : List Node :=
  match a.opened with
  | innermost :: _ => innermost.children
  | [] => a.roots

/-- What is open around the siblings that are read. -/
def around (a : Assembly) : Option (Element × List OpenElement × List Node) :=
  match a.opened with
  | innermost :: outer => some (innermost.element, outer, a.roots)
  | [] => none

/-- The shapes of the siblings read so far and of later ones. -/
def shown (a : Assembly) (later : List Shape) : List Shape :=
  a.level.foldl (fun later n => n.shape.before later) <|
    match a.pending with
    | some (text, _) => (Shape.text text).before later
    | none => later

theorem shown_attach {a : Assembly} (hpending : a.pending = none) (n : Node) (later : List Shape) :
    (a.attach n).shown later = a.shown (n.shape.before later) := by
  unfold attach
  split
  · rename_i innermost outer hopened
    simp [shown, level, hopened, hpending]
  · rename_i hopened
    simp [shown, level, hopened, hpending]

theorem around_attach (a : Assembly) (n : Node) : (a.attach n).around = a.around := by
  unfold attach
  split
  · rename_i innermost outer hopened
    simp only [around, hopened]
  · rename_i hopened
    simp only [around, hopened]

theorem pending_attach (a : Assembly) (n : Node) : (a.attach n).pending = a.pending := by
  unfold attach
  split <;> rfl

theorem pending_flush (a : Assembly) : a.flush.pending = none := by
  unfold flush
  split
  · rw [pending_attach]
  · assumption

theorem shown_flush (a : Assembly) (later : List Shape) : a.flush.shown later = a.shown later := by
  unfold flush
  split
  · rename_i text position hpending
    rw [shown_attach rfl]
    simp [shown, level, hpending, Node.shape]
  · rfl

theorem around_flush (a : Assembly) : a.flush.around = a.around := by
  unfold flush
  split
  · rw [around_attach]
    rfl
  · rfl

theorem shown_character (source : List Char) (a : Assembly) (c : Char) (later : List Shape) :
    (a.character source c).shown later = a.shown ((Shape.text (String.singleton c)).before later) := by
  unfold character
  split
  · rename_i text position hpending
    have hpush : text.push c = text ++ String.singleton c := String.ext (by simp)
    simp only [shown, level, hpending, Shape.text_before_text, hpush]
  · rename_i hpending
    simp [shown, level, hpending]

theorem around_character (source : List Char) (a : Assembly) (c : Char) : (a.character source c).around = a.around := by
  unfold character
  split <;> rfl

theorem shown_comment {source : List Char} {a : Assembly} (hpending : a.pending = none) (text : String)
    (later : List Shape) : (a.comment source text).shown later = a.shown ((Shape.comment text).before later) := by
  unfold comment
  rw [shown_attach (by simpa using hpending), Node.shape]
  rfl

theorem around_comment (source : List Char) (a : Assembly) (text : String) : (a.comment source text).around = a.around := by
  unfold comment
  rw [around_attach]
  rfl

/-- Reading `tokens` adds shapes to the siblings read so far, as `adds` puts them before later ones. -/
def Adds (source : List Char) (a : Assembly) (tokens : List Token) (adds : List Shape → List Shape) : Prop :=
  ∃ a', tokens.foldlM (step source) a = .ok a' ∧ a'.around = a.around ∧ ∀ later, a'.shown later = a.shown (adds later)

theorem Adds.nil (source : List Char) (a : Assembly) : a.Adds source [] id :=
  ⟨a, rfl, rfl, fun _ => rfl⟩

theorem Adds.append {source : List Char} {a : Assembly} {xs ys : List Token} {adds adds' : List Shape → List Shape}
    (hx : a.Adds source xs adds) (hy : ∀ a', xs.foldlM (step source) a = .ok a' → a'.Adds source ys adds') :
    a.Adds source (xs ++ ys) (adds ∘ adds') := by
  obtain ⟨a', hrun, haround, hshown⟩ := hx
  obtain ⟨a'', hrun', haround', hshown'⟩ := hy a' hrun
  refine ⟨a'', ?_, haround'.trans haround, fun later => by rw [hshown', hshown, Function.comp_apply]⟩
  rw [List.foldlM_append, hrun]
  exact hrun'

theorem adds_character (source : List Char) (a : Assembly) (c : Char) :
    a.Adds source [.character c] (Shape.text (String.singleton c)).before :=
  ⟨_, rfl, a.around_character source c, a.shown_character source c⟩

theorem adds_comment (source : List Char) (a : Assembly) (text : String) :
    a.Adds source [.comment text] (Shape.comment text).before :=
  ⟨_, rfl, (around_comment source _ text).trans a.around_flush, fun later => by
    rw [shown_comment a.pending_flush, shown_flush]⟩

/-- A start tag that keeps its values makes the element that was written, which is entered. -/
theorem step_opening (source : List Char) {a : Assembly} {t : Tag} (hclosing : t.closing = false)
    (hself : t.selfClosing = false) (hcall : KeepsValues (a.flush, t)) {tag : String}
    {attributes : List (String × Option String)} (hname : t.name = lowerName tag)
    (hnodup : (attributes.map fun a => lowerName a.1).Nodup) {pos : Nat}
    (hattributes : t.attributes = attributesAt pos attributes) :
    ∃ cursor e, a.step source (.tag t) = .ok ({ a.flush with cursor }.enter t.name e) ∧ MadeOf tag attributes e := by
  obtain ⟨raws, hraws, hslash⟩ := hcall
  refine ⟨(a.flush.tagPlace t).2, elementOf source (t.name == "svg" || a.flush.inSvg) (a.flush.tagPlace t).1 t raws, ?_,
    madeOf_elementOf hnodup hname hself hattributes hslash⟩
  simp only [step, hclosing, Bool.false_eq_true, if_false, startTag]
  rw [hraws]

theorem enter_void {a : Assembly} {name : String} (h : isVoidElement name = true) (e : Element) :
    a.enter name e = a.attach (.element e []) := by
  rw [enter, h, Bool.or_true, if_pos rfl]

theorem enter_open {a : Assembly} {name : String} {e : Element} (hself : e.selfClosing = false)
    (h : isVoidElement name = false) : a.enter name e = { a with opened := ⟨e, []⟩ :: a.opened } := by
  rw [enter, hself, h, Bool.or_false, if_neg (by decide)]

/-- The end tag of the innermost open element closes it. -/
theorem step_closing (source : List Char) {a : Assembly} {t : Tag} (hclosing : t.closing = true)
    (hvoid : isVoidElement t.name = false) {e : Element} (hname : sameName e.tag t.name = true)
    {outer : List OpenElement} {roots : List Node} (haround : a.around = some (e, outer, roots)) :
    ∃ cursor, a.step source (.tag t) =
      .ok (({ cursor, opened := outer, roots, pending := none } : Assembly).attach (.element e a.flush.level.reverse)) := by
  have haround' := a.around_flush.trans haround
  refine ⟨(a.flush.cursor.find ("</" ++ t.name)).closeTag, ?_⟩
  simp only [step, hclosing, if_true, endTag, hvoid, Bool.false_eq_true, if_false]
  cases hopened : a.flush.opened with
  | nil => simp [around, hopened] at haround'
  | cons innermost outer' =>
    obtain ⟨rfl, rfl, rfl⟩ : innermost.element = e ∧ outer' = outer ∧ a.flush.roots = roots := by
      simpa [around, hopened] using haround'
    simp only [hname, if_true, a.pending_flush, level, hopened]
    rfl

end Assembly

theorem startCallsFrom_append {source : List Char} {a a' : Assembly} {xs : List Token}
    (h : xs.foldlM (Assembly.step source) a = .ok a') (ys : List Token) :
    startCallsFrom source a (xs ++ ys) = startCallsFrom source a xs ++ startCallsFrom source a' ys := by
  induction xs generalizing a with
  | nil =>
    obtain rfl := Except.ok.inj h
    rfl
  | cons token xs ih =>
    rw [List.foldlM_cons] at h
    rw [List.cons_append, startCallsFrom, startCallsFrom]
    cases hstep : a.step source token with
    | error e =>
      rw [hstep] at h
      cases h
    | ok a₁ =>
      rw [hstep] at h
      simp [ih h]

/-- The calls of a run are among those of a longer one. -/
theorem mem_calls_append {source : List Char} {a : Assembly} {xs ys : List Token} {call : Assembly × Tag}
    (h : call ∈ startCallsFrom source a xs) : call ∈ startCallsFrom source a (xs ++ ys) := by
  induction xs generalizing a with
  | nil => cases h
  | cons token xs ih =>
    rw [List.cons_append, startCallsFrom]
    rw [startCallsFrom] at h
    rcases List.mem_append.1 h with h | h
    · exact List.mem_append_left _ h
    · refine List.mem_append_right _ ?_
      cases hstep : a.step source token with
      | error e =>
        rw [hstep] at h
        cases h
      | ok a' =>
        rw [hstep] at h
        exact ih h

theorem tokensAt_append (pos : Nat) (xs ys : List Piece) :
    tokensAt pos (xs ++ ys) = tokensAt pos xs ++ tokensAt (pos + byteLength (xs.flatMap Piece.text)) ys := by
  induction xs generalizing pos with
  | nil => rfl
  | cons p xs ih => simp [tokensAt, ih, Nat.add_assoc]

/-! ## Trees -/

theorem writtenShapes_eq_foldr (nodes : List WrittenNode) :
    writtenShapes nodes = nodes.foldr (fun n later => n.shape.before later) [] := by
  induction nodes with
  | nil => rw [writtenShapes, List.foldr_nil]
  | cons n ns ih => rw [writtenShapes, List.foldr_cons, ih]

theorem shapesOf_reverse (nodes : List Node) :
    shapesOf nodes.reverse = nodes.foldl (fun later n => n.shape.before later) [] := by
  rw [shapesOf_eq_foldr, List.foldr_reverse]

theorem adds_text (source : List Char) (cs : List Char) (a : Assembly) (pos : Nat) :
    a.Adds source (tokensAt pos (cs.map .character)) (Shape.text (String.ofList cs)).before := by
  induction cs generalizing a pos with
  | nil => exact .nil source a
  | cons c cs ih =>
    have hmerge : (Shape.text (String.singleton c)).before ∘ (Shape.text (String.ofList cs)).before =
        (Shape.text (String.ofList (c :: cs))).before := by
      funext later
      rw [Function.comp_apply, Shape.text_before_text]
      rw [show String.singleton c ++ String.ofList cs = String.ofList (c :: cs) from String.ext (by simp)]
    rw [← hmerge]
    exact (Assembly.adds_character source a c).append fun a' _ => ih a' _

section Nodes

variable (source : List Char)

/-- A start tag, what stands in the element, and an end tag add the element. -/
theorem adds_element {tag : String} {attributes : List (String × Option String)} {children : List WrittenNode}
    (hopening : (Piece.opening tag attributes).Sound) (hvoid : isVoidElement (lowerName tag) = isVoidElement tag)
    (hempty : isVoidElement tag = true → children = [])
    (hchildren : ∀ a pos, (∀ call ∈ startCallsFrom source a (tokensAt pos (piecesOf children)), KeepsValues call) →
      a.Adds source (tokensAt pos (piecesOf children)) fun later => children.foldr (fun n later => n.shape.before later) later)
    (a : Assembly) (pos : Nat)
    (hcalls : ∀ call ∈ startCallsFrom source a (tokensAt pos (WrittenNode.element tag attributes children).pieces),
      KeepsValues call) :
    a.Adds source (tokensAt pos (WrittenNode.element tag attributes children).pieces)
      (WrittenNode.element tag attributes children).shape.before := by
  obtain ⟨-, -, hnodup⟩ := hopening
  rw [WrittenNode.pieces, tokensAt] at hcalls ⊢
  generalize hpos : pos + byteLength (Piece.opening tag attributes).text = behind at hcalls ⊢
  obtain ⟨t, htoken, hclosing, hself, hname, hattributes⟩ : ∃ t : Tag,
      Piece.token pos (.opening tag attributes) = .tag t ∧ t.closing = false ∧ t.selfClosing = false ∧
        t.name = lowerName tag ∧ t.attributes = attributesAt (pos + 1 + byteLength tag.toList) attributes :=
    ⟨_, rfl, rfl, rfl, rfl, rfl⟩
  rw [htoken] at hcalls ⊢
  obtain ⟨cursor, e, hstep, hself, hsame, hshape⟩ := Assembly.step_opening source hclosing hself
    (hcalls (a.flush, t) (by simp [startCallsFrom, Token.startTag?, hclosing])) hname hnodup hattributes
  rw [hname] at hstep
  have hrest : ∀ call ∈ startCallsFrom source (({ a.flush with cursor } : Assembly).enter (lowerName tag) e)
      (tokensAt behind (if isVoidElement tag = true then [] else piecesOf children ++ [.closing tag])), KeepsValues call := by
    intro call hcall
    refine hcalls call ?_
    rw [startCallsFrom, hstep]
    exact List.mem_append_right _ hcall
  rw [WrittenNode.shape]
  by_cases hv : isVoidElement tag = true
  · obtain rfl := hempty hv
    rw [if_pos hv]
    rw [Assembly.enter_void (hvoid.trans hv)] at hstep
    refine ⟨_, by rw [tokensAt, List.foldlM_cons, hstep]; rfl, ?_, fun later => ?_⟩
    · rw [Assembly.around_attach]
      exact a.around_flush
    · rw [Assembly.shown_attach (by exact a.pending_flush), Node.shape, hshape, shapesOf, writtenShapes]
      exact a.shown_flush _
  · rw [if_neg hv] at hrest ⊢
    rw [Assembly.enter_open hself (by simpa [hvoid] using hv)] at hstep hrest
    generalize hentered : ({ { a.flush with cursor } with opened := ⟨e, []⟩ :: a.flush.opened } : Assembly) = entered
      at hstep hrest
    have hopened : entered.around = some (e, a.flush.opened, a.flush.roots) := by rw [← hentered]; rfl
    have hfresh : ∀ later, entered.shown later = later := by
      intro later
      rw [← hentered]
      have := a.pending_flush
      simp [Assembly.shown, Assembly.level, this]
    rw [tokensAt_append] at hrest ⊢
    have hinside : ∀ call ∈ startCallsFrom source entered (tokensAt behind (piecesOf children)), KeepsValues call := by
      intro call hcall
      exact hrest call (mem_calls_append hcall)
    obtain ⟨a', hrun, haround, hshown⟩ := hchildren entered behind hinside
    obtain ⟨cursor', hclose⟩ := Assembly.step_closing source (t := ⟨true, lowerName tag, [], false, behind +
      byteLength ((piecesOf children).flatMap Piece.text), behind + byteLength ((piecesOf children).flatMap Piece.text) +
        byteLength (Piece.closing tag).text⟩) rfl (by simpa [hvoid] using hv) hsame (haround.trans hopened)
    refine ⟨({ cursor := cursor', opened := a.flush.opened, roots := a.flush.roots, pending := none } : Assembly).attach
      (.element e a'.flush.level.reverse), ?_, ?_, fun later => ?_⟩
    · rw [List.foldlM_cons, hstep]
      change (tokensAt behind (piecesOf children) ++ _).foldlM (Assembly.step source) entered = _
      rw [List.foldlM_append, hrun]
      change List.foldlM (Assembly.step source) a' (tokensAt _ [Piece.closing tag]) = _
      rw [tokensAt, tokensAt, Piece.token, List.foldlM_cons, hclose]
      rfl
    · rw [Assembly.around_attach]
      exact a.around_flush
    · have hlevel : shapesOf a'.flush.level.reverse = writtenShapes children := by
        have hall := hshown []
        rw [hfresh, ← a'.shown_flush, Assembly.shown, a'.pending_flush] at hall
        rw [shapesOf_reverse, writtenShapes_eq_foldr]
        exact hall
      rw [Assembly.shown_attach rfl, Node.shape, hshape, hlevel, ← a.shown_flush]
      have := a.pending_flush
      simp only [Assembly.shown, this]
      rfl

mutual

/-- A written tree is read back, if its start tags keep their values. -/
theorem adds_node : ∀ n : WrittenNode, n.Sound → ∀ a pos,
    (∀ call ∈ startCallsFrom source a (tokensAt pos n.pieces), KeepsValues call) →
    a.Adds source (tokensAt pos n.pieces) n.shape.before
  | .element tag attributes children, hsound, a, pos, hcalls => by
    cases hsound with
    | element opening void empty inside =>
      exact adds_element source opening void empty (fun a pos => adds_nodes children inside a pos) a pos hcalls
  | .text text, _, a, pos, _ => by
    have := adds_text source text.toList a pos
    rw [String.ofList_toList] at this
    rw [WrittenNode.pieces, WrittenNode.shape]
    exact this
  | .comment text, _, a, pos, _ => by
    rw [WrittenNode.pieces, WrittenNode.shape]
    exact Assembly.adds_comment source a text

theorem adds_nodes : ∀ ns : List WrittenNode, (∀ n ∈ ns, n.Sound) → ∀ a pos,
    (∀ call ∈ startCallsFrom source a (tokensAt pos (piecesOf ns)), KeepsValues call) →
    a.Adds source (tokensAt pos (piecesOf ns)) fun later => ns.foldr (fun n later => n.shape.before later) later
  | [], _, a, pos, _ => by
    rw [piecesOf]
    exact .nil source a
  | n :: ns, hsound, a, pos, hcalls => by
    rw [piecesOf, tokensAt_append] at hcalls ⊢
    have hfirst := adds_node n (hsound n (by simp)) a pos fun call hcall => hcalls call (mem_calls_append hcall)
    refine hfirst.append fun a' hrun => adds_nodes ns (fun m hm => hsound m (by simp [hm])) a' _ fun call hcall => ?_
    exact hcalls call (by rw [startCallsFrom_append hrun]; exact List.mem_append_right _ hcall)

end

end Nodes

end TemplateCompiler.Markup
