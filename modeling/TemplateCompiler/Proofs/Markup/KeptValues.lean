import TemplateCompiler.Proofs.Markup.Reread
/-!
# Values that are kept

A value that looks like a binding with a slash behind it is cut where the raw text of its tag does not show that it is
in quotes. Written markup is read back exactly if no such value is cut (`rereads_iff`).
-/

namespace TemplateCompiler.Markup

open TemplateCompiler.Text

/-! ## Raw attributes wherever they stand -/

theorem rawAttributes_shift (offset : Nat) (cs : List Char) :
    rawAttributes offset cs = (rawAttributes 0 cs).map fun raw => { raw with offset := raw.offset + offset } := by
  induction hn : cs.length using Nat.strongRecOn generalizing cs offset with
  | _ n ih =>
  cases cs with
  | nil =>
    unfold rawAttributes
    rfl
  | cons c rest =>
    by_cases hc : isRawNameChar c = true
    · have hname : ∀ d ∈ c :: rest.takeWhile isRawNameChar, isRawNameChar d = true := by
        intro d hd
        rcases List.mem_cons.1 hd with rfl | hd
        · exact hc
        · exact of_mem_takeWhile hd
      have hsplit : c :: rest = (c :: rest.takeWhile isRawNameChar) ++ rest.dropWhile isRawNameChar := by
        simp [List.takeWhile_append_dropWhile]
      generalize hsize : (rawSize (rest.dropWhile isRawNameChar)).1 = size
      have hlength : ((rest.dropWhile isRawNameChar).drop size).length < n := by
        have := (List.dropWhile_sublist (l := rest) isRawNameChar).length_le
        rw [← hn, List.length_drop, List.length_cons]
        omega
      have htail : ∀ d, (rest.dropWhile isRawNameChar).head? = some d → isRawNameChar d = false :=
        fun d hd => head?_dropWhile_not hd
      have hscan (offset : Nat) := rawAttributes_name (by simp) hname htail offset
      rw [hsplit, hscan, hscan, hsize, ih _ hlength _ _ rfl, ih _ hlength (0 + _ + _) _ rfl]
      simp [Function.comp_def, Nat.add_comm, Nat.add_left_comm]
    · have hlength : rest.length < n := by
        rw [← hn, List.length_cons]
        omega
      rw [rawAttributes_cons_not (by simpa using hc), rawAttributes_cons_not (by simpa using hc), ih _ hlength _ _ rfl,
        ih _ hlength (0 + _) _ rfl]
      simp [Function.comp_def, Nat.add_comm, Nat.add_left_comm]

theorem slashIn_shift (offset : Nat) (cs : List Char) (t : TagAttribute) :
    slashIn (rawAttributes offset cs) t = slashIn (rawAttributes 0 cs) t := by
  rw [slashIn, slashIn, rawAttributes_shift offset, List.find?_map, Option.any_map]
  rfl

/-- Whether the raw text of a start tag with these attributes shows that each value which looks like a binding with a
slash behind it is in quotes. -/
def showsQuotes (attributes : List (String × Option String)) : Bool :=
  let raws := rawAttributes 0 (attributes.flatMap attributeText ++ ['>'])
  (attributesAt 0 attributes).all fun t => !slashIn raws t

theorem any_slashIn_attributesAt (raws : List RawAttribute) (pos pos' : Nat) (as : List (String × Option String)) :
    (attributesAt pos as).any (slashIn raws) = (attributesAt pos' as).any (slashIn raws) := by
  induction as generalizing pos pos' with
  | nil => rfl
  | cons a as ih =>
    rw [attributesAt, attributesAt, List.any_cons, List.any_cons, ih _ (pos' + byteLength (attributeText a))]
    rfl

theorem any_slashIn_eq (offset pos : Nat) (as : List (String × Option String)) :
    (attributesAt pos as).any (slashIn (rawAttributes offset (as.flatMap attributeText ++ ['>']))) = !showsQuotes as := by
  have hshift : slashIn (rawAttributes offset (as.flatMap attributeText ++ ['>'])) =
      slashIn (rawAttributes 0 (as.flatMap attributeText ++ ['>'])) := funext (slashIn_shift offset _)
  rw [hshift, any_slashIn_attributesAt _ pos 0, showsQuotes, List.not_all_eq_any_not]
  simp

/-! ## Start tags of written markup -/

/-- The start tag that a piece is. -/
def Piece.opening? : Piece → Option (String × List (String × Option String))
  | .opening tag attributes => some (tag, attributes)
  | _ => none

/-- A tag is read where a start tag is written among pieces. -/
def StandsFor (ps : List Piece) (o : String × List (String × Option String)) (t : Tag) : Prop :=
  ∃ xs ys, ps = xs ++ .opening o.1 o.2 :: ys ∧
    Token.tag t = (Piece.opening o.1 o.2).token (byteLength (xs.flatMap Piece.text))

theorem standsFor_tokensAt (xs ys : List Piece) :
    List.Forall₂ (StandsFor (xs ++ ys)) (ys.filterMap Piece.opening?)
      ((tokensAt (byteLength (xs.flatMap Piece.text)) ys).filterMap Token.startTag?) := by
  induction ys generalizing xs with
  | nil => exact .nil
  | cons p ys ih =>
    have hlater := ih (xs ++ [p])
    simp only [List.append_assoc, List.singleton_append, List.flatMap_append, List.flatMap_singleton,
      byteLength_append] at hlater
    rw [tokensAt]
    cases p with
    | opening tag attributes => exact .cons ⟨xs, ys, rfl, rfl⟩ hlater
    | character c => exact hlater
    | closing tag => exact hlater
    | comment text => exact hlater

/-- A start tag without quotes in its name that is found where it stands shows its attributes as raw text. -/
theorem Placed.scanned {source : List Char} {call : Assembly × Tag} (h : Placed source call.1 call.2)
    (hclosing : call.2.closing = false) (hname : call.2.hasQuotedName = false) :
    ∃ front name body rest, source = front ++ (('<' :: (name ++ (body ++ ['>']))) ++ rest) ∧
      call.2.start = byteLength front ∧ call.2.stop = call.2.start + byteLength ('<' :: (name ++ (body ++ ['>']))) ∧
      byteLength name = byteLength call.2.name.toList ∧
      scanTag (call.1.tagPlace call.2).1 (call.1.tagPlace call.2).2 call.2.name.utf8ByteSize =
        some (rawAttributes (call.2.start + 1 + byteLength name) (body ++ ['>'])) := by
  obtain ⟨a, tag⟩ := call
  obtain ⟨front, s, rest, hsource, hcursor, hcloses⟩ := h
  dsimp only at *
  have hplace : (a.tagPlace tag).1 = ⟨tag.start, s.inner tag.closing ++ '>' :: rest⟩ := by
    rw [Assembly.tagPlace, hcursor]
    exact hcloses.find (by simp [hclosing, opening]) _
  have hstop : (a.tagPlace tag).2 = ⟨tag.stop, rest⟩ := by
    rw [← hcloses.closeTag hname, ← hplace]
    rfl
  have hbody : onward s.attributes.reverse s.tail = s.body ++ ['>'] := by
    rw [onward, ← sources_eq_flatMap, TagSource.body, List.append_assoc]
  have hstart : tag.start = byteLength front + byteLength s.text := hcloses.spells.start
  refine ⟨front ++ s.text, s.name, s.body, rest, ?_, by simp [hstart], ?_, ?_, ?_⟩
  · simp [hsource, TagSource.source, TagSource.inner, opening, hclosing]
  · rw [hcloses.stop, hstart, hclosing]
    simp [TagSource.source, TagSource.inner, opening, show '<'.utf8Size = 1 from rfl, show '>'.utf8Size = 1 from rfl]
    omega
  · rw [← hcloses.spells.name, byteLength_map_toLower]
  · rw [hplace, hstop, hclosing, hcloses.scanTag hclosing, hbody]

/-- What the raw text of a written start tag shows. -/
theorem StandsFor.slashes {ps : List Piece} {o : String × List (String × Option String)} {call : Assembly × Tag}
    (h : StandsFor ps o call.2) (hplaced : Placed (ps.flatMap Piece.text) call.1 call.2)
    (hname : call.2.hasQuotedName = false) :
    ∃ raws, scanTag (call.1.tagPlace call.2).1 (call.1.tagPlace call.2).2 call.2.name.utf8ByteSize = some raws ∧
      call.2.attributes.any (slashIn raws) = !showsQuotes o.2 := by
  obtain ⟨xs, ys, hps, htoken⟩ := h
  obtain ⟨hclosing, htagName, hattributes, hstartsAt, hstopsAt⟩ : call.2.closing = false ∧ call.2.name = lowerName o.1 ∧
      (∃ pos, call.2.attributes = attributesAt pos o.2) ∧ call.2.start = byteLength (xs.flatMap Piece.text) ∧
      call.2.stop = call.2.start + byteLength (Piece.opening o.1 o.2).text := by
    rw [Token.tag.inj htoken]
    exact ⟨rfl, rfl, ⟨_, rfl⟩, rfl, rfl⟩
  obtain ⟨pos, hattributes⟩ := hattributes
  obtain ⟨front, name, body, rest, hsource, hstart, hstop, hsize, hscan⟩ := hplaced.scanned hclosing hname
  rw [hps, List.flatMap_append, List.flatMap_cons] at hsource
  obtain ⟨-, hbehind⟩ := append_inj_byteLength hsource (by rw [← hstart, hstartsAt])
  obtain ⟨htext, -⟩ := append_inj_byteLength hbehind (by omega)
  have hlower : byteLength (lowerName o.1).toList = byteLength o.1.toList := by
    simp [lowerName, byteLength_map_toLower]
  have htail : o.1.toList ++ (o.2.flatMap attributeText ++ ['>']) = name ++ (body ++ ['>']) := by
    simpa [Piece.text] using htext
  obtain ⟨-, hbody⟩ := append_inj_byteLength htail (by rw [hsize, htagName, hlower])
  refine ⟨_, hscan, ?_⟩
  rw [← hbody, hattributes]
  exact any_slashIn_eq _ _ _

/-! ## Written markup -/

mutual

theorem sound_pieces : ∀ n : WrittenNode, n.Sound → ∀ p ∈ n.pieces, p.Sound
  | .element tag attributes children, hsound => by
    cases hsound with
    | element opening void empty inside =>
      intro p hp
      rw [WrittenNode.pieces] at hp
      rcases List.mem_cons.1 hp with rfl | hp
      · exact opening
      · split at hp
        · cases hp
        · rcases List.mem_append.1 hp with hp | hp
          · exact sound_piecesOf children inside p hp
          · rw [List.mem_singleton.1 hp]
            exact opening.1
  | .text text, hsound => by
    cases hsound with
    | text plain =>
      intro p hp
      rw [WrittenNode.pieces] at hp
      obtain ⟨c, hc, rfl⟩ := List.mem_map.1 hp
      exact List.all_eq_true.1 plain c hc
  | .comment text, hsound => by
    cases hsound with
    | comment closes =>
      intro p hp
      rw [WrittenNode.pieces] at hp
      rw [List.mem_singleton.1 hp]
      exact closes

theorem sound_piecesOf : ∀ ns : List WrittenNode, (∀ n ∈ ns, n.Sound) → ∀ p ∈ piecesOf ns, p.Sound
  | [], _ => by
    intro p hp
    rw [piecesOf] at hp
    cases hp
  | n :: ns, hsound => by
    intro p hp
    rw [piecesOf] at hp
    rcases List.mem_append.1 hp with hp | hp
    · exact sound_pieces n (hsound n (by simp)) p hp
    · exact sound_piecesOf ns (fun m hm => hsound m (by simp [hm])) p hp

end

theorem tokenize_pieces {ps : List Piece} (hsound : ∀ p ∈ ps, p.Sound)
    (hhead : (ps.flatMap Piece.text).head? = some '<') :
    tokenize (ps.flatMap Piece.text) = ⟨tokensAt 0 ps, none⟩ ∧
      ∀ r ∈ readings (ps.flatMap Piece.text), r.isNameQuote = false := by
  obtain ⟨hscan, read, hread, hreadings⟩ := scans_pieces hsound 0
  have hscan := hscan []
  have hreadings := hreadings []
  rw [List.append_nil] at hscan hreadings
  have hend : ∀ pos, scanFrom .data pos [] = ⟨[], none⟩ := fun pos => by
    unfold scanFrom
    rfl
  have hnone : ∀ pos, readingsFrom .data pos [] = [] := fun pos => by
    unfold readingsFrom
    rfl
  rw [hend] at hscan
  rw [hnone, List.append_nil] at hreadings
  unfold tokenize readings
  cases hsource : ps.flatMap Piece.text with
  | nil =>
    rw [hsource] at hhead
    cases hhead
  | cons c rest =>
    obtain rfl : c = '<' := by
      rw [hsource] at hhead
      simpa using hhead
    rw [hsource] at hscan hreadings
    refine ⟨?_, fun r hr => ?_⟩
    · simp only [show ('<'.toNat = 0xFEFF) = False by decide, if_false]
      rw [hscan]
      simp [Scan.after]
    · simp only [show ('<'.toNat = 0xFEFF) = False by decide, if_false] at hr
      exact hread r (hreadings ▸ hr)

/-- The start tags of a written tree, with their attributes. -/
def WrittenNode.openings (n : WrittenNode) : List (String × List (String × Option String)) :=
  n.pieces.filterMap Piece.opening?

/-- What reading written pieces makes of them. -/
theorem startCalls_pieces {ps : List Piece} (hsound : ∀ p ∈ ps, p.Sound)
    (hhead : (ps.flatMap Piece.text).head? = some '<') {call : Assembly × Tag}
    (hcall : call ∈ startCalls (ps.flatMap Piece.text)) {o : String × List (String × Option String)}
    (hstands : StandsFor ps o call.2) :
    ∃ raws, scanTag (call.1.tagPlace call.2).1 (call.1.tagPlace call.2).2 call.2.name.utf8ByteSize = some raws ∧
      call.2.attributes.any (slashIn raws) = !showsQuotes o.2 := by
  refine hstands.slashes ?_ ?_
  · exact startCall_placed hcall fun r hr _ => (tokenize_pieces hsound hhead).2 r hr
  · obtain ⟨xs, ys, rfl, htoken⟩ := hstands
    have hopening := hsound (.opening o.1 o.2) (by simp)
    rw [Token.tag.inj htoken]
    have hquote : ∀ c ∈ o.1.toList, isQuote c = false := by
      intro c hc
      have := List.all_eq_true.1 (Bool.and_eq_true_iff.1 hopening.1).2 c hc
      simp only [Bool.and_eq_true, Bool.not_eq_true'] at this
      exact this.2
    simpa [Tag.hasQuotedName, lowerName, isQuote_toLower] using hquote

theorem head?_markup (tag : String) (attributes : List (String × Option String)) (children : List WrittenNode) :
    (WrittenNode.element tag attributes children).markup.head? = some '<' := by
  simp [WrittenNode.markup, WrittenNode.pieces, Piece.text]

/-- Written markup is read back, if its start tags show their quotes. -/
theorem reread {tag : String} {attributes : List (String × Option String)} {children : List WrittenNode}
    (hsound : (WrittenNode.element tag attributes children).Sound)
    (hquotes : ∀ o ∈ (WrittenNode.element tag attributes children).openings, showsQuotes o.2 = true) :
    ∃ document, parse (WrittenNode.element tag attributes children).markup = .ok document ∧
      shapesOf document = [(WrittenNode.element tag attributes children).shape] := by
  have hhead := head?_markup tag attributes children
  have hshape : ∀ later, (WrittenNode.element tag attributes children).shape.before later =
      (WrittenNode.element tag attributes children).shape :: later := fun later => by
    rw [WrittenNode.shape, Shape.ofElement, Shape.before]
    intro s htext
    cases htext
  generalize WrittenNode.element tag attributes children = n at hsound hquotes hhead hshape ⊢
  have hpieces := sound_pieces n hsound
  obtain ⟨htokens, -⟩ := tokenize_pieces hpieces hhead
  have hstands := standsFor_tokensAt [] n.pieces
  have hkeeps : ∀ call ∈ startCalls n.markup, KeepsValues call := by
    intro call hcall
    have hmem : call.2 ∈ (tokensAt 0 n.pieces).filterMap Token.startTag? := by
      have hcall' := hcall
      rw [startCalls] at hcall'
      have htag := mem_tokens_of_mem_calls hcall'
      rw [WrittenNode.markup, htokens] at htag
      exact List.mem_filterMap.2 ⟨_, htag, by simp [Token.startTag?, closing_of_mem_calls hcall']⟩
    obtain ⟨o, ho, hstand⟩ := exists_of_mem_right hstands hmem
    obtain ⟨raws, hscan, hslash⟩ := startCalls_pieces hpieces hhead hcall hstand
    exact ⟨raws, hscan, by rw [hslash, hquotes o ho]; rfl⟩
  have hcalls : ∀ call ∈ startCallsFrom n.markup (.initial n.markup) (tokensAt 0 n.pieces), KeepsValues call := by
    have : startCalls n.markup = startCallsFrom n.markup (.initial n.markup) (tokensAt 0 n.pieces) := by
      rw [startCalls, WrittenNode.markup, htokens]
    rw [← this]
    exact hkeeps
  obtain ⟨a, hrun, haround, hshown⟩ := adds_node n.markup n hsound (.initial n.markup) 0 hcalls
  -- everything is closed again, and the roots are what was written
  have hclosed : a.flush.opened = [] := by
    have hnone : a.flush.around = none := a.around_flush.trans haround
    cases hopened : a.flush.opened with
    | nil => rfl
    | cons innermost outer => simp [Assembly.around, hopened] at hnone
  have hroots : shapesOf a.flush.roots.reverse = [n.shape] := by
    have hall := (a.shown_flush []).trans ((hshown []).trans (hshape []))
    rw [Assembly.shown, a.pending_flush] at hall
    rw [shapesOf_reverse]
    simpa [Assembly.level, hclosed] using hall
  refine ⟨a.flush.roots.reverse, ?_, hroots⟩
  have hfinish : a.finish n.markup none = .ok a.flush.roots.reverse := by
    simp [Assembly.finish, hclosed]
  have htokens' : tokenize n.markup = ⟨tokensAt 0 n.pieces, none⟩ := htokens
  unfold parse
  dsimp only
  rw [htokens', hrun]
  change (a.finish n.markup none).mapError ReadError.malformed = _
  rw [hfinish]
  rfl

/-! ## Values that are cut -/

mutual

theorem elements_shape : ∀ n : Node,
    n.shape.elements = n.elements.map fun e => .ofElement e.tag e.pairs []
  | .element e children => by
    rw [Node.shape, Shape.ofElement, Shape.elements, elementsIn_shapesOf, Node.elements, List.map_cons,
      Shape.ofElement]
  | .text text position => by rw [Node.shape, Shape.elements, Node.elements, List.map_nil]
  | .comment text position => by rw [Node.shape, Shape.elements, Node.elements, List.map_nil]

theorem elementsIn_shapesOf : ∀ ns : List Node,
    Shape.elementsIn (shapesOf ns) = (elementsOf ns).map fun e => .ofElement e.tag e.pairs []
  | [] => by rw [shapesOf, Shape.elementsIn, elementsOf, List.map_nil]
  | n :: ns => by
    rw [shapesOf, Shape.elementsIn_before, elementsOf, List.map_append, elements_shape, elementsIn_shapesOf]

end

mutual

theorem elements_written : ∀ n : WrittenNode, n.Sound →
    n.shape.elements = n.openings.map fun o => .ofElement o.1 (writtenPairs o.2) []
  | .element tag attributes children, hsound => by
    cases hsound with
    | element opening void empty inside =>
      have hinside := elementsIn_written children inside
      rw [WrittenNode.shape, Shape.ofElement, Shape.elements, hinside, WrittenNode.openings, WrittenNode.pieces]
      have hopen : ∀ ps, (Piece.opening tag attributes :: ps).filterMap Piece.opening? =
          (tag, attributes) :: ps.filterMap Piece.opening? := fun _ => rfl
      rw [hopen, List.map_cons, Shape.ofElement]
      split
      · rename_i hvoid
        rw [empty hvoid, piecesOf]
      · rw [List.filterMap_append, List.filterMap_cons_none rfl, List.filterMap_nil, List.append_nil]
  | .text text, _ => by
    have hnone : ∀ cs : List Char, (cs.map Piece.character).filterMap Piece.opening? = [] := by
      intro cs
      induction cs with
      | nil => rfl
      | cons c cs ih => exact ih
    rw [WrittenNode.shape, Shape.elements, WrittenNode.openings, WrittenNode.pieces, hnone, List.map_nil]
  | .comment text, _ => by
    rw [WrittenNode.shape, Shape.elements, WrittenNode.openings, WrittenNode.pieces]
    rfl

theorem elementsIn_written : ∀ ns : List WrittenNode, (∀ n ∈ ns, n.Sound) →
    Shape.elementsIn (writtenShapes ns) =
      ((piecesOf ns).filterMap Piece.opening?).map fun o => .ofElement o.1 (writtenPairs o.2) []
  | [], _ => by rw [writtenShapes, Shape.elementsIn, piecesOf, List.filterMap_nil, List.map_nil]
  | n :: ns, hsound => by
    rw [writtenShapes, Shape.elementsIn_before, piecesOf, List.filterMap_append, List.map_append,
      elements_written n (hsound n (by simp)), elementsIn_written ns fun m hm => hsound m (by simp [hm])]
    rfl

end

theorem lookup_map_of_mem {α : Type} {key : α → String} (value : α → String) {xs : List α}
    (hnodup : (xs.map key).Nodup) {x : α} (hx : x ∈ xs) : (xs.map fun y => (key y, value y)).lookup (key x) = some (value x) := by
  induction xs with
  | nil => cases hx
  | cons y ys ih =>
    obtain ⟨hnew, hnodup⟩ := List.nodup_cons.1 hnodup
    rcases List.mem_cons.1 hx with rfl | hx
    · simp
    · have hne : key x ≠ key y := fun heq => hnew (heq ▸ List.mem_map_of_mem hx)
      simp [List.lookup_cons, beq_false_of_ne hne, ih hnodup hx]

/-- A value that is cut shows, unless it is a style. -/
theorem any_slashIn_of_shape {ts : List TagAttribute} (hnodup : (ts.map fun t => lowerName t.name).Nodup)
    (hstyle : ∀ t ∈ ts, lowerName t.name = "style" → Assembly.endsInSlash false t.value = false)
    {raws : List RawAttribute} {tag tag' : String} {pairs pairs' : List (String × String)}
    (h : Shape.ofElement tag pairs [] = .ofElement tag' pairs' [])
    (hpairs : pairs.map (fun a => (lowerName a.1, a.2)) = ts.map fun t => (lowerName t.name, valueIn raws t))
    (hpairs' : pairs'.map (fun a => (lowerName a.1, a.2)) = ts.map fun t => (lowerName t.name, t.value)) :
    ts.any (slashIn raws) = false := by
  simp only [Shape.ofElement, hpairs, hpairs', Shape.element.injEq] at h
  obtain ⟨-, hattributes, hclasses, -, -⟩ := h
  refine List.any_eq_false.2 fun t ht hslash => ?_
  have hcut : valueIn raws t = String.ofList t.value.toList.dropLast := by rw [valueIn, if_pos hslash]
  have hends : Assembly.endsInSlash false t.value = true ∧ ∃ front, t.value.toList = front ++ ['}', '/'] := by
    unfold slashIn Assembly.endsInSlash at hslash
    simp only [Bool.and_eq_true] at hslash
    obtain ⟨⟨-, hopens⟩, hsuffix⟩ := hslash
    obtain ⟨front, hfront⟩ := List.isSuffixOf_iff_suffix.1 hsuffix
    exact ⟨by rw [Assembly.endsInSlash, hopens, hsuffix]; rfl, front, hfront.symm⟩
  obtain ⟨hends, front, hvalue⟩ := hends
  have hdrop : t.value.toList.dropLast = front ++ ['}'] := by
    rw [hvalue, show front ++ ['}', '/'] = (front ++ ['}']) ++ ['/'] by simp, List.dropLast_concat]
  by_cases hclass : lowerName t.name = "class"
  · have hlookup := lookup_map_of_mem (valueIn raws) hnodup ht
    have hlookup' := lookup_map_of_mem TagAttribute.value hnodup ht
    rw [hclass] at hlookup hlookup'
    rw [hlookup, hlookup', Option.getD_some, Option.getD_some, hcut, hdrop, ← String.ofList_toList (s := t.value), hvalue,
      show front ++ ['}', '/'] = (front ++ ['}']) ++ ['/'] by simp] at hclasses
    exact words_concat_ne (by decide) hclasses
  · by_cases hstyled : lowerName t.name = "style"
    · rw [hstyle t ht hstyled] at hends
      cases hends
    · rw [List.filter_map, List.filter_map] at hattributes
      have hsame := List.map_inj_left.1 hattributes t (List.mem_filter.2 ⟨ht, by simp [hclass, hstyled]⟩)
      have hlength := congrArg String.toList (Prod.mk.inj hsame).2
      rw [hcut, hdrop, hvalue] at hlength
      simp at hlength

/-- A written start tag that is made into an element of the same shape shows its quotes. -/
theorem StandsFor.showsQuotes {ps : List Piece} {o : String × List (String × Option String)} {t : Tag}
    (h : StandsFor ps o t) (hsound : (Piece.opening o.1 o.2).Sound)
    (hstyle : ∀ a ∈ o.2, lowerName a.1 = "style" → Assembly.endsInSlash false (a.2.getD "") = false)
    {raws : List RawAttribute} (hslash : t.attributes.any (slashIn raws) = !Markup.showsQuotes o.2)
    {source : List Char} {svg : Bool} {start : Cursor}
    (hform : Shape.ofElement (Assembly.elementOf source svg start t raws).tag
      (Assembly.elementOf source svg start t raws).pairs [] = .ofElement o.1 (writtenPairs o.2) []) :
    Markup.showsQuotes o.2 = true := by
  obtain ⟨pos, hattributes⟩ : ∃ pos, t.attributes = attributesAt pos o.2 := by
    obtain ⟨xs, ys, -, htoken⟩ := h
    exact ⟨_, by rw [Token.tag.inj htoken]⟩
  have hnames : t.attributes.map TagAttribute.name = o.2.map fun a => lowerName a.1 := by
    rw [hattributes, map_name_attributesAt]
  have hpairs := (attributes_eq source svg start.offset raws
    (show (t.attributes.map TagAttribute.name).Nodup by rw [hnames]; exact hsound.2.2)).1
  have hlower : (t.attributes.map fun t => lowerName t.name) = o.2.map fun a => lowerName a.1 := by
    have := congrArg (List.map lowerName) hnames
    simpa [Function.comp_def] using this
  have hcut : t.attributes.any (slashIn raws) = false := by
    refine any_slashIn_of_shape (by rw [hlower]; exact hsound.2.2) (fun u hu hname => ?_) hform ?_ ?_
    · rw [hattributes] at hu
      have hpair : (lowerName u.name, u.value) ∈ (writtenPairs o.2).map fun a => (lowerName a.1, a.2) := by
        rw [← map_pairs_attributesAt pos]
        exact List.mem_map_of_mem hu
      obtain ⟨b, hb, heq⟩ := List.mem_map.1 hpair
      obtain ⟨a, ha, rfl⟩ := List.mem_map.1 hb
      obtain ⟨hsame, hvalue⟩ := Prod.mk.inj heq
      rw [← hvalue]
      exact hstyle a ha (hsame.trans hname)
    · rw [← hpairs, Element.pairs, List.map_map]
      rfl
    · rw [hattributes, map_pairs_attributesAt]
  simpa [hcut] using hslash

/-- Written markup is read back with the shape that it was written from exactly if its start tags show their
quotes. -/
theorem reread_iff {tag : String} {attributes : List (String × Option String)} {children : List WrittenNode}
    (hsound : (WrittenNode.element tag attributes children).Sound)
    (hstyle : ∀ o ∈ (WrittenNode.element tag attributes children).openings, ∀ a ∈ o.2, lowerName a.1 = "style" →
      Assembly.endsInSlash false (a.2.getD "") = false) :
    (∃ document, parse (WrittenNode.element tag attributes children).markup = .ok document ∧
      shapesOf document = [(WrittenNode.element tag attributes children).shape]) ↔
      ∀ o ∈ (WrittenNode.element tag attributes children).openings, showsQuotes o.2 = true := by
  refine ⟨?_, reread hsound⟩
  have hhead := head?_markup tag attributes children
  generalize WrittenNode.element tag attributes children = n at hsound hstyle hhead ⊢
  rintro ⟨document, hparse, hshape⟩ o ho
  have hpieces := sound_pieces n hsound
  obtain ⟨hmakes, htags⟩ := parse_elements hparse
  have hstands : List.Forall₂ (fun o call => StandsFor n.pieces o call.2) n.openings (startCalls n.markup) := by
    have hall := standsFor_tokensAt [] n.pieces
    rw [startTags, WrittenNode.markup, (tokenize_pieces hpieces hhead).1] at htags
    rw [← List.forall₂_map_right_iff, WrittenNode.markup, htags]
    exact hall
  have hforms : (elementsOf document).map (fun e => Shape.ofElement e.tag e.pairs []) =
      n.openings.map fun o => .ofElement o.1 (writtenPairs o.2) [] := by
    rw [← elements_written n hsound, ← elementsIn_shapesOf, hshape, Shape.elementsIn, Shape.elementsIn,
      List.append_nil]
  obtain ⟨i, hi, rfl⟩ := List.getElem_of_mem ho
  have hlength := hmakes.length_eq
  have hlength' := hstands.length_eq
  have hstand := hstands.get hi (by omega)
  obtain ⟨raws, hraws, hmade⟩ := hmakes.get (show i < (startCalls n.markup).length by omega) (by omega)
  generalize hcall : (startCalls n.markup).get ⟨i, by omega⟩ = call at hstand hraws hmade
  generalize hdocument : (elementsOf document).get ⟨i, by omega⟩ = e at hmade
  have hmem : call ∈ startCalls n.markup := hcall ▸ List.get_mem _ _
  obtain ⟨raws', hraws', hslash⟩ := startCalls_pieces hpieces hhead hmem hstand
  obtain rfl : raws' = raws := Option.some.inj (hraws'.symm.trans hraws)
  have hform : Shape.ofElement e.tag e.pairs [] = .ofElement n.openings[i].1 (writtenPairs n.openings[i].2) [] := by
    have := congrArg (fun forms => forms[i]?) hforms
    simp only [List.getElem?_map, List.getElem?_eq_getElem hi,
      List.getElem?_eq_getElem (show i < (elementsOf document).length by omega), Option.map_some, Option.some.injEq] at this
    rw [← hdocument]
    exact this
  have hopening : (Piece.opening n.openings[i].1 n.openings[i].2).Sound := by
    obtain ⟨xs, ys, hps, -⟩ := hstand
    exact hpieces _ (by rw [hps]; simp)
  subst hmade
  exact hstand.showsQuotes hopening (hstyle _ (List.getElem_mem hi)) hslash hform

end TemplateCompiler.Markup
