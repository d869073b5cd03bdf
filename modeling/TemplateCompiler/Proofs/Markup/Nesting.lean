import Mathlib.Data.List.Chain
import TemplateCompiler.Proofs.Markup.Reread
import TemplateCompiler.Proofs.Markup.Rules
import TemplateCompiler.Proofs.Markup.Sound
import TemplateCompiler.Proofs.Markup.TokenSteps
/-!
# Tags and trees

The tokens of a source are a stream of tags, texts and comments. A source without faults is read exactly if its tags are
well nested and no start tag would split a character, and its document is the stream: written out tag by tag it is what
has been read, with texts merged where they meet. Each token that is taken continues the stream (`Takes.continued`), and
opens and closes elements as its tag says (`Takes.names`).
-/

namespace TemplateCompiler.Markup

open TemplateCompiler.Text

/-! ## Streams -/

/-- What a source tells about its tree, with the names of tags in small letters. -/
inductive Event where
  /-- A start tag, and whether nothing stands in its element. -/
  | opening (name : String) (closed : Bool)
  | closing (name : String)
  | text (text : String)
  | comment (text : String)
deriving DecidableEq, Repr

/-- Whether an event is a text. -/
def Event.isText : Event → Bool
  | .text _ => true
  | _ => false

/-- An event put before later ones. Text goes together with a text behind it. -/
def Event.before : Event → List Event → List Event
  | .text s, .text t :: later => .text (s ++ t) :: later
  | e, later => e :: later

/-- Some events with their texts merged where they meet. -/
def merged (events : List Event) : List Event :=
  events.foldr Event.before []

theorem Event.text_before_text (s t : String) (later : List Event) :
    (text s).before ((text t).before later) = (text (s ++ t)).before later := by
  cases later with
  | nil => rfl
  | cons e later => cases e <;> simp [before, String.append_assoc]

/-- No two texts of some events meet. -/
def TextsApart (events : List Event) : Prop :=
  events.IsChain fun e e' => ¬ (e.isText = true ∧ e'.isText = true)

theorem textsApart_merged (events : List Event) : TextsApart (merged events) := by
  induction events with
  | nil => exact .nil
  | cons e events ih =>
    rw [merged, List.foldr_cons, ← merged]
    generalize merged events = later at ih
    unfold TextsApart at *
    cases hlater : later with
    | nil => cases e <;> exact .singleton _
    | cons e' later' =>
      rw [hlater] at ih
      cases e with
      | text s =>
        cases e' with
        | text t =>
          cases later' with
          | nil => exact .singleton _
          | cons e'' later'' =>
            rw [List.isChain_cons_cons] at ih
            exact List.isChain_cons_cons.2 ih
        | _ => exact List.isChain_cons_cons.2 ⟨by simp [Event.isText], ih⟩
      | _ => exact List.isChain_cons_cons.2 ⟨by simp [Event.isText], ih⟩

/-! ## Nesting -/

/-- The elements that are open behind an event, the innermost first. -/
def Event.nest (names : List String) : Event → List String
  | .opening name false => name :: names
  | .closing _ => names.tail
  | _ => names

/-- Each end tag is that of the innermost open element, and at the end no element is open, where `names` are those that
are open before. -/
structure NestedIn (names : List String) (events : List Event) : Prop where
  closes : ∀ before name after, events = before ++ .closing name :: after →
    isVoidElement name = false ∧ (before.foldl Event.nest names).head? = some name
  closed : events.foldl Event.nest names = []

/-- The tags of some events are well nested. -/
abbrev WellNested (events : List Event) : Prop :=
  NestedIn [] events

/-- An event may come where the elements `names` are open, the innermost first. -/
def Event.Fits (names : List String) (e : Event) : Prop :=
  ∀ name, e = .closing name → isVoidElement name = false ∧ names.head? = some name

instance (names : List String) (e : Event) : Decidable (e.Fits names) :=
  match e with
  | .closing name => decidable_of_iff (isVoidElement name = false ∧ names.head? = some name) (by simp [Event.Fits])
  | .opening .. => .isTrue nofun
  | .text _ => .isTrue nofun
  | .comment _ => .isTrue nofun

theorem nestedIn_nil {names : List String} : NestedIn names [] ↔ names = [] :=
  ⟨fun h => h.closed, fun h => ⟨by simp, h⟩⟩

theorem nestedIn_cons {names : List String} {e : Event} {events : List Event} :
    NestedIn names (e :: events) ↔ e.Fits names ∧ NestedIn (e.nest names) events := by
  constructor
  case mp =>
    refine fun h => ⟨fun name he => h.closes [] name events (by rw [he]; rfl), ⟨fun before name after heq => ?_, h.closed⟩⟩
    exact h.closes (e :: before) name after (by rw [heq]; rfl)
  case mpr =>
    refine fun ⟨hfits, hlater⟩ => ⟨fun before name after heq => ?_, hlater.closed⟩
    cases before with
    | nil => exact hfits name (List.cons.inj heq).1
    | cons e' before =>
      obtain ⟨rfl, rfl⟩ := List.cons.inj heq
      exact hlater.closes before name after rfl

instance decidableNestedIn (names : List String) : (events : List Event) → Decidable (NestedIn names events)
  | [] => decidable_of_iff _ nestedIn_nil.symm
  | e :: events =>
    have := decidableNestedIn (e.nest names) events
    decidable_of_iff _ nestedIn_cons.symm

/-! ## Events of a source -/

/-- Whether nothing stands in the element of a start tag that is looked for from the cursor on: it is void, or it is
recorded as closing itself, as the slash of the tag may also have run into a value. -/
def Tag.isClosed (cursor : Cursor) (t : Tag) : Bool :=
  let start := cursor.find ("<" ++ t.name)
  isVoidElement t.name || t.selfClosing ||
    (scanTag start start.closeTag t.name.utf8ByteSize).any fun raws => t.attributes.any (slashIn raws)

/-- The event that a token is when it is looked for from the cursor on. Document types are none. -/
def Token.event? (cursor : Cursor) : Token → Option Event
  | .character c => some (.text (String.singleton c))
  | .comment text => some (.comment text)
  | .doctype => none
  | .tag t => some (if t.closing then .closing t.name else .opening t.name (t.isClosed cursor))

/-- The place behind a token that is looked for from the cursor on. -/
def Cursor.behind (cursor : Cursor) : Token → Cursor
  | .character _ => cursor
  | .comment _ => (cursor.find "<!--").closeComment
  | .doctype => (cursor.find "<!").closeTag
  | .tag t => (cursor.find ((if t.closing then "</" else "<") ++ t.name)).closeTag

/-- The events of tokens that are looked for from the cursor on. -/
def eventsFrom (cursor : Cursor) : List Token → List Event
  | [] => []
  | token :: tokens => (token.event? cursor).toList ++ eventsFrom (cursor.behind token) tokens

/-- The events of a source. -/
def events (source : List Char) : List Event :=
  eventsFrom (.start source) (tokenize source).tokens

/-! ## Events of a document -/

/-- Whether nothing stands in an element. -/
def Element.isClosed (e : Element) : Bool :=
  isVoidElement (lowerName e.tag) || e.selfClosing

/-- The start tag of an element. -/
def Element.opening (e : Element) : Event :=
  .opening (lowerName e.tag) e.isClosed

mutual

/-- A node written out tag by tag. -/
def Node.events : Node → List Event
  | .element e children =>
    e.opening :: (eventsOf children ++ if e.isClosed then [] else [.closing (lowerName e.tag)])
  | .text text _ => [.text text]
  | .comment text _ => [.comment text]

/-- Some nodes written out tag by tag. -/
def eventsOf : List Node → List Event
  | [] => []
  | n :: ns => n.events ++ eventsOf ns

end

theorem eventsOf_eq_flatMap (nodes : List Node) : eventsOf nodes = nodes.flatMap Node.events := by
  induction nodes with
  | nil => rw [eventsOf, List.flatMap_nil]
  | cons n ns ih => rw [eventsOf, List.flatMap_cons, ih]

theorem eventsOf_append (xs ys : List Node) : eventsOf (xs ++ ys) = eventsOf xs ++ eventsOf ys := by
  simp [eventsOf_eq_flatMap]

/-! ## Assemblies -/

namespace Assembly

/-- The names of the open elements, the innermost first. -/
def names (a : Assembly) : List String :=
  a.opened.map fun o => lowerName o.element.tag

/-- The open elements and what stands in them so far. -/
def openEvents : List OpenElement → List Event
  | [] => []
  | o :: outer => openEvents outer ++ o.element.opening :: eventsOf o.children.reverse

/-- What is read so far, pending characters aside. -/
def settled (a : Assembly) : List Event :=
  eventsOf a.roots.reverse ++ openEvents a.opened

/-- What is read so far and later events. -/
def continued (a : Assembly) (later : List Event) : List Event :=
  a.settled ++
    match a.pending with
    | some (text, _) => (Event.text text).before later
    | none => later

variable {source : List Char} {a a' : Assembly} {token : Token} {t : Tag}

@[simp] theorem names_attach (a : Assembly) (n : Node) : (a.attach n).names = a.names := by
  unfold attach
  split
  · rename_i innermost outer hopened
    simp [names, hopened]
  · rfl

@[simp] theorem names_flush (a : Assembly) : a.flush.names = a.names := by
  unfold flush
  split
  · rw [names_attach]
    rfl
  · rfl

theorem names_character (source : List Char) (a : Assembly) (c : Char) : (a.character source c).names = a.names := by
  unfold character
  split <;> rfl

theorem settled_attach (a : Assembly) (n : Node) : (a.attach n).settled = a.settled ++ n.events := by
  unfold attach
  split
  · rename_i innermost outer hopened
    simp [settled, hopened, openEvents, eventsOf_append, eventsOf]
  · rename_i hopened
    simp [settled, hopened, openEvents, eventsOf_append, eventsOf]

theorem continued_of_pending {a : Assembly} (h : a.pending = none) (later : List Event) :
    a.continued later = a.settled ++ later := by
  simp [continued, h]

theorem continued_attach {a : Assembly} (h : a.pending = none) (n : Node) (later : List Event) :
    (a.attach n).continued later = a.settled ++ (n.events ++ later) := by
  rw [continued_of_pending ((pending_attach a n).trans h), settled_attach, List.append_assoc]

/-- Pending characters become a text where no text follows. -/
theorem settled_flush (a : Assembly) {later : List Event} (h : ∀ e ∈ later.head?, e.isText = false) :
    a.flush.settled ++ later = a.continued later := by
  unfold flush continued
  rcases hpending : a.pending with _ | ⟨text, position⟩
  case none => rfl
  case some =>
    have hbefore : (Event.text text).before later = .text text :: later := by
      cases later with
      | nil => rfl
      | cons e later =>
        cases e with
        | text s => exact absurd (h _ rfl) (by simp [Event.isText])
        | _ => rfl
    dsimp only
    rw [settled_attach, hbefore, Node.events, List.append_assoc, List.singleton_append]
    rfl

theorem continued_character (source : List Char) (a : Assembly) (c : Char) (later : List Event) :
    (a.character source c).continued later = a.continued ((Event.text (String.singleton c)).before later) := by
  unfold character
  split
  · rename_i text position hpending
    have hpush : text.push c = text ++ String.singleton c := String.ext (by simp)
    simp only [continued, settled, hpending, Event.text_before_text, hpush]
  · rename_i hpending
    simp [continued, settled, hpending]

/-- A start tag is entered as its element says. -/
theorem enter_eq (a : Assembly) {name : String} {e : Element} (hname : lowerName e.tag = name) :
    a.enter name e =
      if e.isClosed then a.attach (.element e []) else { a with opened := ⟨e, []⟩ :: a.opened } := by
  rw [enter, Element.isClosed, hname, Bool.or_comm]

/-- The element of a start tag writes out as the event that the tag is. -/
theorem opening_elementOf (source : List Char) (svg : Bool) {a : Assembly} {raws : List RawAttribute}
    (hsound : (Token.tag t).Sound)
    (hscan : scanTag (a.tagPlace t).1 (a.tagPlace t).2 t.name.utf8ByteSize = some raws) :
    (elementOf source svg (a.tagPlace t).1 t raws).opening = .opening t.name (t.isClosed a.cursor) := by
  obtain ⟨-, hslash⟩ := attributes_eq source svg (a.tagPlace t).1.offset raws hsound.2
  have hscan' : scanTag (a.cursor.find ("<" ++ t.name)) (a.cursor.find ("<" ++ t.name)).closeTag t.name.utf8ByteSize =
      some raws := hscan
  have htag : lowerName (elementOf source svg (a.tagPlace t).1 t raws).tag = t.name := by
    change lowerName (if svg then spelling svgElementNames t.name else t.name) = t.name
    split
    · rw [lowerName_spelling, hsound.1.small]
    · exact hsound.1.small
  rw [Element.opening, Element.isClosed, htag, Tag.isClosed]
  simp only [hscan', Option.any_some, ← hslash, Bool.or_assoc]
  rfl

/-! ## Steps -/

/-- A token that is taken leads to the place behind it. -/
theorem Takes.cursor (h : a.Takes source token a') : a'.cursor = a.cursor.behind token := by
  cases h with
  | character c => exact character_cursor source a c
  | comment text =>
    rw [Assembly.comment, attach_cursor, flush_cursor]
    rfl
  | doctype => rfl
  | opening hstart =>
    rw [enter_cursor]
    simp [tagPlace, Cursor.behind, hstart]
  | closing hstop =>
    rw [attach_cursor]
    simp [Cursor.behind, hstop]

/-- Something may stand in each open element. -/
def OpensElements (a : Assembly) : Prop :=
  ∀ o ∈ a.opened, o.element.isClosed = false

theorem opensElements_attach {n : Node} : (a.attach n).OpensElements ↔ a.OpensElements := by
  unfold attach OpensElements
  split
  · rename_i innermost outer hopened
    simp [hopened]
  · rfl

theorem opensElements_flush : a.flush.OpensElements ↔ a.OpensElements := by
  unfold flush
  split
  · exact opensElements_attach
  · rfl

theorem Takes.opensElements (hopen : a.OpensElements) (hsound : token.Sound) (h : a.Takes source token a') :
    a'.OpensElements := by
  have hflush := opensElements_flush.2 hopen
  cases h with
  | character c =>
    unfold Assembly.character
    split <;> exact hopen
  | comment text => exact opensElements_attach.2 hflush
  | doctype => exact hopen
  | @opening t raws hstart hscan =>
    obtain ⟨hname, -⟩ := Event.opening.inj (opening_elementOf source (t.name == "svg" || a.flush.inSvg) hsound hscan)
    rw [enter_eq _ hname]
    split
    · exact opensElements_attach.2 hflush
    · rename_i hclosed
      exact List.forall_mem_cons.2 ⟨by simpa using hclosed, hflush⟩
  | closing hstop hcontent hopened =>
    refine opensElements_attach.2 fun o ho => hflush o ?_
    rw [hopened]
    exact List.mem_cons_of_mem _ ho

/-- A token that is taken opens and closes elements as its event does, and its event may come there. -/
theorem Takes.names (hsound : token.Sound) (h : a.Takes source token a') :
    (∀ e ∈ token.event? a.cursor, e.Fits a.names) ∧
      a'.names = (token.event? a.cursor).toList.foldl Event.nest a.names := by
  cases h with
  | character c => exact ⟨by simp [Token.event?, Event.Fits], names_character source a c⟩
  | comment text => exact ⟨by simp [Token.event?, Event.Fits], (names_attach _ _).trans a.names_flush⟩
  | doctype => exact ⟨by simp [Token.event?], rfl⟩
  | @opening t raws hstart hscan =>
    have hopening := opening_elementOf source (t.name == "svg" || a.flush.inSvg) hsound hscan
    obtain ⟨hname, hclosed⟩ := Event.opening.inj hopening
    refine ⟨by simp [Token.event?, hstart, Event.Fits], ?_⟩
    rw [enter_eq _ hname, hclosed]
    have hflush : ({ a.flush with cursor := (a.tagPlace t).2 } : Assembly).names = a.names := a.names_flush
    -- A tag that is closed leaves the names as they are, and any other one adds its own.
    cases hclosed' : t.isClosed a.cursor with
    | true =>
      rw [if_pos rfl, names_attach, hflush]
      simp [Token.event?, hstart, hclosed', Event.nest]
    | false =>
      have hopened : a.flush.opened.map (fun o => lowerName o.element.tag) = a.names := hflush
      simp [Token.event?, hstart, hclosed', Event.nest, Assembly.names, hname, hopened]
  | @closing t innermost outer hstop hcontent hopened hsame =>
    have hname : lowerName innermost.element.tag = t.name := by
      rw [← hsound.1.small]
      simpa [sameName] using hsame
    have hnames : a.names = t.name :: outer.map fun o => lowerName o.element.tag := by
      rw [← a.names_flush, Assembly.names, hopened, List.map_cons, hname]
    refine ⟨?_, ?_⟩
    · simp [Token.event?, hstop, Event.Fits, hcontent, hnames]
    · rw [names_attach, hnames]
      simp [Token.event?, hstop, Event.nest, Assembly.names]

/-- A token that is taken is read behind what has been read. -/
theorem Takes.continued (hopen : a.OpensElements) (hsound : token.Sound) (h : a.Takes source token a')
    (later : List Event) :
    a'.continued later = a.continued ((token.event? a.cursor).toList.foldr Event.before later) := by
  cases h with
  | character c => exact continued_character source a c later
  | comment text =>
    rw [Assembly.comment, continued_attach (by exact a.pending_flush), Node.events]
    exact a.settled_flush (by simp [Event.isText])
  | doctype => rfl
  | @opening t raws hstart hscan =>
    have hopening := opening_elementOf source (t.name == "svg" || a.flush.inSvg) hsound hscan
    obtain ⟨hname, -⟩ := Event.opening.inj hopening
    generalize elementOf source (t.name == "svg" || a.flush.inSvg) (a.tagPlace t).1 t raws = e at hopening hname
    have hevent : (Token.event? a.cursor (.tag t)).toList.foldr Event.before later = e.opening :: later := by
      rw [hopening]
      simp [Token.event?, hstart, Event.before]
    rw [hevent, ← a.settled_flush (by simp [Element.opening, Event.isText]), enter_eq _ hname]
    split
    · rename_i hclosed
      rw [continued_attach (by exact a.pending_flush), Node.events, hclosed]
      simp [eventsOf, settled]
    · rw [continued_of_pending (by exact a.pending_flush)]
      simp [settled, openEvents, eventsOf]
  | @closing t innermost outer hstop hcontent hopened hsame =>
    have hname : lowerName innermost.element.tag = t.name := by
      rw [← hsound.1.small]
      simpa [sameName] using hsame
    -- What is open is not closed, so the element is written out with an end tag.
    have hclosed : innermost.element.isClosed = false :=
      opensElements_flush.2 hopen innermost (by rw [hopened]; exact List.mem_cons_self)
    have hevent : (Token.event? a.cursor (.tag t)).toList.foldr Event.before later = .closing t.name :: later := by
      simp [Token.event?, hstop, Event.before]
    rw [hevent, ← a.settled_flush (by simp [Event.isText]), continued_attach (by exact a.pending_flush), Node.events,
      hclosed, hname]
    simp [settled, openEvents, hopened]

/-- A token that is refused for what is open does not come where its event may. -/
theorem exists_not_fits {e : MarkupError} (hsound : token.Sound) (h : a.step source token = .error (.malformed e)) :
    ∃ event ∈ token.event? a.cursor, ¬ event.Fits a.names := by
  cases token with
  | character c => cases h
  | comment text => cases h
  | doctype => cases h
  | tag t =>
    simp only [step] at h
    split at h
    case isTrue hstop =>
      -- If its event could come here, the tag would be that of the innermost open element, which it closes.
      refine ⟨.closing t.name, by simp [Token.event?, hstop], fun hfits => ?_⟩
      obtain ⟨hcontent, hhead⟩ := hfits t.name rfl
      rw [← a.names_flush, Assembly.names, List.head?_map] at hhead
      obtain ⟨innermost, hinnermost, hname⟩ := Option.map_eq_some_iff.1 hhead
      obtain ⟨outer, hopened⟩ := List.head?_eq_some_iff.1 hinnermost
      have hsame : sameName innermost.element.tag t.name = true := by
        simp [sameName, hname, hsound.1.small]
      rw [endTag_eq_ok_iff.2 ⟨hcontent, innermost, outer, hopened, hsame, rfl⟩] at h
      cases h
    case isFalse =>
      unfold startTag at h
      dsimp only at h
      split at h <;> cases h

/-! ## Readings -/

/-- The raw text of the start tag of a call splits no character. -/
def Scans (call : Assembly × Tag) : Prop :=
  (scanTag (call.1.tagPlace call.2).1 (call.1.tagPlace call.2).2 call.2.name.utf8ByteSize).isSome = true

instance : DecidablePred Scans :=
  fun _ => inferInstanceAs (Decidable (_ = _))

/-- A reading that comes to its end. Its events are read behind what has been read, they are well nested exactly if nothing
is left open, and no start tag splits a character. -/
theorem foldlM_eq_ok {tokens : List Token} (hsound : ∀ token ∈ tokens, token.Sound) (hopen : a.OpensElements)
    (h : tokens.foldlM (step source) a = .ok a') :
    (∀ later, a'.continued later = a.continued ((eventsFrom a.cursor tokens).foldr Event.before later)) ∧
      (NestedIn a.names (eventsFrom a.cursor tokens) ↔ a'.names = []) ∧
      ∀ call ∈ startCallsFrom source a tokens, Scans call := by
  induction tokens generalizing a with
  | nil =>
    obtain rfl := Except.ok.inj h
    exact ⟨fun later => rfl, nestedIn_nil, by simp [startCallsFrom]⟩
  | cons token tokens ih =>
    obtain ⟨hhere, hlater⟩ := List.forall_mem_cons.1 hsound
    rw [List.foldlM_cons] at h
    cases hstep : a.step source token with
    | error e =>
      rw [hstep] at h
      cases h
    | ok a₁ =>
      rw [hstep] at h
      have htakes := step_eq_ok_iff.1 hstep
      obtain ⟨hfits, hnames⟩ := htakes.names hhere
      obtain ⟨hcontinued, hnested, hscans⟩ := ih hlater (htakes.opensElements hopen hhere) h
      rw [eventsFrom, ← htakes.cursor]
      -- The token continues what has been read and opens or closes elements, and the rest goes on from there.
      refine ⟨fun later => ?_, ?_, ?_⟩
      · rw [hcontinued, htakes.continued hopen hhere, List.foldr_append]
      · rw [← hnested, hnames]
        cases hevent : token.event? a.cursor with
        | none => rfl
        | some e =>
          rw [Option.toList_some, List.singleton_append, nestedIn_cons]
          exact and_iff_right (hfits e (by rw [hevent]; rfl))
      · intro call hcall
        rcases mem_calls_cons hcall with ⟨tag, rfl, rfl, hclosing⟩ | ⟨a₂, hstep', hcall⟩
        · cases htakes with
          | opening hstart hscan => simp [Scans, hscan]
          | closing hstop => simp [hclosing] at hstop
        · rw [hstep] at hstep'
          obtain rfl := Except.ok.inj hstep'
          exact hscans call hcall

/-- Where a reading ends at a tag that is refused for what is open, the tags are not well nested. -/
theorem not_nestedIn_of_malformed {tokens : List Token} {e : MarkupError} (hsound : ∀ token ∈ tokens, token.Sound)
    (h : tokens.foldlM (step source) a = .error (.malformed e)) :
    ¬ NestedIn a.names (eventsFrom a.cursor tokens) := by
  induction tokens generalizing a with
  | nil => cases h
  | cons token tokens ih =>
    obtain ⟨hhere, hlater⟩ := List.forall_mem_cons.1 hsound
    rw [List.foldlM_cons] at h
    rw [eventsFrom]
    cases hstep : a.step source token with
    | error e' =>
      rw [hstep] at h
      obtain rfl : e' = .malformed e := by injection h
      obtain ⟨event, hevent, hfits⟩ := exists_not_fits hhere hstep
      rw [Option.mem_def.1 hevent, Option.toList_some, List.singleton_append, nestedIn_cons]
      exact fun hnested => hfits hnested.1
    | ok a₁ =>
      rw [hstep] at h
      have htakes := step_eq_ok_iff.1 hstep
      have hrest := ih hlater h
      rw [htakes.cursor, (htakes.names hhere).2] at hrest
      cases hevent : token.event? a.cursor with
      | none =>
        rw [hevent] at hrest
        exact hrest
      | some event =>
        rw [hevent] at hrest
        rw [Option.toList_some, List.singleton_append, nestedIn_cons]
        exact fun hnested => hrest hnested.2

theorem names_eq_nil_iff : a.names = [] ↔ a.flush.opened = [] := by
  rw [← a.names_flush, Assembly.names, List.map_eq_nil_iff]

end Assembly

/-! ## Documents -/

/-- Whether a node is a text. -/
def Node.isText : Node → Bool
  | .text .. => true
  | _ => false

/-- No two of some nodes that are next to each other are texts. -/
def SiblingsApart (nodes : List Node) : Prop :=
  nodes.IsChain fun n m => ¬ (n.isText = true ∧ m.isText = true)

/-- In each element, no two texts are next to each other. -/
def textsApart : Rules where
  element _ children := SiblingsApart children
  character _ := True
  comment _ := True

mutual

theorem obeys_textsApart : ∀ n : Node, TextsApart n.events → n.Obeys textsApart
  | .element _ children, h => by
    rw [Node.events] at h
    exact siblingsApart children h.tail.left_of_append
  | .text .., _ => fun _ _ => trivial
  | .comment .., _ => trivial

/-- Where no texts of a stream meet, no siblings of its tree are two texts that do. -/
theorem siblingsApart : ∀ nodes : List Node, TextsApart (eventsOf nodes) → SiblingsApart nodes ∧ AllObey textsApart nodes
  | [], _ => ⟨.nil, trivial⟩
  | n :: ns, h => by
    rw [eventsOf] at h
    have hn := obeys_textsApart n h.left_of_append
    obtain ⟨hapart, hns⟩ := siblingsApart ns h.right_of_append
    refine ⟨?_, hn, hns⟩
    cases ns with
    | nil => exact .singleton n
    | cons m ms =>
      refine List.isChain_cons_cons.2 ⟨?_, hapart⟩
      rintro ⟨hn, hm⟩
      cases n <;> cases m <;> simp_all [Node.isText, Node.events, eventsOf, TextsApart, Event.isText]

end

section Documents

variable {source : List Char} {document : List Node}

/-- A document is the stream that its source tells, with texts merged where they meet. -/
theorem parse_eventsOf (h : parse source = .ok document) :
    eventsOf document = merged (events source) ∧ WellNested (events source) ∧
      ∀ call ∈ startCalls source, Assembly.Scans call := by
  obtain ⟨-, a, hrun, hopened, rfl⟩ := parse_eq_ok_iff.1 h
  obtain ⟨hcontinued, hnested, hscans⟩ :=
    Assembly.foldlM_eq_ok sound_of_mem_tokenize (by simp [Assembly.OpensElements, Assembly.initial]) hrun
  refine ⟨?_, hnested.2 (Assembly.names_eq_nil_iff.2 hopened), hscans⟩
  -- At the end nothing is open, so all that has been read is settled at the root.
  have hsettled : a.flush.settled ++ [] = (Assembly.initial source).continued ((events source).foldr Event.before []) :=
    (a.settled_flush (by simp)).trans (hcontinued [])
  simpa [Assembly.settled, hopened, Assembly.openEvents, Assembly.continued, Assembly.initial, eventsOf, merged, events]
    using hsettled

/-- What is refused without a fault is not well nested. -/
theorem not_wellNested_of_malformed {e : MarkupError} (hfault : (tokenize source).fault = none)
    (h : parse source = .error (.malformed e)) : ¬ WellNested (events source) := by
  cases hrun : (tokenize source).tokens.foldlM (Assembly.step source) (.initial source) with
  | error e' =>
    obtain rfl : e' = .malformed e := by
      simpa [parse, hrun, bind, Except.bind] using h
    exact Assembly.not_nestedIn_of_malformed sound_of_mem_tokenize hrun
  | ok a =>
    obtain ⟨-, hiff, -⟩ :=
      Assembly.foldlM_eq_ok sound_of_mem_tokenize (by simp [Assembly.OpensElements, Assembly.initial]) hrun
    intro hnested
    have hopened := Assembly.names_eq_nil_iff.1 (hiff.1 hnested)
    rw [parse_eq_ok_iff.2 ⟨hfault, a, hrun, hopened, rfl⟩] at h
    cases h

/-- Where reading a source splits a character, the start tag of a call does. -/
theorem exists_not_scans {offset : Nat} (h : parse source = .error (.splitCharacter offset)) :
    ∃ call ∈ startCalls source, ¬ Assembly.Scans call := by
  cases hrun : (tokenize source).tokens.foldlM (Assembly.step source) (.initial source) with
  | error e =>
    obtain rfl : e = .splitCharacter offset := by
      simpa [parse, hrun, bind, Except.bind] using h
    obtain ⟨call, hcall, hnone⟩ := exists_call_of_split hrun
    exact ⟨call, hcall, by simp [Assembly.Scans, hnone]⟩
  | ok a =>
    simp only [parse, hrun, bind, Except.bind] at h
    cases hfinish : a.finish source (tokenize source).fault <;> simp [hfinish, Except.mapError] at h

end Documents

/-- A source without faults is read as the stream that it tells. -/
structure ReadsStream (source : List Char) : Prop where
  /-- It has a document exactly if its tags are well nested and no start tag splits a character. -/
  read : (∃ document, parse source = .ok document) ↔
    WellNested (events source) ∧ ∀ call ∈ startCalls source, Assembly.Scans call
  /-- It has a document exactly if its tags are well nested, where no tag or document type has a quote in its name. -/
  readUnquoted : (∀ r ∈ readings source, r.isNameQuote = false) →
    ((∃ document, parse source = .ok document) ↔ WellNested (events source))
  refused : ∀ e, parse source = .error (.malformed e) → ¬ WellNested (events source)
  /-- Written out tag by tag, its document is the stream with texts merged where they meet. -/
  tree : ∀ document, parse source = .ok document →
    eventsOf document = merged (events source) ∧ SiblingsApart document ∧ AllObey textsApart document

/-- The document of a source without a fault is its stream of tags, read as a tree. -/
theorem parse_readsStream {source : List Char} (hfault : (tokenize source).fault = none) : ReadsStream source := by
  have hread (hnested : WellNested (events source)) (hsplit : ∀ offset, parse source ≠ .error (.splitCharacter offset)) :
      ∃ document, parse source = .ok document := by
    cases hparse : parse source with
    | ok document => exact ⟨document, rfl⟩
    | error e =>
      cases e with
      | malformed e => exact absurd hnested (not_wellNested_of_malformed hfault hparse)
      | splitCharacter offset => exact absurd hparse (hsplit offset)
  constructor
  case read =>
    refine ⟨fun ⟨document, hparse⟩ => (parse_eventsOf hparse).2, fun ⟨hnested, hscans⟩ => hread hnested ?_⟩
    intro offset hparse
    obtain ⟨call, hcall, hnot⟩ := exists_not_scans hparse
    exact hnot (hscans call hcall)
  case readUnquoted =>
    refine fun hquotes => ⟨fun ⟨document, hparse⟩ => (parse_eventsOf hparse).2.1, fun hnested => hread hnested ?_⟩
    exact parse_ne_split fun call _ r hr _ => hquotes r hr
  case refused => exact fun e => not_wellNested_of_malformed hfault
  case tree =>
    intro document hparse
    have hevents := (parse_eventsOf hparse).1
    exact ⟨hevents, siblingsApart document (hevents ▸ textsApart_merged _)⟩

/-- Texts around a document type are one, and void elements and those that close themselves have no end tags. -/
theorem parse_readsStream_form :
    (tokenize "<p>a<!doctype x>b<br><svg><path/></svg></P>".toList).fault = none ∧
      ReadsStream "<p>a<!doctype x>b<br><svg><path/></svg></P>".toList ∧
      ∃ document, parse "<p>a<!doctype x>b<br><svg><path/></svg></P>".toList = .ok document ∧
        eventsOf document = [.opening "p" false, .text "ab", .opening "br" true, .opening "svg" false,
          .opening "path" true, .closing "svg", .closing "p"] := by
  have hfault : (tokenize "<p>a<!doctype x>b<br><svg><path/></svg></P>".toList).fault = none := by
    decide +kernel
  exact ⟨hfault, parse_readsStream hfault, exists_parse (by decide +kernel)⟩

/-- A source with well-nested tags that has no document, as a quote in the name of a tag leads to a split character. -/
theorem exists_wellNested_unread :
    (tokenize "<p'><b>'>€</b></p'>".toList).fault = none ∧ WellNested (events "<p'><b>'>€</b></p'>".toList) ∧
      ¬ ∃ document, parse "<p'><b>'>€</b></p'>".toList = .ok document := by
  refine ⟨by decide +kernel, by decide +kernel, ?_⟩
  rintro ⟨document, hparse⟩
  have hscans : ¬ ∀ call ∈ startCalls "<p'><b>'>€</b></p'>".toList, Assembly.Scans call := by
    decide +kernel
  exact hscans (parse_eventsOf hparse).2.2

end TemplateCompiler.Markup
