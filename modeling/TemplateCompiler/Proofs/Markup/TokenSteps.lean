import TemplateCompiler.Proofs.Markup.Calls
/-!
# What a token does

An assembly takes a token in one of five ways (`Assembly.step_eq_ok_iff`). What holds of all of them holds of a whole
reading, and a document is what is left once all tokens are taken and nothing is open (`parse_eq_ok_iff`).
-/

namespace TemplateCompiler.Markup

open TemplateCompiler.Text

namespace Assembly

/-- The assembly takes a token and becomes another one. -/
inductive Takes (source : List Char) (a : Assembly) : Token → Assembly → Prop where
  | character (c : Char) : Takes source a (.character c) (a.character source c)
  | comment (text : String) : Takes source a (.comment text) (a.flush.comment source text)
  | doctype : Takes source a .doctype { a with cursor := (a.cursor.find "<!").closeTag }
  | opening {t : Tag} {raws : List RawAttribute} (start : t.closing = false)
      (scanned : scanTag (a.tagPlace t).1 (a.tagPlace t).2 t.name.utf8ByteSize = some raws) :
      Takes source a (.tag t) ({ a.flush with cursor := (a.tagPlace t).2 }.enter t.name
        (elementOf source (t.name == "svg" || a.flush.inSvg) (a.tagPlace t).1 t raws))
  | closing {t : Tag} {innermost : OpenElement} {outer : List OpenElement} (stop : t.closing = true)
      (content : isVoidElement t.name = false) (opened : a.flush.opened = innermost :: outer)
      (name : sameName innermost.element.tag t.name = true) :
      Takes source a (.tag t)
        ({ a.flush with cursor := (a.cursor.find ("</" ++ t.name)).closeTag, opened := outer }.attach
          (.element innermost.element innermost.children.reverse))

variable {source : List Char} {a a' : Assembly} {token : Token} {t : Tag}

@[simp] theorem tagPlace_flush (a : Assembly) (t : Tag) : a.flush.tagPlace t = a.tagPlace t := by
  rw [tagPlace, tagPlace, flush_cursor]

/-- A start tag is taken unless its raw text would split a character. -/
theorem startTag_eq_ok_iff :
    a.flush.startTag source t = .ok a' ↔
      ∃ raws, scanTag (a.tagPlace t).1 (a.tagPlace t).2 t.name.utf8ByteSize = some raws ∧
        a' = { a.flush with cursor := (a.tagPlace t).2 }.enter t.name
          (elementOf source (t.name == "svg" || a.flush.inSvg) (a.tagPlace t).1 t raws) := by
  unfold startTag
  simp only [tagPlace_flush]
  cases scanTag (a.tagPlace t).1 (a.tagPlace t).2 t.name.utf8ByteSize with
  | none => simp
  | some raws => simp [@eq_comm _ a']

/-- An end tag is taken if it is that of the innermost open element. -/
theorem endTag_eq_ok_iff :
    a.flush.endTag source t = .ok a' ↔ isVoidElement t.name = false ∧ ∃ innermost outer,
      a.flush.opened = innermost :: outer ∧ sameName innermost.element.tag t.name = true ∧
        a' = { a.flush with cursor := (a.cursor.find ("</" ++ t.name)).closeTag, opened := outer }.attach
          (.element innermost.element innermost.children.reverse) := by
  unfold endTag
  simp only [flush_cursor]
  cases isVoidElement t.name with
  | true => simp
  | false =>
    cases hopened : a.flush.opened with
    | nil => simp
    | cons innermost outer =>
      by_cases hname : sameName innermost.element.tag t.name = true
      · simp [hname, @eq_comm _ a']
      · simp only [Bool.false_eq_true, if_false, hname]
        split <;> simp [hname]

theorem step_eq_ok_iff : a.step source token = .ok a' ↔ a.Takes source token a' := by
  constructor
  case mp =>
    intro h
    cases token with
    | character c =>
      obtain rfl := Except.ok.inj h
      exact .character c
    | comment text =>
      obtain rfl := Except.ok.inj h
      exact .comment text
    | doctype =>
      obtain rfl := Except.ok.inj h
      exact .doctype
    | tag t =>
      simp only [step] at h
      split at h
      · rename_i hclosing
        cases hend : a.flush.endTag source t with
        | error e =>
          rw [hend] at h
          cases h
        | ok a₁ =>
          rw [hend] at h
          obtain rfl : a₁ = a' := Except.ok.inj h
          obtain ⟨hcontent, innermost, outer, hopened, hname, rfl⟩ := endTag_eq_ok_iff.1 hend
          exact .closing hclosing hcontent hopened hname
      · rename_i hclosing
        obtain ⟨raws, hraws, rfl⟩ := startTag_eq_ok_iff.1 h
        exact .opening (by simpa using hclosing) hraws
  case mpr =>
    intro h
    cases h with
    | character c => rfl
    | comment text => rfl
    | doctype => rfl
    | opening hstart hscanned =>
      simp only [step, hstart, Bool.false_eq_true, if_false]
      exact startTag_eq_ok_iff.2 ⟨_, hscanned, rfl⟩
    | closing hstop hcontent hopened hname =>
      simp only [step, hstop, if_true, endTag_eq_ok_iff.2 ⟨hcontent, _, _, hopened, hname, rfl⟩]
      rfl

/-- What the taking of each token keeps, a reading keeps. -/
theorem foldlM_keeps {tokens : List Token} {P : Assembly → Prop}
    (hstep : ∀ token ∈ tokens, ∀ a a', P a → a.Takes source token a' → P a') (h : P a)
    (hrun : tokens.foldlM (step source) a = .ok a') : P a' := by
  induction tokens generalizing a with
  | nil =>
    obtain rfl := Except.ok.inj hrun
    exact h
  | cons token tokens ih =>
    obtain ⟨hhere, hlater⟩ := List.forall_mem_cons.1 hstep
    rw [List.foldlM_cons] at hrun
    cases htoken : a.step source token with
    | error e =>
      rw [htoken] at hrun
      cases hrun
    | ok a₁ =>
      rw [htoken] at hrun
      exact ih hlater (hhere _ _ h (step_eq_ok_iff.1 htoken)) hrun

end Assembly

/-- A source has a document if its tokens are taken, without a fault, and nothing is left open. -/
theorem parse_eq_ok_iff {source : List Char} {document : List Node} :
    parse source = .ok document ↔ (tokenize source).fault = none ∧
      ∃ a, (tokenize source).tokens.foldlM (Assembly.step source) (.initial source) = .ok a ∧
        a.flush.opened = [] ∧ document = a.flush.roots.reverse := by
  unfold parse
  cases hrun : (tokenize source).tokens.foldlM (Assembly.step source) (.initial source) with
  | error e => simp [hrun, bind, Except.bind]
  | ok a =>
    simp only [hrun, bind, Except.bind, Assembly.finish]
    cases (tokenize source).fault with
    | some fault => simp [Except.mapError]
    | none =>
      cases hopened : a.flush.opened with
      | nil => simp [Except.mapError, hopened, @eq_comm _ document]
      | cons innermost outer => simp [Except.mapError, hopened]

end TemplateCompiler.Markup
