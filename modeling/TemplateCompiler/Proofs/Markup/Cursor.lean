import TemplateCompiler.Markup.RawTag
import TemplateCompiler.Proofs.Text.LowerCase
/-!
# Finding tags again

What a cursor finds, said of a source that is cut into the text before a tag, the tag, and what follows. Text has no
opening bracket in it, so that the first tag behind the cursor is the next one that is written (`Cursor.find_append`).
A tag ends where it seems to if its quotes are paired (`Passes`), and a comment ends at the first three characters that
close one.
-/

namespace TemplateCompiler.Markup

open TemplateCompiler.Text

/-! ## Cuts at characters -/

theorem byteLength_pos {cs : List Char} (h : cs ≠ []) : 1 ≤ byteLength cs := by
  cases cs with
  | nil => exact absurd rfl h
  | cons c cs =>
    have := c.utf8Size_pos
    simp only [byteLength_cons]
    omega

theorem splitBytes?_append {n : Nat} {front back : List Char} (h : n = byteLength front) :
    splitBytes? n (front ++ back) = some (front, back) := by
  subst h
  exact splitBytes?_byteLength front back

/-- Pieces of one text that take as many bytes are the same piece. -/
theorem append_inj_byteLength {xs ys xs' ys' : List Char} (h : xs ++ ys = xs' ++ ys')
    (hlength : byteLength xs = byteLength xs') : xs = xs' ∧ ys = ys' := by
  have hleft := splitBytes?_byteLength xs ys
  rw [h, hlength, splitBytes?_byteLength] at hleft
  exact ⟨(Prod.mk.inj (Option.some.inj hleft)).1.symm, (Prod.mk.inj (Option.some.inj hleft)).2.symm⟩

theorem slice?_append (front middle back : List Char) {start stop : Nat} (hstart : start = byteLength front)
    (hstop : stop = byteLength front + byteLength middle) :
    slice? (front ++ (middle ++ back)) start stop = some middle := by
  have hback : splitBytes? (stop - start) (middle ++ back) = some (middle, back) :=
    splitBytes?_append (by omega)
  simp [slice?, dropBytes?, splitBytes?_append hstart, hback]

namespace Cursor

/-! ## Finding -/

theorem isPrefixOf_take_map {needle written : List Char} (h : written.map Char.toLower = needle) (rest : List Char) :
    needle.isPrefixOf (((written ++ rest).take needle.length).map Char.toLower) = true := by
  have hlen : needle.length = written.length := by rw [← h, List.length_map]
  rw [hlen, List.take_left, h]
  simp

theorem findFrom?_append {needle written rest : List Char} (hneedle : needle.head? = some '<')
    (h : written.map Char.toLower = needle) (text : List Char) (htext : '<' ∉ text) (offset : Nat) :
    findFrom? needle offset (text ++ (written ++ rest)) = some ⟨offset + byteLength text, written ++ rest⟩ := by
  induction text generalizing offset with
  | nil =>
    cases written with
    | nil => simp [← h] at hneedle
    | cons c cs =>
      have hp := isPrefixOf_take_map h rest
      rw [List.cons_append] at hp ⊢
      unfold findFrom?
      simp only [List.nil_append, byteLength_nil, Nat.add_zero]
      rw [if_pos hp]
  | cons c cs ih =>
    simp only [List.mem_cons, not_or] at htext
    have hc : c.toLower ≠ '<' := fun hl =>
      htext.1 ((toLower_eq_iff (.inl (by decide)) (.inl (by decide))).1 hl).symm
    have hp : needle.isPrefixOf (((c :: (cs ++ (written ++ rest))).take needle.length).map Char.toLower) = false := by
      cases needle with
      | nil => cases hneedle
      | cons d needle =>
        obtain rfl : d = '<' := by simpa using hneedle
        simp [List.isPrefixOf, Ne.symm hc]
    rw [List.cons_append]
    unfold findFrom?
    rw [if_neg (by rw [hp]; decide), ih htext.2]
    simp [Nat.add_assoc]

/-- What is written behind a text without brackets is found there. -/
theorem find_append {needle : String} {written text : List Char} (hneedle : needle.toList.head? = some '<')
    (h : written.map Char.toLower = needle.toList) (htext : '<' ∉ text) (rest : List Char) (offset : Nat) :
    find ⟨offset, text ++ (written ++ rest)⟩ needle = ⟨offset + byteLength text, written ++ rest⟩ := by
  simp [find, findFrom?_append hneedle h text htext]

/-! ## Ends of tags -/

/-- Looking for the end of a tag goes on behind `cs`, where a quote is open before it (`quote`) or behind it
(`quote'`). -/
def Passes (quote : Option Char) (cs : List Char) (quote' : Option Char) : Prop :=
  ∀ offset rest, closeTagFrom quote offset (cs ++ rest) = closeTagFrom quote' (offset + byteLength cs) rest

theorem Passes.nil (quote : Option Char) : Passes quote [] quote :=
  fun _ _ => rfl

theorem Passes.append {q q' q'' : Option Char} {xs ys : List Char} (hx : Passes q xs q') (hy : Passes q' ys q'') :
    Passes q (xs ++ ys) q'' := by
  intro offset rest
  rw [List.append_assoc, hx, hy, byteLength_append, Nat.add_assoc]

theorem passes_outside {c : Char} (h : c ≠ '"' ∧ c ≠ '\'' ∧ c ≠ '>') : Passes none [c] none := by
  intro offset rest
  simp [closeTagFrom, h.1, h.2.1, h.2.2]

theorem passes_inside {q c : Char} (h : c ≠ q) : Passes (some q) [c] (some q) := by
  intro offset rest
  simp [closeTagFrom, h]

theorem passes_open {q : Char} (h : q = '"' ∨ q = '\'') : Passes none [q] (some q) := by
  intro offset rest
  rcases h with rfl | rfl <;> simp [closeTagFrom]

theorem passes_close (q : Char) : Passes (some q) [q] none := by
  intro offset rest
  simp [closeTagFrom]

theorem passes_all {quote : Option Char} {cs : List Char} (h : ∀ c ∈ cs, Passes quote [c] quote) :
    Passes quote cs quote := by
  induction cs with
  | nil => exact .nil quote
  | cons c cs ih =>
    exact (h c (by simp)).append (ih fun d hd => h d (by simp [hd]))

/-- A tag whose quotes are paired ends at its closing bracket. -/
theorem closeTag_append {tag rest : List Char} (h : Passes none tag none) (offset : Nat) :
    closeTag ⟨offset, tag ++ '>' :: rest⟩ = ⟨offset + byteLength tag + 1, rest⟩ := by
  unfold closeTag
  rw [h]
  simp [closeTagFrom, show '>'.utf8Size = 1 from rfl]

/-- Whatever tag stands at a cursor, its end is a place in the text. -/
theorem closeTagFrom_place (quote : Option Char) (offset : Nat) (cs : List Char) :
    ∃ front, cs = front ++ (closeTagFrom quote offset cs).rest ∧
      (closeTagFrom quote offset cs).offset = offset + byteLength front := by
  induction cs generalizing quote offset with
  | nil => exact ⟨[], rfl, rfl⟩
  | cons c cs ih =>
    have hnext : ∀ quote', ∃ front, c :: cs = front ++ (closeTagFrom quote' (offset + c.utf8Size) cs).rest ∧
        (closeTagFrom quote' (offset + c.utf8Size) cs).offset = offset + byteLength front := by
      intro quote'
      obtain ⟨front, hcs, hoff⟩ := ih quote' (offset + c.utf8Size)
      exact ⟨c :: front, by rw [List.cons_append, ← hcs], by rw [hoff, byteLength_cons, Nat.add_assoc]⟩
    unfold closeTagFrom
    cases quote with
    | some q => exact hnext _
    | none =>
      dsimp only
      split
      · exact hnext _
      · split
        · exact ⟨[c], rfl, rfl⟩
        · exact hnext _

/-! ## Ends of comments -/

theorem closeCommentFrom_append {text : List Char}
    (h : ∀ front back, text ++ ['-', '-'] ≠ front ++ '-' :: '-' :: '>' :: back) (rest : List Char) (offset : Nat) :
    closeCommentFrom offset (text ++ '-' :: '-' :: '>' :: rest) = ⟨offset + byteLength text + 3, rest⟩ := by
  induction text generalizing offset with
  | nil => simp [closeCommentFrom]
  | cons c cs ih =>
    have hcs := ih (fun front back heq => h (c :: front) back (by simp [heq])) (offset + c.utf8Size)
    rw [List.cons_append]
    unfold closeCommentFrom
    split
    · rename_i heq
      cases heq
    · rename_i heq
      rcases cs with _ | ⟨d, _ | ⟨e, cs⟩⟩
      · simp at heq
      · simp at heq
      · simp only [List.cons_append, List.cons.injEq] at heq
        obtain ⟨rfl, rfl, rfl, -⟩ := heq
        exact absurd rfl (h [] (cs ++ ['-', '-']))
    · rename_i heq
      obtain ⟨rfl, rfl⟩ := List.cons.inj heq
      rw [hcs]
      simp [Nat.add_assoc]

end Cursor

end TemplateCompiler.Markup
