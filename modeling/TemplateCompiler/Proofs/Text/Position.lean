import TemplateCompiler.Text.Bytes
import TemplateCompiler.Text.Position
/-!
# Positions of characters

Every character of a source has a position of its own (`locate_ne`): a position only grows from one character to the
next (`locate_before`).
-/

namespace TemplateCompiler.Text

namespace Position

/-- `p` stands before `q`. -/
def Before (p q : Position) : Prop :=
  p.line < q.line ∨ (p.line = q.line ∧ p.column < q.column)

theorem Before.trans {p q r : Position} (hpq : p.Before q) (hqr : q.Before r) : p.Before r := by
  unfold Before at *
  omega

theorem Before.ne {p q : Position} (h : p.Before q) : p ≠ q := by
  rintro rfl
  unfold Before at h
  omega

theorem before_after (p : Position) (c : Char) : p.Before (p.after c) := by
  unfold Before after
  split <;> simp

/-- The position behind `cs`. -/
def behind (p : Position) (cs : List Char) : Position :=
  cs.foldl after p

theorem advance_append (p : Position) (front back : List Char) (n : Nat) :
    p.advance (front ++ back) (byteLength front + n) = (p.behind front).advance back n := by
  induction front generalizing p with
  | nil => simp [behind]
  | cons c front ih =>
    have hpos := c.utf8Size_pos
    have hrest : c.utf8Size + byteLength front + n - c.utf8Size = byteLength front + n := by omega
    rw [List.cons_append, byteLength_cons, advance, if_neg (by omega), if_neg (by omega), hrest, ih]
    rfl

theorem advance_zero (p : Position) (cs : List Char) : p.advance cs 0 = p := by
  cases cs <;> simp [advance]

theorem before_behind (p : Position) {cs : List Char} (h : cs ≠ []) : p.Before (p.behind cs) := by
  induction cs generalizing p with
  | nil => exact absurd rfl h
  | cons c cs ih =>
    by_cases hcs : cs = []
    · subst hcs
      exact before_after p c
    · exact (before_after p c).trans (ih (p.after c) hcs)

end Position

theorem locate_append (front back : List Char) :
    locate (front ++ back) (byteLength front) = Position.first.behind front := by
  have := Position.advance_append .first front back 0
  simpa [locate, Position.advance_zero] using this

/-- The position of a character stands before that of every later one. -/
theorem locate_before {front middle back : List Char} (h : middle ≠ []) :
    (locate (front ++ (middle ++ back)) (byteLength front)).Before
      (locate (front ++ (middle ++ back)) (byteLength front + byteLength middle)) := by
  have hstart := locate_append front (middle ++ back)
  have hstop := locate_append (front ++ middle) back
  rw [List.append_assoc, byteLength_append] at hstop
  rw [hstart, hstop, Position.behind, Position.behind, List.foldl_append]
  exact Position.before_behind _ h

/-- Different characters have different positions. -/
theorem locate_ne {front middle back : List Char} (h : middle ≠ []) :
    locate (front ++ (middle ++ back)) (byteLength front) ≠
      locate (front ++ (middle ++ back)) (byteLength front + byteLength middle) :=
  (locate_before h).ne

end TemplateCompiler.Text
