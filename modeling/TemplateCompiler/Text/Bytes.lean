/-!
# Byte offsets

Text is scanned as a list of characters, while positions in it are offsets into its UTF-8 form. A cut
at an offset exists only where a character ends (`splitBytes?`).
-/

namespace TemplateCompiler.Text

/-- The number of bytes that `cs` takes in UTF-8. -/
def byteLength : List Char → Nat
  | [] => 0
  | c :: cs => c.utf8Size + byteLength cs

@[simp] theorem byteLength_nil : byteLength [] = 0 := rfl

@[simp] theorem byteLength_cons (c : Char) (cs : List Char) :
    byteLength (c :: cs) = c.utf8Size + byteLength cs := rfl

@[simp] theorem byteLength_append (xs ys : List Char) :
    byteLength (xs ++ ys) = byteLength xs + byteLength ys := by
  induction xs with
  | nil => simp
  | cons c cs ih => simp [ih, Nat.add_assoc]

/-- The first `n` bytes of `cs` and what follows them, if a character ends there. -/
def splitBytes? : Nat → List Char → Option (List Char × List Char)
  | 0, cs => some ([], cs)
  | _ + 1, [] => none
  | n + 1, c :: cs =>
    if c.utf8Size ≤ n + 1 then
      (splitBytes? (n + 1 - c.utf8Size) cs).map fun (front, back) => (c :: front, back)
    else none

/-- What follows the first `n` bytes of `cs`, if a character ends there. -/
def dropBytes? (n : Nat) (cs : List Char) : Option (List Char) :=
  (splitBytes? n cs).map (·.2)

/-- The bytes of `cs` from `start` to `stop`, if characters end at both. -/
def slice? (cs : List Char) (start stop : Nat) : Option (List Char) := do
  let back ← dropBytes? start cs
  let (front, _) ← splitBytes? (stop - start) back
  return front

theorem splitBytes?_eq_some {n : Nat} {cs front back : List Char}
    (h : splitBytes? n cs = some (front, back)) : cs = front ++ back ∧ byteLength front = n := by
  fun_induction splitBytes? n cs generalizing front back with
  | case1 cs => simp_all
  | case2 => simp at h
  | case3 n c cs hc ih =>
    obtain ⟨⟨f, b⟩, hf, he⟩ := Option.map_eq_some_iff.1 h
    simp only [Prod.mk.injEq] at he
    obtain ⟨rfl, rfl⟩ := he
    obtain ⟨rfl, hl⟩ := ih hf
    simp [hl]
    omega
  | case4 => simp at h

theorem splitBytes?_byteLength (front back : List Char) :
    splitBytes? (byteLength front) (front ++ back) = some (front, back) := by
  induction front with
  | nil => simp [splitBytes?]
  | cons c cs ih =>
    have hc := c.utf8Size_pos
    obtain ⟨k, hk⟩ : ∃ k, byteLength (c :: cs) = k + 1 := ⟨c.utf8Size + byteLength cs - 1, by simp; omega⟩
    have hr : k + 1 - c.utf8Size = byteLength cs := by simp at hk; omega
    have hle : c.utf8Size ≤ k + 1 := by simp at hk; omega
    rw [hk, List.cons_append]
    simp [splitBytes?, hle, hr, ih]

end TemplateCompiler.Text
